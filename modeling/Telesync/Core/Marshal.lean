import Telesync.Core.Dump
set_option autoImplicit false

/-!
# `marshal`: the wire encoding and when it raises

Source: `py/telesync/core.py`, `marshal` (lines 628-635), which is
`json.dumps(d, allow_nan=False, separators=(',', ':'))`.

THE ENCODER.  `encode` follows the C encoder of `json` that `dumps` uses with these
arguments: `None`, `True`, `False`, `str`, `int`, `float`, list or tuple, dict, and
a `TypeError` for anything else.  Strings are written with the default
`ensure_ascii=True`.  A non-finite float, as a value or as a key, is a
`ValueError`; a key that is not `str`, `int`, `float`, `bool` or `None` is a
`TypeError`.  The first failure met, left to right and depth first, is the one
raised.

WHAT IS PROVED.  `encode_ok_iff` characterises the values `marshal` accepts by the
structural predicate `PyVal.encodable`; `Telesync.Protocol.Run` uses it to decide when
`_diff` can raise.

LEFT OUT.  The `ValueError` that Python 3.11 and later raise when writing an `int` of
more than 4300 digits (`sys.get_int_max_str_digits()`).
-/

namespace Telesync

/-! ## Strings -/

/-- A lower-case hexadecimal digit. -/
def hexDigit (n : Nat) : Char :=
  if n < 10 then Char.ofNat (48 + n) else Char.ofNat (87 + n)

/-- `\uXXXX` for one UTF-16 code unit. -/
def uEscape (n : Nat) : String :=
  "\\u" ++ String.mk [hexDigit (n / 4096 % 16), hexDigit (n / 256 % 16),
    hexDigit (n / 16 % 16), hexDigit (n % 16)]

/-- How `ascii_escape_unichar` writes one character: printable ASCII other than
the backslash and the double quote as itself, the usual short escapes, and the
rest as `\u` escapes (a surrogate pair above the BMP). -/
def escapeChar (c : Char) : String :=
  let n := c.toNat
  if n = 0x5c then "\\\\"
  else if n = 0x22 then "\\\x22"
  else if 0x20 ≤ n ∧ n ≤ 0x7e then c.toString
  else if n = 0x08 then "\\b"
  else if n = 0x0c then "\\f"
  else if n = 0x0a then "\\n"
  else if n = 0x0d then "\\r"
  else if n = 0x09 then "\\t"
  else if n < 0x10000 then uEscape n
  else uEscape (0xd800 + (n - 0x10000) / 0x400) ++ uEscape (0xdc00 + (n - 0x10000) % 0x400)

/-- A JSON string literal. -/
def encodeStr (s : String) : String :=
  "\x22" ++ String.join (s.data.map escapeChar) ++ "\x22"

/-! ## Values -/

/-- The `repr` of a float that is not finite. -/
def nonFinite : List String := ["nan", "inf", "-inf"]

/-- A float as `json` writes it: its `repr`, unless it is not finite. -/
def encodeFloat (r : String) : Except PyErr String :=
  if r ∈ nonFinite then throw (.valueError "Out of range float values are not JSON compliant")
  else pure r

/-- A dict key as `json` writes it, before quoting. -/
def encodeKey : PyKey → Except PyErr String
  | .str s => pure s
  | .float r => encodeFloat r
  | .bool b => pure (if b then "true" else "false")
  | .none => pure "null"
  | .int i => pure (toString i)
  | .other cls _ => throw (.typeError s!"keys must be str, int, float, bool or None, not {cls}")

/-- `JSONEncoder.default`: the error for an object `json` cannot write. -/
def notSerializable (cls : String) : PyErr :=
  .typeError s!"Object of type {cls} is not JSON serializable"

/-- `json.dumps(x, allow_nan=False, separators=(',', ':'))`. -/
def encode : PyVal → Except PyErr String
  | .none => pure "null"
  | .bool b => pure (if b then "true" else "false")
  | .int i => pure (toString i)
  | .float r => encodeFloat r
  | .str s => pure (encodeStr s)
  | .list xs => do pure ("[" ++ ",".intercalate (← encodeList xs) ++ "]")
  | .tuple xs => do pure ("[" ++ ",".intercalate (← encodeList xs) ++ "]")
  | .dict d => do pure ("\x7b" ++ ",".intercalate (← encodeDict d) ++ "\x7d")
  | .data .. => throw (notSerializable "Data")
  | .dumps cls .. | .dumpRaises cls .. | .object cls _ => throw (notSerializable cls)
where
  /-- the items of an array -/
  encodeList : List PyVal → Except PyErr (List String)
    | [] => pure []
    | x :: xs => do
      let s ← encode x
      let ss ← encodeList xs
      pure (s :: ss)
  /-- the `"key":value` members of an object -/
  encodeDict : Dict → Except PyErr (List String)
    | [] => pure []
    | (k, v) :: d => do
      let ks ← encodeKey k
      let vs ← encode v
      let ss ← encodeDict d
      pure ((encodeStr ks ++ ":" ++ vs) :: ss)

/-- `marshal` (lines 628-635). -/
def marshal (d : PyVal) : Except PyErr String := encode d

example : marshal (.dict [(.str "d", .list [.dict [(.str "k", .str "c field"), (.str "v", .int 5)]])]) =
    .ok "\x7b\x22d\x22:[\x7b\x22k\x22:\x22c field\x22,\x22v\x22:5\x7d]\x7d" := rfl

/-- `sep.join(ws)` as characters: the first piece, then the separator before each
other piece. -/
theorem intercalate_go_data (acc sep : String) (ws : List String) :
    (String.intercalate.go acc sep ws).data = acc.data ++ (ws.map fun x => sep.data ++ x.data).flatten := by
  induction ws generalizing acc with
  | nil => simp [String.intercalate.go]
  | cons x ws ih => simp [String.intercalate.go, ih]

/-! ## What `marshal` accepts -/

/-- A key `json` can write. -/
def PyKey.encodable : PyKey → Bool
  | .float r => r ∉ nonFinite
  | .other .. => false
  | _ => true

/-- A value `json` can write: built from `None`, `bool`, `int`, finite floats,
`str`, lists, tuples and dicts whose keys are encodable. -/
def PyVal.encodable : PyVal → Bool
  | .none | .bool _ | .int _ | .str _ => true
  | .float r => r ∉ nonFinite
  | .list xs | .tuple xs => encodableList xs
  | .dict d => encodableDict d
  | _ => false
where
  /-- every item is encodable -/
  encodableList : List PyVal → Bool
    | [] => true
    | x :: xs => x.encodable && encodableList xs
  /-- every key and value is encodable -/
  encodableDict : Dict → Bool
    | [] => true
    | (k, v) :: d => k.encodable && v.encodable && encodableDict d

theorem encodeFloat_ok_iff (r : String) : (∃ s, encodeFloat r = .ok s) ↔ r ∉ nonFinite := by
  unfold encodeFloat
  split <;> simp_all

theorem encodeKey_ok_iff (k : PyKey) : (∃ s, encodeKey k = .ok s) ↔ k.encodable = true := by
  cases k <;> simp [encodeKey, PyKey.encodable, encodeFloat_ok_iff]

theorem exists_bind_eq_ok {α β : Type} {x : Except PyErr α} {g : α → Except PyErr β} :
    (∃ b, (x >>= g) = .ok b) ↔ ∃ a, x = .ok a ∧ ∃ b, g a = .ok b := by
  cases x <;> simp

mutual

/-- `marshal` raises exactly on the values that are not `encodable`. -/
theorem encode_ok_iff : ∀ v : PyVal, (∃ s, encode v = .ok s) ↔ v.encodable = true
  | .none | .bool _ | .int _ | .str _ => iff_of_true ⟨_, rfl⟩ rfl
  | .float r => (encodeFloat_ok_iff r).trans decide_eq_true_iff.symm
  | .list xs | .tuple xs => by
    simp only [encode, PyVal.encodable, exists_bind_eq_ok, except_pure, Except.ok.injEq, exists_eq',
      and_true, encodeList_ok_iff xs]
  | .dict d => by
    simp only [encode, PyVal.encodable, exists_bind_eq_ok, except_pure, Except.ok.injEq, exists_eq',
      and_true, encodeDict_ok_iff d]
  | .data .. | .dumps .. | .dumpRaises .. | .object .. => iff_of_false (by rintro ⟨_, ⟨⟩⟩) Bool.false_ne_true

theorem encodeList_ok_iff : ∀ xs : List PyVal,
    (∃ ss, encode.encodeList xs = .ok ss) ↔ PyVal.encodable.encodableList xs = true
  | [] => iff_of_true ⟨_, rfl⟩ rfl
  | x :: xs => by
    simp only [encode.encodeList, PyVal.encodable.encodableList, Bool.and_eq_true, exists_bind_eq_ok,
      except_pure, Except.ok.injEq, exists_eq', and_true, exists_and_right, encode_ok_iff x, encodeList_ok_iff xs]

theorem encodeDict_ok_iff : ∀ d : Dict,
    (∃ ss, encode.encodeDict d = .ok ss) ↔ PyVal.encodable.encodableDict d = true
  | [] => iff_of_true ⟨_, rfl⟩ rfl
  | (k, v) :: d => by
    simp only [encode.encodeDict, PyVal.encodable.encodableDict, Bool.and_eq_true, exists_bind_eq_ok,
      except_pure, Except.ok.injEq, exists_eq', and_true, exists_and_right, encodeKey_ok_iff k,
      encode_ok_iff v, encodeDict_ok_iff d, and_assoc]

end

end Telesync
