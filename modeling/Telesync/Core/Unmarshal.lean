import Telesync.Core.Marshal
set_option autoImplicit false

/-!
# `unmarshal`: reading the wire encoding back

Source: `py/telesync/core.py`, `unmarshal` (lines 638-645), which is `json.loads(s)`.

THE DECODER.  On a `str`, `json.loads` refuses a leading byte-order mark and hands
the text to `JSONDecoder.decode`, which skips whitespace, runs the C scanner of
`_json` (`scan_once_unicode` with `scanstring_unicode`, `_match_number_unicode`,
`_parse_array_unicode` and `_parse_object_unicode`), skips whitespace again and
raises "Extra data" if text is left.  The scanner's `StopIteration` becomes
"Expecting value" at the same position in `raw_decode`, and nothing between the two
catches it, so the model raises that error where the scanner stops.  Every error is
a `JSONDecodeError` whose message names the line, column and index of its position.

THE SCANNER'S OUTPUT.  `JsonVal` is what the scanner reads before the Python
objects are built: its strings are lists of code points, since a `str` may hold a
lone surrogate (`"\ud800"`), and an object is its members in order.
`JsonVal.toPyVal` builds the objects: a `dict` by `d[k] = v` member after member,
so a repeated key keeps its first position and takes its last value.  A lone
surrogate has no `PyVal.str`: `unmarshal` returns `none` for such a text.

WHAT IS ABSTRACTED.  A float is its `repr` (see `Telesync.Core.Value`), and
`floatRepr t` stands for `repr(float(t))` of a number token `t`; `NaN`, `Infinity`
and `-Infinity` are the floats `nan`, `inf` and `-inf`.  A position is kept as the
number of characters from it to the end of the text.  The scanner is given fuel,
more than twice the text's length.

WHAT IS PROVED.  The literal scanner reads one of its six words (`matchConstant_sound`).
Every scan that returns leaves less text than it was given, and
the fuel `unmarshal` gives never runs out (`scan_progress`): `unmarshal` returns
`none` exactly when the text is read without error and the value holds a lone
surrogate (`unmarshal_eq_none_iff`).

LEFT OUT.  The `RecursionError` of a text nested deeper than the interpreter's
recursion limit, the `ValueError` that Python 3.11 and later raise for an integer
of more than 4300 digits (`sys.get_int_max_str_digits()`), and the memo of object
keys, which does not change the value.
-/

namespace Telesync

/-! ## The scanner's output -/

/-- A JSON term as the scanner reads it. -/
inductive JsonVal where
  | null
  | bool (b : Bool)
  | int (i : Int)
  | float (repr : String)
  /-- a string, as its code points -/
  | str (cps : List Nat)
  | arr (xs : List JsonVal)
  /-- an object, as its members in order -/
  | obj (members : List (List Nat × JsonVal))
  deriving Inhabited

/-- Why the scanner stopped. -/
inductive DecodeFail where
  /-- `JSONDecodeError(msg, doc, pos)`, `left` being the characters from `pos` to the end -/
  | error (msg : String) (left : Nat)
  /-- the fuel ran out, which the fuel `unmarshal` gives never does -/
  | outOfFuel
  deriving DecidableEq, Repr

/-- Fail with `msg` at the position where `rest` begins. -/
def failAt {α : Type} (msg : String) (rest : List Char) : Except DecodeFail α :=
  .error (.error msg rest.length)

/-! ## Whitespace, literals and numbers -/

/-- `IS_WHITESPACE` of `_json.c`, the class `[ \t\n\r]` of `json.decoder`. -/
def isWhitespace (c : Char) : Bool :=
  c == ' ' || c == '\t' || c == '\n' || c == '\r'

/-- Skip whitespace. -/
def skipWs (cs : List Char) : List Char := cs.dropWhile isWhitespace

/-- The rest of `cs` after the characters `lit`, when `cs` begins with them. -/
def dropPrefix? : List Char → List Char → Option (List Char)
  | [], cs => some cs
  | c :: lit, d :: cs => if c = d then dropPrefix? lit cs else none
  | _ :: _, [] => none

/-- The literals `scan_once_unicode` recognises after their first character. -/
def matchConstant : List Char → Option (JsonVal × List Char)
  | 'n' :: r => (dropPrefix? ['u', 'l', 'l'] r).map (.null, ·)
  | 't' :: r => (dropPrefix? ['r', 'u', 'e'] r).map (.bool true, ·)
  | 'f' :: r => (dropPrefix? ['a', 'l', 's', 'e'] r).map (.bool false, ·)
  | 'N' :: r => (dropPrefix? ['a', 'N'] r).map (.float "nan", ·)
  | 'I' :: r => (dropPrefix? ['n', 'f', 'i', 'n', 'i', 't', 'y'] r).map (.float "inf", ·)
  | '-' :: r => (dropPrefix? ['I', 'n', 'f', 'i', 'n', 'i', 't', 'y'] r).map (.float "-inf", ·)
  | _ => none

/-- The words `scan_once_unicode` reads: `null`, `true`, `false`, and `NaN`,
`Infinity` and `-Infinity`, which `parse_constant` turns into floats. -/
inductive Literal : List Char → JsonVal → List Char → Prop
  | null (r : List Char) : Literal (['n', 'u', 'l', 'l'] ++ r) .null r
  | true (r : List Char) : Literal (['t', 'r', 'u', 'e'] ++ r) (.bool true) r
  | false (r : List Char) : Literal (['f', 'a', 'l', 's', 'e'] ++ r) (.bool false) r
  | nan (r : List Char) : Literal (['N', 'a', 'N'] ++ r) (.float "nan") r
  | inf (r : List Char) : Literal (['I', 'n', 'f', 'i', 'n', 'i', 't', 'y'] ++ r) (.float "inf") r
  | negInf (r : List Char) : Literal (['-', 'I', 'n', 'f', 'i', 'n', 'i', 't', 'y'] ++ r) (.float "-inf") r

theorem dropPrefix?_eq_some : ∀ {lit cs r : List Char}, dropPrefix? lit cs = some r → cs = lit ++ r
  | [], _, _, h => by cases h; rfl
  | _ :: _, [], _, h => by cases h
  | c :: lit, d :: cs, r, h => by
    unfold dropPrefix? at h
    split at h
    · rename_i hcd
      rw [hcd, dropPrefix?_eq_some h]
      rfl
    · cases h

/-- The scanner reads a literal only where the text has one. -/
theorem matchConstant_sound {cs r : List Char} {v : JsonVal} (h : matchConstant cs = some (v, r)) :
    Literal cs v r := by
  have key : ∀ {lit r₀ : List Char} {w : JsonVal},
      (dropPrefix? lit r₀).map (w, ·) = some (v, r) → v = w ∧ r₀ = lit ++ r := fun h => by
    obtain ⟨r', hr', ⟨⟩⟩ := Option.map_eq_some'.1 h
    exact ⟨rfl, dropPrefix?_eq_some hr'⟩
  rcases cs with _ | ⟨c, r₀⟩
  · cases h
  by_cases hn : c = 'n'
  · subst hn; obtain ⟨rfl, rfl⟩ := key h; exact .null r
  by_cases ht : c = 't'
  · subst ht; obtain ⟨rfl, rfl⟩ := key h; exact .true r
  by_cases hf : c = 'f'
  · subst hf; obtain ⟨rfl, rfl⟩ := key h; exact .false r
  by_cases hN : c = 'N'
  · subst hN; obtain ⟨rfl, rfl⟩ := key h; exact .nan r
  by_cases hI : c = 'I'
  · subst hI; obtain ⟨rfl, rfl⟩ := key h; exact .inf r
  by_cases hm : c = '-'
  · subst hm; obtain ⟨rfl, rfl⟩ := key h; exact .negInf r
  rw [matchConstant.eq_7 _ (fun _ h => hn (List.cons.inj h).1) (fun _ h => ht (List.cons.inj h).1)
    (fun _ h => hf (List.cons.inj h).1) (fun _ h => hN (List.cons.inj h).1)
    (fun _ h => hI (List.cons.inj h).1) (fun _ h => hm (List.cons.inj h).1)] at h
  cases h

/-- The integer part of a number: `0`, or a digit `1`-`9` and the digits after it;
`none` when there is no integer digit (the scanner's `StopIteration`). -/
def matchIntPart : List Char → Option (List Char × List Char)
  | '0' :: cs => some (['0'], cs)
  | c :: cs =>
    if c.isDigit then some (c :: cs.takeWhile Char.isDigit, cs.dropWhile Char.isDigit) else none
  | [] => none

/-- The fraction: a point followed by a digit, and the digits after that. -/
def matchFrac : List Char → List Char × List Char
  | '.' :: d :: cs =>
    if d.isDigit then ('.' :: d :: cs.takeWhile Char.isDigit, cs.dropWhile Char.isDigit)
    else ([], '.' :: d :: cs)
  | cs => ([], cs)

/-- The exponent: `e` or `E` with a character after it, a sign (taken only when a
character follows it) and at least one digit; without a digit the scanner backtracks
and takes nothing. -/
def matchExp : List Char → List Char × List Char
  | e :: c :: cs =>
    let signed := (c == '-' || c == '+') && !cs.isEmpty
    let r := if signed then cs else c :: cs
    let ds := r.takeWhile Char.isDigit
    if (e == 'e' || e == 'E') && !ds.isEmpty then
      (e :: (if signed then [c] else []) ++ ds, r.dropWhile Char.isDigit)
    else ([], e :: c :: cs)
  | cs => ([], cs)

/-- A number after its sign: the integer part, the fraction and the exponent, and
whether it is a float (it has a fraction or an exponent). -/
def matchUnsigned (cs : List Char) : Option (List Char × Bool × List Char) :=
  (matchIntPart cs).map fun p =>
    let f := matchFrac p.2
    let e := matchExp f.2
    (p.1 ++ f.1 ++ e.1, !(f.1.isEmpty && e.1.isEmpty), e.2)

/-- `_match_number_unicode`: the number's token, whether it is a float, and the
rest; `none` is its `StopIteration`. -/
def matchNumber : List Char → Option (List Char × Bool × List Char)
  | '-' :: cs => (matchUnsigned cs).map fun t => ('-' :: t.1, t.2)
  | cs => matchUnsigned cs

/-- The value of a run of decimal digits. -/
def decimalValue (ds : List Char) : Nat :=
  ds.foldl (fun n d => 10 * n + (d.toNat - '0'.toNat)) 0

/-- `int(t)` of an integer token (`PyLong_FromString`). -/
def intOfToken : List Char → Int
  | '-' :: ds => -(decimalValue ds : Int)
  | ds => decimalValue ds

section Numbers

variable (floatRepr : String → String)

/-- The number a token stands for: `float(t)`, known by its `repr`, or `int(t)`. -/
def numberValue (tok : List Char) (isFloat : Bool) : JsonVal :=
  if isFloat then .float (floatRepr (String.mk tok)) else .int (intOfToken tok)

end Numbers

/-! ## Strings -/

/-- The value of one hexadecimal digit, in either case. -/
def hexValue (c : Char) : Option Nat :=
  if c.isDigit then some (c.toNat - '0'.toNat)
  else if 'a' ≤ c ∧ c ≤ 'f' then some (c.toNat - 'a'.toNat + 10)
  else if 'A' ≤ c ∧ c ≤ 'F' then some (c.toNat - 'A'.toNat + 10)
  else none

/-- The code unit of four hexadecimal digits, `c <<= 4; c |= digit` for each. -/
def hex4 (a b c d : Char) : Option Nat := do
  let a ← hexValue a
  let b ← hexValue b
  let c ← hexValue c
  let d ← hexValue d
  pure ((((a <<< 4 ||| b) <<< 4 ||| c) <<< 4) ||| d)

/-- `Py_UNICODE_JOIN_SURROGATES(high, low)`. -/
def joinSurrogates (high low : Nat) : Nat :=
  (((high &&& 0x3ff) <<< 10) ||| (low &&& 0x3ff)) + 0x10000

/-- The character of a backslash escape other than `\u`. -/
def shortEscape : Char → Option Char
  | '\x22' => some '\x22'
  | '\\' => some '\\'
  | '/' => some '/'
  | 'b' => some '\x08'
  | 'f' => some '\x0c'
  | 'n' => some '\n'
  | 'r' => some '\r'
  | 't' => some '\t'
  | _ => none

/-- Put a code point in front of what the rest of the string scans to. -/
def consCode (n : Nat) (r : Except DecodeFail (List Nat × List Char)) :
    Except DecodeFail (List Nat × List Char) :=
  r.map fun p => (n :: p.1, p.2)

@[simp] theorem consCode_error (c : Nat) (e : DecodeFail) : consCode c (.error e) = .error e := rfl

@[simp] theorem consCode_ok (c : Nat) (p : List Nat × List Char) :
    consCode c (.ok p) = .ok (c :: p.1, p.2) := rfl

/-- `scanstring_unicode` from the character after the opening quote: the code
points up to the closing quote, and the rest.  `begin` is the position of the
quote, where an unterminated string is reported; the loop takes at least one
character a turn, and is given fuel for as many turns.  A `\u` escape needs a
character after its four digits (`end >= len` raises); a high surrogate is joined
with a low one written right after it as a second `\u` escape, when a character
follows that one too (`end + 6 < len`), and the second escape is read again when it
is not a low surrogate. -/
def scanString (begin : Nat) : Nat → List Char → Except DecodeFail (List Nat × List Char)
  | 0, _ => .error .outOfFuel
  | _ + 1, [] => .error (.error "Unterminated string starting at" begin)
  | _ + 1, '\x22' :: cs => pure ([], cs)
  | _ + 1, ['\\'] => .error (.error "Unterminated string starting at" begin)
  | n + 1, '\\' :: 'u' :: a :: b :: c :: d :: e :: cs =>
    match hex4 a b c d with
    | none => .error (.error "Invalid \\uXXXX escape" (cs.length + 6))
    | some h =>
      match e, cs with
      | '\\', 'u' :: g₁ :: g₂ :: g₃ :: g₄ :: x :: cs' =>
        if 0xd800 ≤ h ∧ h ≤ 0xdbff then
          match hex4 g₁ g₂ g₃ g₄ with
          | none => .error (.error "Invalid \\uXXXX escape" (cs'.length + 6))
          | some l =>
            if 0xdc00 ≤ l ∧ l ≤ 0xdfff then consCode (joinSurrogates h l) (scanString begin n (x :: cs'))
            else consCode h (scanString begin n ('\\' :: 'u' :: g₁ :: g₂ :: g₃ :: g₄ :: x :: cs'))
        else consCode h (scanString begin n ('\\' :: 'u' :: g₁ :: g₂ :: g₃ :: g₄ :: x :: cs'))
      | e, cs => consCode h (scanString begin n (e :: cs))
  | _ + 1, '\\' :: 'u' :: cs => .error (.error "Invalid \\uXXXX escape" (cs.length + 1))
  | n + 1, '\\' :: c :: cs =>
    match shortEscape c with
    | some d => consCode d.toNat (scanString begin n cs)
    | none => .error (.error "Invalid \\escape" (cs.length + 2))
  | n + 1, c :: cs =>
    if c.toNat ≤ 0x1f then .error (.error "Invalid control character at" (cs.length + 1))
    else consCode c.toNat (scanString begin n cs)

example : scanString 3 12 "a\\u00e9\\ud83d\\ude00\\n\x22,".data =
    .ok ([0x61, 0xe9, 0x1f600, 0x0a], [',']) := rfl

/-! ## The scanner -/

section Scanner

variable (floatRepr : String → String)

mutual

/-- `scan_once_unicode`: the term at the head of `cs`, and the rest. -/
def scanOnce : Nat → List Char → Except DecodeFail (JsonVal × List Char)
  | 0, _ => .error .outOfFuel
  | n + 1, '\x22' :: cs => do
    let (s, r) ← scanString (cs.length + 1) n cs
    pure (.str s, r)
  | n + 1, '\x7b' :: cs =>
    match skipWs cs with
    | '\x7d' :: r => pure (.obj [], r)
    | cs => do
      let (ms, r) ← objectItems n cs
      pure (.obj ms, r)
  | n + 1, '[' :: cs =>
    match skipWs cs with
    | ']' :: r => pure (.arr [], r)
    | cs => do
      let (xs, r) ← arrayItems n cs
      pure (.arr xs, r)
  | _ + 1, cs =>
    match matchConstant cs with
    | some (v, r) => pure (v, r)
    | none =>
      match matchNumber cs with
      | some (tok, isFloat, r) => pure (numberValue floatRepr tok isFloat, r)
      | none => failAt "Expecting value" cs

/-- The loop of `_parse_array_unicode`: a term, then `]`, or `,` and the next term. -/
def arrayItems : Nat → List Char → Except DecodeFail (List JsonVal × List Char)
  | 0, _ => .error .outOfFuel
  | n + 1, cs => do
    let (v, r) ← scanOnce n cs
    match skipWs r with
    | ']' :: r => pure ([v], r)
    | ',' :: r => do
      let (vs, r) ← arrayItems n (skipWs r)
      pure (v :: vs, r)
    | r => failAt "Expecting ',' delimiter" r

/-- The loop of `_parse_object_unicode`: a key, `:` and a term, then `\x7d`, or `,`
and the next member. -/
def objectItems : Nat → List Char → Except DecodeFail (List (List Nat × JsonVal) × List Char)
  | 0, _ => .error .outOfFuel
  | n + 1, '\x22' :: cs => do
    let (k, r) ← scanString (cs.length + 1) n cs
    match skipWs r with
    | ':' :: r => do
      let (v, r) ← scanOnce n (skipWs r)
      match skipWs r with
      | '\x7d' :: r => pure ([(k, v)], r)
      | ',' :: r => do
        let (ms, r) ← objectItems n (skipWs r)
        pure ((k, v) :: ms, r)
      | r => failAt "Expecting ',' delimiter" r
    | r => failAt "Expecting ':' delimiter" r
  | _ + 1, cs => failAt "Expecting property name enclosed in double quotes" cs

end

end Scanner

/-! ## Building the objects -/

/-- The `str` of a list of code points, when none is a surrogate. -/
def strOfCodePoints (cps : List Nat) : Option String :=
  if cps.all fun n => n < 0xd800 ∨ 0xdfff < n then some (String.mk (cps.map Char.ofNat)) else none

/-- The `dict` of an object's members: `d[k] = v` for each, in order. -/
def dictOfMembers (ms : List (String × PyVal)) : Dict :=
  ms.foldl (fun d m => d.setitem (.str m.1) m.2) []

/-- The Python object the scanner builds for a term; `none` when it holds a lone
surrogate. -/
def JsonVal.toPyVal : JsonVal → Option PyVal
  | .null => some .none
  | .bool b => some (.bool b)
  | .int i => some (.int i)
  | .float r => some (.float r)
  | .str cps => (strOfCodePoints cps).map .str
  | .arr xs => (toPyVals xs).map .list
  | .obj ms => (toPyMembers ms).map fun ms => .dict (dictOfMembers ms)
where
  /-- the items of an array -/
  toPyVals : List JsonVal → Option (List PyVal)
    | [] => some []
    | x :: xs => do
      let v ← x.toPyVal
      let vs ← toPyVals xs
      pure (v :: vs)
  /-- the members of an object -/
  toPyMembers : List (List Nat × JsonVal) → Option (List (String × PyVal))
    | [] => some []
    | (k, x) :: ms => do
      let k ← strOfCodePoints k
      let v ← x.toPyVal
      let ms ← toPyMembers ms
      pure ((k, v) :: ms)

/-! ## `json.loads` -/

/-- `JSONDecodeError(msg, doc, pos)`: its message names the line and the column of
`pos`. -/
def decodeError (doc : List Char) (msg : String) (pos : Nat) : PyErr :=
  let before := doc.take pos
  let lineno := before.count '\n' + 1
  let colno := (before.reverse.takeWhile (· != '\n')).length + 1
  .raised "JSONDecodeError" s!"{msg}: line {lineno} column {colno} (char {pos})"

/-- `unmarshal` (lines 638-645), `json.loads(s)`: the value, the `JSONDecodeError`
raised, or `none` when the value is outside the model (a `str` with a lone
surrogate). -/
def unmarshal (floatRepr : String → String) (s : String) : Option (Except PyErr PyVal) :=
  let doc := s.data
  if doc.head? = some '\ufeff' then
    some (.error (decodeError doc "Unexpected UTF-8 BOM (decode using utf-8-sig)" 0))
  else
    match scanOnce floatRepr (2 * doc.length + 1) (skipWs doc) with
    | .ok (v, r) =>
      if skipWs r = [] then v.toPyVal.map .ok
      else some (.error (decodeError doc "Extra data" (doc.length - (skipWs r).length)))
    | .error (.error msg left) => some (.error (decodeError doc msg (doc.length - left)))
    | .error .outOfFuel => none

example : unmarshal id " \x7b\x22d\x22: [1, 2.5e3, null], \x22d\x22: \x22\\u00e9\x22\x7d " =
    some (.ok (.dict [(.str "d", .str "é")])) := rfl

example : unmarshal id "[1,]" =
    some (.error (.raised "JSONDecodeError" "Expecting value: line 1 column 4 (char 3)")) := rfl

/-! ## Every scan makes progress -/

/-- A scan that does not run out of fuel and, when it returns, leaves fewer than
`len` characters. -/
def Progress {α : Type} (r : Except DecodeFail (α × List Char)) (len : Nat) : Prop :=
  r ≠ .error .outOfFuel ∧ ∀ a rest, r = .ok (a, rest) → rest.length < len

namespace Progress

variable {α β : Type} {len len' : Nat}

theorem error (msg : String) (left : Nat) : Progress (α := α) (.error (.error msg left)) len :=
  ⟨by simp, by simp⟩

theorem failAt (msg : String) (r : List Char) : Progress (α := α) (Telesync.failAt msg r) len :=
  error msg _

theorem ok {a : α} {rest : List Char} (h : rest.length < len) : Progress (.ok (a, rest)) len :=
  ⟨by simp, by rintro _ _ ⟨⟩; exact h⟩

theorem mono {r : Except DecodeFail (α × List Char)} (h : Progress r len) (hl : len ≤ len') :
    Progress r len' :=
  ⟨h.1, fun a rest hr => Nat.lt_of_lt_of_le (h.2 a rest hr) hl⟩

theorem consCode {c : Nat} {r : Except DecodeFail (List Nat × List Char)} (h : Progress r len) :
    Progress (Telesync.consCode c r) len := by
  rcases r with e | ⟨p, rest⟩
  · exact ⟨fun he => h.1 (by simpa using he), by simp⟩
  · exact ok (h.2 p rest rfl)

theorem bind {x : Except DecodeFail (α × List Char)} {f : α × List Char → Except DecodeFail (β × List Char)}
    (hx : Progress x len) (hf : ∀ a rest, x = .ok (a, rest) → Progress (f (a, rest)) len) :
    Progress (x >>= f) len := by
  rcases x with e | ⟨a, rest⟩
  · exact ⟨fun he => hx.1 (by simpa using he), by simp⟩
  · exact hf a rest rfl

/-- A scan followed by a step that builds a value and leaves the rest as it is. -/
theorem bind_ok {x : Except DecodeFail (α × List Char)} {f : α × List Char → Except DecodeFail (β × List Char)}
    (hx : Progress x len) (hf : ∀ a rest, ∃ b, f (a, rest) = .ok (b, rest)) :
    Progress (x >>= f) len :=
  hx.bind fun a rest hr => by
    obtain ⟨b, hb⟩ := hf a rest
    exact hb ▸ ok (hx.2 a rest hr)

end Progress

theorem length_skipWs_le (cs : List Char) : (skipWs cs).length ≤ cs.length := by
  have := congrArg List.length (List.takeWhile_append_dropWhile isWhitespace cs)
  rw [List.length_append] at this
  exact this ▸ Nat.le_add_left _ _

theorem length_lt_of_skipWs_eq {cs r : List Char} {c : Char} (h : skipWs cs = c :: r) :
    r.length < cs.length := by
  have := length_skipWs_le cs
  rw [h, List.length_cons] at this
  omega

theorem Literal.length_lt {cs r : List Char} {v : JsonVal} (h : Literal cs v r) :
    r.length < cs.length := by
  cases h <;> simp only [List.length_append, List.length_cons, List.length_nil] <;> omega

theorem matchConstant_length {cs r : List Char} {v : JsonVal} (h : matchConstant cs = some (v, r)) :
    r.length < cs.length :=
  (matchConstant_sound h).length_lt

theorem matchIntPart_eq {cs i r : List Char} (h : matchIntPart cs = some (i, r)) :
    cs = i ++ r ∧ i ≠ [] := by
  unfold matchIntPart at h
  split at h
  · cases h; simp
  · split at h
    · cases h; simp [List.takeWhile_append_dropWhile]
    · cases h
  · cases h

theorem matchFrac_eq (cs : List Char) : cs = (matchFrac cs).1 ++ (matchFrac cs).2 := by
  unfold matchFrac
  split
  · split <;> simp [List.takeWhile_append_dropWhile]
  · rfl

theorem matchExp_eq (cs : List Char) : cs = (matchExp cs).1 ++ (matchExp cs).2 := by
  unfold matchExp
  split
  · dsimp only
    split_ifs <;> simp [List.takeWhile_append_dropWhile]
  · rfl

theorem matchUnsigned_eq {cs tok r : List Char} {b : Bool} (h : matchUnsigned cs = some (tok, b, r)) :
    cs = tok ++ r ∧ tok ≠ [] := by
  obtain ⟨⟨i, r'⟩, hi, h⟩ := Option.map_eq_some'.1 h
  obtain ⟨hcs, hne⟩ := matchIntPart_eq hi
  simp only [Prod.mk.injEq] at h
  obtain ⟨rfl, -, rfl⟩ := h
  refine ⟨?_, by simp [hne]⟩
  rw [hcs, List.append_assoc, List.append_assoc, ← matchExp_eq, ← matchFrac_eq]

/-- A number's token is what the scanner read. -/
theorem matchNumber_eq {cs tok r : List Char} {b : Bool} (h : matchNumber cs = some (tok, b, r)) :
    cs = tok ++ r ∧ tok ≠ [] := by
  unfold matchNumber at h
  split at h
  · obtain ⟨⟨t, b', r'⟩, ht, h⟩ := Option.map_eq_some'.1 h
    simp only [Prod.mk.injEq] at h
    obtain ⟨rfl, -, rfl⟩ := h
    simp [(matchUnsigned_eq ht).1]
  · exact matchUnsigned_eq h

theorem matchNumber_length {cs tok r : List Char} {b : Bool} (h : matchNumber cs = some (tok, b, r)) :
    r.length < cs.length := by
  obtain ⟨rfl, hne⟩ := matchNumber_eq h
  have := List.length_pos.2 hne
  simp only [List.length_append]; omega

/-- The string loop takes at least one character a turn: given more fuel than
characters, it does not run out. -/
theorem scanString_progress (begin : Nat) :
    ∀ f cs, cs.length < f → Progress (scanString begin f cs) cs.length
  | 0, _, h => absurd h (Nat.not_lt_zero _)
  | n + 1, cs, h => by
    have ih : ∀ xs : List Char, xs.length < n → Progress (scanString begin n xs) xs.length :=
      fun xs hx => scanString_progress begin n xs hx
    unfold scanString
    split
    all_goals (try obtain rfl := Nat.succ.inj ‹n + 1 = _›)
    all_goals (repeat' split) <;> first
      | omega
      | exact Progress.error _ _
      | exact Progress.ok (by simp)
      | exact (ih _ (by simp at h ⊢; omega)).consCode.mono (by simp only [List.length_cons]; omega)

section Scanner

variable (floatRepr : String → String)

section Step

variable {n : Nat}
  (ihs : ∀ cs, 2 * cs.length < n → Progress (scanOnce floatRepr n cs) cs.length)
  (iha : ∀ cs, 2 * cs.length + 1 < n → Progress (arrayItems floatRepr n cs) cs.length)
  (iho : ∀ cs, 2 * cs.length + 1 < n → Progress (objectItems floatRepr n cs) cs.length)

include iha iho in
theorem scanOnce_progress_succ (cs : List Char) (h : 2 * cs.length < n + 1) :
    Progress (scanOnce floatRepr (n + 1) cs) cs.length := by
  unfold scanOnce
  split
  · omega
  all_goals obtain rfl := Nat.succ.inj ‹n + 1 = _›
  · rename_i cs _
    exact ((scanString_progress _ n cs (by simp at h; omega)).mono (by simp)).bind_ok
      fun _ _ => ⟨_, rfl⟩
  · rename_i cs _
    split
    · exact Progress.ok (by have := length_lt_of_skipWs_eq ‹_›; simp; omega)
    · have := length_skipWs_le cs
      exact ((iho _ (by simp at h; omega)).mono (by simp; omega)).bind_ok fun _ _ => ⟨_, rfl⟩
  · rename_i cs _
    split
    · exact Progress.ok (by have := length_lt_of_skipWs_eq ‹_›; simp; omega)
    · have := length_skipWs_le cs
      exact ((iha _ (by simp at h; omega)).mono (by simp; omega)).bind_ok fun _ _ => ⟨_, rfl⟩
  · split
    · exact Progress.ok (matchConstant_length ‹_›)
    · split
      · exact Progress.ok (matchNumber_length ‹_›)
      · exact Progress.failAt _ _

include ihs iha in
theorem arrayItems_progress_succ (cs : List Char) (h : 2 * cs.length + 1 < n + 1) :
    Progress (arrayItems floatRepr (n + 1) cs) cs.length := by
  unfold arrayItems
  have hs := ihs cs (by omega)
  refine hs.bind fun v r hr => ?_
  have hr := hs.2 v r hr
  dsimp only
  split
  · exact Progress.ok (by have := length_lt_of_skipWs_eq ‹_›; omega)
  · rename_i r' hr'
    have := length_lt_of_skipWs_eq hr'
    have := length_skipWs_le r'
    exact ((iha _ (by omega)).mono (by omega)).bind_ok fun _ _ => ⟨_, rfl⟩
  · exact Progress.failAt _ _

include ihs iho in
theorem objectItems_progress_succ (cs : List Char) (h : 2 * cs.length + 1 < n + 1) :
    Progress (objectItems floatRepr (n + 1) cs) cs.length := by
  unfold objectItems
  split
  · omega
  · obtain rfl := Nat.succ.inj ‹n + 1 = _›
    rename_i cs _
    have hs := scanString_progress (cs.length + 1) n cs (by simp at h; omega)
    refine (hs.mono (by simp)).bind fun k r hr => ?_
    have hr := hs.2 k r hr
    dsimp only
    split
    · rename_i r' hr'
      have := length_lt_of_skipWs_eq hr'
      have := length_skipWs_le r'
      have hv := ihs (skipWs r') (by simp at h; omega)
      refine (hv.mono (by simp; omega)).bind fun v r hr => ?_
      have hr := hv.2 v r hr
      dsimp only
      split
      · exact Progress.ok (by have := length_lt_of_skipWs_eq ‹_›; simp; omega)
      · rename_i r'' hr''
        have := length_lt_of_skipWs_eq hr''
        have := length_skipWs_le r''
        exact ((iho _ (by simp at h; omega)).mono (by simp; omega)).bind_ok fun _ _ => ⟨_, rfl⟩
      · exact Progress.failAt _ _
    · exact Progress.failAt _ _
  · exact Progress.failAt _ _

end Step

/-- **The scanner terminates.**  Given more fuel than twice the text's length, a
scan does not run out of fuel, and what it leaves is shorter than what it was
given. -/
theorem scan_progress : ∀ n,
    (∀ cs, 2 * cs.length < n → Progress (scanOnce floatRepr n cs) cs.length) ∧
    (∀ cs, 2 * cs.length + 1 < n → Progress (arrayItems floatRepr n cs) cs.length) ∧
    (∀ cs, 2 * cs.length + 1 < n → Progress (objectItems floatRepr n cs) cs.length)
  | 0 => ⟨fun _ h => absurd h (Nat.not_lt_zero _), fun _ h => absurd h (Nat.not_lt_zero _),
      fun _ h => absurd h (Nat.not_lt_zero _)⟩
  | n + 1 =>
    let ⟨ihs, iha, iho⟩ := scan_progress n
    ⟨scanOnce_progress_succ floatRepr iha iho, arrayItems_progress_succ floatRepr ihs iha,
      objectItems_progress_succ floatRepr ihs iho⟩

/-- `unmarshal` returns `none` only for a text it reads without error into a value
that holds a lone surrogate: its fuel never runs out. -/
theorem unmarshal_eq_none_iff (s : String) :
    unmarshal floatRepr s = none ↔ s.data.head? ≠ some '\ufeff' ∧
      ∃ v r, scanOnce floatRepr (2 * s.data.length + 1) (skipWs s.data) = .ok (v, r) ∧
        skipWs r = [] ∧ v.toPyVal = none := by
  have hp := (scan_progress floatRepr (2 * s.data.length + 1)).1 (skipWs s.data)
    (by have := length_skipWs_le s.data; omega)
  unfold unmarshal
  dsimp only
  by_cases hbom : s.data.head? = some '\ufeff'
  · simp [hbom]
  rw [if_neg hbom]
  generalize scanOnce floatRepr (2 * s.data.length + 1) (skipWs s.data) = res at hp ⊢
  rcases res with (_ | _) | ⟨v, r⟩
  · simp [hbom]
  · exact absurd rfl hp.1
  · by_cases hr : skipWs r = [] <;> simp [hbom, hr, Option.map_eq_none', and_assoc]

end Scanner

end Telesync
