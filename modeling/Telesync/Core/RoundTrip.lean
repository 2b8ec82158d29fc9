import Telesync.Core.Unmarshal
set_option autoImplicit false

/-!
# `unmarshal` reads back what `marshal` writes

Source: `py/telesync/core.py`, `marshal` and `unmarshal` (lines 628-645).

WHAT IS PROVED.  `unmarshal_marshal`: whenever `marshal v` returns a text,
`unmarshal` of that text returns `v.jsonNorm`, which is `v` with its tuples read back
as lists and every dict key replaced by the text `json` wrote for it (`1` and `'1'`
both become `'1'`, `True` becomes `'true'`), a repeated text keeping its first
position and its last value.  The floats of `v` are taken to be written as `repr`
writes a finite float and to be read back as themselves (`float(repr(x)) == x`).

HOW.  The scanner is complete on the encoder's output (`scanOnce_encode`): from the
text of a value followed by anything that may follow a value, it reads exactly that
text and returns the term `PyVal.wire` that `json.dumps` wrote; building the Python
objects from that term gives `v.jsonNorm` (`toPyVal_wire`).  Each character of a
string is one turn of the string loop, surrogate pairs included
(`scanString_escapeChar`).
-/

namespace Telesync

/-! ## What `json.dumps` writes -/

/-- The text `json.dumps` writes for a dict key, before quoting. -/
def PyKey.jsonText : PyKey → String
  | .str s => s
  | .float r => r
  | .bool b => if b then "true" else "false"
  | .none => "null"
  | .int i => toString i
  | .other _ text => text

theorem encodeKey_eq_jsonText {k : PyKey} {t : String} (h : encodeKey k = .ok t) :
    t = k.jsonText := by
  cases k <;> simp only [encodeKey, encodeFloat] at h
  case float r => split at h <;> cases h; rfl
  case other => cases h
  all_goals (cases h; rfl)

/-- The code points of a string. -/
def codePoints (s : String) : List Nat := s.data.map Char.toNat

/-- The term `json.dumps` writes for a value it accepts. -/
def PyVal.wire : PyVal → JsonVal
  | .none => .null
  | .bool b => .bool b
  | .int i => .int i
  | .float r => .float r
  | .str s => .str (codePoints s)
  | .list xs | .tuple xs => .arr (wireList xs)
  | .dict d => .obj (wireDict d)
  | _ => .null
where
  /-- the items of an array -/
  wireList : List PyVal → List JsonVal
    | [] => []
    | x :: xs => x.wire :: wireList xs
  /-- the members of an object -/
  wireDict : Dict → List (List Nat × JsonVal)
    | [] => []
    | (k, v) :: d => (codePoints k.jsonText, v.wire) :: wireDict d

/-- What `json.loads(json.dumps(v))` gives: tuples become lists, and a dict's keys
become the texts written for them, a repeated text keeping its first position and
its last value. -/
def PyVal.jsonNorm : PyVal → PyVal
  | .list xs | .tuple xs => .list (normList xs)
  | .dict d => .dict (dictOfMembers (normDict d))
  | v => v
where
  /-- the items of a list -/
  normList : List PyVal → List PyVal
    | [] => []
    | x :: xs => x.jsonNorm :: normList xs
  /-- the members of a dict -/
  normDict : Dict → List (String × PyVal)
    | [] => []
    | (k, v) :: d => (k.jsonText, v.jsonNorm) :: normDict d

/-- The floats a value holds, outside its keys. -/
def PyVal.floats : PyVal → List String
  | .float r => [r]
  | .list xs | .tuple xs => floatsList xs
  | .dict d => floatsDict d
  | _ => []
where
  /-- the floats of the items -/
  floatsList : List PyVal → List String
    | [] => []
    | x :: xs => x.floats ++ floatsList xs
  /-- the floats of the values -/
  floatsDict : Dict → List String
    | [] => []
    | (_, v) :: d => v.floats ++ floatsDict d

/-- A non-empty run of decimal digits. -/
def Digits (ds : List Char) : Prop := ds ≠ [] ∧ ∀ d ∈ ds, d.isDigit = true

/-- A JSON number with a fraction or an exponent, the form in which `repr` writes a
finite float (`1.5`, `-0.0`, `1e+16`, `5e-324`): an optional minus; `0`, or a digit
other than `0` followed by digits; then a point and digits, or `e` or `E` with an
optional sign and digits, or both. -/
def FloatToken (t : List Char) : Prop :=
  ∃ sign int frac exp : List Char, t = sign ++ int ++ frac ++ exp ∧
    (sign = [] ∨ sign = ['-']) ∧
    (int = ['0'] ∨ ∃ d ds, int = d :: ds ∧ d.isDigit = true ∧ d ≠ '0' ∧ ∀ c ∈ ds, c.isDigit = true) ∧
    (frac = [] ∨ ∃ ds, frac = '.' :: ds ∧ Digits ds) ∧
    (exp = [] ∨ ∃ e sgn ds, exp = e :: sgn ++ ds ∧ (e = 'e' ∨ e = 'E') ∧
      (sgn = [] ∨ sgn = ['+'] ∨ sgn = ['-']) ∧ Digits ds) ∧
    (frac ≠ [] ∨ exp ≠ [])

/-- What may follow a value in the text `json.dumps` writes: nothing, or `,`, `]` or
the closing brace. -/
def followsValue : List Char → Bool
  | [] => true
  | c :: _ => c == ',' || c == ']' || c == '\x7d'

/-! ## Building the objects back -/

theorem strOfCodePoints_codePoints (s : String) : strOfCodePoints (codePoints s) = some s := by
  have hvalid : ∀ c : Char, c.toNat < 0xd800 ∨ 0xdfff < c.toNat := fun c => by
    rcases c.valid with h | h
    · exact .inl h
    · exact .inr h.1
  simp [strOfCodePoints, codePoints, hvalid, Function.comp_def, Char.ofNat_toNat]

mutual

/-- Building the objects from the term `json.dumps` wrote gives `v.jsonNorm`. -/
theorem toPyVal_wire : ∀ v : PyVal, v.encodable = true → v.wire.toPyVal = some v.jsonNorm
  | .none, _ | .bool _, _ | .int _, _ | .float _, _ => rfl
  | .str s, _ => by simp [PyVal.wire, JsonVal.toPyVal, strOfCodePoints_codePoints, PyVal.jsonNorm]
  | .list xs, h | .tuple xs, h => by
    simp only [PyVal.wire, JsonVal.toPyVal, toPyVals_wireList xs h, Option.map_some', PyVal.jsonNorm]
  | .dict d, h => by
    simp only [PyVal.wire, JsonVal.toPyVal, toPyMembers_wireDict d h, Option.map_some', PyVal.jsonNorm]
  | .data .., h | .dumps .., h | .dumpRaises .., h | .object .., h => absurd h Bool.false_ne_true

theorem toPyVals_wireList : ∀ xs : List PyVal, PyVal.encodable.encodableList xs = true →
    JsonVal.toPyVal.toPyVals (PyVal.wire.wireList xs) = some (PyVal.jsonNorm.normList xs)
  | [], _ => rfl
  | x :: xs, h => by
    simp only [PyVal.encodable.encodableList, Bool.and_eq_true] at h
    simp [PyVal.wire.wireList, JsonVal.toPyVal.toPyVals, toPyVal_wire x h.1, toPyVals_wireList xs h.2,
      PyVal.jsonNorm.normList]

theorem toPyMembers_wireDict : ∀ d : Dict, PyVal.encodable.encodableDict d = true →
    JsonVal.toPyVal.toPyMembers (PyVal.wire.wireDict d) = some (PyVal.jsonNorm.normDict d)
  | [], _ => rfl
  | (k, v) :: d, h => by
    simp only [PyVal.encodable.encodableDict, Bool.and_eq_true] at h
    simp [PyVal.wire.wireDict, JsonVal.toPyVal.toPyMembers, strOfCodePoints_codePoints,
      toPyVal_wire v h.1.2, toPyMembers_wireDict d h.2, PyVal.jsonNorm.normDict]

end

/-! ## Numbers -/

theorem digitChar_spec : ∀ d, d < 10 →
    (Nat.digitChar d).isDigit = true ∧ (Nat.digitChar d).toNat - '0'.toNat = d ∧
      (Nat.digitChar d = '0' → d = 0) := by
  decide

theorem decimalValue_append_digit (ds : List Char) (d : Char) :
    decimalValue (ds ++ [d]) = 10 * decimalValue ds + (d.toNat - '0'.toNat) := by
  simp [decimalValue, List.foldl_append]

/-- The digits `Nat.toDigitsCore` puts in front of its accumulator spell the number,
with no leading zero. -/
theorem toDigitsCore_spec : ∀ (f m : Nat) (ds : List Char), m < f →
    ∃ L, Nat.toDigitsCore 10 f m ds = L ++ ds ∧ decimalValue L = m ∧ L ≠ [] ∧
      (∀ c ∈ L, c.isDigit = true) ∧ (L.head? = some '0' → m = 0)
  | 0, _, _, h => absurd h (Nat.not_lt_zero _)
  | f + 1, m, ds, h => by
    obtain ⟨hdig, hval, hzero⟩ := digitChar_spec (m % 10) (Nat.mod_lt _ (by decide))
    simp only [Nat.toDigitsCore]
    split
    · rename_i hq
      refine ⟨[Nat.digitChar (m % 10)], rfl, ?_, by simp, by simpa using hdig, ?_⟩
      · simp only [decimalValue, List.foldl_cons, List.foldl_nil, hval]; omega
      · simp only [List.head?_cons, Option.some.injEq]; intro h0; have := hzero h0; omega
    · rename_i hq
      obtain ⟨L, hL, hv, hne, hd, hz⟩ := toDigitsCore_spec f (m / 10) _ (by omega)
      refine ⟨L ++ [Nat.digitChar (m % 10)], by rw [hL, List.append_assoc]; rfl, ?_, by simp, ?_, ?_⟩
      · rw [decimalValue_append_digit, hv, hval]; omega
      · simp only [List.mem_append, List.mem_singleton]
        rintro c (hc | rfl)
        · exact hd c hc
        · exact hdig
      · intro h0
        rw [List.head?_append_of_ne_nil _ hne] at h0
        exact absurd (hz h0) hq

/-- The digits `toString` writes for a natural number spell it, with no leading
zero. -/
theorem toDigits_spec (m : Nat) :
    decimalValue (Nat.toDigits 10 m) = m ∧ Nat.toDigits 10 m ≠ [] ∧
      (∀ c ∈ Nat.toDigits 10 m, c.isDigit = true) ∧
      ((Nat.toDigits 10 m).head? = some '0' → m = 0) := by
  obtain ⟨L, hL, h⟩ := toDigitsCore_spec (m + 1) m [] (Nat.lt_succ_self m)
  rw [List.append_nil] at hL
  rw [Nat.toDigits, hL]
  exact h

/-- A character that may not go on a number: `followsValue` allows none of them. -/
def StopsNumber (c : Char) : Prop := c.isDigit = false ∧ c ≠ '.' ∧ c ≠ 'e' ∧ c ≠ 'E'

instance (c : Char) : Decidable (StopsNumber c) := inferInstanceAs (Decidable (_ ∧ _))

theorem stopsNumber_of_followsValue {c : Char} {rest : List Char}
    (h : followsValue (c :: rest) = true) : StopsNumber c := by
  simp only [followsValue, Bool.or_eq_true, beq_iff_eq] at h
  rcases h with (rfl | rfl) | rfl <;> decide

/-- Digits followed by what stops a number are taken whole. -/
theorem span_digits {ds r : List Char} (hd : ∀ c ∈ ds, c.isDigit = true)
    (hr : ∀ c ∈ r.head?, c.isDigit = false) :
    (ds ++ r).takeWhile Char.isDigit = ds ∧ (ds ++ r).dropWhile Char.isDigit = r := by
  rw [List.takeWhile_append_of_pos hd, List.dropWhile_append_of_pos hd]
  cases r with
  | nil => simp
  | cons c r =>
    have hc := hr c rfl
    simp [List.takeWhile_cons_of_neg, List.dropWhile_cons_of_neg, hc]

theorem matchFrac_of_ne {r : List Char} (h : ∀ c ∈ r.head?, c ≠ '.') : matchFrac r = ([], r) :=
  matchFrac.eq_2 r fun _ _ he => h '.' (by rw [he]; rfl) rfl

theorem matchExp_of_ne {r : List Char} (h : ∀ c ∈ r.head?, c ≠ 'e' ∧ c ≠ 'E') :
    matchExp r = ([], r) := by
  match r, h with
  | [], _ | [_], _ => rfl
  | c :: d :: cs, h =>
    obtain ⟨he, hE⟩ := h c rfl
    rw [matchExp.eq_1]
    simp [he, hE]

theorem followsValue_head {rest : List Char} (h : followsValue rest = true) :
    ∀ c ∈ rest.head?, StopsNumber c := by
  cases rest with
  | nil => simp
  | cons c rest => simpa using stopsNumber_of_followsValue h

/-- The digits of a natural number, followed by what may follow a value, read back
as an integer token. -/
theorem matchUnsigned_toDigits (m : Nat) {rest : List Char} (h : followsValue rest = true) :
    matchUnsigned (Nat.toDigits 10 m ++ rest) = some (Nat.toDigits 10 m, false, rest) := by
  obtain ⟨-, hne, hd, hz⟩ := toDigits_spec m
  have hr : ∀ c ∈ rest.head?, c.isDigit = false := fun c hc => (followsValue_head h c hc).1
  have hf := matchFrac_of_ne fun c hc => (followsValue_head h c hc).2.1
  have he := matchExp_of_ne fun c hc => (followsValue_head h c hc).2.2
  have hint : matchIntPart (Nat.toDigits 10 m ++ rest) = some (Nat.toDigits 10 m, rest) := by
    rcases Nat.eq_zero_or_pos m with rfl | hm
    · rfl
    obtain ⟨c, L, hcL⟩ := List.exists_cons_of_ne_nil hne
    have hc : c ≠ '0' := fun h0 => by have := hz (by rw [hcL, h0]; rfl); omega
    obtain ⟨h1, h2⟩ := @span_digits L _ (fun x hx => hd x (by simp [hcL, hx])) hr
    rw [hcL, List.cons_append, matchIntPart.eq_2 _ _ hc, if_pos (hd c (by simp [hcL])), h1, h2]
  simp [matchUnsigned, hint, hf, he]

/-- An integer, written by `toString`, read back: the scanner takes the whole token,
and `int()` of it is the integer. -/
theorem matchNumber_toString (i : Int) {rest : List Char} (h : followsValue rest = true) :
    matchNumber ((toString i).data ++ rest) = some ((toString i).data, false, rest) ∧
      intOfToken (toString i).data = i := by
  have hd0 : ∀ m : Nat, ∀ c ∈ (Nat.toDigits 10 m).head?, c ≠ '-' := fun m c hc h0 => by
    have := (toDigits_spec m).2.2.1 c (List.mem_of_mem_head? hc)
    rw [h0] at this; exact absurd this (by decide)
  cases i with
  | ofNat m =>
    have hds : (toString (Int.ofNat m)).data = Nat.toDigits 10 m := rfl
    rw [hds]
    refine ⟨?_, ?_⟩
    · rw [matchNumber.eq_2 _ fun cs he => ?_, matchUnsigned_toDigits m h]
      obtain ⟨c, L, hcL⟩ := List.exists_cons_of_ne_nil (toDigits_spec m).2.1
      rw [hcL, List.cons_append, List.cons.injEq] at he
      exact hd0 m c (by simp [hcL]) he.1
    · obtain ⟨c, L, hcL⟩ := List.exists_cons_of_ne_nil (toDigits_spec m).2.1
      have hc := hd0 m c (by simp [hcL])
      rw [hcL, intOfToken.eq_2 _ fun ds he => hc (List.cons.inj he).1, ← hcL, (toDigits_spec m).1]
      rfl
  | negSucc m =>
    have hds : (toString (Int.negSucc m)).data = '-' :: Nat.toDigits 10 (m + 1) := rfl
    rw [hds]
    refine ⟨?_, ?_⟩
    · simp [matchNumber, matchUnsigned_toDigits (m + 1) h]
    · simp only [intOfToken, (toDigits_spec (m + 1)).1]
      rfl

theorem matchIntPart_int {int tail : List Char}
    (hi : int = ['0'] ∨ ∃ d ds, int = d :: ds ∧ d.isDigit = true ∧ d ≠ '0' ∧ ∀ c ∈ ds, c.isDigit = true)
    (ht : ∀ c ∈ tail.head?, c.isDigit = false) :
    matchIntPart (int ++ tail) = some (int, tail) := by
  rcases hi with rfl | ⟨d, ds, rfl, hd, h0, hds⟩
  · rfl
  · obtain ⟨h1, h2⟩ := span_digits hds ht
    rw [List.cons_append, matchIntPart.eq_2 _ _ h0, if_pos hd, h1, h2]

theorem matchFrac_frac {frac tail : List Char} (hf : frac = [] ∨ ∃ ds, frac = '.' :: ds ∧ Digits ds)
    (ht : ∀ c ∈ tail.head?, c.isDigit = false ∧ c ≠ '.') :
    matchFrac (frac ++ tail) = (frac, tail) := by
  rcases hf with rfl | ⟨ds, rfl, hne, hds⟩
  · exact matchFrac_of_ne fun c hc => (ht c hc).2
  · obtain ⟨d, ds, rfl⟩ := List.exists_cons_of_ne_nil hne
    obtain ⟨h1, h2⟩ := span_digits (fun c hc => hds c (List.mem_cons_of_mem _ hc)) fun c hc => (ht c hc).1
    simp only [List.cons_append, matchFrac, hds d (List.mem_cons_self _ _), if_true, h1, h2]

theorem matchExp_exp {exp rest : List Char}
    (he : exp = [] ∨ ∃ e sgn ds, exp = e :: sgn ++ ds ∧ (e = 'e' ∨ e = 'E') ∧
      (sgn = [] ∨ sgn = ['+'] ∨ sgn = ['-']) ∧ Digits ds)
    (h : ∀ c ∈ rest.head?, StopsNumber c) :
    matchExp (exp ++ rest) = (exp, rest) := by
  have hrd : ∀ c ∈ rest.head?, c.isDigit = false := fun c hc => (h c hc).1
  rcases he with rfl | ⟨e, sgn, ds, rfl, hE, hsgn, hne, hds⟩
  · exact matchExp_of_ne fun c hc => (h c hc).2.2
  obtain ⟨d, ds', rfl⟩ := List.exists_cons_of_ne_nil hne
  obtain ⟨h1, h2⟩ := span_digits hds hrd
  simp only [List.cons_append] at h1 h2
  have hd := hds d (List.mem_cons_self _ _)
  have hEb : (e == 'e' || e == 'E') = true := by rcases hE with rfl | rfl <;> rfl
  rcases hsgn with rfl | rfl | rfl
  · have hns : ((d == '-' || d == '+') && !(ds' ++ rest).isEmpty) = false := by
      have : d ≠ '-' ∧ d ≠ '+' := ⟨fun h0 => by rw [h0] at hd; exact absurd hd (by decide),
        fun h0 => by rw [h0] at hd; exact absurd hd (by decide)⟩
      simp [this.1, this.2]
    simp only [List.nil_append, List.cons_append]
    rw [matchExp.eq_1]
    simp [hns, h1, h2, hEb]
  all_goals
    simp only [List.singleton_append, List.cons_append]
    rw [matchExp.eq_1]
    simp [h1, h2, hEb]

/-- A number's sign, integer part, fraction and exponent, followed by what stops a
number, are read whole; it is a float when it has a fraction or an exponent. -/
theorem matchNumber_parts {sign int frac exp rest : List Char} (hs : sign = [] ∨ sign = ['-'])
    (hi : int = ['0'] ∨ ∃ d ds, int = d :: ds ∧ d.isDigit = true ∧ d ≠ '0' ∧ ∀ c ∈ ds, c.isDigit = true)
    (hf : frac = [] ∨ ∃ ds, frac = '.' :: ds ∧ Digits ds)
    (he : exp = [] ∨ ∃ e sgn ds, exp = e :: sgn ++ ds ∧ (e = 'e' ∨ e = 'E') ∧
      (sgn = [] ∨ sgn = ['+'] ∨ sgn = ['-']) ∧ Digits ds)
    (h : ∀ c ∈ rest.head?, StopsNumber c) :
    matchNumber (sign ++ int ++ frac ++ exp ++ rest) =
      some (sign ++ int ++ frac ++ exp, !(frac.isEmpty && exp.isEmpty), rest) := by
  have htail₂ : ∀ c ∈ (exp ++ rest).head?, c.isDigit = false ∧ c ≠ '.' := by
    rcases he with rfl | ⟨e, sgn, ds, rfl, hE, -⟩
    · exact fun c hc => ⟨(h c hc).1, (h c hc).2.1⟩
    · simp only [List.cons_append, List.head?_cons, Option.mem_def, Option.some.injEq]
      rintro c rfl
      rcases hE with rfl | rfl <;> decide
  have htail₁ : ∀ c ∈ (frac ++ (exp ++ rest)).head?, c.isDigit = false := by
    rcases hf with rfl | ⟨ds, rfl, -⟩
    · exact fun c hc => (htail₂ c hc).1
    · simp only [List.cons_append, List.head?_cons, Option.mem_def, Option.some.injEq]
      rintro c rfl
      decide
  have hu : matchUnsigned (int ++ frac ++ exp ++ rest) =
      some (int ++ frac ++ exp, !(frac.isEmpty && exp.isEmpty), rest) := by
    simp only [matchUnsigned, List.append_assoc, matchIntPart_int hi htail₁, Option.map_some',
      matchFrac_frac hf htail₂, matchExp_exp he h]
  rcases hs with rfl | rfl
  · rw [List.nil_append, matchNumber.eq_2 _ fun cs hcs => ?_, hu]
    rcases hi with rfl | ⟨d, ds, rfl, hd, -⟩
    · simp at hcs
    · simp only [List.cons_append, List.cons.injEq] at hcs
      rw [hcs.1] at hd
      exact absurd hd (by decide)
  · simp only [List.singleton_append, List.cons_append, List.nil_append, matchNumber, hu, Option.map_some']

/-- A float token, followed by what may follow a value, is read whole, as a float. -/
theorem matchNumber_floatToken {t rest : List Char} (ht : FloatToken t) (h : followsValue rest = true) :
    matchNumber (t ++ rest) = some (t, true, rest) := by
  obtain ⟨sign, int, frac, exp, rfl, hs, hi, hf, he, hfe⟩ := ht
  rw [matchNumber_parts hs hi hf he (followsValue_head h)]
  rcases hfe with h' | h' <;> simp [List.isEmpty_iff, h']

/-! ## Strings -/

theorem hexValue_hexDigit : ∀ d, d < 16 → hexValue (hexDigit d) = some d := by
  decide

theorem shiftLeft_or_eq {a b i : Nat} (hb : b < 2 ^ i) : a <<< i ||| b = 2 ^ i * a + b := by
  rw [Nat.shiftLeft_eq, Nat.mul_comm, Nat.mul_add_lt_is_or hb]

theorem shiftLeft_four_or_mod (a n : Nat) : a <<< 4 ||| n % 16 = 16 * a + n % 16 :=
  shiftLeft_or_eq (Nat.mod_lt n (by decide : 2 ^ 4 > 0))

/-- The four digits of `uEscape n` read back as `n`. -/
theorem hex4_uEscape {n : Nat} (hn : n < 0x10000) :
    hex4 (hexDigit (n / 4096 % 16)) (hexDigit (n / 256 % 16)) (hexDigit (n / 16 % 16))
      (hexDigit (n % 16)) = some n := by
  simp only [hex4, hexValue_hexDigit _ (Nat.mod_lt _ (by decide : 16 > 0)), Option.pure_def,
    Option.bind_eq_bind, Option.some_bind]
  rw [shiftLeft_four_or_mod, shiftLeft_four_or_mod, shiftLeft_four_or_mod]
  congr 1
  omega

theorem uEscape_data (n : Nat) :
    (uEscape n).data = ['\\', 'u', hexDigit (n / 4096 % 16), hexDigit (n / 256 % 16),
      hexDigit (n / 16 % 16), hexDigit (n % 16)] := rfl

/-- The surrogate pair `escapeChar` writes joins back to the character. -/
theorem joinSurrogates_pair {n : Nat} (h₁ : 0x10000 ≤ n) (h₂ : n < 0x110000) :
    joinSurrogates (0xd800 + (n - 0x10000) / 0x400) (0xdc00 + (n - 0x10000) % 0x400) = n := by
  have hmask : ∀ x : Nat, x &&& 0x3ff = x % 2 ^ 10 := fun x => Nat.and_pow_two_sub_one_eq_mod x 10
  rw [joinSurrogates, hmask, hmask, shiftLeft_or_eq (Nat.mod_lt _ (by decide : 2 ^ 10 > 0))]
  omega

theorem scanString_plain (begin n : Nat) {c : Char} (cs : List Char) (hq : c ≠ '\x22')
    (hb : c ≠ '\\') (hc : 0x1f < c.toNat) :
    scanString begin (n + 1) (c :: cs) = consCode c.toNat (scanString begin n cs) := by
  rw [scanString.eq_8 _ _ _ _ hq (fun h => absurd h hb) (fun _ _ _ _ _ _ h => absurd h hb)
    (fun _ h => absurd h hb) (fun _ _ h => absurd h hb), if_neg (by omega)]

/-- A `\u` escape of a code unit that is not a high surrogate. -/
theorem scanString_unicode (begin f : Nat) {a b c d e : Char} (cs : List Char) {h : Nat}
    (hh : hex4 a b c d = some h) (hhigh : ¬(0xd800 ≤ h ∧ h ≤ 0xdbff)) :
    scanString begin (f + 1) ('\\' :: 'u' :: a :: b :: c :: d :: e :: cs) =
      consCode h (scanString begin f (e :: cs)) := by
  rw [scanString.eq_5, hh]
  dsimp only
  split
  · rw [if_neg hhigh]
  · rfl

/-- A surrogate pair written as two `\u` escapes, with a character after them. -/
theorem scanString_pair (begin f : Nat) {a b c d g₁ g₂ g₃ g₄ : Char} (x : Char) (cs : List Char)
    {h l : Nat} (hh : hex4 a b c d = some h) (hl : hex4 g₁ g₂ g₃ g₄ = some l)
    (hhigh : 0xd800 ≤ h ∧ h ≤ 0xdbff) (hlow : 0xdc00 ≤ l ∧ l ≤ 0xdfff) :
    scanString begin (f + 1)
        ('\\' :: 'u' :: a :: b :: c :: d :: '\\' :: 'u' :: g₁ :: g₂ :: g₃ :: g₄ :: x :: cs) =
      consCode (joinSurrogates h l) (scanString begin f (x :: cs)) := by
  rw [scanString.eq_5, hh]
  simp only [if_pos hhigh, hl, if_pos hlow]

/-- **One character, one turn.**  The string loop reads what `escapeChar c` wrote,
when something follows it, back as the code point of `c`. -/
theorem scanString_escapeChar (begin f : Nat) (c : Char) {cs : List Char} (hcs : cs ≠ []) :
    scanString begin (f + 1) ((escapeChar c).data ++ cs) = consCode c.toNat (scanString begin f cs) := by
  have hc : c = Char.ofNat c.toNat := (Char.ofNat_toNat c).symm
  unfold escapeChar
  dsimp only
  -- the two quoted characters and the five short escapes are read back by evaluation
  by_cases h₁ : c.toNat = 0x5c
  · rw [if_pos h₁, hc, h₁]; rfl
  rw [if_neg h₁]
  by_cases h₂ : c.toNat = 0x22
  · rw [if_pos h₂, hc, h₂]; rfl
  rw [if_neg h₂]
  by_cases h₃ : 0x20 ≤ c.toNat ∧ c.toNat ≤ 0x7e
  · rw [if_pos h₃]
    exact scanString_plain _ _ _ (fun h => by rw [h] at h₂; exact h₂ rfl)
      (fun h => by rw [h] at h₁; exact h₁ rfl) (by omega)
  rw [if_neg h₃]
  by_cases h₄ : c.toNat = 0x08
  · rw [if_pos h₄, hc, h₄]; rfl
  rw [if_neg h₄]
  by_cases h₅ : c.toNat = 0x0c
  · rw [if_pos h₅, hc, h₅]; rfl
  rw [if_neg h₅]
  by_cases h₆ : c.toNat = 0x0a
  · rw [if_pos h₆, hc, h₆]; rfl
  rw [if_neg h₆]
  by_cases h₇ : c.toNat = 0x0d
  · rw [if_pos h₇, hc, h₇]; rfl
  rw [if_neg h₇]
  by_cases h₈ : c.toNat = 0x09
  · rw [if_pos h₈, hc, h₈]; rfl
  rw [if_neg h₈]
  by_cases h₉ : c.toNat < 0x10000
  · rw [if_pos h₉]
    obtain ⟨e, cs', rfl⟩ := List.exists_cons_of_ne_nil hcs
    have hhigh : ¬(0xd800 ≤ c.toNat ∧ c.toNat ≤ 0xdbff) := by
      rcases c.valid with h | h <;> simp only [Char.toNat] <;> omega
    rw [uEscape_data]
    exact scanString_unicode _ _ _ (hex4_uEscape h₉) hhigh
  · rw [if_neg h₉]
    obtain ⟨x, cs', rfl⟩ := List.exists_cons_of_ne_nil hcs
    have hlt : c.toNat < 0x110000 := by
      rcases c.valid with h | h <;> simp only [Char.toNat] <;> omega
    have hh := hex4_uEscape (show 0xd800 + (c.toNat - 0x10000) / 0x400 < 0x10000 by omega)
    have hl := hex4_uEscape (show 0xdc00 + (c.toNat - 0x10000) % 0x400 < 0x10000 by omega)
    rw [String.data_append, uEscape_data, uEscape_data]
    simp only [List.cons_append, List.nil_append]
    rw [scanString_pair _ _ _ _ hh hl (by omega) (by omega), joinSurrogates_pair (by omega) hlt]

theorem data_ite_ne_nil {p : Prop} [Decidable p] {a b : String} (ha : a.data ≠ []) (hb : b.data ≠ []) :
    (if p then a else b).data ≠ [] := by
  split <;> assumption

theorem escapeChar_ne_nil (c : Char) : (escapeChar c).data ≠ [] := by
  unfold escapeChar
  dsimp only
  repeat' apply data_ite_ne_nil
  all_goals simp [uEscape, String.data_append, Char.toString]

/-- An escaped string has at least as many characters as the string. -/
theorem length_le_escaped (cs : List Char) :
    cs.length ≤ (String.join (cs.map escapeChar)).data.length := by
  induction cs with
  | nil => simp
  | cons c cs ih =>
    have := List.length_pos.2 (escapeChar_ne_nil c)
    simp only [List.map_cons, String.data_join, List.flatten_cons, List.length_append,
      List.length_cons] at ih ⊢
    omega

theorem encodeStr_data (s : String) :
    (encodeStr s).data = '\x22' :: ((String.join (s.data.map escapeChar)).data ++ ['\x22']) := by
  simp [encodeStr, String.data_append]

/-- The string loop reads the escaped characters of `cs` and the closing quote back as
the code points of `cs`. -/
theorem scanString_escaped (begin : Nat) (rest : List Char) :
    ∀ (cs : List Char) (f : Nat), cs.length < f →
      scanString begin f ((String.join (cs.map escapeChar)).data ++ '\x22' :: rest) =
        .ok (cs.map Char.toNat, rest)
  | [], f + 1, _ => rfl
  | c :: cs, f + 1, h => by
    have hjoin : (String.join ((c :: cs).map escapeChar)).data =
        (escapeChar c).data ++ (String.join (cs.map escapeChar)).data := by
      simp [String.data_join]
    rw [hjoin, List.append_assoc, scanString_escapeChar _ _ _ (by simp),
      scanString_escaped begin rest cs f (by simp at h; omega)]
    rfl

/-! ## The text of a value -/

/-- A character a value's text may begin with: not whitespace, not a closing bracket
and not a byte-order mark. -/
def OpensValue (c : Char) : Prop :=
  isWhitespace c = false ∧ c ≠ ']' ∧ c ≠ '\x7d' ∧ c ≠ '\ufeff'

instance (c : Char) : Decidable (OpensValue c) := inferInstanceAs (Decidable (_ ∧ _))

theorem ne_of_isDigit {c d : Char} (hc : c.isDigit = true) (hd : d.isDigit = false) : c ≠ d :=
  fun h => by rw [h, hd] at hc; cases hc

theorem opensValue_of_isDigit {c : Char} (hc : c.isDigit = true) : OpensValue c := by
  refine ⟨?_, ne_of_isDigit hc (by decide), ne_of_isDigit hc (by decide), ne_of_isDigit hc (by decide)⟩
  simp [isWhitespace, ne_of_isDigit hc (by decide : (' ').isDigit = false),
    ne_of_isDigit hc (by decide : ('\t').isDigit = false), ne_of_isDigit hc (by decide : ('\n').isDigit = false),
    ne_of_isDigit hc (by decide : ('\r').isDigit = false)]

theorem skipWs_of_opensValue {c : Char} (cs : List Char) (hc : OpensValue c) : skipWs (c :: cs) = c :: cs :=
  List.dropWhile_cons_of_neg (by simp [hc.1])

/-- A number begins with a digit, or with a minus and a digit. -/
theorem number_head {sign int : List Char} (rest : List Char) (hs : sign = [] ∨ sign = ['-'])
    (hi : int = ['0'] ∨ ∃ d ds, int = d :: ds ∧ d.isDigit = true ∧ d ≠ '0' ∧ ∀ c ∈ ds, c.isDigit = true) :
    ∃ c cs, sign ++ int ++ rest = c :: cs ∧
      (c.isDigit = true ∨ c = '-' ∧ ∃ d ds, cs = d :: ds ∧ d.isDigit = true) := by
  have hint : ∃ d ds, int = d :: ds ∧ d.isDigit = true := by
    rcases hi with rfl | ⟨d, ds, rfl, hd, -⟩
    · exact ⟨'0', [], rfl, rfl⟩
    · exact ⟨d, ds, rfl, hd⟩
  obtain ⟨d, ds, rfl, hd⟩ := hint
  rcases hs with rfl | rfl
  · exact ⟨d, _, rfl, .inl hd⟩
  · exact ⟨'-', _, rfl, .inr ⟨rfl, d, _, rfl, hd⟩⟩

theorem floatToken_head {t : List Char} (ht : FloatToken t) :
    ∃ c cs, t = c :: cs ∧ (c.isDigit = true ∨ c = '-' ∧ ∃ d ds, cs = d :: ds ∧ d.isDigit = true) := by
  obtain ⟨sign, int, frac, exp, rfl, hs, hi, -⟩ := ht
  simpa only [List.append_assoc] using number_head (frac ++ exp) hs hi

theorem toString_head (i : Int) :
    ∃ c cs, (toString i).data = c :: cs ∧
      (c.isDigit = true ∨ c = '-' ∧ ∃ d ds, cs = d :: ds ∧ d.isDigit = true) := by
  cases i with
  | ofNat m =>
    obtain ⟨-, hne, hd, -⟩ := toDigits_spec m
    obtain ⟨c, cs, hcs⟩ := List.exists_cons_of_ne_nil hne
    exact ⟨c, cs, hcs, .inl (hd c (by simp [hcs]))⟩
  | negSucc m =>
    obtain ⟨-, hne, hd, -⟩ := toDigits_spec (m + 1)
    obtain ⟨c, cs, hcs⟩ := List.exists_cons_of_ne_nil hne
    exact ⟨'-', _, rfl, .inr ⟨rfl, c, cs, hcs, hd c (by simp [hcs])⟩⟩

/-- The text of a value begins with a character that opens a value. -/
theorem encode_head {v : PyVal} {s : String} (h : encode v = .ok s)
    (hf : ∀ r ∈ v.floats, FloatToken r.data) : ∃ c cs, s.data = c :: cs ∧ OpensValue c := by
  have hnum : ∀ {t : List Char}, (∃ c cs, t = c :: cs ∧
      (c.isDigit = true ∨ c = '-' ∧ ∃ d ds, cs = d :: ds ∧ d.isDigit = true)) →
      ∃ c cs, t = c :: cs ∧ OpensValue c := by
    rintro t ⟨c, cs, rfl, hc | ⟨rfl, -⟩⟩
    · exact ⟨c, cs, rfl, opensValue_of_isDigit hc⟩
    · exact ⟨'-', cs, rfl, by decide⟩
  cases v with
  | none => cases h; exact ⟨_, _, rfl, by decide⟩
  | bool b => cases h; cases b <;> exact ⟨_, _, rfl, by decide⟩
  | int i => cases h; exact hnum (toString_head i)
  | float r =>
    simp only [encode, encodeFloat] at h
    split at h
    · cases h
    · cases h; exact hnum (floatToken_head (hf _ (by simp [PyVal.floats])))
  | str s => cases h; exact ⟨_, _, encodeStr_data s, by decide⟩
  | list xs | tuple xs =>
    obtain ⟨ss, -, h⟩ := except_bind_eq_ok.1 h
    cases h
    exact ⟨'[', (",".intercalate ss).data ++ [']'], by simp [String.data_append], by decide⟩
  | dict d =>
    obtain ⟨ss, -, h⟩ := except_bind_eq_ok.1 h
    cases h
    exact ⟨'\x7b', (",".intercalate ss).data ++ ['\x7d'], by simp [String.data_append], by decide⟩
  | data | dumps | dumpRaises | object => cases h

theorem matchConstant_number {c : Char} {cs : List Char}
    (hc : c.isDigit = true ∨ c = '-' ∧ ∃ d ds, cs = d :: ds ∧ d.isDigit = true) :
    matchConstant (c :: cs) = none := by
  rcases hc with hc | ⟨rfl, d, ds, rfl, hd⟩
  · have h : ∀ x : Char, x.isDigit = false → ∀ r, c :: cs = x :: r → False :=
      fun x hx _ he => ne_of_isDigit hc hx (List.cons.inj he).1
    exact matchConstant.eq_7 _ (h 'n' (by decide)) (h 't' (by decide)) (h 'f' (by decide))
      (h 'N' (by decide)) (h 'I' (by decide)) (h '-' (by decide))
  · rw [matchConstant.eq_6, dropPrefix?, if_neg (ne_of_isDigit hd (by decide)).symm]; rfl

/-! ## The text of arrays and objects -/

theorem encodeList_cons_ok {x : PyVal} {xs : List PyVal} {ss : List String}
    (h : encode.encodeList (x :: xs) = .ok ss) :
    ∃ s ss', encode x = .ok s ∧ encode.encodeList xs = .ok ss' ∧ ss = s :: ss' := by
  obtain ⟨s, hs, h⟩ := except_bind_eq_ok.1 h
  obtain ⟨ss', hss', h⟩ := except_bind_eq_ok.1 h
  exact ⟨s, ss', hs, hss', (Except.ok.inj h).symm⟩

theorem encodeDict_cons_ok {k : PyKey} {v : PyVal} {d : Dict} {ss : List String}
    (h : encode.encodeDict ((k, v) :: d) = .ok ss) :
    ∃ ks vs ss', encodeKey k = .ok ks ∧ encode v = .ok vs ∧ encode.encodeDict d = .ok ss' ∧
      ss = (encodeStr ks ++ ":" ++ vs) :: ss' := by
  obtain ⟨ks, hks, h⟩ := except_bind_eq_ok.1 h
  obtain ⟨vs, hvs, h⟩ := except_bind_eq_ok.1 h
  obtain ⟨ss', hss', h⟩ := except_bind_eq_ok.1 h
  exact ⟨ks, vs, ss', hks, hvs, hss', (Except.ok.inj h).symm⟩

/-- The text between the brackets of an array or a dict: the first piece, then a
comma before each other piece. -/
theorem intercalate_cons_data (s : String) (ts : List String) :
    (",".intercalate (s :: ts)).data = s.data ++ (ts.map fun t => ",".data ++ t.data).flatten :=
  intercalate_go_data s "," ts

theorem intercalate_cons_cons_data (s t : String) (ts : List String) :
    (",".intercalate (s :: t :: ts)).data = s.data ++ ',' :: (",".intercalate (t :: ts)).data := by
  simp [intercalate_cons_data]

/-- The items of an array begin as the first item does. -/
theorem items_head {s : String} {c : Char} {cs : List Char} (hcs : s.data = c :: cs)
    (ss : List String) (tl : List Char) :
    ∃ tl', (",".intercalate (s :: ss)).data ++ tl = c :: tl' :=
  ⟨_, by rw [intercalate_cons_data, hcs, List.cons_append, List.cons_append]⟩

/-- A member `"key":value` and the text after it. -/
theorem member_append (ks vs : String) (tl : List Char) :
    (encodeStr ks ++ ":" ++ vs).data ++ tl =
      '\x22' :: ((String.join (ks.data.map escapeChar)).data ++ '\x22' :: ':' :: (vs.data ++ tl)) := by
  simp [encodeStr, String.data_append]

/-- The members of an object begin with the quote of the first key. -/
theorem members_head (ks vs : String) (ss : List String) (tl : List Char) :
    ∃ tl', (",".intercalate ((encodeStr ks ++ ":" ++ vs) :: ss)).data ++ tl = '\x22' :: tl' :=
  ⟨_, by rw [intercalate_cons_data, List.append_assoc, member_append]⟩

section RoundTrip

variable (floatRepr : String → String)

/-- A number's text: the scanner reads it as its token says. -/
theorem scanOnce_number {t rest : List Char} {b : Bool} (m : Nat)
    (ht : ∃ c cs, t = c :: cs ∧ (c.isDigit = true ∨ c = '-' ∧ ∃ d ds, cs = d :: ds ∧ d.isDigit = true))
    (hm : matchNumber (t ++ rest) = some (t, b, rest)) :
    scanOnce floatRepr (m + 1) (t ++ rest) = .ok (numberValue floatRepr t b, rest) := by
  obtain ⟨c, cs, rfl, hc⟩ := ht
  have hne : ∀ x : Char, x.isDigit = false → x ≠ '-' → c ≠ x := fun x hx hx' h => by
    rcases hc with hc | ⟨rfl, -⟩
    · exact ne_of_isDigit hc hx h
    · exact hx' h.symm
  rw [List.cons_append, scanOnce.eq_5 _ _ _
    (fun _ h => hne '\x22' (by decide) (by decide) (List.cons.inj h).1)
    (fun _ h => hne '\x7b' (by decide) (by decide) (List.cons.inj h).1)
    (fun _ h => hne '[' (by decide) (by decide) (List.cons.inj h).1),
    matchConstant_number (by rcases hc with hc | ⟨rfl, d, ds, rfl, hd⟩ <;> simp_all), ← List.cons_append, hm]
  rfl

theorem skipWs_delim {c : Char} (rest : List Char) (hc : c = ',' ∨ c = ':' ∨ c = ']' ∨ c = '\x7d') :
    skipWs (c :: rest) = c :: rest :=
  List.dropWhile_cons_of_neg (by rcases hc with rfl | rfl | rfl | rfl <;> decide)

/-- `[` and what follows it: the items after the whitespace, unless a closing bracket
comes first. -/
theorem scanOnce_array_skipWs (m : Nat) {cs : List Char} (hc : ∀ c ∈ (skipWs cs).head?, c ≠ ']') :
    scanOnce floatRepr (m + 1) ('[' :: cs) =
      (arrayItems floatRepr m (skipWs cs)).map fun p => (.arr p.1, p.2) := by
  rw [scanOnce.eq_4]
  split
  · rename_i h; exact absurd rfl (hc ']' (by rw [h]; rfl))
  · rcases arrayItems floatRepr m (skipWs cs) with e | ⟨xs, r⟩ <;> rfl

/-- `[` followed by the text of an item. -/
theorem scanOnce_array (m : Nat) {c : Char} (tl : List Char) (hc : OpensValue c) :
    scanOnce floatRepr (m + 1) ('[' :: c :: tl) =
      (arrayItems floatRepr m (c :: tl)).map fun p => (.arr p.1, p.2) := by
  rw [scanOnce_array_skipWs floatRepr m (by rw [skipWs_of_opensValue _ hc]; rintro _ ⟨⟩; exact hc.2.1),
    skipWs_of_opensValue _ hc]

/-- The opening brace and what follows it: the members after the whitespace, unless
a closing brace comes first. -/
theorem scanOnce_object_skipWs (m : Nat) {cs : List Char} (hc : ∀ c ∈ (skipWs cs).head?, c ≠ '\x7d') :
    scanOnce floatRepr (m + 1) ('\x7b' :: cs) =
      (objectItems floatRepr m (skipWs cs)).map fun p => (.obj p.1, p.2) := by
  rw [scanOnce.eq_3]
  split
  · rename_i h; exact absurd rfl (hc '\x7d' (by rw [h]; rfl))
  · rcases objectItems floatRepr m (skipWs cs) with e | ⟨ms, r⟩ <;> rfl

/-- The opening brace followed by the text of a member. -/
theorem scanOnce_object (m : Nat) {c : Char} (tl : List Char) (hc : OpensValue c) :
    scanOnce floatRepr (m + 1) ('\x7b' :: c :: tl) =
      (objectItems floatRepr m (c :: tl)).map fun p => (.obj p.1, p.2) := by
  rw [scanOnce_object_skipWs floatRepr m (by rw [skipWs_of_opensValue _ hc]; rintro _ ⟨⟩; exact hc.2.2.1),
    skipWs_of_opensValue _ hc]

/-- An item, then whitespace and the closing bracket, ends the array. -/
theorem arrayItems_close (m : Nat) {cs t : List Char} {v : JsonVal} (rest : List Char)
    (h : scanOnce floatRepr m cs = .ok (v, t)) (ht : skipWs t = ']' :: rest) :
    arrayItems floatRepr (m + 1) cs = .ok ([v], rest) := by
  simp only [arrayItems, h, except_ok_bind, ht]; rfl

/-- An item, then whitespace and a comma, goes on to the next item. -/
theorem arrayItems_next (m : Nat) {cs t t' : List Char} {v : JsonVal}
    (h : scanOnce floatRepr m cs = .ok (v, t)) (ht : skipWs t = ',' :: t') :
    arrayItems floatRepr (m + 1) cs = (arrayItems floatRepr m (skipWs t')).map fun p => (v :: p.1, p.2) := by
  simp only [arrayItems, h, except_ok_bind, ht]
  rcases arrayItems floatRepr m (skipWs t') with e | ⟨xs, r⟩ <;> rfl

/-- An item followed by the closing bracket ends the array. -/
theorem arrayItems_last (m : Nat) {cs : List Char} {v : JsonVal} (rest : List Char)
    (h : scanOnce floatRepr m cs = .ok (v, ']' :: rest)) :
    arrayItems floatRepr (m + 1) cs = .ok ([v], rest) :=
  arrayItems_close floatRepr m rest h (skipWs_delim _ (.inr (.inr (.inl rfl))))

/-- An item followed by a comma goes on to the next. -/
theorem arrayItems_comma (m : Nat) {cs : List Char} {v : JsonVal} {c : Char} (tl : List Char)
    (h : scanOnce floatRepr m cs = .ok (v, ',' :: c :: tl)) (hc : OpensValue c) :
    arrayItems floatRepr (m + 1) cs = (arrayItems floatRepr m (c :: tl)).map fun p => (v :: p.1, p.2) := by
  rw [arrayItems_next floatRepr m h (skipWs_delim _ (.inl rfl)), skipWs_of_opensValue _ hc]

/-- A member, its key read up to a colon and its value up to the closing brace, each
after whitespace, ends the object. -/
theorem objectItems_close (m : Nat) {kcs t t' u rest : List Char} {k : List Nat} {v : JsonVal}
    (hk : scanString (kcs.length + 1) m kcs = .ok (k, t)) (ht : skipWs t = ':' :: t')
    (hv : scanOnce floatRepr m (skipWs t') = .ok (v, u)) (hu : skipWs u = '\x7d' :: rest) :
    objectItems floatRepr (m + 1) ('\x22' :: kcs) = .ok ([(k, v)], rest) := by
  simp only [objectItems.eq_2, hk, except_ok_bind, ht, hv, hu]; rfl

/-- A member, then whitespace and a comma, goes on to the next member. -/
theorem objectItems_next (m : Nat) {kcs t t' u u' : List Char} {k : List Nat} {v : JsonVal}
    (hk : scanString (kcs.length + 1) m kcs = .ok (k, t)) (ht : skipWs t = ':' :: t')
    (hv : scanOnce floatRepr m (skipWs t') = .ok (v, u)) (hu : skipWs u = ',' :: u') :
    objectItems floatRepr (m + 1) ('\x22' :: kcs) =
      (objectItems floatRepr m (skipWs u')).map fun p => ((k, v) :: p.1, p.2) := by
  simp only [objectItems.eq_2, hk, except_ok_bind, ht, hv, hu]
  rcases objectItems floatRepr m (skipWs u') with e | ⟨ms, r⟩ <;> rfl

/-- A member, its key read up to a colon and its value up to the closing brace, ends
the object. -/
theorem objectItems_last (m : Nat) {kcs tl rest : List Char} {k : List Nat} {v : JsonVal}
    (hk : scanString (kcs.length + 1) m kcs = .ok (k, ':' :: tl)) (htl : skipWs tl = tl)
    (hv : scanOnce floatRepr m tl = .ok (v, '\x7d' :: rest)) :
    objectItems floatRepr (m + 1) ('\x22' :: kcs) = .ok ([(k, v)], rest) :=
  objectItems_close floatRepr m hk (skipWs_delim _ (.inr (.inl rfl))) (by rw [htl]; exact hv)
    (skipWs_delim _ (.inr (.inr (.inr rfl))))

/-- A member followed by a comma goes on to the next. -/
theorem objectItems_comma (m : Nat) {kcs tl tl' : List Char} {k : List Nat} {v : JsonVal} {c : Char}
    (hk : scanString (kcs.length + 1) m kcs = .ok (k, ':' :: tl)) (htl : skipWs tl = tl)
    (hv : scanOnce floatRepr m tl = .ok (v, ',' :: c :: tl')) (hc : OpensValue c) :
    objectItems floatRepr (m + 1) ('\x22' :: kcs) =
      (objectItems floatRepr m (c :: tl')).map fun p => ((k, v) :: p.1, p.2) := by
  rw [objectItems_next floatRepr m hk (skipWs_delim _ (.inr (.inl rfl))) (by rw [htl]; exact hv) (skipWs_delim _ (.inl rfl)),
    skipWs_of_opensValue _ hc]

/-! ## The scanner reads the encoder's text -/

mutual

/-- The text of a value, followed by anything that may follow a value, scans to the
term written for it, with enough fuel: twice the length of what is left. -/
theorem scanOnce_encode : ∀ (v : PyVal) {s : String}, encode v = .ok s →
    (∀ r ∈ v.floats, FloatToken r.data ∧ floatRepr r = r) →
    ∀ (n : Nat) (rest : List Char), followsValue rest = true → 2 * (s.data ++ rest).length < n →
      scanOnce floatRepr n (s.data ++ rest) = .ok (v.wire, rest)
  | _, _, _, _, 0, _, _, hn => absurd hn (Nat.not_lt_zero _)
  | .none, _, h, _, m + 1, rest, _, _ => by cases h; rfl
  | .bool b, _, h, _, m + 1, rest, _, _ => by cases h; cases b <;> rfl
  | .int i, _, h, _, m + 1, rest, hr, _ => by
    cases h
    obtain ⟨hm, hi⟩ := matchNumber_toString i hr
    rw [scanOnce_number floatRepr m (toString_head i) hm, numberValue, if_neg Bool.false_ne_true, hi]
    rfl
  | .float r, _, h, hf, m + 1, rest, hr, _ => by
    simp only [encode, encodeFloat] at h
    split at h
    · cases h
    cases h
    obtain ⟨ht, hrepr⟩ := hf r (by simp [PyVal.floats])
    rw [scanOnce_number floatRepr m (floatToken_head ht) (matchNumber_floatToken ht hr)]
    simp [numberValue, hrepr, PyVal.wire]
  | .str s, _, h, _, m + 1, rest, _, hn => by
    cases h
    have hlen := length_le_escaped s.data
    simp only [encodeStr_data, List.cons_append, List.append_assoc, List.singleton_append,
      List.length_cons, List.length_append] at hn ⊢
    rw [scanOnce.eq_2, scanString_escaped _ _ _ _ (by omega)]
    rfl
  | .list xs, _, h, hf, m + 1, rest, _, hn | .tuple xs, _, h, hf, m + 1, rest, _, hn => by
    obtain ⟨ss, hss, h⟩ := except_bind_eq_ok.1 h
    cases h
    rcases xs with _ | ⟨x, xs⟩
    · cases hss; rfl
    obtain ⟨s, ss', hs, -, rfl⟩ := encodeList_cons_ok hss
    obtain ⟨c, cs, hcs, hc⟩ := encode_head hs fun r hr => (hf r (List.mem_append_left _ hr)).1
    obtain ⟨tl, hJ⟩ := items_head hcs ss' (']' :: rest)
    have htext : ("[" ++ ",".intercalate (s :: ss') ++ "]").data ++ rest =
        '[' :: ((",".intercalate (s :: ss')).data ++ ']' :: rest) := by
      simp [String.data_append]
    rw [htext] at hn ⊢
    rw [hJ, scanOnce_array floatRepr m _ hc, ← hJ,
      arrayItems_encode _ (List.cons_ne_nil _ _) hss hf m rest (by simp at hn ⊢; omega)]
    rfl
  | .dict d, _, h, hf, m + 1, rest, _, hn => by
    obtain ⟨ss, hss, h⟩ := except_bind_eq_ok.1 h
    cases h
    rcases d with _ | ⟨⟨k, v⟩, d⟩
    · cases hss; rfl
    obtain ⟨ks, vs, ss', -, -, -, rfl⟩ := encodeDict_cons_ok hss
    obtain ⟨tl, hJ⟩ := members_head ks vs ss' ('\x7d' :: rest)
    have htext : ("\x7b" ++ ",".intercalate ((encodeStr ks ++ ":" ++ vs) :: ss') ++ "\x7d").data ++ rest =
        '\x7b' :: ((",".intercalate ((encodeStr ks ++ ":" ++ vs) :: ss')).data ++ '\x7d' :: rest) := by
      simp [String.data_append]
    rw [htext] at hn ⊢
    rw [hJ, scanOnce_object floatRepr m _ (by decide), ← hJ,
      objectItems_encode _ (List.cons_ne_nil _ _) hss hf m rest (by simp at hn ⊢; omega)]
    rfl
  | .data .., _, h, _, _ + 1, _, _, _ | .dumps .., _, h, _, _ + 1, _, _, _
  | .dumpRaises .., _, h, _, _ + 1, _, _, _ | .object .., _, h, _, _ + 1, _, _, _ => by cases h

/-- The items of an array, followed by the closing bracket, scan to their terms. -/
theorem arrayItems_encode : ∀ (xs : List PyVal) {ss : List String}, xs ≠ [] →
    encode.encodeList xs = .ok ss →
    (∀ r ∈ PyVal.floats.floatsList xs, FloatToken r.data ∧ floatRepr r = r) →
    ∀ (n : Nat) (rest : List Char), 2 * ((",".intercalate ss).data ++ ']' :: rest).length + 1 < n →
      arrayItems floatRepr n ((",".intercalate ss).data ++ ']' :: rest) = .ok (PyVal.wire.wireList xs, rest)
  | [], _, hne, _, _, _, _, _ => absurd rfl hne
  | _ :: _, _, _, _, _, 0, _, hn => absurd hn (Nat.not_lt_zero _)
  | x :: xs, ss, _, h, hf, m + 1, rest, hn => by
    obtain ⟨s, ss', hs, hss', rfl⟩ := encodeList_cons_ok h
    have hfx : ∀ r ∈ x.floats, FloatToken r.data ∧ floatRepr r = r :=
      fun r hr => hf r (List.mem_append_left _ hr)
    obtain ⟨c₀, cs₀, hcs₀, -⟩ := encode_head hs fun r hr => (hfx r hr).1
    rcases xs with _ | ⟨y, ys⟩
    · cases hss'
      have hJ : (",".intercalate [s]).data = s.data := rfl
      rw [hJ] at hn ⊢
      rw [arrayItems_last floatRepr m rest (scanOnce_encode x hs hfx m _ rfl (by omega))]
      rfl
    · obtain ⟨t, ts, ht, -, rfl⟩ := encodeList_cons_ok hss'
      have hfxs : ∀ r ∈ PyVal.floats.floatsList (y :: ys), FloatToken r.data ∧ floatRepr r = r :=
        fun r hr => hf r (List.mem_append_right _ hr)
      obtain ⟨c, cs, hcs, hc⟩ := encode_head ht fun r hr => (hfxs r (List.mem_append_left _ hr)).1
      obtain ⟨tl, hJ⟩ := items_head hcs ts (']' :: rest)
      rw [intercalate_cons_cons_data, List.append_assoc, List.cons_append, hJ] at hn ⊢
      rw [arrayItems_comma floatRepr m _ (scanOnce_encode x hs hfx m _ rfl (by simp at hn ⊢; omega)) hc, ← hJ,
        arrayItems_encode _ (List.cons_ne_nil _ _) hss' hfxs m rest (by rw [hJ, hcs₀] at *; simp at hn ⊢; omega)]
      rfl

/-- The members of an object, followed by the closing brace, scan to their keys' code
points and their values' terms. -/
theorem objectItems_encode : ∀ (d : Dict) {ss : List String}, d ≠ [] →
    encode.encodeDict d = .ok ss →
    (∀ r ∈ PyVal.floats.floatsDict d, FloatToken r.data ∧ floatRepr r = r) →
    ∀ (n : Nat) (rest : List Char), 2 * ((",".intercalate ss).data ++ '\x7d' :: rest).length + 1 < n →
      objectItems floatRepr n ((",".intercalate ss).data ++ '\x7d' :: rest) = .ok (PyVal.wire.wireDict d, rest)
  | [], _, hne, _, _, _, _, _ => absurd rfl hne
  | _ :: _, _, _, _, _, 0, _, hn => absurd hn (Nat.not_lt_zero _)
  | (k, v) :: d, ss, _, h, hf, m + 1, rest, hn => by
    obtain ⟨ks, vs, ss', hks, hvs, hss', rfl⟩ := encodeDict_cons_ok h
    obtain rfl := encodeKey_eq_jsonText hks
    have hfv : ∀ r ∈ v.floats, FloatToken r.data ∧ floatRepr r = r :=
      fun r hr => hf r (List.mem_append_left _ hr)
    obtain ⟨c₀, cs₀, hcs₀, hc₀⟩ := encode_head hvs fun r hr => (hfv r hr).1
    have hws : ∀ tl, skipWs (vs.data ++ tl) = vs.data ++ tl := fun tl => by
      rw [hcs₀]; exact skipWs_of_opensValue _ hc₀
    have hlen := length_le_escaped k.jsonText.data
    rcases d with _ | ⟨⟨k', v'⟩, d⟩
    · cases hss'
      have hJ : (",".intercalate [encodeStr k.jsonText ++ ":" ++ vs]).data ++ '\x7d' :: rest = _ :=
        member_append _ vs ('\x7d' :: rest)
      rw [hJ] at hn ⊢
      have hkey : k.jsonText.data.length < m := by
        simp only [List.length_cons, List.length_append] at hn; omega
      rw [objectItems_last floatRepr m (scanString_escaped _ _ _ m hkey) (hws _)
        (scanOnce_encode v hvs hfv m _ rfl (by simp at hn ⊢; omega))]
      rfl
    · obtain ⟨ks', vs', ss'', -, -, -, rfl⟩ := encodeDict_cons_ok hss'
      obtain ⟨tl, hJ⟩ := members_head ks' vs' ss'' ('\x7d' :: rest)
      rw [intercalate_cons_cons_data, List.append_assoc, List.cons_append, hJ, member_append] at hn ⊢
      have hkey : k.jsonText.data.length < m := by
        simp only [List.length_cons, List.length_append] at hn; omega
      rw [objectItems_comma floatRepr m (scanString_escaped _ _ _ m hkey) (hws _)
        (scanOnce_encode v hvs hfv m _ rfl (by simp at hn ⊢; omega)) (by decide), ← hJ,
        objectItems_encode _ (List.cons_ne_nil _ _) hss' (fun r hr => hf r (List.mem_append_right _ hr)) m rest
          (by rw [hJ]; simp at hn ⊢; omega)]
      rfl

end

/-- Every text `encode` writes is read back as `v.jsonNorm`, when each float `repr` is a
JSON number that `float` reads back as itself. -/
theorem unmarshal_encode {v : PyVal} {s : String} (hs : encode v = .ok s)
    (hf : ∀ r ∈ v.floats, FloatToken r.data ∧ floatRepr r = r) :
    unmarshal floatRepr s = some (.ok v.jsonNorm) := by
  obtain ⟨c, cs, hcs, hc⟩ := encode_head hs fun r hr => (hf r hr).1
  have hscan := scanOnce_encode floatRepr v hs hf (2 * s.data.length + 1) [] rfl (by simp)
  have hbom : s.data.head? ≠ some '\ufeff' := by
    rw [hcs]; exact fun h => hc.2.2.2 (Option.some.inj h)
  have hws : skipWs s.data = s.data := by rw [hcs]; exact skipWs_of_opensValue _ hc
  rw [List.append_nil] at hscan
  simp only [unmarshal, if_neg hbom, hws, hscan]
  rw [if_pos (show skipWs [] = [] from rfl), toPyVal_wire v ((encode_ok_iff v).1 ⟨s, hs⟩)]
  rfl

/-- `json.loads(marshal(v))`: every text `marshal` returns is read back, as `v.jsonNorm`,
when each float `repr` is a JSON number that `float` reads back as itself. -/
theorem unmarshal_marshal {v : PyVal} {s : String} (hs : marshal v = .ok s)
    (hf : ∀ r ∈ v.floats, FloatToken r.data ∧ floatRepr r = r) :
    unmarshal floatRepr s = some (.ok v.jsonNorm) :=
  unmarshal_encode floatRepr hs hf

/-- The key `1` and the key `'1'` are both written `"1"`: the dict read back has one
key, in the first one's place, with the last one's value; the tuple comes back a
list. -/
theorem unmarshal_marshal_collision :
    unmarshal id "\x7b\x221\x22:[1.5],\x221\x22:null\x7d" = some (.ok (.dict [(.str "1", .none)])) :=
  @unmarshal_marshal id (.dict [(.int 1, .tuple [.float "1.5"]), (.str "1", .none)]) _ rfl
    (by
      simp only [PyVal.floats, PyVal.floats.floatsDict, PyVal.floats.floatsList, List.append_nil,
        List.mem_singleton, forall_eq, id, and_true]
      exact ⟨[], ['1'], ['.', '5'], [], rfl, .inl rfl, .inr ⟨'1', [], rfl, by decide, by decide, by simp⟩,
        .inr ⟨['5'], rfl, by simp [Digits]⟩, .inl rfl, .inl (by simp)⟩)

end RoundTrip

end Telesync
