import Telesync.Core.RoundTrip
set_option autoImplicit false

/-!
# `unmarshal` accepts exactly the JSON texts

Source: `py/telesync/core.py`, `unmarshal` (lines 638-645), over the scanner of
`Telesync.Core.Unmarshal`.

THE GRAMMAR.  `Value cs v r` says that `cs` begins with the text of the term `v` and
that `r` follows it; `Items`, `Members` and `StrBody` say the same of the items of an
array with its closing bracket, of the members of an object with its closing brace,
and of the characters of a string with its closing quote.  It is the grammar of
RFC 8259 with the three words `json` adds, `NaN`, `Infinity` and `-Infinity`, and with
the control characters `strict=True` refuses inside strings.  A string's code points
are its characters and escapes decoded, a surrogate pair written as two `\u`
escapes possibly joined into one code point; a number stands for `int` of its text,
or `float` of it when it has a fraction or an exponent.

WHAT IS PROVED.  `unmarshal_sound`: whenever `unmarshal` returns a value, the text is
one value of the grammar with only whitespace around it and no byte order mark in
front, and the value is the Python object built from the term the text denotes.  The
scanner is sound function by function (`scanString_sound`, `matchNumber_sound`, and
`matchConstant_sound` of `Telesync.Core.Unmarshal` for the literals), and as a whole by
induction on the fuel (`scan_sound`).

`unmarshal_raises_iff`: `unmarshal` raises exactly on the texts that are not such a
document.  The other direction is completeness (`scan_complete`): the scanner reads
every text the grammar derives up to the same rest.  It does not track the value, which
may differ from the derivation's where the grammar reads a surrogate pair as two
escapes; it needs what follows a number to stop it, which in a document whitespace and
the delimiters do (`stopsNumber_of_ws`).
-/

namespace Telesync

/-! ## Whitespace -/

/-- `Ws cs r`: `cs` is JSON whitespace followed by `r`. -/
inductive Ws : List Char → List Char → Prop
  | nil (r : List Char) : Ws r r
  | cons {c : Char} {cs r : List Char} : isWhitespace c = true → Ws cs r → Ws (c :: cs) r

theorem ws_skipWs : ∀ cs : List Char, Ws cs (skipWs cs)
  | [] => .nil _
  | c :: cs => by
    by_cases hc : isWhitespace c = true
    · rw [skipWs, List.dropWhile_cons_of_pos hc]
      exact .cons hc (ws_skipWs cs)
    · rw [skipWs, List.dropWhile_cons_of_neg hc]
      exact .nil _

theorem ws_of_skipWs_eq {cs r : List Char} (h : skipWs cs = r) : Ws cs r := h ▸ ws_skipWs cs

/-! ## Numbers -/

/-- The integer part of a JSON number: `0`, or a digit other than `0` and digits. -/
def IntDigits (int : List Char) : Prop :=
  int = ['0'] ∨ ∃ d ds, int = d :: ds ∧ d.isDigit = true ∧ d ≠ '0' ∧ ∀ c ∈ ds, c.isDigit = true

/-- The fraction of a JSON number, if any: a point and digits. -/
def FracPart (frac : List Char) : Prop := frac = [] ∨ ∃ ds, frac = '.' :: ds ∧ Digits ds

/-- The exponent of a JSON number, if any: `e` or `E`, a sign or none, and digits. -/
def ExpPart (exp : List Char) : Prop :=
  exp = [] ∨ ∃ e sgn ds, exp = e :: sgn ++ ds ∧ (e = 'e' ∨ e = 'E') ∧
    (sgn = [] ∨ sgn = ['+'] ∨ sgn = ['-']) ∧ Digits ds

/-- A JSON number, and whether it has a fraction or an exponent. -/
def NumberToken (t : List Char) (isFloat : Bool) : Prop :=
  ∃ sign int frac exp : List Char, t = sign ++ int ++ frac ++ exp ∧ (sign = [] ∨ sign = ['-']) ∧
    IntDigits int ∧ FracPart frac ∧ ExpPart exp ∧ isFloat = !(frac.isEmpty && exp.isEmpty)

theorem span_isDigit (cs : List Char) :
    cs = cs.takeWhile Char.isDigit ++ cs.dropWhile Char.isDigit ∧
      ∀ c ∈ cs.takeWhile Char.isDigit, c.isDigit = true :=
  ⟨(List.takeWhile_append_dropWhile _ _).symm, fun _ hc => List.mem_takeWhile_imp hc⟩

theorem matchIntPart_sound {cs int r : List Char} (h : matchIntPart cs = some (int, r)) :
    cs = int ++ r ∧ IntDigits int := by
  rcases cs with _ | ⟨c, cs⟩
  · cases h
  by_cases h0 : c = '0'
  · subst h0
    cases h
    exact ⟨rfl, .inl rfl⟩
  rw [matchIntPart.eq_2 _ _ h0] at h
  split_ifs at h with hd
  cases h
  exact ⟨by rw [List.cons_append, ← (span_isDigit cs).1], .inr ⟨c, _, rfl, hd, h0, (span_isDigit cs).2⟩⟩

theorem matchFrac_sound (cs : List Char) : FracPart (matchFrac cs).1 := by
  unfold matchFrac
  split
  · split_ifs with hd
    · exact .inr ⟨_, rfl, List.cons_ne_nil _ _, List.forall_mem_cons.2 ⟨hd, (span_isDigit _).2⟩⟩
    · exact .inl rfl
  · exact .inl rfl

theorem matchExp_sound (cs : List Char) : ExpPart (matchExp cs).1 := by
  unfold matchExp
  split
  · rename_i e c cs
    dsimp only
    split_ifs with hs hE hE
    · simp only [Bool.and_eq_true, Bool.or_eq_true, beq_iff_eq, Bool.not_eq_true', List.isEmpty_eq_false] at hs hE
      exact .inr ⟨e, [c], _, rfl, hE.1, by rcases hs.1 with rfl | rfl <;> simp, hE.2, (span_isDigit _).2⟩
    · exact .inl rfl
    · simp only [Bool.and_eq_true, Bool.or_eq_true, beq_iff_eq, Bool.not_eq_true', List.isEmpty_eq_false] at hE
      exact .inr ⟨e, [], _, rfl, hE.1, .inl rfl, hE.2, (span_isDigit _).2⟩
    · exact .inl rfl
  · exact .inl rfl

/-- A number after its sign: the integer part, the fraction and the exponent. -/
theorem matchUnsigned_sound {cs t r : List Char} {b : Bool} (h : matchUnsigned cs = some (t, b, r)) :
    cs = t ++ r ∧ ∃ int frac exp, t = int ++ frac ++ exp ∧ IntDigits int ∧ FracPart frac ∧
      ExpPart exp ∧ b = !(frac.isEmpty && exp.isEmpty) := by
  obtain ⟨⟨i, r'⟩, hi, h⟩ := Option.map_eq_some'.1 h
  obtain ⟨hcs, hint⟩ := matchIntPart_sound hi
  simp only [Prod.mk.injEq] at h
  obtain ⟨rfl, rfl, rfl⟩ := h
  refine ⟨?_, i, _, _, rfl, hint, matchFrac_sound r', matchExp_sound _, rfl⟩
  rw [hcs, List.append_assoc, List.append_assoc, ← matchExp_eq, ← matchFrac_eq]

/-- The scanner reads a number only where the text has one. -/
theorem matchNumber_sound {cs t r : List Char} {b : Bool} (h : matchNumber cs = some (t, b, r)) :
    cs = t ++ r ∧ NumberToken t b := by
  unfold matchNumber at h
  split at h
  · obtain ⟨⟨t', b', r'⟩, ht, h⟩ := Option.map_eq_some'.1 h
    simp only [Prod.mk.injEq] at h
    obtain ⟨rfl, rfl, rfl⟩ := h
    obtain ⟨hcs, int, frac, exp, rfl, hi, hf, he, hb⟩ := matchUnsigned_sound ht
    exact ⟨by rw [hcs]; rfl, ['-'], int, frac, exp, by simp, .inr rfl, hi, hf, he, hb⟩
  · obtain ⟨hcs, int, frac, exp, rfl, hi, hf, he, hb⟩ := matchUnsigned_sound h
    exact ⟨hcs, [], int, frac, exp, rfl, .inl rfl, hi, hf, he, hb⟩

/-! ## Strings -/

/-- `StrBody cs ns r`: `cs` is the text of a string after its opening quote, up to its
closing quote, `ns` its code points and `r` what follows.  A character other than
the quote, the backslash and a control character stands for itself, a short escape
or a `\u` escape for its code point, and a `\u` escape of a high surrogate followed
by one of a low surrogate may stand for the code point of the pair. -/
inductive StrBody : List Char → List Nat → List Char → Prop
  | close (r : List Char) : StrBody ('\x22' :: r) [] r
  | char {c : Char} {cs r : List Char} {ns : List Nat} : c ≠ '\x22' → c ≠ '\\' → 0x1f < c.toNat →
      StrBody cs ns r → StrBody (c :: cs) (c.toNat :: ns) r
  | escape {e d : Char} {cs r : List Char} {ns : List Nat} : shortEscape e = some d →
      StrBody cs ns r → StrBody ('\\' :: e :: cs) (d.toNat :: ns) r
  | unicode {a b c d : Char} {h : Nat} {cs r : List Char} {ns : List Nat} : hex4 a b c d = some h →
      StrBody cs ns r → StrBody ('\\' :: 'u' :: a :: b :: c :: d :: cs) (h :: ns) r
  | pair {a b c d g₁ g₂ g₃ g₄ : Char} {h l : Nat} {cs r : List Char} {ns : List Nat} :
      hex4 a b c d = some h → 0xd800 ≤ h ∧ h ≤ 0xdbff → hex4 g₁ g₂ g₃ g₄ = some l →
      0xdc00 ≤ l ∧ l ≤ 0xdfff → StrBody cs ns r →
      StrBody ('\\' :: 'u' :: a :: b :: c :: d :: '\\' :: 'u' :: g₁ :: g₂ :: g₃ :: g₄ :: cs)
        (joinSurrogates h l :: ns) r

theorem consCode_eq_ok {c : Nat} {x : Except DecodeFail (List Nat × List Char)} {ns : List Nat}
    {r : List Char} (h : consCode c x = .ok (ns, r)) : ∃ ns', x = .ok (ns', r) ∧ ns = c :: ns' := by
  rcases x with e | ⟨ns', r'⟩
  · cases h
  · cases h
    exact ⟨ns', rfl, rfl⟩

/-- The string loop reads a string only where the text has one. -/
theorem scanString_sound (begin : Nat) : ∀ {f : Nat} {cs : List Char} {ns : List Nat} {r : List Char},
    scanString begin f cs = .ok (ns, r) → StrBody cs ns r
  | 0, _, _, _, h => by cases h
  | n + 1, cs, ns, r, h => by
    have ih : ∀ {cs ns r}, scanString begin n cs = .ok (ns, r) → StrBody cs ns r := scanString_sound begin
    unfold scanString at h
    split at h
    next => cases h
    next => cases h
    next => cases h; exact .close _
    next => cases h
    next n' a b c d e cs heq =>
      obtain rfl := Nat.succ.inj heq
      split at h
      next => cases h
      next hv hh =>
        split at h
        next g₁ g₂ g₃ g₄ x cs' =>
          by_cases hhigh : 0xd800 ≤ hv ∧ hv ≤ 0xdbff
          · rw [if_pos hhigh] at h
            split at h
            next => cases h
            next l hl =>
              by_cases hlow : 0xdc00 ≤ l ∧ l ≤ 0xdfff
              · rw [if_pos hlow] at h
                obtain ⟨ns', hx, rfl⟩ := consCode_eq_ok h
                exact .pair hh hhigh hl hlow (ih hx)
              · rw [if_neg hlow] at h
                obtain ⟨ns', hx, rfl⟩ := consCode_eq_ok h
                exact .unicode hh (ih hx)
          · rw [if_neg hhigh] at h
            obtain ⟨ns', hx, rfl⟩ := consCode_eq_ok h
            exact .unicode hh (ih hx)
        next =>
          obtain ⟨ns', hx, rfl⟩ := consCode_eq_ok h
          exact .unicode hh (ih hx)
    next => cases h
    next n' c cs _ _ heq =>
      obtain rfl := Nat.succ.inj heq
      split at h
      next d hd =>
        obtain ⟨ns', hx, rfl⟩ := consCode_eq_ok h
        exact .escape hd (ih hx)
      next => cases h
    next n' c cs hq hnil _ _ hcons heq =>
      obtain rfl := Nat.succ.inj heq
      split_ifs at h with hc
      obtain ⟨ns', hx, rfl⟩ := consCode_eq_ok h
      have hb : c ≠ '\\' := fun hb => by
        cases cs with
        | nil => exact hnil hb rfl
        | cons x xs => exact hcons x xs hb rfl
      exact .char hq hb (by omega) (ih hx)

/-! ## Values -/

section Grammar

variable (floatRepr : String → String)

mutual

/-- `Value cs v r`: `cs` begins with the text of the term `v`, and `r` follows it. -/
inductive Value : List Char → JsonVal → List Char → Prop
  | literal {cs r : List Char} {v : JsonVal} : Literal cs v r → Value cs v r
  | number {t r : List Char} {b : Bool} : NumberToken t b → Value (t ++ r) (numberValue floatRepr t b) r
  | str {cs r : List Char} {ns : List Nat} : StrBody cs ns r → Value ('\x22' :: cs) (.str ns) r
  | arrEmpty {cs r : List Char} : Ws cs (']' :: r) → Value ('[' :: cs) (.arr []) r
  | arr {cs t r : List Char} {vs : List JsonVal} : Ws cs t → Items t vs r → Value ('[' :: cs) (.arr vs) r
  | objEmpty {cs r : List Char} : Ws cs ('\x7d' :: r) → Value ('\x7b' :: cs) (.obj []) r
  | obj {cs t r : List Char} {ms : List (List Nat × JsonVal)} : Ws cs t → Members t ms r →
      Value ('\x7b' :: cs) (.obj ms) r

/-- `Items cs vs r`: `cs` begins with the items `vs` of an array, separated by commas,
then its closing bracket, and `r` follows. -/
inductive Items : List Char → List JsonVal → List Char → Prop
  | last {cs t r : List Char} {v : JsonVal} : Value cs v t → Ws t (']' :: r) → Items cs [v] r
  | cons {cs t t' t'' r : List Char} {v : JsonVal} {vs : List JsonVal} : Value cs v t →
      Ws t (',' :: t') → Ws t' t'' → Items t'' vs r → Items cs (v :: vs) r

/-- `Members cs ms r`: `cs` begins with the members `ms` of an object, each a string, a
colon and a value, separated by commas, then its closing brace, and `r` follows. -/
inductive Members : List Char → List (List Nat × JsonVal) → List Char → Prop
  | last {cs t t' t'' u r : List Char} {k : List Nat} {v : JsonVal} : StrBody cs k t →
      Ws t (':' :: t') → Ws t' t'' → Value t'' v u → Ws u ('\x7d' :: r) →
      Members ('\x22' :: cs) [(k, v)] r
  | cons {cs t t' t'' u u' u'' r : List Char} {k : List Nat} {v : JsonVal}
      {ms : List (List Nat × JsonVal)} : StrBody cs k t → Ws t (':' :: t') → Ws t' t'' →
      Value t'' v u → Ws u (',' :: u') → Ws u' u'' → Members u'' ms r →
      Members ('\x22' :: cs) ((k, v) :: ms) r

end

/-- A JSON document as `json.loads` reads one: no byte order mark in front, then
whitespace, one value, and whitespace to the end. -/
def Document (doc : List Char) (v : JsonVal) : Prop :=
  doc.head? ≠ some '\ufeff' ∧ ∃ t u, Ws doc t ∧ Value floatRepr t v u ∧ Ws u []

end Grammar

/-! ## The scanner is sound -/

section Sound

variable (floatRepr : String → String)

section Step

variable {n : Nat}
  (ihs : ∀ {cs r : List Char} {v : JsonVal}, scanOnce floatRepr n cs = .ok (v, r) → Value floatRepr cs v r)
  (iha : ∀ {cs r : List Char} {vs : List JsonVal}, arrayItems floatRepr n cs = .ok (vs, r) →
    Items floatRepr cs vs r)
  (iho : ∀ {cs r : List Char} {ms : List (List Nat × JsonVal)}, objectItems floatRepr n cs = .ok (ms, r) →
    Members floatRepr cs ms r)

include iha iho in
theorem scanOnce_sound_succ {cs r : List Char} {v : JsonVal}
    (h : scanOnce floatRepr (n + 1) cs = .ok (v, r)) : Value floatRepr cs v r := by
  unfold scanOnce at h
  split at h
  next => cases h
  next cs heq =>
    obtain rfl := Nat.succ.inj heq
    obtain ⟨⟨s, r'⟩, hs, h⟩ := except_bind_eq_ok.1 h
    cases h
    exact .str (scanString_sound _ hs)
  next cs heq =>
    obtain rfl := Nat.succ.inj heq
    split at h
    next r' hr =>
      cases h
      exact .objEmpty (ws_of_skipWs_eq hr)
    next =>
      obtain ⟨⟨ms, r'⟩, hms, h⟩ := except_bind_eq_ok.1 h
      cases h
      exact .obj (ws_skipWs cs) (iho hms)
  next cs heq =>
    obtain rfl := Nat.succ.inj heq
    split at h
    next r' hr =>
      cases h
      exact .arrEmpty (ws_of_skipWs_eq hr)
    next =>
      obtain ⟨⟨vs, r'⟩, hvs, h⟩ := except_bind_eq_ok.1 h
      cases h
      exact .arr (ws_skipWs cs) (iha hvs)
  next =>
    split at h
    next hc =>
      cases h
      exact .literal (matchConstant_sound hc)
    next =>
      split at h
      next hm =>
        cases h
        obtain ⟨rfl, ht⟩ := matchNumber_sound hm
        exact .number ht
      next => cases h

include ihs iha in
theorem arrayItems_sound_succ {cs r : List Char} {vs : List JsonVal}
    (h : arrayItems floatRepr (n + 1) cs = .ok (vs, r)) : Items floatRepr cs vs r := by
  rw [arrayItems] at h
  obtain ⟨⟨v, r₁⟩, hv, h⟩ := except_bind_eq_ok.1 h
  dsimp only at h
  split at h
  next hr =>
    cases h
    exact .last (ihs hv) (ws_of_skipWs_eq hr)
  next r₂ hr =>
    obtain ⟨⟨vs', r₃⟩, hvs, h⟩ := except_bind_eq_ok.1 h
    cases h
    exact .cons (ihs hv) (ws_of_skipWs_eq hr) (ws_skipWs r₂) (iha hvs)
  next => cases h

include ihs iho in
theorem objectItems_sound_succ {cs r : List Char} {ms : List (List Nat × JsonVal)}
    (h : objectItems floatRepr (n + 1) cs = .ok (ms, r)) : Members floatRepr cs ms r := by
  unfold objectItems at h
  split at h
  next => cases h
  next cs heq =>
    obtain rfl := Nat.succ.inj heq
    obtain ⟨⟨k, r₁⟩, hk, h⟩ := except_bind_eq_ok.1 h
    dsimp only at h
    split at h
    next r₂ hr₂ =>
      obtain ⟨⟨v, r₃⟩, hv, h⟩ := except_bind_eq_ok.1 h
      dsimp only at h
      split at h
      next hr₃ =>
        cases h
        exact .last (scanString_sound _ hk) (ws_of_skipWs_eq hr₂) (ws_skipWs r₂) (ihs hv)
          (ws_of_skipWs_eq hr₃)
      next r₄ hr₃ =>
        obtain ⟨⟨ms', r₅⟩, hms, h⟩ := except_bind_eq_ok.1 h
        cases h
        exact .cons (scanString_sound _ hk) (ws_of_skipWs_eq hr₂) (ws_skipWs r₂) (ihs hv)
          (ws_of_skipWs_eq hr₃) (ws_skipWs r₄) (iho hms)
      next => cases h
    next => cases h
  next => cases h

end Step

/-- **The scanner is sound.**  What a scan reads is the text of the term it returns. -/
theorem scan_sound : ∀ n,
    (∀ {cs r : List Char} {v : JsonVal}, scanOnce floatRepr n cs = .ok (v, r) → Value floatRepr cs v r) ∧
    (∀ {cs r : List Char} {vs : List JsonVal}, arrayItems floatRepr n cs = .ok (vs, r) →
      Items floatRepr cs vs r) ∧
    (∀ {cs r : List Char} {ms : List (List Nat × JsonVal)}, objectItems floatRepr n cs = .ok (ms, r) →
      Members floatRepr cs ms r)
  | 0 => ⟨fun h => (by cases h), fun h => (by cases h), fun h => (by cases h)⟩
  | n + 1 =>
    let ⟨ihs, iha, iho⟩ := scan_sound n
    ⟨scanOnce_sound_succ floatRepr iha iho, arrayItems_sound_succ floatRepr ihs iha,
      objectItems_sound_succ floatRepr ihs iho⟩

/-- **What `unmarshal` accepts is a JSON text.**  Whenever `unmarshal` returns a value,
the text is one JSON value with only whitespace around it and no byte order mark in
front, and the value returned is the Python object built from the term the text
denotes. -/
theorem unmarshal_sound {s : String} {pv : PyVal} (h : unmarshal floatRepr s = some (.ok pv)) :
    ∃ v, Document floatRepr s.data v ∧ v.toPyVal = some pv := by
  unfold unmarshal at h
  dsimp only at h
  by_cases hbom : s.data.head? = some '\ufeff'
  · rw [if_pos hbom] at h
    cases h
  rw [if_neg hbom] at h
  split at h
  next v r hscan =>
    by_cases hr : skipWs r = []
    · rw [if_pos hr] at h
      obtain ⟨pv', hpv, h⟩ := Option.map_eq_some'.1 h
      cases h
      exact ⟨v, ⟨hbom, _, r, ws_skipWs _, (scan_sound floatRepr _).1 hscan, ws_of_skipWs_eq hr⟩, hpv⟩
    · rw [if_neg hr] at h
      cases h
  next => cases h
  next => cases h

/-- A list with a number in two forms and a string. -/
theorem unmarshal_sound_list :
    unmarshal id " [1, 2.5e0, \x22a\x22] " = some (.ok (.list [.int 1, .float "2.5e0", .str "a"])) ∧
    ∃ v, Document id " [1, 2.5e0, \x22a\x22] ".data v ∧ v.toPyVal = some (.list [.int 1, .float "2.5e0", .str "a"]) :=
  ⟨rfl, @unmarshal_sound id _ _ rfl⟩

end Sound

/-! ## The scanner is complete -/

theorem StrBody.ne_nil {cs r : List Char} {ns : List Nat} (h : StrBody cs ns r) : cs ≠ [] := by
  cases h <;> exact List.cons_ne_nil _ _

/-- `skipWs` stops where a `Ws` does, when what follows is not whitespace. -/
theorem skipWs_eq_of_ws {cs t : List Char} (h : Ws cs t) (ht : ∀ c ∈ t.head?, isWhitespace c = false) :
    skipWs cs = t := by
  induction h with
  | nil r =>
    cases r with
    | nil => rfl
    | cons c r => exact List.dropWhile_cons_of_neg (by simp [ht c rfl])
  | cons hc _ ih => rw [skipWs, List.dropWhile_cons_of_pos hc]; exact ih ht

theorem skipWs_eq_of_opens {cs t : List Char} (h : Ws cs t) (ht : ∃ c u, t = c :: u ∧ OpensValue c) :
    skipWs cs = t := by
  obtain ⟨c, u, rfl, hc⟩ := ht
  exact skipWs_eq_of_ws h (by rintro _ ⟨⟩; exact hc.1)

/-- Whitespace stops a number, whatever comes after it. -/
theorem stopsNumber_of_ws {r t : List Char} (h : Ws r t) (ht : ∀ c ∈ t.head?, StopsNumber c) :
    ∀ c ∈ r.head?, StopsNumber c := by
  cases h with
  | nil => exact ht
  | cons hc _ =>
    rintro _ ⟨⟩
    simp only [isWhitespace, Bool.or_eq_true, beq_iff_eq] at hc
    rcases hc with ((rfl | rfl) | rfl) | rfl <;> decide

theorem stopsNumber_delim {c : Char} (u : List Char) (hc : c = ',' ∨ c = ']' ∨ c = '\x7d') :
    ∀ d ∈ (c :: u).head?, StopsNumber d := by
  rintro _ ⟨⟩
  rcases hc with rfl | rfl | rfl <;> decide

theorem numberToken_head {t : List Char} {b : Bool} (ht : NumberToken t b) :
    ∃ c cs, t = c :: cs ∧ (c.isDigit = true ∨ c = '-' ∧ ∃ d ds, cs = d :: ds ∧ d.isDigit = true) := by
  obtain ⟨sign, int, frac, exp, rfl, hs, hi, -⟩ := ht
  simpa only [List.append_assoc] using number_head (frac ++ exp) hs hi

/-- A number followed by what stops a number is read whole. -/
theorem matchNumber_numberToken {t r : List Char} {b : Bool} (ht : NumberToken t b)
    (hr : ∀ c ∈ r.head?, StopsNumber c) : matchNumber (t ++ r) = some (t, b, r) := by
  obtain ⟨sign, int, frac, exp, rfl, hs, hi, hf, he, rfl⟩ := ht
  exact matchNumber_parts hs hi hf he hr

section Heads

variable {floatRepr : String → String}

/-- The text of a value begins with a character that opens a value. -/
theorem Value.opens {cs r : List Char} {v : JsonVal} (h : Value floatRepr cs v r) :
    ∃ c u, cs = c :: u ∧ OpensValue c := by
  cases h with
  | literal hl => cases hl <;> exact ⟨_, _, rfl, by decide⟩
  | number ht =>
    obtain ⟨c, cs, he, hc⟩ := numberToken_head ht
    refine ⟨c, cs ++ _, by rw [he, List.cons_append], ?_⟩
    rcases hc with hc | ⟨rfl, -⟩
    · exact opensValue_of_isDigit hc
    · decide
  | str | arrEmpty | arr | objEmpty | obj => exact ⟨_, _, rfl, by decide⟩

theorem Items.opens {cs r : List Char} {vs : List JsonVal} (h : Items floatRepr cs vs r) :
    ∃ c u, cs = c :: u ∧ OpensValue c := by
  cases h with
  | last hv _ | cons hv _ _ _ => exact hv.opens

end Heads

/-- A short escape is one turn of the string loop. -/
theorem scanString_escape (begin n : Nat) {e d : Char} (cs : List Char) (hd : shortEscape e = some d) :
    scanString begin (n + 1) ('\\' :: e :: cs) = consCode d.toNat (scanString begin n cs) := by
  have hu : e ≠ 'u' := by rintro rfl; cases hd
  rw [scanString.eq_7 _ _ _ _ (fun _ _ _ _ _ _ h => absurd h hu) hu, hd]

/-- **The string loop is complete.**  Given more fuel than characters, it reads every
string the grammar derives, up to the same rest.  A high surrogate written before a
low one is joined with it whichever way the grammar read the two. -/
theorem scanString_complete (begin : Nat) {cs r : List Char} {ns : List Nat} (h : StrBody cs ns r) :
    ∀ f, cs.length < f → ∃ ns', scanString begin f cs = .ok (ns', r) := by
  induction h with
  | close r =>
    rintro (_ | f) hf
    · omega
    · exact ⟨[], rfl⟩
  | char hq hb hc _ ih =>
    rintro (_ | f) hf
    · omega
    obtain ⟨ns', h⟩ := ih f (by simp at hf; omega)
    exact ⟨_, by rw [scanString_plain _ _ _ hq hb hc, h, consCode_ok]⟩
  | escape hd _ ih =>
    rintro (_ | f) hf
    · omega
    obtain ⟨ns', h⟩ := ih f (by simp at hf; omega)
    exact ⟨_, by rw [scanString_escape _ _ _ hd, h, consCode_ok]⟩
  | @unicode a b c d h cs _ _ hh hd ih =>
    rintro (_ | f) hf
    · omega
    obtain ⟨e, cs, rfl⟩ := List.exists_cons_of_ne_nil hd.ne_nil
    obtain ⟨ns₀, h₀⟩ := ih f (by simp at hf ⊢; omega)
    by_cases hhigh : 0xd800 ≤ h ∧ h ≤ 0xdbff
    swap
    · exact ⟨_, by rw [scanString_unicode _ _ _ hh hhigh, h₀, consCode_ok]⟩
    -- a high surrogate: the loop looks for a low one written right after it
    obtain ⟨ns', h'⟩ := ih (f + 1) (by simp at hf ⊢; omega)
    rw [scanString.eq_5, hh]
    dsimp only
    split
    next g₁ g₂ g₃ g₄ x cs' =>
      rw [if_pos hhigh]
      split
      next hl => rw [scanString.eq_5, hl] at h'; cases h'
      next l hl =>
        split_ifs with hlow
        · rw [scanString_unicode _ _ _ hl (by omega)] at h'
          obtain ⟨ns'', hx, -⟩ := consCode_eq_ok h'
          exact ⟨_, by rw [hx, consCode_ok]⟩
        · exact ⟨_, by rw [h₀, consCode_ok]⟩
    next => exact ⟨_, by rw [h₀, consCode_ok]⟩
  | pair hh hhigh hl hlow hd ih =>
    rintro (_ | f) hf
    · omega
    obtain ⟨x, cs, rfl⟩ := List.exists_cons_of_ne_nil hd.ne_nil
    obtain ⟨ns', h⟩ := ih f (by simp at hf ⊢; omega)
    exact ⟨_, by rw [scanString_pair _ _ _ _ hh hl hhigh hlow, h, consCode_ok]⟩

section Complete

variable (floatRepr : String → String)

section Step

variable {n : Nat}
  (ihs : ∀ {cs r : List Char} {v : JsonVal}, Value floatRepr cs v r → (∀ c ∈ r.head?, StopsNumber c) →
    2 * cs.length < n → ∃ v', scanOnce floatRepr n cs = .ok (v', r))
  (iha : ∀ {cs r : List Char} {vs : List JsonVal}, Items floatRepr cs vs r → 2 * cs.length + 1 < n →
    ∃ vs', arrayItems floatRepr n cs = .ok (vs', r))
  (iho : ∀ {cs r : List Char} {ms : List (List Nat × JsonVal)}, Members floatRepr cs ms r →
    2 * cs.length + 1 < n → ∃ ms', objectItems floatRepr n cs = .ok (ms', r))

include iha iho in
theorem scanOnce_complete_succ {cs r : List Char} {v : JsonVal} (h : Value floatRepr cs v r)
    (hr : ∀ c ∈ r.head?, StopsNumber c) (hn : 2 * cs.length < n + 1) :
    ∃ v', scanOnce floatRepr (n + 1) cs = .ok (v', r) := by
  cases h with
  | literal hl => cases hl <;> exact ⟨_, rfl⟩
  | number ht => exact ⟨_, scanOnce_number floatRepr n (numberToken_head ht) (matchNumber_numberToken ht hr)⟩
  | str hb =>
    obtain ⟨ns, hs⟩ := scanString_complete _ hb n (by simp at hn; omega)
    exact ⟨_, by rw [scanOnce.eq_2, hs]; rfl⟩
  | arrEmpty hw => exact ⟨_, by rw [scanOnce.eq_4, skipWs_eq_of_ws hw (by rintro _ ⟨⟩; rfl)]; rfl⟩
  | @arr cs t _ _ hw hi =>
    have ht := skipWs_eq_of_opens hw hi.opens
    obtain ⟨c, u, rfl, hc⟩ := hi.opens
    have := length_skipWs_le cs
    obtain ⟨vs, hvs⟩ := iha hi (by rw [ht] at this; simp at hn this ⊢; omega)
    exact ⟨_, by rw [scanOnce_array_skipWs floatRepr n (by rw [ht]; rintro _ ⟨⟩; exact hc.2.1), ht, hvs]; rfl⟩
  | objEmpty hw => exact ⟨_, by rw [scanOnce.eq_3, skipWs_eq_of_ws hw (by rintro _ ⟨⟩; rfl)]; rfl⟩
  | @obj cs t _ _ hw hm =>
    obtain ⟨kcs, rfl⟩ : ∃ kcs, t = '\x22' :: kcs := by cases hm <;> exact ⟨_, rfl⟩
    have ht := skipWs_eq_of_ws hw (by rintro _ ⟨⟩; rfl)
    have := length_skipWs_le cs
    obtain ⟨ms, hms⟩ := iho hm (by rw [ht] at this; simp at hn this ⊢; omega)
    exact ⟨_, by rw [scanOnce_object_skipWs floatRepr n (by rw [ht]; rintro _ ⟨⟩; decide), ht, hms]; rfl⟩

include ihs iha in
theorem arrayItems_complete_succ {cs r : List Char} {vs : List JsonVal} (h : Items floatRepr cs vs r)
    (hn : 2 * cs.length + 1 < n + 1) : ∃ vs', arrayItems floatRepr (n + 1) cs = .ok (vs', r) := by
  cases h with
  | last hv hw =>
    obtain ⟨v', hs⟩ := ihs hv (stopsNumber_of_ws hw (stopsNumber_delim _ (.inr (.inl rfl)))) (by omega)
    exact ⟨_, arrayItems_close floatRepr n r hs (skipWs_eq_of_ws hw (by rintro _ ⟨⟩; rfl))⟩
  | @cons _ t t' t'' _ _ _ hv hw hw' hi =>
    obtain ⟨v', hs⟩ := ihs hv (stopsNumber_of_ws hw (stopsNumber_delim _ (.inl rfl))) (by omega)
    have ht := skipWs_eq_of_ws hw (by rintro _ ⟨⟩; rfl)
    have ht' := skipWs_eq_of_opens hw' hi.opens
    -- the item, the comma and the whitespace leave at least two characters fewer
    have h₁ := ((scan_progress floatRepr n).1 _ (by omega)).2 _ _ hs
    have h₂ := length_lt_of_skipWs_eq ht
    have h₃ := length_skipWs_le t'
    obtain ⟨vs', hvs⟩ := iha hi (by rw [ht'] at h₃; omega)
    exact ⟨_, by rw [arrayItems_next floatRepr n hs ht, ht', hvs]; rfl⟩

include ihs in
/-- A member's key, colon and value are read as the grammar derives them, and leave
less than the key's text. -/
theorem member_complete {kcs t t' t'' u : List Char} {k : List Nat} {v : JsonVal}
    (hk : StrBody kcs k t) (hw₁ : Ws t (':' :: t')) (hw₂ : Ws t' t'') (hv : Value floatRepr t'' v u)
    (hu : ∀ c ∈ u.head?, StopsNumber c) (hn : 2 * kcs.length + 3 < n + 1) :
    ∃ k' v', scanString (kcs.length + 1) n kcs = .ok (k', t) ∧ skipWs t = ':' :: t' ∧
      scanOnce floatRepr n (skipWs t') = .ok (v', u) ∧ u.length < kcs.length := by
  obtain ⟨k', hk'⟩ := scanString_complete (kcs.length + 1) hk n (by omega)
  have ht := skipWs_eq_of_ws hw₁ (by rintro _ ⟨⟩; rfl)
  have ht' := skipWs_eq_of_opens hw₂ hv.opens
  have h₁ := (scanString_progress (kcs.length + 1) n kcs (by omega)).2 _ _ hk'
  have h₂ := length_lt_of_skipWs_eq ht
  have h₃ := length_skipWs_le t'
  rw [ht'] at h₃
  obtain ⟨v', hv'⟩ := ihs hv hu (by omega)
  have h₄ := ((scan_progress floatRepr n).1 _ (by omega)).2 _ _ hv'
  exact ⟨k', v', hk', ht, by rw [ht']; exact hv', by omega⟩

include ihs iho in
theorem objectItems_complete_succ {cs r : List Char} {ms : List (List Nat × JsonVal)}
    (h : Members floatRepr cs ms r) (hn : 2 * cs.length + 1 < n + 1) :
    ∃ ms', objectItems floatRepr (n + 1) cs = .ok (ms', r) := by
  cases h with
  | last hk hw₁ hw₂ hv hw₃ =>
    obtain ⟨k', v', hk', ht, hv', -⟩ := member_complete floatRepr ihs hk hw₁ hw₂ hv
      (stopsNumber_of_ws hw₃ (stopsNumber_delim _ (.inr (.inr rfl)))) (by simp at hn; omega)
    exact ⟨_, objectItems_close floatRepr n hk' ht hv' (skipWs_eq_of_ws hw₃ (by rintro _ ⟨⟩; rfl))⟩
  | @cons _ _ _ _ u u' u'' _ _ _ _ hk hw₁ hw₂ hv hw₃ hw₄ hm =>
    obtain ⟨k', v', hk', ht, hv', hlen⟩ := member_complete floatRepr ihs hk hw₁ hw₂ hv
      (stopsNumber_of_ws hw₃ (stopsNumber_delim _ (.inl rfl))) (by simp at hn; omega)
    have hu := skipWs_eq_of_ws hw₃ (by rintro _ ⟨⟩; rfl)
    obtain ⟨kcs', rfl⟩ : ∃ kcs', u'' = '\x22' :: kcs' := by cases hm <;> exact ⟨_, rfl⟩
    have hu' := skipWs_eq_of_ws hw₄ (by rintro _ ⟨⟩; rfl)
    -- the comma and the whitespace after the value leave at least one character fewer
    have h₁ := length_lt_of_skipWs_eq hu
    have h₂ := length_skipWs_le u'
    rw [hu'] at h₂
    obtain ⟨ms', hms⟩ := iho hm (by simp at hn h₂ ⊢; omega)
    exact ⟨_, by rw [objectItems_next floatRepr n hk' ht hv' hu, hu', hms]; rfl⟩

end Step

/-- **The scanner is complete.**  Given more fuel than twice the text's length, a scan
reads every value, array body and object body the grammar derives, up to the same
rest, when what follows a value stops a number. -/
theorem scan_complete : ∀ n,
    (∀ {cs r : List Char} {v : JsonVal}, Value floatRepr cs v r → (∀ c ∈ r.head?, StopsNumber c) →
      2 * cs.length < n → ∃ v', scanOnce floatRepr n cs = .ok (v', r)) ∧
    (∀ {cs r : List Char} {vs : List JsonVal}, Items floatRepr cs vs r → 2 * cs.length + 1 < n →
      ∃ vs', arrayItems floatRepr n cs = .ok (vs', r)) ∧
    (∀ {cs r : List Char} {ms : List (List Nat × JsonVal)}, Members floatRepr cs ms r →
      2 * cs.length + 1 < n → ∃ ms', objectItems floatRepr n cs = .ok (ms', r))
  | 0 => ⟨fun _ _ h => absurd h (Nat.not_lt_zero _), fun _ h => absurd h (Nat.not_lt_zero _),
      fun _ h => absurd h (Nat.not_lt_zero _)⟩
  | n + 1 =>
    let ⟨ihs, iha, iho⟩ := scan_complete n
    ⟨scanOnce_complete_succ floatRepr iha iho, arrayItems_complete_succ floatRepr ihs iha,
      objectItems_complete_succ floatRepr ihs iho⟩

/-- A text is a JSON document exactly when it has no byte order mark in front and the
scan `unmarshal` runs returns with only whitespace left. -/
theorem document_iff_scan (doc : List Char) :
    (∃ v, Document floatRepr doc v) ↔ doc.head? ≠ some '\ufeff' ∧
      ∃ v r, scanOnce floatRepr (2 * doc.length + 1) (skipWs doc) = .ok (v, r) ∧ skipWs r = [] := by
  constructor
  · rintro ⟨v, hbom, t, u, hw, hv, hu⟩
    have ht := skipWs_eq_of_opens hw hv.opens
    have hlen := length_skipWs_le doc
    rw [ht] at hlen
    obtain ⟨v', hs⟩ := (scan_complete floatRepr (2 * doc.length + 1)).1 hv
      (stopsNumber_of_ws hu (by rintro _ ⟨⟩)) (by omega)
    exact ⟨hbom, v', u, by rw [ht]; exact hs, skipWs_eq_of_ws hu (by rintro _ ⟨⟩)⟩
  · rintro ⟨hbom, v, r, hs, hr⟩
    exact ⟨v, hbom, _, r, ws_skipWs doc, (scan_sound floatRepr _).1 hs, ws_of_skipWs_eq hr⟩

/-- **`unmarshal` raises exactly on what is not a JSON text.**  It raises a
`JSONDecodeError` on a text exactly when the text is not one JSON value with only
whitespace around it and no byte order mark in front. -/
theorem unmarshal_raises_iff (s : String) :
    (∃ e, unmarshal floatRepr s = some (.error e)) ↔ ¬∃ v, Document floatRepr s.data v := by
  have hp := (scan_progress floatRepr (2 * s.data.length + 1)).1 (skipWs s.data)
    (by have := length_skipWs_le s.data; omega)
  rw [document_iff_scan]
  unfold unmarshal
  dsimp only
  by_cases hbom : s.data.head? = some '\ufeff'
  · simp [hbom]
  rw [if_neg hbom]
  generalize scanOnce floatRepr (2 * s.data.length + 1) (skipWs s.data) = res at hp ⊢
  rcases res with (_ | _) | ⟨v, r⟩
  · simp [hbom]
  · exact absurd rfl hp.1
  · by_cases hr : skipWs r = [] <;> simp [hbom, hr]

end Complete

end Telesync
