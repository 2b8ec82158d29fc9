import Telesync.Core.Dump
set_option autoImplicit false

/-!
# `Ref`: key paths and the op an assignment builds

Source: `py/telesync/core.py`, `_guard_key` (lines 117-123), `_set_op`
(lines 172-180) and `Ref` (lines 198-224).

A `Ref` is a path: the card key followed by the keys navigated since, joined by
the separator `' '`.  Navigation (`ref.x`, `ref[i]`) guards the key and returns a
new `Ref`; assignment (`ref.x = v`, `ref[i] = v`) refuses a top-level `Data`,
dumps the value and builds the op with `_set_op`.  Neither touches the page
here: `Telesync.Core.Page` tracks the op.  `ref.x` reaches `__getattr__` only for
a name the `Ref` does not have (`lookup`): `ref.__key__` is the path, not a `Ref`.

THE ADDRESS ROUND TRIP.  `splitPath_assignOp` proves that when the card key has no
space, the op's `k` splits on `' '` into the card key followed by `str()` of each
navigated key and of the assigned key: `_guard_key` keeps spaces out of every key
it sees.  The card key itself is never guarded (`PageBase.add`, `__getitem__`).
-/

namespace Telesync

/-- `_key_sep` -/
def keySep : String := " "

/-- `_guard_key` (lines 117-123), handing back the key it accepted: a `str` with no
space (`' ' in key`), or an `int` (a `bool` is one to `isinstance`). -/
def guardKey : PyVal → Except PyErr PyKey
  | .str s => if ' ' ∈ s.data then throw (.keyError "keys cannot contain spaces") else pure (.str s)
  | .int i => pure (.int i)
  | .bool b => pure (.bool b)
  | _ => throw (.keyError "invalid key type: want str or int")

/-- A `Ref`: its path `__key__` into the page that owns it. -/
structure Ref where
  key : String
  deriving DecidableEq, Repr

namespace Ref

/-- `Ref.__getattr__` (lines 208-210). -/
def getattr (r : Ref) (key : String) : Except PyErr Ref := do
  let _ ← guardKey (.str key)
  pure ⟨r.key ++ keySep ++ key⟩

/-- `Ref.__getitem__` (lines 212-214). -/
def getitem (r : Ref) (key : PyVal) : Except PyErr Ref := do
  let k ← guardKey key
  pure ⟨r.key ++ keySep ++ k.pyStr⟩

/-- The attributes a `Ref` has, which Python's attribute lookup finds before it
calls `Ref.__getattr__`: the instance's `__page__` and `__key__` (lines 205-206),
what the class `Ref` defines, and what it inherits from `object` (CPython 3.6 to
3.10; 3.11 adds `__getstate__`). -/
def refAttributes : List String :=
  ["__page__", "__key__", "__module__", "__doc__", "__init__", "__getattr__", "__getitem__",
    "__setattr__", "__setitem__", "__dict__", "__weakref__", "__repr__", "__hash__", "__str__",
    "__getattribute__", "__delattr__", "__lt__", "__le__", "__eq__", "__ne__", "__gt__", "__ge__",
    "__new__", "__reduce_ex__", "__reduce__", "__subclasshook__", "__init_subclass__",
    "__format__", "__sizeof__", "__dir__", "__class__"]

/-- `ref.key`: an attribute the `Ref` has is returned as it is (`none`: a method, the
page or the key, not a `Ref`); any other name goes to `Ref.__getattr__`. -/
def lookup (r : Ref) (key : String) : Except PyErr (Option Ref) :=
  if key ∈ refAttributes then pure none else some <$> r.getattr key

/-- Attribute navigation is item navigation with the attribute's name. -/
theorem getattr_eq_getitem (r : Ref) (key : String) : r.getattr key = r.getitem (.str key) := by
  simp only [getattr, getitem, guardKey]
  split <;> rfl

/-- `ref[k1][k2]...`: item navigation along a key list. -/
def navigate (r : Ref) : List PyVal → Except PyErr Ref
  | [] => pure r
  | k :: ks => do (← r.getitem k).navigate ks

end Ref

/-- `_set_op` (lines 172-180). -/
def setOp (o : Ref) (k v : PyVal) : Except PyErr Dict := do
  let k ← guardKey k
  let path := o.key ++ keySep ++ k.pyStr
  match v with
  | .data f n d => pure ((Data.dump f n d).setitem (.str "k") (.str path))
  | _ => pure [(.str "k", .str path), (.str "v", v)]

/-- The op that `Ref.__setattr__` and `Ref.__setitem__` hand to `_track`
(lines 216-224): a `Data` value is refused, anything else is dumped first. -/
def Ref.assignOp (r : Ref) (key value : PyVal) : Except PyErr Dict :=
  match value with
  | .data .. => throw (.valueError "Data instances cannot be used in assignments.")
  | _ => do setOp r key (← dump value)

/-! ## What an accepted assignment tracks -/

/-- The op of an assignment that returns normally: the value was not a `Data`, the
key passed `_guard_key`, and the op is `{k, v}` with the dumped value, unless the
dump is itself a `Data` (a user `dump()` returned one), when `_set_op` builds
that `Data`'s encoding with `k` added. -/
theorem assignOp_eq_ok {r : Ref} {key value : PyVal} {op : Dict}
    (h : r.assignOp key value = .ok op) :
    value.isData = false ∧ ∃ k w, guardKey key = .ok k ∧ dump value = .ok w ∧
      op = match w with
        | .data f n d => (Data.dump f n d).setitem (.str "k") (.str (r.key ++ keySep ++ k.pyStr))
        | _ => [(.str "k", .str (r.key ++ keySep ++ k.pyStr)), (.str "v", w)] := by
  have hnd : value.isData = false := by
    cases value <;> first | rfl | cases h
  have hset : r.assignOp key value = dump value >>= setOp r key := by
    cases value <;> first | rfl | cases hnd
  rw [hset] at h
  obtain ⟨w, hw, h⟩ := except_bind_eq_ok.mp h
  obtain ⟨k, hk, h⟩ := except_bind_eq_ok.mp h
  refine ⟨hnd, k, w, hk, hw, ?_⟩
  split <;> simp_all

/-! ## The address round trip -/

/-- Python's `s.split(' ')`: the pieces between spaces, empty ones included. -/
def splitPath (s : String) : List String := (s.data.splitOn ' ').map String.mk

theorem ite_ne_of {c : Prop} [Decidable c] {a b x : Char} (ha : a ≠ x) (hb : b ≠ x) :
    (if c then a else b) ≠ x := by
  split <;> assumption

theorem digitChar_ne_space (d : Nat) : Nat.digitChar d ≠ ' ' := by
  unfold Nat.digitChar
  repeat (refine ite_ne_of (by decide) ?_)
  decide

theorem space_not_mem_toDigitsCore (base : Nat) :
    ∀ (fuel n : Nat) (acc : List Char), ' ' ∉ acc → ' ' ∉ Nat.toDigitsCore base fuel n acc
  | 0, _, _, h => h
  | fuel + 1, n, acc, h => by
    have hd : ' ' ∉ Nat.digitChar (n % base) :: acc := by
      simp [h, (digitChar_ne_space _).symm]
    simp only [Nat.toDigitsCore]
    split
    · exact hd
    · exact space_not_mem_toDigitsCore base fuel _ _ hd

/-- `str()` of a key `_guard_key` accepted has no space. -/
theorem space_not_mem_pyStr {key : PyVal} {k : PyKey} (h : guardKey key = .ok k) :
    ' ' ∉ k.pyStr.data := by
  have hnat : ∀ m : Nat, ' ' ∉ (toString m).data := fun m =>
    space_not_mem_toDigitsCore 10 _ m [] (List.not_mem_nil _)
  cases key <;> simp only [guardKey] at h
  case str s =>
    split at h
    · cases h
    · rename_i hs
      cases h
      exact hs
  case int i =>
    cases h
    cases i <;> simp [PyKey.pyStr, toString, hnat, Int.repr] <;> exact hnat _
  case bool b => cases h; cases b <;> decide
  all_goals cases h

/-- Navigating along `ks` appends `str()` of each guarded key to the path. -/
theorem navigate_eq_ok {r r' : Ref} {ks : List PyVal} (h : r.navigate ks = .ok r') :
    ∃ gs : List PyKey, ks.mapM guardKey = .ok gs ∧
      r'.key.data = [' '].intercalate (r.key.data :: gs.map (·.pyStr.data)) := by
  induction ks generalizing r with
  | nil => cases h; exact ⟨[], rfl, by simp [List.intercalate]⟩
  | cons k ks ih =>
    simp only [Ref.navigate, Ref.getitem, except_bind_eq_ok, except_pure, Except.ok.injEq] at h
    obtain ⟨_, ⟨g, hg, rfl⟩, h⟩ := h
    obtain ⟨gs, hgs, hkey⟩ := ih h
    refine ⟨g :: gs, by rw [List.mapM_cons, hg, hgs]; rfl, ?_⟩
    rw [hkey]
    cases gs <;> simp [keySep, List.intercalate]

theorem intercalate_cons_cons {α : Type} (sep x y : List α) (zs : List (List α)) :
    sep.intercalate (x :: y :: zs) = x ++ sep ++ sep.intercalate (y :: zs) := by
  simp [List.intercalate, List.intersperse_cons₂]

/-- Joining one more piece adds the separator and the piece at the end. -/
theorem intercalate_snoc {α : Type} (sep x y : List α) (xs : List (List α)) :
    sep.intercalate (x :: xs ++ [y]) = sep.intercalate (x :: xs) ++ sep ++ y := by
  induction xs generalizing x with
  | nil => simp [List.intercalate]
  | cons z zs ih =>
    simp only [List.cons_append] at ih ⊢
    rw [intercalate_cons_cons, ih, intercalate_cons_cons]
    simp only [List.append_assoc]

/-- Every key a successful `mapM guardKey` hands back was accepted by `_guard_key`. -/
theorem guarded_of_mapM {ks : List PyVal} {gs : List PyKey} (h : ks.mapM guardKey = .ok gs) :
    ∀ g ∈ gs, ∃ key, guardKey key = .ok g := by
  induction ks generalizing gs with
  | nil => cases h; simp
  | cons k ks ih =>
    rw [List.mapM_cons] at h
    obtain ⟨g, hg, h⟩ := except_bind_eq_ok.mp h
    obtain ⟨gs', hgs, h⟩ := except_bind_eq_ok.mp h
    cases h
    simpa [hg] using ⟨⟨k, hg⟩, ih hgs⟩

/-- The `k` field of an op. -/
def opKey (op : Dict) : Option PyVal := op.lookup (.str "k")

/-- **Address round trip.** When the card key `c` has no space, the op of an
assignment made after any navigation has a `k` that splits on `' '` into `c`
followed by `str()` of each navigated key and of the assigned key. -/
theorem splitPath_assignOp {c : String} {ks : List PyVal} {key value : PyVal} {r : Ref}
    {op : Dict} (hc : ' ' ∉ c.data) (hnav : (Ref.mk c).navigate ks = .ok r)
    (h : r.assignOp key value = .ok op) :
    ∃ path gs, (ks ++ [key]).mapM guardKey = .ok gs ∧ opKey op = some (.str path) ∧
      splitPath path = c :: gs.map PyKey.pyStr := by
  obtain ⟨gs, hgs, hr⟩ := navigate_eq_ok hnav
  obtain ⟨-, k, w, hk, -, rfl⟩ := assignOp_eq_ok h
  refine ⟨r.key ++ keySep ++ k.pyStr, gs ++ [k], ?_, ?_, ?_⟩
  · rw [List.mapM_append, hgs, List.mapM_cons, hk]; rfl
  · split
    · rw [Data.dump_setitem_k, opKey, Dict.lookup_append_of_not_mem _ (Data.k_not_mem_dump_keys _ _ _)]
    · simp [opKey, List.lookup]
  · have hparts : ∀ l ∈ c.data :: (gs ++ [k]).map (·.pyStr.data), ' ' ∉ l := by
      intro l hl
      simp only [List.mem_cons, List.mem_map, List.mem_append, List.not_mem_nil, or_false] at hl
      rcases hl with rfl | ⟨g, hg | rfl, rfl⟩
      · exact hc
      · obtain ⟨_, hg'⟩ := guarded_of_mapM hgs g hg
        exact space_not_mem_pyStr hg'
      · exact space_not_mem_pyStr hk
    have hdata : (r.key ++ keySep ++ k.pyStr).data =
        [' '].intercalate (c.data :: (gs ++ [k]).map (·.pyStr.data)) := by
      rw [String.data_append, String.data_append, hr, List.map_append, List.map_singleton,
        ← List.cons_append, intercalate_snoc]
      rfl
    rw [splitPath, hdata, List.splitOn_intercalate _ ' ' hparts (List.cons_ne_nil _ _)]
    simp [Function.comp_def]

/-- Two assignments made through card keys without spaces that track the same `k`
went through the same card key and keys with the same `str()`. -/
theorem assign_address_injective {c c' : String} {ks ks' : List PyVal}
    {key key' value value' : PyVal} {r r' : Ref} {op op' : Dict}
    (hc : ' ' ∉ c.data) (hc' : ' ' ∉ c'.data)
    (hnav : (Ref.mk c).navigate ks = .ok r) (hnav' : (Ref.mk c').navigate ks' = .ok r')
    (h : r.assignOp key value = .ok op) (h' : r'.assignOp key' value' = .ok op')
    (hk : opKey op = opKey op') :
    ∃ gs gs', (ks ++ [key]).mapM guardKey = .ok gs ∧ (ks' ++ [key']).mapM guardKey = .ok gs' ∧
      c = c' ∧ gs.map PyKey.pyStr = gs'.map PyKey.pyStr := by
  obtain ⟨p, gs, hgs, hp, hs⟩ := splitPath_assignOp hc hnav h
  obtain ⟨p', gs', hgs', hp', hs'⟩ := splitPath_assignOp hc' hnav' h'
  have : p = p' := by simpa [hp, hp'] using hk
  subst this
  have := hs.symm.trans hs'
  simp only [List.cons.injEq] at this
  exact ⟨gs, gs', hgs, hgs', this⟩

/-- `page['c'].x.y = 1` and `page['c'].x['y'] = 2` track the same `k`. -/
theorem assign_address_injective_xy :
    ∃ gs gs', ([PyVal.str "x"] ++ [PyVal.str "y"]).mapM guardKey = .ok gs ∧
      ([PyVal.str "x"] ++ [PyVal.str "y"]).mapM guardKey = .ok gs' ∧
      "c" = "c" ∧ gs.map PyKey.pyStr = gs'.map PyKey.pyStr :=
  @assign_address_injective "c" "c" [.str "x"] [.str "x"] (.str "y") (.str "y") (.int 1) (.int 2)
    ⟨"c x"⟩ ⟨"c x"⟩ [(.str "k", .str "c x y"), (.str "v", .int 1)]
    [(.str "k", .str "c x y"), (.str "v", .int 2)] (by decide) (by decide) rfl rfl rfl rfl rfl

end Telesync
