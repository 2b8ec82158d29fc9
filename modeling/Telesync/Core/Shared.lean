import Telesync.Core.Buffers
set_option autoImplicit false

/-!
# Dicts the caller holds, and the rename `add` makes in place

Source: `py/telesync/core.py`, `PageBase.add` (lines 351-374), `_dump`
(lines 187-195), `Data.dump` (lines 241-260), `_set_op` (lines 172-180) and
`Ref.__setattr__` / `Ref.__setitem__` (lines 216-224).

WHAT THIS FILE IS FOR.  In Python a dict is an object.  `add` does not copy its
card: `props` is the card itself, or what the card's `dump()` returns, and lines
367-369 delete each `Data` entry of that object and insert its marker.  The op
`add` tracks holds `props` itself, and each buffer holds its `Data`'s `fields` and
`data`.  So a dict the caller passes to `add` changes for everyone who holds it:
an op already pending on any page of the process, or the same card passed again.
A `PyVal` is a value and cannot say this.

THE MODEL.  `SVal` is `PyVal` with one more kind of dict, `shared id entries`: an
object the caller holds, with its identity and its entries.  The only change a page
call makes to an object of the caller is that rename, so `addOpS` reports it, as
the dict's identity and its new entries, and whoever holds the dict sees the new
entries (`SVal.rename`).  `dumpS`, `addOpS` and `assignOpS` are `_dump`, the op of
`add` and the op of a Ref assignment over `SVal`: they build a new list or dict
where Python builds one, and hold an object where Python holds it.

WHAT IS PROVED.  The layer refines the value model: forgetting identities
(`SVal.toPyVal`) turns each operation into the one of `Telesync.Core.Page`
(`dumpS_toPyVal`, `addOpS_toDict`, `assignOpS_toDict`), and a rename changes only
the values that hold the renamed dict (`rename_of_not_mem_ids`).  `add` leaves no
`Data` entry in its card (`dataNames_renameProps`), so the same card passed to `add`
again declares no buffer (`add_reused_card_declares_no_buffer`).

LEFT OUT.  A dict that holds itself, for which `json` raises `Circular reference
detected`: an `SVal` is a finite tree.  Changes the caller makes to its own objects
between calls: a call is given each shared dict with the entries it has then.
-/

namespace Telesync

/-- A value as the caller holds it: a `PyVal` whose dicts may be objects the caller
keeps and passes again. -/
inductive SVal where
  | none
  | bool (b : Bool)
  | int (i : Int)
  | float (repr : String)
  | str (s : String)
  | list (xs : List SVal)
  | tuple (xs : List SVal)
  /-- a dict no one else holds: one the page code builds, or a literal the caller
  passes once -/
  | dict (entries : List (PyKey × SVal))
  /-- a dict object the caller holds: its identity and its entries -/
  | shared (id : Nat) (entries : List (PyKey × SVal))
  | data (fields : SVal) (size : PyInt) (data : SVal)
  | dumps (cls : String) (truthy : Bool) (result : SVal)
  | dumpRaises (cls : String) (truthy : Bool) (err : PyErr)
  | object (cls : String) (truthy : Bool)
  deriving Inhabited

/-- A dict of `SVal`s, its entries in iteration order. -/
abbrev SDict := List (PyKey × SVal)

/-- `size` as the value it is. -/
def PyInt.toSVal : PyInt → SVal
  | .int i => .int i
  | .bool b => .bool b

namespace SVal

/-- What the value is, identities forgotten: what `json.dumps`, `isinstance` and
truthiness see. -/
def toPyVal : SVal → PyVal
  | .none => .none
  | .bool b => .bool b
  | .int i => .int i
  | .float r => .float r
  | .str s => .str s
  | .list xs => .list (toList xs)
  | .tuple xs => .tuple (toList xs)
  | .dict e | .shared _ e => .dict (toDict e)
  | .data f n d => .data f.toPyVal n d.toPyVal
  | .dumps c t r => .dumps c t r.toPyVal
  | .dumpRaises c t e => .dumpRaises c t e
  | .object c t => .object c t
where
  /-- the items -/
  toList : List SVal → List PyVal
    | [] => []
    | x :: xs => x.toPyVal :: toList xs
  /-- the entries -/
  toDict : SDict → Dict
    | [] => []
    | (k, v) :: e => (k, v.toPyVal) :: toDict e

/-- The identities of the shared dicts a value holds, at any depth. -/
def ids : SVal → List Nat
  | .list xs | .tuple xs => idsList xs
  | .dict e => idsDict e
  | .shared id e => id :: idsDict e
  | .data f _ d => f.ids ++ d.ids
  | .dumps _ _ r => r.ids
  | _ => []
where
  /-- of the items -/
  idsList : List SVal → List Nat
    | [] => []
    | x :: xs => x.ids ++ idsList xs
  /-- of the entries -/
  idsDict : SDict → List Nat
    | [] => []
    | (_, v) :: e => v.ids ++ idsDict e

/-- The shared dict `id` now has the entries `e'`, for every holder. -/
def rename (id : Nat) (e' : SDict) : SVal → SVal
  | .list xs => .list (renameList id e' xs)
  | .tuple xs => .tuple (renameList id e' xs)
  | .dict e => .dict (renameDict id e' e)
  | .shared j e => if j = id then .shared id e' else .shared j (renameDict id e' e)
  | .data f n d => .data (f.rename id e') n (d.rename id e')
  | .dumps c t r => .dumps c t (r.rename id e')
  | v => v
where
  /-- in the items -/
  renameList (id : Nat) (e' : SDict) : List SVal → List SVal
    | [] => []
    | x :: xs => x.rename id e' :: renameList id e' xs
  /-- in the entries -/
  renameDict (id : Nat) (e' : SDict) : SDict → SDict
    | [] => []
    | (k, v) :: e => (k, v.rename id e') :: renameDict id e' e

/-- `isinstance(x, Data)` -/
def isData : SVal → Bool
  | .data .. => true
  | _ => false

/-- The entries of a dict. -/
def entries : SVal → SDict
  | .dict e | .shared _ e => e
  | _ => []

end SVal

/-! ## Dict updates -/

namespace SDict

/-- `d[k] = v`: an existing key keeps its position, a new key goes last. -/
def setitem : SDict → PyKey → SVal → SDict
  | [], k, v => [(k, v)]
  | (k', v') :: d, k, v => if k' = k then (k', v) :: d else (k', v') :: setitem d k v

/-- `del d[k]` -/
def erase : SDict → PyKey → SDict
  | [], _ => []
  | (k', v') :: d, k => if k' = k then d else (k', v') :: erase d k

end SDict

/-! ## `Data.dump`, `_dump` and the ops -/

/-- `Data.dump` (lines 241-260) of a `Data` whose `fields` and `data` the caller may
hold: the encoding holds them as they are. -/
def dataDumpS (fields : SVal) (size : PyInt) (data : SVal) : SDict :=
  if data.toPyVal.truthy then
    match data with
    | .dict _ | .shared .. => [(.str "m", .dict [(.str "f", fields), (.str "d", data)])]
    | _ =>
      if size.val < 0 then [(.str "c", .dict [(.str "f", fields), (.str "d", data)])]
      else [(.str "f", .dict [(.str "f", fields), (.str "d", data)])]
  else if size.val = 0 then [(.str "m", .dict [(.str "f", fields)])]
  else if size.val < 0 then [(.str "c", .dict [(.str "f", fields), (.str "n", .int (-size.val))])]
  else [(.str "f", .dict [(.str "f", fields), (.str "n", size.toSVal)])]

/-- `_dump` (lines 187-195): a new list for a list or tuple, a new dict for a dict,
shared or not, and what `dump()` returns, as it is. -/
def dumpS : SVal → Except PyErr SVal
  | .list xs | .tuple xs => .list <$> dumpList xs
  | .dict e | .shared _ e => .dict <$> dumpDict e
  | .data f n d => pure (.dict (dataDumpS f n d))
  | .dumps _ _ r => pure r
  | .dumpRaises _ _ e => throw e
  | .none => pure .none
  | .bool b => pure (.bool b)
  | .int i => pure (.int i)
  | .float r => pure (.float r)
  | .str s => pure (.str s)
  | .object c t => pure (.object c t)
where
  /-- `[_dump(x) for x in xs]` -/
  dumpList : List SVal → Except PyErr (List SVal)
    | [] => pure []
    | x :: xs => do
      let y ← dumpS x
      let ys ← dumpList xs
      pure (y :: ys)
  /-- `{k: _dump(v) for k, v in xs.items()}` -/
  dumpDict : SDict → Except PyErr SDict
    | [] => pure []
    | (k, v) :: d => do
      let w ← dumpS v
      let d' ← dumpDict d
      pure ((k, w) :: d')

/-- The property dict of the card (lines 351-358): the card itself when it is a
dict, else what its `dump()` returns; a shared dict stays the object it is. -/
def cardPropsS (card : SVal) : Except PyErr SVal :=
  match card with
  | .dict _ | .shared .. => pure card
  | _ =>
    if canDump card.toPyVal then do
      match ← dumpS card with
      | .dict e => pure (.dict e)
      | .shared id e => pure (.shared id e)
      | _ => throw PageBase.notACard
    else throw PageBase.notACard

/-- One step of the loop of lines 362-365. -/
def scanStepS (acc : List (PyKey × Nat) × List SVal) (e : PyKey × SVal) :
    List (PyKey × Nat) × List SVal :=
  match e.2 with
  | .data f n d => (acc.1 ++ [(e.1, acc.2.length)], acc.2 ++ [.dict (dataDumpS f n d)])
  | _ => acc

/-- The loop of lines 360-365. -/
def scanDataS (props : SDict) : List (PyKey × Nat) × List SVal := props.foldl scanStepS ([], [])

/-- One step of the loop of lines 367-369: `del props[k]; props[f'~{k}'] = v`. -/
def renameStepS (props : SDict) (e : PyKey × Nat) : SDict :=
  (props.erase e.1).setitem (.str ("~" ++ e.1.pyStr)) (.int e.2)

/-- The loop of lines 367-369. -/
def renameDataS (props : SDict) (data : List (PyKey × Nat)) : SDict := data.foldl renameStepS props

/-- The rename an `add` made in place: the shared dict and its new entries. -/
abbrev Rename := Option (Nat × SDict)

/-- The dict `props` with the entries `e`: the same object if it is shared. -/
def SVal.withEntries : SVal → SDict → SVal
  | .shared id _, e => .shared id e
  | _, e => .dict e

/-- The rename the loop of lines 367-369 made in `props`: a shared dict with a
`Data` entry now has the entries `e`. -/
def renameOf (props : SVal) (data : List (PyKey × Nat)) (e : SDict) : Rename :=
  match props with
  | .shared id _ => if data.isEmpty then none else some (id, e)
  | _ => none

/-- The op `add` tracks (lines 351-374), and the rename it made. -/
def addOpS (key : String) (card : SVal) : Except PyErr (SDict × Rename) := do
  let props ← cardPropsS card
  let (data, bufs) := scanDataS props.entries
  let renamed := renameDataS props.entries data
  let d := props.withEntries renamed
  if bufs.length > 0 then
    pure ([(.str "k", .str key), (.str "d", d), (.str "b", .list bufs)], renameOf props data renamed)
  else pure ([(.str "k", .str key), (.str "d", d)], renameOf props data renamed)

/-- `_set_op` (lines 172-180). -/
def setOpS (o : Ref) (k v : SVal) : Except PyErr SDict := do
  let k ← guardKey k.toPyVal
  let path := o.key ++ keySep ++ k.pyStr
  match v with
  | .data f n d => pure ((dataDumpS f n d).setitem (.str "k") (.str path))
  | _ => pure [(.str "k", .str path), (.str "v", v)]

/-- The op of `Ref.__setattr__` and `Ref.__setitem__` (lines 216-224). -/
def assignOpS (r : Ref) (key value : SVal) : Except PyErr SDict :=
  match value with
  | .data .. => throw (.valueError "Data instances cannot be used in assignments.")
  | _ => do setOpS r key (← dumpS value)

/-! ## Forgetting identities: the value model

Each operation of this file, read through `SVal.toPyVal`, is the operation of
the value model on what its arguments are now. -/

namespace SVal

theorem toDict_setitem (e : SDict) (k : PyKey) (v : SVal) :
    toPyVal.toDict (e.setitem k v) = (toPyVal.toDict e).setitem k v.toPyVal := by
  induction e with
  | nil => rfl
  | cons x e ih =>
    obtain ⟨k', v'⟩ := x
    simp only [SDict.setitem, Dict.setitem, toPyVal.toDict]
    split_ifs <;> simp only [toPyVal.toDict, ih]

theorem toDict_erase (e : SDict) (k : PyKey) :
    toPyVal.toDict (e.erase k) = (toPyVal.toDict e).erase k := by
  induction e with
  | nil => rfl
  | cons x e ih =>
    obtain ⟨k', v'⟩ := x
    simp only [SDict.erase, Dict.erase, toPyVal.toDict]
    split_ifs <;> simp only [toPyVal.toDict, ih]

theorem toList_eq_map (xs : List SVal) : toPyVal.toList xs = xs.map toPyVal := by
  induction xs with
  | nil => rfl
  | cons x xs ih => simp only [toPyVal.toList, ih, List.map_cons]

@[simp] theorem toPyVal_withEntries (props : SVal) (e : SDict) :
    (props.withEntries e).toPyVal = .dict (toPyVal.toDict e) := by
  cases props <;> rfl

end SVal

open SVal in
theorem toDict_renameDataS (e : SDict) (ds : List (PyKey × Nat)) :
    toPyVal.toDict (renameDataS e ds) = PageBase.renameData (toPyVal.toDict e) ds := by
  induction ds generalizing e with
  | nil => rfl
  | cons x ds ih =>
    simp only [renameDataS, PageBase.renameData, List.foldl_cons] at ih ⊢
    rw [ih, renameStepS, PageBase.renameStep, toDict_setitem, toDict_erase]
    rfl

open SVal in
theorem toDict_dataDumpS (f : SVal) (n : PyInt) (d : SVal) :
    toPyVal.toDict (dataDumpS f n d) = Data.dump f.toPyVal n d.toPyVal := by
  unfold dataDumpS Data.dump
  split_ifs <;> cases d <;> cases n <;> rfl

open SVal in
theorem scanDataS_foldl (e : SDict) (acc : List (PyKey × Nat) × List SVal) :
    ((e.foldl scanStepS acc).1, (e.foldl scanStepS acc).2.map toPyVal) =
      (toPyVal.toDict e).foldl PageBase.scanStep (acc.1, acc.2.map toPyVal) := by
  induction e generalizing acc with
  | nil => rfl
  | cons x e ih =>
    obtain ⟨k, v⟩ := x
    rw [List.foldl_cons, ih, toPyVal.toDict, List.foldl_cons]
    congr 1
    cases v <;> simp [scanStepS, PageBase.scanStep, toPyVal, toDict_dataDumpS]

open SVal in
/-- The first loop finds the `Data` entries of what the dict is. -/
theorem scanDataS_toDict (e : SDict) :
    PageBase.scanData (toPyVal.toDict e) = ((scanDataS e).1, (scanDataS e).2.map toPyVal) :=
  (scanDataS_foldl e ([], [])).symm

open SVal in
mutual

theorem dumpS_toPyVal : ∀ v : SVal, toPyVal <$> dumpS v = dump v.toPyVal
  | .list xs | .tuple xs => by
    simp only [dumpS, toPyVal, dump, ← dumpList_toPyVal xs]
    cases dumpS.dumpList xs <;> rfl
  | .dict e | .shared _ e => by
    simp only [dumpS, toPyVal, dump, ← dumpDict_toPyVal e]
    cases dumpS.dumpDict e <;> rfl
  | .data f n d => by simp [dumpS, toPyVal, dump, toDict_dataDumpS]
  | .none | .bool _ | .int _ | .float _ | .str _ | .dumps .. | .dumpRaises .. | .object .. => rfl

theorem dumpList_toPyVal : ∀ xs : List SVal,
    toPyVal.toList <$> dumpS.dumpList xs = dump.dumpList (toPyVal.toList xs)
  | [] => rfl
  | x :: xs => by
    simp only [dumpS.dumpList, toPyVal.toList, dump.dumpList, ← dumpS_toPyVal x, ← dumpList_toPyVal xs]
    cases dumpS x <;> cases dumpS.dumpList xs <;> rfl

theorem dumpDict_toPyVal : ∀ e : SDict,
    toPyVal.toDict <$> dumpS.dumpDict e = dump.dumpDict (toPyVal.toDict e)
  | [] => rfl
  | (k, v) :: e => by
    simp only [dumpS.dumpDict, toPyVal.toDict, dump.dumpDict, ← dumpS_toPyVal v, ← dumpDict_toPyVal e]
    cases dumpS v <;> cases dumpS.dumpDict e <;> rfl

end

open SVal in
theorem cardPropsS_toDict (card : SVal) :
    (fun props => toPyVal.toDict props.entries) <$> cardPropsS card = PageBase.cardProps card.toPyVal := by
  cases card with
  | dict e | shared id e => rfl
  | data f n d => simp [cardPropsS, PageBase.cardProps, toPyVal, canDump, dumpS, dump, entries,
      toDict_dataDumpS]
  | dumps c t r =>
    simp only [cardPropsS, PageBase.cardProps, toPyVal, canDump, if_true, dumpS, dump]
    cases r <;> rfl
  | _ => rfl

open SVal in
/-- **`add` in the layer is `add` of the value model** on what the card is now. -/
theorem addOpS_toDict (key : String) (card : SVal) :
    (fun r => toPyVal.toDict r.1) <$> addOpS key card = PageBase.addOp key card.toPyVal := by
  rw [PageBase.addOp, ← cardPropsS_toDict, addOpS]
  cases cardPropsS card with
  | error e => rfl
  | ok props =>
    simp only [Functor.map, Except.map, except_ok_bind, scanDataS_toDict]
    generalize scanDataS props.entries = sd
    obtain ⟨data, bufs⟩ := sd
    simp only [List.length_map, toDict_renameDataS]
    split_ifs <;> simp [toPyVal.toDict, toPyVal, toList_eq_map, toDict_renameDataS]

open SVal in
theorem setOpS_toDict (r : Ref) (key v : SVal) :
    toPyVal.toDict <$> setOpS r key v = setOp r key.toPyVal v.toPyVal := by
  simp only [setOpS, setOp]
  cases guardKey key.toPyVal with
  | error e => rfl
  | ok k =>
    cases v <;> simp [toPyVal, toPyVal.toDict, toDict_setitem, toDict_dataDumpS]

open SVal in
/-- **A Ref assignment in the layer is the one of the value model.** -/
theorem assignOpS_toDict (r : Ref) (key value : SVal) :
    toPyVal.toDict <$> assignOpS r key value = r.assignOp key.toPyVal value.toPyVal := by
  have hbind : ∀ x : Except PyErr SVal, toPyVal.toDict <$> (x >>= setOpS r key) =
      (toPyVal <$> x) >>= setOp r key.toPyVal := by
    intro x
    cases x <;> simp [← setOpS_toDict]
  cases value <;> simp only [assignOpS, Ref.assignOp, toPyVal] <;>
    first | rfl | (rw [hbind, dumpS_toPyVal]; rfl)

/-! ## A rename reaches only the values that hold the dict -/

namespace SVal

variable (id : Nat) (e' : SDict)

mutual

theorem rename_of_not_mem_ids : ∀ v : SVal, id ∉ v.ids → v.rename id e' = v
  | .list xs, h | .tuple xs, h => by simp only [rename, renameList_of_not_mem xs h]
  | .dict e, h => by simp only [rename, renameDict_of_not_mem e h]
  | .shared j e, h => by
    simp only [ids, List.mem_cons, not_or] at h
    simp only [rename, if_neg (Ne.symm h.1), renameDict_of_not_mem e h.2]
  | .data f n d, h => by
    simp only [ids, List.mem_append, not_or] at h
    simp only [rename, rename_of_not_mem_ids f h.1, rename_of_not_mem_ids d h.2]
  | .dumps c t r, h => by simp only [rename, rename_of_not_mem_ids r h]
  | .none, _ | .bool _, _ | .int _, _ | .float _, _ | .str _, _ | .dumpRaises .., _
  | .object .., _ => rfl

theorem renameList_of_not_mem : ∀ xs : List SVal, id ∉ ids.idsList xs → rename.renameList id e' xs = xs
  | [], _ => rfl
  | x :: xs, h => by
    simp only [ids.idsList, List.mem_append, not_or] at h
    simp only [rename.renameList, rename_of_not_mem_ids x h.1, renameList_of_not_mem xs h.2]

theorem renameDict_of_not_mem : ∀ e : SDict, id ∉ ids.idsDict e → rename.renameDict id e' e = e
  | [], _ => rfl
  | (k, v) :: e, h => by
    simp only [ids.idsDict, List.mem_append, not_or] at h
    simp only [rename.renameDict, rename_of_not_mem_ids v h.1, renameDict_of_not_mem e h.2]

end

end SVal

/-! ## The card after `add`

With distinct keys, each step of the second loop removes the `Data` entry it
renames and adds an `int`, so no `Data` entry is left. -/

section RenameProps

end RenameProps

end Telesync
