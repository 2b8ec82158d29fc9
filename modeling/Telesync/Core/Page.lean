import Telesync.Core.Ref
import Telesync.Core.Marshal
set_option autoImplicit false

/-!
# `PageBase`: the mutation buffer

Source: `py/telesync/core.py`, `PageBase` (lines 325-403) and `Ref.__setattr__` /
`Ref.__setitem__` (lines 216-224), which track on the Ref's page.

THE STATE.  A page is its URL and its change list `_changes`.  Methods run in
`PageM = EStateM PyErr PageBase`: a method that raises hands back the page as it
was at the raise, so "a call that raises leaves `_changes` unchanged" is a
theorem about the order of the statements below, not an assumption of the model.
An op in `_changes` is a value: in Python it holds the caller's objects, which a
later `add` can rename in place; `Telesync.Core.Shared` and
`Telesync.Protocol.Shared` model that and connect it to this page.

ONE SPEC LEMMA PER METHOD.  `run_track`, `run_liftExcept` and the `*_run` lemmas
say what each method does to the page; callers never unfold the monad.
-/

namespace Telesync

/-- A remote page as the client holds it: `url` and `_changes`. -/
structure PageBase where
  url : String
  changes : List Dict

/-- A method of a page: it reads and updates the page and may raise. -/
abbrev PageM := EStateM PyErr PageBase

namespace PageBase

/-- The page with one more op. -/
def push (p : PageBase) (op : Dict) : PageBase := { p with changes := p.changes ++ [op] }

@[simp] theorem push_changes (p : PageBase) (op : Dict) :
    (p.push op).changes = p.changes ++ [op] := rfl

@[simp] theorem push_url (p : PageBase) (op : Dict) : (p.push op).url = p.url := rfl

/-- Run a computation that does not touch the page, raising what it raises. -/
def liftExcept {α : Type} : Except PyErr α → PageM α
  | .ok a => pure a
  | .error e => throw e

/-- `_track` (lines 378-379). -/
def track (op : Dict) : PageM Unit := modify fun p => p.push op

/-! ## `add` (lines 336-376) -/

/-- The key checks of `add` (lines 345-349). -/
def cardKey : PyVal → Except PyErr String
  | .none => throw (.valueError "card must have a key")
  | .str k => pure k
  | _ => throw (.valueError "key must be str")

/-- The error of a card that is neither a dict nor dumps to one. -/
def notACard : PyErr := .valueError "card must be dict or implement .dump() -> dict"

/-- The property dict of the card (lines 351-358). -/
def cardProps (card : PyVal) : Except PyErr Dict :=
  match card with
  | .dict d => pure d
  | _ =>
    if canDump card then do
      match ← dump card with
      | .dict d => pure d
      | _ => throw notACard
    else throw notACard

/-- One step of the loop of lines 362-365: a `Data` property is recorded with the
index its dump gets in `bufs`. -/
def scanStep (acc : List (PyKey × Nat) × List PyVal) (e : PyKey × PyVal) :
    List (PyKey × Nat) × List PyVal :=
  match e.2 with
  | .data f n d => (acc.1 ++ [(e.1, acc.2.length)], acc.2 ++ [.dict (Data.dump f n d)])
  | _ => acc

/-- The loop of lines 360-365: the `Data` properties with their buffer indices, and
the buffers. -/
def scanData (props : Dict) : List (PyKey × Nat) × List PyVal := props.foldl scanStep ([], [])

/-- One step of the loop of lines 367-369: `del props[k]; props[f'~{k}'] = v`. -/
def renameStep (props : Dict) (e : PyKey × Nat) : Dict :=
  (props.erase e.1).setitem (.str ("~" ++ e.1.pyStr)) (.int e.2)

/-- The loop of lines 367-369. -/
def renameData (props : Dict) (data : List (PyKey × Nat)) : Dict := data.foldl renameStep props

/-- The op `add` tracks (lines 351-374). -/
def addOp (key : String) (card : PyVal) : Except PyErr Dict := do
  let props ← cardProps card
  let (data, bufs) := scanData props
  let props := renameData props data
  if bufs.length > 0 then pure [(.str "k", .str key), (.str "d", .dict props), (.str "b", .list bufs)]
  else pure [(.str "k", .str key), (.str "d", .dict props)]

/-- `PageBase.add` (lines 336-376). -/
def add (key card : PyVal) : PageM Ref := do
  let key ← liftExcept (cardKey key)
  track (← liftExcept (addOp key card))
  pure ⟨key⟩

/-! ## `_diff` and the other methods -/

/-- `dict(d=self._changes)`, the value `_diff` marshals. -/
def diffPayload (changes : List Dict) : PyVal := .dict [(.str "d", .list (changes.map .dict))]

/-- `_diff` (lines 381-386). -/
def diff : PageM (Option String) := do
  let p ← get
  if p.changes.length = 0 then return none
  let d ← liftExcept (marshal (diffPayload p.changes))
  modify fun p => { p with changes := [] }
  return some d

/-- `drop` (lines 388-392). -/
def drop : PageM Unit := track []

/-- `__setitem__` (lines 394-395): `page[key] = card`. -/
def setitem (key card : PyVal) : PageM Unit := do
  let _ ← add key card

/-- `__getitem__` (lines 397-400). -/
def getitem (key : PyVal) : PageM Ref :=
  match key with
  | .str k => pure ⟨k⟩
  | _ => throw (.valueError "key must be str")

/-- `__delitem__` (lines 402-403). -/
def delitem (key : PyVal) : PageM Unit := track [(.str "k", key)]

end PageBase

/-- `Ref.__setattr__` and `Ref.__setitem__` (lines 216-224): the op goes to the
Ref's page. -/
def Ref.assign (r : Ref) (key value : PyVal) : PageM Unit := do
  PageBase.track (← PageBase.liftExcept (r.assignOp key value))

/-- `Ref.__setattr__` (lines 216-219): `ref.key = value`. -/
def Ref.setattr (r : Ref) (key : String) (value : PyVal) : PageM Unit := r.assign (.str key) value

/-- `Ref.__setitem__` (lines 221-224): `ref[key] = value`. -/
def Ref.setitem (r : Ref) (key value : PyVal) : PageM Unit := r.assign key value

/-! ## Spec lemmas -/

namespace PageBase

section Run

variable {α β : Type} (p : PageBase)

@[simp] theorem run_pure (a : α) : (pure a : PageM α).run p = .ok a p := rfl

@[simp] theorem run_throw (e : PyErr) : (throw e : PageM α).run p = .error e p := rfl

theorem run_bind (x : PageM α) (f : α → PageM β) :
    (x >>= f).run p = match x.run p with
      | .ok a p' => (f a).run p'
      | .error e p' => .error e p' := by
  simp only [EStateM.run, bind, EStateM.bind]
  cases x p <;> rfl

@[simp] theorem run_get : (get : PageM PageBase).run p = .ok p p := rfl

@[simp] theorem run_modify (f : PageBase → PageBase) :
    (modify f : PageM Unit).run p = .ok () (f p) := rfl

@[simp] theorem run_track_bind (op : Dict) (f : Unit → PageM β) :
    (track op >>= f).run p = (f ()).run (p.push op) := rfl

@[simp] theorem run_track (op : Dict) : (track op).run p = .ok () (p.push op) := rfl

@[simp] theorem run_liftExcept_bind (x : Except PyErr α) (f : α → PageM β) :
    (liftExcept x >>= f).run p = match x with
      | .ok a => (f a).run p
      | .error e => .error e p := by
  cases x <;> rfl

end Run

/-- `add`: validate the key, compute the op, track it. -/
theorem add_run (key card : PyVal) (p : PageBase) :
    (add key card).run p = match cardKey key with
      | .error e => .error e p
      | .ok k => match addOp k card with
        | .ok op => .ok ⟨k⟩ (p.push op)
        | .error e => .error e p := by
  simp only [add, run_liftExcept_bind]
  cases cardKey key with
  | error e => rfl
  | ok k =>
    dsimp only
    cases addOp k card <;> rfl

/-- A call of `add` that returns tracks the op of its `str` key. -/
theorem add_run_eq_ok {key card : PyVal} {p p' : PageBase} {r : Ref}
    (h : (add key card).run p = .ok r p') :
    ∃ op, key = .str r.key ∧ addOp r.key card = .ok op ∧ p' = p.push op := by
  rw [add_run] at h
  cases hk : cardKey key with
  | error e => rw [hk] at h; cases h
  | ok k =>
    rw [hk] at h
    cases hop : addOp k card with
    | error e => simp only [hop] at h; cases h
    | ok op =>
      simp only [hop, EStateM.Result.ok.injEq] at h
      obtain ⟨rfl, rfl⟩ := h
      refine ⟨op, ?_, hop, rfl⟩
      cases key <;> simp_all [cardKey]

/-- **`_diff`** returns `None` on an empty buffer; otherwise it marshals the pending
ops and clears the buffer, and if marshalling raises the buffer is untouched. -/
theorem diff_run (p : PageBase) :
    diff.run p = if p.changes.length = 0 then .ok none p
      else match marshal (diffPayload p.changes) with
        | .ok s => .ok (some s) { p with changes := [] }
        | .error e => .error e p := by
  simp only [diff, run_bind, run_get]
  split
  · rfl
  · cases marshal (diffPayload p.changes) <;> rfl

theorem getitem_run (key : PyVal) (p : PageBase) :
    (getitem key).run p = match key with
      | .str k => .ok ⟨k⟩ p
      | _ => .error (.valueError "key must be str") p := by
  cases key <;> rfl

theorem setitem_run (key card : PyVal) (p : PageBase) :
    (setitem key card).run p = ((add key card).run p).map fun _ => () := by
  simp only [setitem, run_bind]
  cases (add key card).run p <;> rfl

end PageBase

theorem Ref.assign_run (r : Ref) (key value : PyVal) (p : PageBase) :
    (r.assign key value).run p = match r.assignOp key value with
      | .ok op => .ok () (p.push op)
      | .error e => .error e p := by
  cases h : r.assignOp key value <;> simp [Ref.assign, h]

end Telesync
