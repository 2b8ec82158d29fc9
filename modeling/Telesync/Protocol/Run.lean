import Telesync.Core.Page
set_option autoImplicit false

/-!
# Runs of calls on one page, and the change-log law

Source: `py/telesync/core.py`, `PageBase` (lines 325-403) and `Ref` (lines 198-224).

A client makes calls on a page and on the Refs navigation hands back: card
insertion, navigation, assignment, deletion, `drop` and `_diff`, in any order,
catching what they raise.  `step` runs one call; `run` runs a list of them.

THE LAW.  Every mutation computes its op from its arguments (`Call.op`) and
tracks it as its last statement, and `_diff` marshals before it clears.  So a
successful mutation appends its op, everything that raises leaves the buffer as
it was, and `flushed_append_changes` proves, by induction over the run, that
the op lists the diffs serialised, followed by the pending buffer, are the ops
of the successful mutations in call order.

OPS AS VALUES.  Here an op is a value, fixed when its mutation computes it.  In
Python an op holds the caller's objects, and `add` renames the card dict in place
(lines 367-374), so an op already pending changes with it.  `Telesync.Protocol.Shared`
models that, and proves that a run there is a run here whenever no `add` renames a
dict that a pending op holds (`srun_refines`).
-/

namespace Telesync

/-- One call a client makes on a page, or on a Ref into it. -/
inductive Call where
  /-- `page.add(key, card)` -/
  | add (key card : PyVal)
  /-- `page[key] = card` -/
  | setitem (key card : PyVal)
  /-- `page[key]` -/
  | getitem (key : PyVal)
  /-- `ref.key` -/
  | getattr (r : Ref) (key : String)
  /-- `ref[key]` -/
  | refGetitem (r : Ref) (key : PyVal)
  /-- `ref.key = value` -/
  | setattr (r : Ref) (key : String) (value : PyVal)
  /-- `ref[key] = value` -/
  | refSetitem (r : Ref) (key value : PyVal)
  /-- `del page[key]` -/
  | delitem (key : PyVal)
  /-- `page.drop()` -/
  | drop
  /-- `page._diff()` -/
  | diff

/-- What a call returns. -/
inductive Ret where
  | none
  | ref (r : Ref)
  /-- an attribute a `Ref` has, returned by `ref.key` as it is: not a `Ref` -/
  | attribute (name : String)
  | diff (d : Option String)
  deriving DecidableEq, Repr, Inhabited

namespace Call

/-- The method a call runs. -/
def exec : Call → PageM Ret
  | .add key card => .ref <$> PageBase.add key card
  | .setitem key card => (fun _ => .none) <$> PageBase.setitem key card
  | .getitem key => .ref <$> PageBase.getitem key
  | .getattr r key => (fun o => (o.map .ref).getD (.attribute key)) <$> PageBase.liftExcept (r.lookup key)
  | .refGetitem r key => .ref <$> PageBase.liftExcept (r.getitem key)
  | .setattr r key value => (fun _ => .none) <$> r.setattr key value
  | .refSetitem r key value => (fun _ => .none) <$> r.setitem key value
  | .delitem key => (fun _ => .none) <$> PageBase.delitem key
  | .drop => (fun _ => .none) <$> PageBase.drop
  | .diff => .diff <$> PageBase.diff

/-- The op a mutation call tracks, computed from its arguments alone; `none` for
navigation and `_diff`. -/
def op : Call → Option (Except PyErr Dict)
  | .add key card | .setitem key card => some (PageBase.cardKey key >>= (PageBase.addOp · card))
  | .setattr r key value => some (r.assignOp (.str key) value)
  | .refSetitem r key value => some (r.assignOp key value)
  | .delitem key => some (pure [(.str "k", key)])
  | .drop => some (pure [])
  | _ => none

/-- `page[key]`, `ref.key` and `ref[key]`. -/
def isNavigation : Call → Bool
  | .getitem _ | .getattr .. | .refGetitem .. => true
  | _ => false

end Call

/-- The page a method leaves, and what its caller sees. -/
def outcome {α : Type} : EStateM.Result PyErr PageBase α → PageBase × Except PyErr α
  | .ok a p => (p, .ok a)
  | .error e p => (p, .error e)

@[simp] theorem outcome_ok {α : Type} (a : α) (p : PageBase) : outcome (.ok a p) = (p, .ok a) := rfl

@[simp] theorem outcome_error {α : Type} (e : PyErr) (p : PageBase) :
    outcome (.error e p : EStateM.Result PyErr PageBase α) = (p, .error e) := rfl

/-- One call: the page after it, and what the caller sees. -/
def step (p : PageBase) (c : Call) : PageBase × Except PyErr Ret := outcome (c.exec.run p)

/-- A run: the calls in order, each exception caught by the caller. -/
def run (p : PageBase) : List Call → PageBase × List (Except PyErr Ret)
  | [] => (p, [])
  | c :: cs => ((run (step p c).1 cs).1, (step p c).2 :: (run (step p c).1 cs).2)

@[simp] theorem run_nil (p : PageBase) : run p [] = (p, []) := rfl

@[simp] theorem run_cons (p : PageBase) (c : Call) (cs : List Call) :
    run p (c :: cs) = ((run (step p c).1 cs).1, (step p c).2 :: (run (step p c).1 cs).2) := rfl

/-! ## One step -/

/-- What a mutation that computed `x` leaves: its op appended and `ret` returned,
or the exception raised with the page untouched. -/
def tracked (p : PageBase) (ret : Ret) : Except PyErr Dict → PageBase × Except PyErr Ret
  | .ok op => (p.push op, .ok ret)
  | .error e => (p, .error e)

@[simp] theorem tracked_ok (p : PageBase) (ret : Ret) (op : Dict) :
    tracked p ret (.ok op) = (p.push op, .ok ret) := rfl

@[simp] theorem tracked_error (p : PageBase) (ret : Ret) (e : PyErr) :
    tracked p ret (.error e) = (p, .error e) := rfl

/-- A mutation appends the op it computes, or raises with the page untouched. -/
theorem step_of_op {c : Call} {x : Except PyErr Dict} (h : c.op = some x) (p : PageBase) :
    ∃ ret, step p c = tracked p ret x := by
  cases c <;> simp only [Call.op] at h <;> cases h
  case add key card | setitem key card =>
    simp only [step, Call.exec, EStateM.run_map, PageBase.setitem_run, PageBase.add_run]
    cases PageBase.cardKey key with
    | error e => exact ⟨.none, rfl⟩
    | ok k =>
      dsimp only [except_ok_bind]
      cases PageBase.addOp k card
      · exact ⟨.none, rfl⟩
      · exact ⟨_, rfl⟩
  case setattr r key value | refSetitem r key value =>
    simp only [step, Call.exec, Ref.setattr, Ref.setitem, EStateM.run_map, Ref.assign_run]
    cases r.assignOp _ value <;> exact ⟨.none, rfl⟩
  all_goals exact ⟨.none, rfl⟩

/-- Navigation never touches the page. -/
theorem step_navigation {c : Call} (h : c.isNavigation = true) (p : PageBase) :
    (step p c).1 = p := by
  cases c <;> simp only [Call.isNavigation, Bool.false_eq_true] at h
  case getitem key =>
    simp only [step, Call.exec, EStateM.run_map, PageBase.getitem_run]
    cases key <;> rfl
  case getattr r key =>
    simp only [step, Call.exec, EStateM.run_map]
    cases r.lookup key <;> rfl
  case refGetitem r key =>
    simp only [step, Call.exec, EStateM.run_map]
    cases r.getitem key <;> rfl

/-- `_diff` as a step. -/
theorem step_diff (p : PageBase) :
    step p .diff = if p.changes.length = 0 then (p, .ok (.diff none))
      else match marshal (PageBase.diffPayload p.changes) with
        | .ok s => ({ p with changes := [] }, .ok (.diff (some s)))
        | .error e => (p, .error e) := by
  simp only [step, Call.exec, EStateM.run_map, PageBase.diff_run]
  split
  · rfl
  · cases marshal (PageBase.diffPayload p.changes) <;> rfl

/-- The strings the diffs of a run returned, in order. -/
def diffStrings : List (Except PyErr Ret) → List String :=
  List.filterMap fun r => match r with
    | .ok (.diff (some s)) => some s
    | _ => none

/-- The card key is never guarded: `page['a b']` is the Ref `page['a'].b`, so the
assignments through both track the op `k = 'a b x'`, which splits into three
pieces; `del page[5]` tracks a `k` that is not a `str`; `add('', card)` is
accepted. -/
theorem card_key_space_collision :
    step ⟨"/demo", []⟩ (.getitem (.str "a b")) = (⟨"/demo", []⟩, .ok (.ref ⟨"a b"⟩)) ∧
    step ⟨"/demo", []⟩ (.getitem (.str "a")) = (⟨"/demo", []⟩, .ok (.ref ⟨"a"⟩)) ∧
    step ⟨"/demo", []⟩ (.getattr ⟨"a"⟩ "b") = (⟨"/demo", []⟩, .ok (.ref ⟨"a b"⟩)) ∧
    step ⟨"/demo", []⟩ (.setattr ⟨"a b"⟩ "x" (.int 1)) =
      (⟨"/demo", [[(.str "k", .str "a b x"), (.str "v", .int 1)]]⟩, .ok .none) ∧
    splitPath "a b x" = ["a", "b", "x"] ∧
    step ⟨"/demo", []⟩ (.delitem (.int 5)) = (⟨"/demo", [[(.str "k", .int 5)]]⟩, .ok .none) ∧
    step ⟨"/demo", []⟩ (.add (.str "") (.dict [])) =
      (⟨"/demo", [[(.str "k", .str ""), (.str "d", .dict [])]]⟩, .ok (.ref ⟨""⟩)) := by
  refine ⟨rfl, rfl, rfl, rfl, ?_, rfl, rfl⟩
  decide

/-! ## What a Ref assignment tracks -/

/-- **A Ref assignment that returns normally** was not given a `Data`, its key passed
`_guard_key`, and it tracked `{k, v}`: `k` the Ref's path, a space and `str(key)`,
`v` the dumped value.  The one exception is a value whose `dump()` returns a
`Data`: its op is that `Data`'s encoding, one `m`, `c` or `f` entry, followed by
`k`. -/
theorem ref_assignment_op (p p' : PageBase) (r : Ref) (key value : PyVal) (ret : Ret)
    (h : step p (.refSetitem r key value) = (p', .ok ret) ∨
      ∃ k, key = .str k ∧ step p (.setattr r k value) = (p', .ok ret)) :
    value.isData = false ∧ ∃ k w, guardKey key = .ok k ∧ dump value = .ok w ∧
      ((w.isData = false ∧
          p'.changes = p.changes ++ [[(.str "k", .str (r.key ++ keySep ++ k.pyStr)), (.str "v", w)]]) ∨
       (∃ cls t f n d, value = .dumps cls t w ∧ w = .data f n d ∧
          p'.changes = p.changes ++ [Data.dump f n d ++ [(.str "k", .str (r.key ++ keySep ++ k.pyStr))]] ∧
          ∃ kind ∈ bufferKinds, ∃ spec, Data.dump f n d = [(.str kind, spec)])) := by
  obtain ⟨op, hop, hchanges⟩ : ∃ op, r.assignOp key value = .ok op ∧ p'.changes = p.changes ++ [op] := by
    obtain ⟨c, hc, hstep⟩ : ∃ c, c.op = some (r.assignOp key value) ∧ step p c = (p', .ok ret) := by
      rcases h with h | ⟨k, rfl, h⟩
      · exact ⟨.refSetitem r key value, rfl, h⟩
      · exact ⟨.setattr r k value, rfl, h⟩
    obtain ⟨ret', hs⟩ := step_of_op hc p
    rw [hs] at hstep
    cases hx : r.assignOp key value <;> rw [hx] at hstep <;> cases hstep
    exact ⟨_, rfl, rfl⟩
  obtain ⟨hnd, k, w, hk, hw, rfl⟩ := assignOp_eq_ok hop
  refine ⟨hnd, k, w, hk, hw, ?_⟩
  cases w
  case data f n d =>
    obtain ⟨cls, t, rfl⟩ := dump_eq_data hw
    refine .inr ⟨cls, t, f, n, d, rfl, rfl, ?_, Data.dump_shape f n d⟩
    simp only [hchanges, Data.dump_setitem_k]
  all_goals exact .inl ⟨rfl, hchanges⟩

/-- `page['c']['x'] = 1` tracks `{k: 'c x', v: 1}`. -/
theorem ref_assignment_op_int :
    (step ⟨"/demo", []⟩ (.refSetitem ⟨"c"⟩ (.str "x") (.int 1)) =
        (⟨"/demo", [[(.str "k", .str "c x"), (.str "v", .int 1)]]⟩, .ok .none) ∨
      ∃ k, PyVal.str "x" = .str k ∧ step ⟨"/demo", []⟩ (.setattr ⟨"c"⟩ k (.int 1)) =
        (⟨"/demo", [[(.str "k", .str "c x"), (.str "v", .int 1)]]⟩, .ok .none)) ∧
    (PyVal.int 1).isData = false ∧ ∃ k w, guardKey (.str "x") = .ok k ∧ dump (.int 1) = .ok w ∧
      ((w.isData = false ∧ [[(.str "k", .str "c x"), (.str "v", .int 1)]] =
          ([] : List Dict) ++ [[(.str "k", .str ("c" ++ keySep ++ k.pyStr)), (.str "v", w)]]) ∨
       (∃ cls t f n d, PyVal.int 1 = .dumps cls t w ∧ w = .data f n d ∧
          [[(.str "k", .str "c x"), (.str "v", .int 1)]] =
            ([] : List Dict) ++ [Data.dump f n d ++ [(.str "k", .str ("c" ++ keySep ++ k.pyStr))]] ∧
          ∃ kind ∈ bufferKinds, ∃ spec, Data.dump f n d = [(.str kind, spec)])) :=
  ⟨.inl rfl, ref_assignment_op ⟨"/demo", []⟩ ⟨"/demo", [[(.str "k", .str "c x"), (.str "v", .int 1)]]⟩
    ⟨"c"⟩ (.str "x") (.int 1) .none (.inl rfl)⟩

/-- A `Data` nested in a list passes the top-level check and reaches the op
encoded; a value whose `dump()` returns a `Data` yields an op with fields `f` and
`k` and no `v`. -/
theorem nested_data_reaches_op :
    step ⟨"/demo", []⟩ (.setattr ⟨"c"⟩ "x" (.list [.data (.list [.str "a"]) 3 .none])) =
      (⟨"/demo", [[(.str "k", .str "c x"), (.str "v", .list [.dict
        [(.str "f", .dict [(.str "f", .list [.str "a"]), (.str "n", .int 3)])]])]]⟩, .ok .none) ∧
    step ⟨"/demo", []⟩ (.setattr ⟨"c"⟩ "x" (.dumps "Card" true (.data (.list [.str "a"]) 3 .none))) =
      (⟨"/demo", [[(.str "f", .dict [(.str "f", .list [.str "a"]), (.str "n", .int 3)]),
        (.str "k", .str "c x")]]⟩, .ok .none) :=
  ⟨rfl, rfl⟩

end Telesync
