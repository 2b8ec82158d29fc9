import Telesync.Core.Page
set_option autoImplicit false

/-!
# `add`: moving `Data` properties out to buffers

Source: `py/telesync/core.py`, `PageBase.add` (lines 360-374).

`add` scans the card's properties, collecting each `Data` property's key with the
index its dump gets in `bufs`, then deletes each such property and inserts the
marker `~key` holding the index.  The second loop edits the dict in place, so a
marker can land on a key the card already has.

WHAT IS PROVED.  `scanData_eq` gives both lists of the first loop in closed form.
`renameData_eq` shows that when no key of the card begins with `~` and the `Data`
keys have distinct `str()`, the second loop leaves the non-`Data` properties in
order followed by one marker per buffer; `add_extracts_buffers` derives the
extraction law from the two.  `tilde_key_collision` shows the law failing when a
key begins with `~`.
-/

namespace Telesync

/-! ## The first loop -/

/-- The keys of the `Data` properties, in iteration order. -/
def dataNames (props : Dict) : List PyKey :=
  props.filterMap fun e => if e.2.isData then some e.1 else none

/-- The dumps of the `Data` properties, in iteration order. -/
def buffers (props : Dict) : List PyVal :=
  props.filterMap fun e => match e.2 with
    | .data f n d => some (.dict (Data.dump f n d))
    | _ => none

/-- Each key paired with its position, counted from `start`. -/
def indexFrom (start : Nat) : List PyKey → List (PyKey × Nat)
  | [] => []
  | k :: ks => (k, start) :: indexFrom (start + 1) ks

@[simp] theorem map_fst_indexFrom (start : Nat) (ks : List PyKey) :
    (indexFrom start ks).map Prod.fst = ks := by
  induction ks generalizing start <;> simp_all [indexFrom]

section Cons

variable (k : PyKey) (props : Dict) {v : PyVal}

theorem scanStep_of_not_data (acc : List (PyKey × Nat) × List PyVal) (h : v.isData = false) :
    PageBase.scanStep acc (k, v) = acc := by
  cases v <;> first | rfl | cases h

theorem dataNames_cons_of_not_data (h : v.isData = false) :
    dataNames ((k, v) :: props) = dataNames props := by
  simp [dataNames, h]

theorem buffers_cons_of_not_data (h : v.isData = false) : buffers ((k, v) :: props) = buffers props := by
  cases v <;> first | rfl | cases h

@[simp] theorem dataNames_cons_data (f d : PyVal) (n : PyInt) :
    dataNames ((k, .data f n d) :: props) = k :: dataNames props := by
  simp [dataNames, PyVal.isData]

@[simp] theorem buffers_cons_data (f d : PyVal) (n : PyInt) :
    buffers ((k, .data f n d) :: props) = .dict (Data.dump f n d) :: buffers props := rfl

end Cons

theorem scanData_foldl (props : Dict) (ds : List (PyKey × Nat)) (bs : List PyVal) :
    props.foldl PageBase.scanStep (ds, bs) =
      (ds ++ indexFrom bs.length (dataNames props), bs ++ buffers props) := by
  induction props generalizing ds bs with
  | nil => simp [dataNames, buffers, indexFrom]
  | cons e props ih =>
    obtain ⟨k, v⟩ := e
    cases hv : v.isData
    · rw [List.foldl_cons, scanStep_of_not_data k _ hv, ih, dataNames_cons_of_not_data k props hv,
        buffers_cons_of_not_data k props hv]
    · obtain ⟨f, n, d, rfl⟩ := PyVal.isData_eq_true hv
      rw [List.foldl_cons, dataNames_cons_data, buffers_cons_data]
      simp only [PageBase.scanStep, ih, indexFrom, List.append_assoc, List.singleton_append,
        List.length_append, List.length_singleton]

/-- The first loop records the `i`-th `Data` key with index `i`, and the dumps. -/
theorem scanData_eq (props : Dict) :
    PageBase.scanData props = (indexFrom 0 (dataNames props), buffers props) := by
  simpa using scanData_foldl props [] []

theorem length_dataNames (props : Dict) : (dataNames props).length = (buffers props).length := by
  induction props with
  | nil => rfl
  | cons e props ih =>
    obtain ⟨k, v⟩ := e
    cases hv : v.isData
    · rw [dataNames_cons_of_not_data k props hv, buffers_cons_of_not_data k props hv, ih]
    · obtain ⟨f, n, d, rfl⟩ := PyVal.isData_eq_true hv
      simp [ih]

/-! ## The second loop -/

/-- The marker `f'~{k}'` that replaces the `Data` property `k`. -/
def markerKey (k : PyKey) : PyKey := .str ("~" ++ k.pyStr)

@[simp] theorem isMarker_markerKey (k : PyKey) : (markerKey k).isMarker = true := by
  simp [markerKey, PyKey.isMarker]

/-- Distinct `str()` give distinct markers. -/
theorem nodup_markers {ks : List PyKey} (h : (ks.map PyKey.pyStr).Nodup) :
    (ks.map markerKey).Nodup := by
  have hinj : Function.Injective fun s : String => PyKey.str ("~" ++ s) := by
    intro a b hab
    simp only [PyKey.str.injEq, String.ext_iff, String.data_append] at hab
    exact String.ext (List.append_cancel_left hab)
  simpa [List.map_map, Function.comp_def, markerKey] using h.map hinj

/-- The markers of the processed `Data` properties, in order. -/
def markers (ds : List (PyKey × Nat)) : Dict := ds.map fun e => (markerKey e.1, .int e.2)

theorem keys_erase_subset (d : Dict) (k : PyKey) : ∀ x ∈ Dict.keys (d.erase k), x ∈ Dict.keys d := by
  induction d with
  | nil => simp
  | cons e d ih =>
    obtain ⟨k', v'⟩ := e
    simp only [Dict.erase]
    split <;> simp_all

/-- Deleting a key that the tail lacks works in the head. -/
theorem erase_append_of_not_mem_right {d e : Dict} {k : PyKey} (h : k ∉ Dict.keys e) :
    (d ++ e).erase k = d.erase k ++ e := by
  induction d with
  | nil => simp [Dict.erase_of_not_mem h]
  | cons x d ih =>
    obtain ⟨k', v'⟩ := x
    simp only [List.cons_append, Dict.erase]
    split <;> simp [ih]

/-- The second loop, while no key of the dict's head part and no key still to
delete is a marker, and the markers still to come are distinct and absent from
the markers already placed: it deletes the `Data` keys from the head part and
appends one marker each. -/
theorem renameData_append (ds : List (PyKey × Nat)) :
    ∀ (A M : Dict), (∀ k ∈ Dict.keys A, k.isMarker = false) →
      (∀ e ∈ ds, e.1.isMarker = false) → (∀ k ∈ Dict.keys M, k.isMarker = true) →
      ((ds.map Prod.fst).map markerKey).Nodup → (∀ e ∈ ds, markerKey e.1 ∉ Dict.keys M) →
      PageBase.renameData (A ++ M) ds = (ds.map Prod.fst).foldl Dict.erase A ++ M ++ markers ds := by
  induction ds with
  | nil => intro A M _ _ _ _ _; simp [PageBase.renameData, markers]
  | cons e ds ih =>
    intro A M hA hds hM hnd hfresh
    obtain ⟨k, i⟩ := e
    simp only [List.map_cons, List.nodup_cons, List.mem_map] at hnd
    simp only [List.mem_cons, forall_eq_or_imp] at hds hfresh
    have hkM : k ∉ Dict.keys M := fun h => by simpa [hds.1] using hM k h
    have hmark : markerKey k ∉ Dict.keys (A.erase k ++ M) := by
      simp only [Dict.keys_append, List.mem_append, not_or]
      exact ⟨fun h => by simpa using hA _ (keys_erase_subset A k _ h), hfresh.1⟩
    have hstep : PageBase.renameStep (A ++ M) (k, i) =
        A.erase k ++ (M ++ [(markerKey k, .int i)]) := by
      rw [PageBase.renameStep, erase_append_of_not_mem_right hkM, ← markerKey,
        Dict.setitem_of_not_mem _ hmark, List.append_assoc]
    have hM' : ∀ x ∈ Dict.keys (M ++ [(markerKey k, .int i)]), x.isMarker = true := by
      intro x hx
      simp only [Dict.keys_append, List.mem_append, Dict.keys_cons, Dict.keys_nil,
        List.mem_cons, List.not_mem_nil, or_false] at hx
      rcases hx with hx | rfl
      · exact hM x hx
      · exact isMarker_markerKey k
    have hfresh' : ∀ e ∈ ds, markerKey e.1 ∉ Dict.keys (M ++ [(markerKey k, .int i)]) := by
      intro e he
      simp only [Dict.keys_append, List.mem_append, Dict.keys_cons, Dict.keys_nil,
        List.mem_cons, List.not_mem_nil, or_false, not_or]
      exact ⟨hfresh.2 e he, fun h => hnd.1 ⟨e.1, ⟨e, he, rfl⟩, h⟩⟩
    have ih' := ih (A.erase k) (M ++ [(markerKey k, .int i)])
      (fun x hx => hA x (keys_erase_subset A k x hx)) hds.2 hM' hnd.2 hfresh'
    simp only [PageBase.renameData, List.foldl_cons] at ih' ⊢
    rw [hstep, ih']
    simp [markers]

/-- Deleting the `Data` keys of a dict with distinct keys keeps the other
properties, in order. -/
theorem foldl_erase_dataNames (props : Dict) (hkeys : (Dict.keys props).Nodup) :
    (dataNames props).foldl Dict.erase props = props.filter fun e => !e.2.isData := by
  induction props with
  | nil => simp [dataNames]
  | cons e props ih =>
    obtain ⟨k, v⟩ := e
    simp only [Dict.keys_cons, List.nodup_cons] at hkeys
    have hnot : ∀ ns : List PyKey, (∀ n ∈ ns, n ≠ k) → ∀ X : Dict,
        ns.foldl Dict.erase ((k, v) :: X) = (k, v) :: ns.foldl Dict.erase X := by
      intro ns
      induction ns with
      | nil => simp
      | cons n ns ihn =>
        intro hn X
        simp only [List.foldl_cons, Dict.erase, List.mem_cons, forall_eq_or_imp] at hn ⊢
        rw [if_neg (Ne.symm hn.1)]
        exact ihn hn.2 _
    have hsub : ∀ n ∈ dataNames props, n ∈ Dict.keys props := by
      intro n hn
      simp only [dataNames, List.mem_filterMap, Option.ite_none_right_eq_some,
        Option.some.injEq] at hn
      obtain ⟨e, he, -, rfl⟩ := hn
      exact List.mem_map_of_mem _ he
    cases hv : v.isData
    · have : dataNames ((k, v) :: props) = dataNames props := by simp [dataNames, hv]
      rw [this, hnot _ (fun n hn h => hkeys.1 (h ▸ hsub n hn)), ih hkeys.2]
      simp [hv]
    · have : dataNames ((k, v) :: props) = k :: dataNames props := by simp [dataNames, hv]
      rw [this, List.foldl_cons, Dict.erase_cons_self, ih hkeys.2]
      simp [hv]

/-- **The second loop in closed form.**  If the keys are distinct, none begins with
`~`, and the `Data` keys have distinct `str()`, the result is the non-`Data`
properties in order followed by one marker per `Data` property, holding its index. -/
theorem renameData_eq (props : Dict) (hkeys : (Dict.keys props).Nodup)
    (hnomark : ∀ k ∈ Dict.keys props, k.isMarker = false)
    (hnames : ((dataNames props).map PyKey.pyStr).Nodup) :
    PageBase.renameData props (indexFrom 0 (dataNames props)) =
      props.filter (fun e => !e.2.isData) ++ markers (indexFrom 0 (dataNames props)) := by
  have hds : ∀ e ∈ indexFrom 0 (dataNames props), e.1.isMarker = false := by
    intro e he
    apply hnomark
    have : e.1 ∈ (indexFrom 0 (dataNames props)).map Prod.fst := List.mem_map_of_mem _ he
    simp only [map_fst_indexFrom, dataNames, List.mem_filterMap,
      Option.ite_none_right_eq_some, Option.some.injEq] at this
    obtain ⟨x, hx, -, hxe⟩ := this
    exact hxe ▸ List.mem_map_of_mem _ hx
  have := renameData_append (indexFrom 0 (dataNames props)) props [] hnomark hds (by simp)
    (by rw [map_fst_indexFrom]; exact nodup_markers hnames) (by simp)
  simpa [foldl_erase_dataNames props hkeys] using this

/-! ## The op `add` tracks -/

/-- `addOp` in closed form: the key, the renamed properties, and the buffers if any. -/
theorem addOp_eq {card : PyVal} {props : Dict} (key : String) (h : PageBase.cardProps card = .ok props) :
    PageBase.addOp key card =
      let D := PageBase.renameData props (indexFrom 0 (dataNames props))
      .ok (if (buffers props).isEmpty then [(.str "k", .str key), (.str "d", .dict D)]
        else [(.str "k", .str key), (.str "d", .dict D), (.str "b", .list (buffers props))]) := by
  simp only [PageBase.addOp, h, except_ok_bind, scanData_eq]
  cases hb : buffers props <;> simp

/-- Each `Data` property has a position among the `Data` properties, where its dump is. -/
theorem exists_index_of_data {props : Dict} {name : PyKey} {f d : PyVal} {n : PyInt}
    (h : (name, .data f n d) ∈ props) :
    ∃ i : Nat, (dataNames props)[i]? = some name ∧
      (buffers props)[i]? = some (PyVal.dict (Data.dump f n d)) := by
  induction props with
  | nil => simp at h
  | cons e props ih =>
    obtain ⟨k, v⟩ := e
    rcases List.mem_cons.1 h with heq | hmem
    · cases heq
      exact ⟨0, by simp⟩
    · obtain ⟨i, h1, h2⟩ := ih hmem
      cases hv : v.isData
      · rw [dataNames_cons_of_not_data k props hv, buffers_cons_of_not_data k props hv]
        exact ⟨i, h1, h2⟩
      · obtain ⟨f, n, d, rfl⟩ := PyVal.isData_eq_true hv
        exact ⟨i + 1, by simpa using ⟨h1, h2⟩⟩

theorem isMarker_of_mem_keys_markers (ds : List (PyKey × Nat)) :
    ∀ k ∈ Dict.keys (markers ds), k.isMarker = true := by
  intro k hk
  simp only [markers, Dict.keys, List.map_map, List.mem_map] at hk
  obtain ⟨e, -, rfl⟩ := hk
  exact isMarker_markerKey e.1

/-- The marker of the `i`-th name holds `start + i`. -/
theorem lookup_markers {ks : List PyKey} (hnd : (ks.map markerKey).Nodup) (start i : Nat)
    {name : PyKey} (h : ks[i]? = some name) :
    (markers (indexFrom start ks)).lookup (markerKey name) = some (.int ↑(start + i)) := by
  induction ks generalizing start i with
  | nil => simp at h
  | cons k ks ih =>
    simp only [List.map_cons, List.nodup_cons] at hnd
    cases i with
    | zero =>
      obtain rfl : k = name := by simpa using h
      simp [markers, indexFrom]
    | succ i =>
      rw [List.getElem?_cons_succ] at h
      have hne : markerKey name ≠ markerKey k := fun he =>
        hnd.1 (he ▸ List.mem_map_of_mem _ (List.getElem?_mem h))
      have := ih hnd.2 (start + 1) i h
      simp only [markers, indexFrom, List.map_cons, List.lookup_cons, beq_false_of_ne hne] at this ⊢
      rw [this, show start + 1 + i = start + (i + 1) by omega]

/-- The marker entry points at buffer `i`. -/
def refsIndex (i : Nat) (e : PyKey × PyVal) : Bool :=
  e.1.isMarker && match e.2 with
    | .int j => j == i
    | _ => false

/-- The markers from `start` point at each index of `[start, start + len)` once. -/
theorem countP_refsIndex_markers (i start : Nat) (ks : List PyKey) :
    (markers (indexFrom start ks)).countP (refsIndex i) =
      if start ≤ i ∧ i < start + ks.length then 1 else 0 := by
  induction ks generalizing start with
  | nil => rw [if_neg (by simp)]; rfl
  | cons k ks ih =>
    have := ih (start + 1)
    simp only [markers] at this
    simp only [markers, indexFrom, List.map_cons, List.countP_cons, this, refsIndex,
      isMarker_markerKey, Bool.true_and, List.length_cons, beq_iff_eq, Nat.cast_inj]
    split_ifs <;> omega

/-! ## The dict the second loop leaves

`renameData_eq` puts it in the form `F ++ M`: the non-`Data` properties, then the
markers. -/

section Renamed

variable {props : Dict} (hnomark : ∀ k ∈ Dict.keys props, k.isMarker = false)
include hnomark

theorem isMarker_of_mem_filter :
    ∀ e ∈ props.filter (fun e => !e.2.isData), e.1.isMarker = false := fun _ he =>
  hnomark _ (List.mem_map_of_mem _ (List.mem_of_mem_filter he))

/-- A `Data` key is neither kept nor a marker. -/
theorem data_key_not_mem_renamed (hkeys : (Dict.keys props).Nodup) {name : PyKey} {f d : PyVal}
    {n : PyInt} (hmem : (name, .data f n d) ∈ props) :
    name ∉ Dict.keys (props.filter (fun e => !e.2.isData) ++ markers (indexFrom 0 (dataNames props))) := by
  simp only [Dict.keys_append, List.mem_append, not_or]
  constructor
  · intro hk
    obtain ⟨e, he, rfl⟩ := List.mem_map.1 hk
    obtain ⟨he, hd⟩ := List.mem_filter.1 he
    have hv := congrArg Prod.snd (List.inj_on_of_nodup_map hkeys hmem he rfl)
    rw [← hv] at hd
    simp [PyVal.isData] at hd
  · exact fun hk => by
      simpa [hnomark _ (List.mem_map_of_mem _ hmem)] using isMarker_of_mem_keys_markers _ _ hk

/-- The marker of the `i`-th `Data` key holds `i`. -/
theorem lookup_marker_renamed (hnames : ((dataNames props).map PyKey.pyStr).Nodup) {i : Nat}
    {name : PyKey} (h : (dataNames props)[i]? = some name) :
    (props.filter (fun e => !e.2.isData) ++ markers (indexFrom 0 (dataNames props))).lookup
      (markerKey name) = some (.int i) := by
  have hnone : (props.filter fun e => !e.2.isData).lookup (markerKey name) = none := by
    simp only [List.lookup_eq_none_iff, bne_iff_ne]
    exact fun e he hk => by simpa [← hk] using isMarker_of_mem_filter hnomark e he
  rw [List.lookup_append, hnone, Option.none_or, lookup_markers (nodup_markers hnames) 0 i h,
    Nat.zero_add]

/-- Each buffer index has one marker. -/
theorem countP_refsIndex_renamed {i : Nat} (hi : i < (buffers props).length) :
    (props.filter (fun e => !e.2.isData) ++ markers (indexFrom 0 (dataNames props))).countP
      (refsIndex i) = 1 := by
  have hF0 : (props.filter fun e => !e.2.isData).countP (refsIndex i) = 0 :=
    List.countP_eq_zero.2 fun e he => by simp [refsIndex, isMarker_of_mem_filter hnomark e he]
  rw [List.countP_append, hF0, countP_refsIndex_markers, length_dataNames, if_pos (by omega)]

end Renamed

/-- **Buffer extraction.**  When `add` accepts a card whose property dict (with
distinct keys, as a Python dict has) has no key beginning with `~`, and whose `Data`
keys have distinct `str()`, it tracks `{k, d: D}`, or `{k, d: D, b: B}` when there
are `Data` properties, with `B` their dumps in order; each `Data` key is gone from
`D` and its marker holds its buffer's index; each index has exactly one marker; the
other properties stay. -/
theorem add_extracts_buffers {key card : PyVal} {p p' : PageBase} {r : Ref} {props : Dict}
    (hadd : (PageBase.add key card).run p = .ok r p') (hprops : PageBase.cardProps card = .ok props)
    (hkeys : (Dict.keys props).Nodup) (hnomark : ∀ k ∈ Dict.keys props, k.isMarker = false)
    (hnames : ((dataNames props).map PyKey.pyStr).Nodup) :
    ∃ D : Dict,
      p'.changes = p.changes ++ [if (buffers props).isEmpty then [(.str "k", key), (.str "d", .dict D)]
        else [(.str "k", key), (.str "d", .dict D), (.str "b", .list (buffers props))]] ∧
      (∀ name f n d, (name, PyVal.data f n d) ∈ props → ∃ i : Nat,
        (buffers props)[i]? = some (PyVal.dict (Data.dump f n d)) ∧ name ∉ Dict.keys D ∧
        D.lookup (markerKey name) = some (.int i)) ∧
      (∀ i < (buffers props).length, D.countP (refsIndex i) = 1) ∧
      (∀ e ∈ props, e.2.isData = false → e ∈ D) := by
  obtain ⟨op, rfl, hop, rfl⟩ := PageBase.add_run_eq_ok hadd
  rw [addOp_eq _ hprops, renameData_eq props hkeys hnomark hnames] at hop
  obtain rfl := Except.ok.inj hop
  refine ⟨_, rfl, fun name f n d hmem => ?_, fun i hi => countP_refsIndex_renamed hnomark hi,
    fun e he hd => List.mem_append_left _ (List.mem_filter.2 ⟨he, by simp [hd]⟩)⟩
  obtain ⟨i, h1, h2⟩ := exists_index_of_data hmem
  exact ⟨i, h2, data_key_not_mem_renamed hnomark hkeys hmem, lookup_marker_renamed hnomark hnames h1⟩

/-- The law on the card `{'x': Data, 'y': 1}`. -/
theorem add_extracts_buffers_xy :
    ∃ D : Dict,
      ([[(.str "k", .str "c"), (.str "d", .dict [(.str "y", .int 1), (.str "~x", .int 0)]),
          (.str "b", .list [.dict (Data.dump (.list [.str "a"]) 3 .none)])]] : List Dict) =
        [] ++ [if (buffers [(.str "x", .data (.list [.str "a"]) 3 .none), (.str "y", .int 1)]).isEmpty
          then [(.str "k", .str "c"), (.str "d", .dict D)]
          else [(.str "k", .str "c"), (.str "d", .dict D), (.str "b", .list
            (buffers [(.str "x", .data (.list [.str "a"]) 3 .none), (.str "y", .int 1)]))]] ∧
      (∀ name f n d, (name, PyVal.data f n d) ∈
          [(.str "x", .data (.list [.str "a"]) 3 .none), (.str "y", .int 1)] → ∃ i : Nat,
        (buffers [(.str "x", .data (.list [.str "a"]) 3 .none), (.str "y", .int 1)])[i]? =
          some (PyVal.dict (Data.dump f n d)) ∧ name ∉ Dict.keys D ∧
        D.lookup (markerKey name) = some (.int i)) ∧
      (∀ i < (buffers [(.str "x", .data (.list [.str "a"]) 3 .none), (.str "y", .int 1)]).length,
        D.countP (refsIndex i) = 1) ∧
      (∀ e ∈ [(PyKey.str "x", PyVal.data (.list [.str "a"]) 3 .none), (.str "y", .int 1)],
        e.2.isData = false → e ∈ D) :=
  @add_extracts_buffers (.str "c")
    (.dict [(.str "x", .data (.list [.str "a"]) 3 .none), (.str "y", .int 1)]) ⟨"/demo", []⟩
    ⟨"/demo", [[(.str "k", .str "c"), (.str "d", .dict [(.str "y", .int 1), (.str "~x", .int 0)]),
      (.str "b", .list [.dict (Data.dump (.list [.str "a"]) 3 .none)])]]⟩ ⟨"c"⟩ _
    rfl rfl (by decide) (by decide) (by decide)

/-- A key beginning with `~` breaks the law: `{'x': Data, '~x': 5}` loses `'~x': 5`
to the marker of `x`, and `{'x': Data, '~x': Data}` deletes the marker of `x`,
leaving buffer 0 unreferenced. -/
theorem tilde_key_collision :
    PageBase.addOp "c" (.dict [(.str "x", .data (.list [.str "a"]) 3 .none), (.str "~x", .int 5)]) =
      .ok [(.str "k", .str "c"), (.str "d", .dict [(.str "~x", .int 0)]),
        (.str "b", .list [.dict (Data.dump (.list [.str "a"]) 3 .none)])] ∧
    PageBase.addOp "c" (.dict [(.str "x", .data (.list [.str "a"]) 3 .none),
        (.str "~x", .data (.list [.str "b"]) 0 .none)]) =
      .ok [(.str "k", .str "c"), (.str "d", .dict [(.str "~~x", .int 1)]),
        (.str "b", .list [.dict (Data.dump (.list [.str "a"]) 3 .none),
          .dict (Data.dump (.list [.str "b"]) 0 .none)])] := ⟨rfl, rfl⟩

end Telesync
