import Telesync.Core.DataFactory
import Telesync.Core.RoundTrip
set_option autoImplicit false

/-!
# Packed data reads back

Source: `py/telesync/core.py`, `data` with `pack=True` (lines 302-313), over `marshal`
and `unmarshal` (lines 628-645).

THE FORMAT.  With `pack=True`, `data()` returns a `str`: `rows:` and the marshalled
pair of the fields and the rows when the rows are truthy, and otherwise `cols:` and
the marshalled pair of the fields and the columns.

WHAT IS PROVED.  `data_pack_unmarshal`: the text after the tag reads back, by
`unmarshal`, as the list of the field names and of the rows (or the columns) as
`json` reads them back (`PyVal.jsonNorm`).  The tag says which of the two was sent,
and the names come back as they were given, whether the fields were a list, a tuple
or a string of names.
-/

namespace Telesync

/-- Field names hold no float. -/
theorem floatsList_map_str (names : List String) : PyVal.floats.floatsList (names.map .str) = [] := by
  induction names with
  | nil => rfl
  | cons n ns ih => simp only [List.map_cons, PyVal.floats.floatsList, ih]; rfl

/-- Field names read back as themselves. -/
theorem normList_map_str (names : List String) : PyVal.jsonNorm.normList (names.map .str) = names.map .str := by
  induction names with
  | nil => rfl
  | cons n ns ih => simp only [List.map_cons, PyVal.jsonNorm.normList, ih]; rfl

/-- The fields `dataFields` keeps read back as the list of their names. -/
theorem jsonNorm_dataFields {f fields : PyVal} {names : List String} (h : dataFields f = .ok (fields, names)) :
    fields.jsonNorm = .list (names.map .str) ∧ fields.floats = [] := by
  rcases (dataFields_sound h).2.2 with rfl | rfl <;>
    exact ⟨by simp only [PyVal.jsonNorm, normList_map_str], floatsList_map_str names⟩

section Packed

variable (floatRepr : String → String)

/-- One packed payload: the tag, then the marshalled fields and payload, which read
back as the names and the payload as `json` reads it. -/
theorem unmarshal_packed {fields payload : PyVal} {names : List String} {s : String}
    (hfields : fields.jsonNorm = .list (names.map .str) ∧ fields.floats = [])
    (hs : marshal (.tuple [fields, payload]) = .ok s)
    (hf : ∀ r ∈ payload.floats, FloatToken r.data ∧ floatRepr r = r) :
    unmarshal floatRepr s = some (.ok (.list [.list (names.map .str), payload.jsonNorm])) := by
  have hf' : ∀ r ∈ (PyVal.tuple [fields, payload]).floats, FloatToken r.data ∧ floatRepr r = r := by
    simpa only [PyVal.floats, PyVal.floats.floatsList, hfields.2, List.nil_append, List.append_nil] using hf
  rw [unmarshal_encode floatRepr hs hf']
  simp only [PyVal.jsonNorm, PyVal.jsonNorm.normList, hfields.1]

/-- **Packed data reads back.**  Whenever `data(..., pack=True)` returns, it returns
`rows:` when the rows are truthy and `cols:` otherwise, followed by a text that
`unmarshal` reads back as the list of the field names and of the rows (or the
columns) as `json` reads them back, when each float `repr` in them is a JSON number
that `float` reads back as itself. -/
theorem data_pack_unmarshal {f size rows columns p : PyVal} (h : data f size rows columns true = .ok p)
    (hf : ∀ r ∈ (if rows.truthy then rows else columns).floats, FloatToken r.data ∧ floatRepr r = r) :
    ∃ fields names body, dataFields f = .ok (fields, names) ∧
      p = .str ((if rows.truthy then "rows:" else "cols:") ++ body) ∧
      unmarshal floatRepr body =
        some (.ok (.list [.list (names.map .str), (if rows.truthy then rows else columns).jsonNorm])) := by
  obtain ⟨⟨fields, names⟩, hfd, h⟩ := except_bind_eq_ok.1 h
  have hfields := jsonNorm_dataFields hfd
  simp only [if_true, dataPack] at h
  by_cases hr : rows.truthy = true
  · rw [if_pos hr] at h
    simp only [hr, if_true] at hf ⊢
    split at h
    · obtain ⟨s, hs, h⟩ := except_bind_eq_ok.1 h
      cases h
      exact ⟨fields, names, s, hfd, rfl, unmarshal_packed floatRepr hfields hs hf⟩
    · cases h
  · rw [if_neg hr] at h
    simp only [hr, if_false, Bool.false_eq_true] at hf ⊢
    split_ifs at h with hc
    split at h
    · obtain ⟨s, hs, h⟩ := except_bind_eq_ok.1 h
      cases h
      exact ⟨fields, names, s, hfd, rfl, unmarshal_packed floatRepr hfields hs hf⟩
    · cases h

/-- The rows of a packed `data('product price', rows=[['P1', 1.5]])` read back with
the names. -/
theorem data_pack_unmarshal_rows :
    ∃ fields names body,
      dataFields (.str "product price") = .ok (fields, names) ∧
      PyVal.str "rows:[[\x22product\x22,\x22price\x22],[[\x22P1\x22,1.5]]]" =
        .str ((if (PyVal.list [.list [.str "P1", .float "1.5"]]).truthy then "rows:" else "cols:") ++ body) ∧
      unmarshal id body = some (.ok (.list [.list (names.map .str),
        (if (PyVal.list [.list [.str "P1", .float "1.5"]]).truthy then PyVal.list [.list [.str "P1", .float "1.5"]]
          else .none).jsonNorm])) :=
  @data_pack_unmarshal id (.str "product price") (.int 0) (.list [.list [.str "P1", .float "1.5"]]) .none _ rfl
    (by
      simp only [PyVal.truthy, List.isEmpty_cons, Bool.not_false, if_true, PyVal.floats,
        PyVal.floats.floatsList, List.nil_append, List.append_nil, List.mem_singleton, forall_eq, id, and_true]
      exact ⟨[], ['1'], ['.', '5'], [], rfl, .inl rfl, .inr ⟨'1', [], rfl, by decide, by decide, by simp⟩,
        .inr ⟨['5'], rfl, by simp [Digits]⟩, .inl rfl, .inl (by simp)⟩)

end Packed

end Telesync
