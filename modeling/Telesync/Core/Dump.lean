import Telesync.Core.Value
set_option autoImplicit false

/-!
# `Data.dump` and `_dump`

Source: `py/telesync/core.py`, `_can_dump` and `_dump` (lines 183-195) and
`Data.dump` (lines 241-260).

`_dump` expands a value before it is tracked: lists and tuples element by
element, dicts value by value, and anything with a callable `dump` by calling it.
The result of a `dump()` call is taken as it is, not expanded again; this is what
lets a `Data` reach an op through a user `dump()` (see `Telesync.Core.Ref`).
-/

namespace Telesync

/-- `Data.dump` (lines 241-260): the wire shape of a buffer, keyed `m` (map),
`c` (circular) or `f` (fixed), with the initial rows `d` or the size hint `n`.
`n == 0` and `n < 0` compare the size as a number; `n=n` writes it as it is, so a
size `True` is written `true`. -/
def Data.dump (fields : PyVal) (size : PyInt) (data : PyVal) : Dict :=
  if data.truthy then
    match data with
    | .dict _ => [(.str "m", .dict [(.str "f", fields), (.str "d", data)])]
    | _ =>
      if size.val < 0 then [(.str "c", .dict [(.str "f", fields), (.str "d", data)])]
      else [(.str "f", .dict [(.str "f", fields), (.str "d", data)])]
  else if size.val = 0 then [(.str "m", .dict [(.str "f", fields)])]
  else if size.val < 0 then [(.str "c", .dict [(.str "f", fields), (.str "n", .int (-size.val))])]
  else [(.str "f", .dict [(.str "f", fields), (.str "n", size.toPyVal)])]

/-- The three buffer kinds of `Data.dump`. -/
def bufferKinds : List String := ["m", "c", "f"]

/-- `Data.dump` always yields one entry, keyed by a buffer kind. -/
theorem Data.dump_shape (fields : PyVal) (size : PyInt) (data : PyVal) :
    ∃ kind ∈ bufferKinds, ∃ spec : PyVal, Data.dump fields size data = [(.str kind, spec)] := by
  unfold Data.dump
  split
  · split
    · exact ⟨"m", by simp [bufferKinds], _, rfl⟩
    · split
      · exact ⟨"c", by simp [bufferKinds], _, rfl⟩
      · exact ⟨"f", by simp [bufferKinds], _, rfl⟩
  · split
    · exact ⟨"m", by simp [bufferKinds], _, rfl⟩
    · split
      · exact ⟨"c", by simp [bufferKinds], _, rfl⟩
      · exact ⟨"f", by simp [bufferKinds], _, rfl⟩

/-- No buffer kind is `k`, the key `_set_op` adds. -/
theorem Data.k_not_mem_dump_keys (fields : PyVal) (size : PyInt) (data : PyVal) :
    PyKey.str "k" ∉ Dict.keys (Data.dump fields size data) := by
  obtain ⟨kind, hkind, spec, hd⟩ := Data.dump_shape fields size data
  simp only [bufferKinds, List.mem_cons, List.not_mem_nil, or_false] at hkind
  rw [hd]
  rcases hkind with rfl | rfl | rfl <;> simp

/-- `op['k'] = k` on a `Data` encoding appends `k`. -/
theorem Data.dump_setitem_k (fields : PyVal) (size : PyInt) (data v : PyVal) :
    (Data.dump fields size data).setitem (.str "k") v = Data.dump fields size data ++ [(.str "k", v)] :=
  Dict.setitem_of_not_mem v (Data.k_not_mem_dump_keys fields size data)

example : Data.dump (.list [.str "a", .str "b"]) 3 .none =
    [(.str "f", .dict [(.str "f", .list [.str "a", .str "b"]), (.str "n", .int 3)])] := rfl

example : Data.dump (.list [.str "a"]) (.bool true) .none =
    [(.str "f", .dict [(.str "f", .list [.str "a"]), (.str "n", .bool true)])] := rfl

/-- `_can_dump`: the object has a callable `dump`. -/
def canDump : PyVal → Bool
  | .data .. | .dumps .. | .dumpRaises .. => true
  | _ => false

/-- `_dump` (lines 187-195). -/
def dump : PyVal → Except PyErr PyVal
  | .list xs => .list <$> dumpList xs
  | .tuple xs => .list <$> dumpList xs
  | .dict d => .dict <$> dumpDict d
  | .data f n d => pure (.dict (Data.dump f n d))
  | .dumps _ _ r => pure r
  | .dumpRaises _ _ e => throw e
  | .none => pure .none
  | .bool b => pure (.bool b)
  | .int i => pure (.int i)
  | .float r => pure (.float r)
  | .str s => pure (.str s)
  | .object cls t => pure (.object cls t)
where
  /-- `[_dump(x) for x in xs]` -/
  dumpList : List PyVal → Except PyErr (List PyVal)
    | [] => pure []
    | x :: xs => do
      let y ← dump x
      let ys ← dumpList xs
      pure (y :: ys)
  /-- `{k: _dump(v) for k, v in xs.items()}` -/
  dumpDict : Dict → Except PyErr Dict
    | [] => pure []
    | (k, v) :: d => do
      let w ← dump v
      let d' ← dumpDict d
      pure ((k, w) :: d')

/-- `_dump` returns a `Data` only when it called a user `dump()` that did. -/
theorem dump_eq_data {x f d : PyVal} {n : PyInt} (h : dump x = .ok (.data f n d)) :
    ∃ cls t, x = .dumps cls t (.data f n d) := by
  cases x with
  | list xs | tuple xs =>
    obtain ⟨_, _, h⟩ := except_map_eq_ok.mp h
    cases h
  | dict e =>
    obtain ⟨_, _, h⟩ := except_map_eq_ok.mp h
    cases h
  | dumps c t r => exact ⟨c, t, by simp_all [dump]⟩
  | _ => simp [dump] at h

end Telesync
