import Telesync.Core.Marshal
set_option autoImplicit false

/-!
# `data()`: building a `Data` placeholder

Source: `py/telesync/core.py`, `data` (lines 263-322) and `pack` (lines 648-655).

THE CHECKS.  `data()` takes the field names as a list, a tuple or a string of
names separated by whitespace, and refuses an empty or non-`str` name; with
`pack=True` it returns `rows:` or `cols:` followed by the marshalled fields and
values, and otherwise a `Data` holding the fields, the size as given (an `int`, or
a `bool`, which `isinstance(size, int)` accepts) and the rows.

WHAT IS PROVED.  `data_placeholders_eq_specs`, from `data_sound` and
`data_complete`: the placeholders `data()` returns are exactly the `DataSpec`s,
whose fields are a non-empty list or tuple of non-empty names, whose size is the
`int` or `bool` given, and whose rows are a list, a dict or falsy.
`data_words_eq_list`: a string of names gives the same result as the list of its
names.
-/

namespace Telesync

/-! ## Whitespace -/

/-- `Py_UNICODE_ISSPACE`: the characters `str.split()` and `str.strip()` treat as
whitespace. -/
def pyIsSpace (c : Char) : Bool :=
  let n := c.toNat
  (0x09 ≤ n && n ≤ 0x0d) || (0x1c ≤ n && n ≤ 0x20) || n == 0x85 || n == 0xa0 || n == 0x1680 ||
    (0x2000 ≤ n && n ≤ 0x200a) || n == 0x2028 || n == 0x2029 || n == 0x202f || n == 0x205f ||
    n == 0x3000

/-- `str.strip()` -/
def pyStrip (s : String) : String :=
  ⟨((s.data.dropWhile pyIsSpace).reverse.dropWhile pyIsSpace).reverse⟩

/-- `str.split()`: the maximal runs of non-whitespace characters. -/
def pySplit (s : String) : List String :=
  ((s.data.splitOnP pyIsSpace).filter fun w => !w.isEmpty).map String.mk

/-! ## The model -/

/-- `fields.strip()` and `fields.split()` for a `str` (lines 287-291). -/
def splitFields : PyVal → Except PyErr PyVal
  | .str s =>
    if pyStrip s = "" then throw (.valueError "fields is empty")
    else pure (.list ((pySplit (pyStrip s)).map .str))
  | f => pure f

/-- `if not _is_list(fields)` (lines 292-293). -/
def fieldList : PyVal → Except PyErr (List PyVal)
  | .list xs | .tuple xs => pure xs
  | _ => throw (.valueError "fields must be tuple or list")

/-- One name of the loop of lines 296-300. -/
def fieldName : PyVal → Except PyErr String
  | .str s => if s = "" then throw (.valueError "field cannot be empty str") else pure s
  | _ => throw (.valueError "field must be str")

/-- Lines 294-300: at least one field, each a non-empty `str`. -/
def fieldNames (fs : List PyVal) : Except PyErr (List String) :=
  if fs.length = 0 then throw (.valueError "fields is empty") else fs.mapM fieldName

/-- The field checks of `data()` (lines 287-300): the fields it keeps, and their names. -/
def dataFields (fields : PyVal) : Except PyErr (PyVal × List String) := do
  let fields ← splitFields fields
  let names ← fieldNames (← fieldList fields)
  pure (fields, names)

/-- The `pack=True` branch of `data()` (lines 302-313). -/
def dataPack (fields rows columns : PyVal) : Except PyErr PyVal :=
  if rows.truthy then
    match rows with
    | .list _ => do pure (.str ("rows:" ++ (← marshal (.tuple [fields, rows]))))
    | _ => throw (.valueError "rows must be a list")
  else if columns.truthy then
    match columns with
    | .list _ => do pure (.str ("cols:" ++ (← marshal (.tuple [fields, columns]))))
    | _ => throw (.valueError "columns must be a list")
  else throw (.valueError "either rows or columns must be provided if pack=True")

/-- Rows that pass `if rows: if not isinstance(rows, (list, dict))`: a list, a dict,
or anything falsy. -/
def rowsOk : PyVal → Bool
  | .list _ | .dict _ => true
  | r => !r.truthy

/-- Lines 315-317. -/
def checkRows (rows : PyVal) : Except PyErr Unit :=
  if rowsOk rows then pure () else throw (.valueError "rows must be list or dict")

/-- `isinstance(size, int)` (lines 319-320), which holds of a `bool` too; the size
is kept as it was given. -/
def dataSize : PyVal → Except PyErr PyInt
  | .int n => pure (.int n)
  | .bool b => pure (.bool b)
  | _ => throw (.valueError "size must be int")

/-- The placeholder branch of `data()` (lines 315-322). -/
def dataPlaceholder (fields size rows : PyVal) : Except PyErr PyVal := do
  checkRows rows
  let n ← dataSize size
  pure (.data fields n rows)

/-- `data()` (lines 263-322). -/
def data (fields size rows columns : PyVal) (pack : Bool) : Except PyErr PyVal := do
  let (fields, _) ← dataFields fields
  if pack then dataPack fields rows columns else dataPlaceholder fields size rows

/-- `pack()` (lines 648-655). -/
def pack (x : PyVal) : Except PyErr String := do
  pure ("data:" ++ (← marshal (← dump x)))

example : data (.str " product  date price ") (.int 250) .none .none false =
    .ok (.data (.list [.str "product", .str "date", .str "price"]) 250 .none) := rfl

/-- `data(['a'], True, set())`: the size stays `True`, and an empty `set` is falsy
rows. -/
example : data (.list [.str "a"]) (.bool true) (.object "set" false) .none false =
    .ok (.data (.list [.str "a"]) (.bool true) (.object "set" false)) := rfl

/-! ## What `data()` accepts -/

/-- A `Data` placeholder as `data()` builds it. -/
structure DataSpec where
  names : List String
  tuple : Bool
  size : PyInt
  rows : PyVal
  names_ne : names ≠ []
  name_ne : ∀ n ∈ names, n ≠ ""
  rows_ok : rowsOk rows = true

/-- The fields a `DataSpec` holds: its names, as a tuple or a list. -/
def DataSpec.fields (s : DataSpec) : PyVal :=
  if s.tuple then .tuple (s.names.map .str) else .list (s.names.map .str)

/-- The `Data` a `DataSpec` describes. -/
def DataSpec.toPyVal (s : DataSpec) : PyVal := .data s.fields s.size s.rows

theorem mapM_fieldName : ∀ {xs : List PyVal} {names : List String},
    xs.mapM fieldName = .ok names → xs = names.map .str ∧ ∀ n ∈ names, n ≠ ""
  | [], names, h => by cases h; simp
  | x :: xs, names, h => by
    rw [List.mapM_cons] at h
    obtain ⟨n, hn, h⟩ := except_bind_eq_ok.mp h
    obtain ⟨ns, hns, h⟩ := except_bind_eq_ok.mp h
    cases h
    obtain ⟨rfl, hall⟩ := mapM_fieldName hns
    cases x <;> simp only [fieldName] at hn <;> try cases hn
    split at hn
    · cases hn
    · cases hn; simp_all

theorem mapM_fieldName_map (names : List String) (h : ∀ n ∈ names, n ≠ "") :
    (names.map PyVal.str).mapM fieldName = .ok names := by
  induction names with
  | nil => rfl
  | cons n ns ih =>
    simp only [List.mem_cons, forall_eq_or_imp] at h
    rw [List.map_cons, List.mapM_cons, ih h.2]
    simp [fieldName, h.1]

/-- The fields `dataFields` keeps are its names, non-empty and at least one, as a
list or a tuple. -/
theorem dataFields_sound {f fields : PyVal} {names : List String}
    (h : dataFields f = .ok (fields, names)) :
    names ≠ [] ∧ (∀ n ∈ names, n ≠ "") ∧
      (fields = .list (names.map .str) ∨ fields = .tuple (names.map .str)) := by
  obtain ⟨f', hf', h⟩ := except_bind_eq_ok.mp h
  obtain ⟨fs, hfs, h⟩ := except_bind_eq_ok.mp h
  obtain ⟨ns, hns, h⟩ := except_bind_eq_ok.mp h
  cases h
  unfold fieldNames at hns
  split at hns
  · cases hns
  · obtain ⟨rfl, hall⟩ := mapM_fieldName hns
    refine ⟨fun h => by simp_all, hall, ?_⟩
    cases fields <;> simp only [fieldList] at hfs <;> cases hfs <;> simp

/-! ## Names joined by spaces -/

/-- Words without whitespace, joined by spaces, split back into the words. -/
theorem splitOnP_words (w : List Char) (ws : List (List Char))
    (hw : ∀ c ∈ w, pyIsSpace c = false) (hws : ∀ x ∈ ws, ∀ c ∈ x, pyIsSpace c = false) :
    (w ++ (ws.map fun x => ' ' :: x).flatten).splitOnP pyIsSpace = w :: ws := by
  induction ws generalizing w with
  | nil => simpa using List.splitOnP_eq_single pyIsSpace w (by simpa using hw)
  | cons x ws ih =>
    simp only [List.mem_cons, forall_eq_or_imp] at hws
    rw [List.map_cons, List.flatten_cons, List.cons_append,
      List.splitOnP_first pyIsSpace w (by simpa using hw) ' ' rfl, ih x hws.1 hws.2]

/-- The last character of words joined by spaces is in a word. -/
theorem getLast?_words (w : List Char) (ws : List (List Char)) (hws : ∀ x ∈ ws, x ≠ []) :
    ∀ c ∈ (w ++ (ws.map fun x => ' ' :: x).flatten).getLast?, ∃ x ∈ w :: ws, c ∈ x := by
  induction ws generalizing w with
  | nil => exact fun c hc => ⟨w, List.mem_cons_self _ _, List.mem_of_getLast?_eq_some (by simpa using hc)⟩
  | cons x ws ih =>
    simp only [List.mem_cons, forall_eq_or_imp] at hws
    intro c hc
    have hne : x ++ (ws.map fun x => ' ' :: x).flatten ≠ [] := by simp [hws.1]
    obtain ⟨d, hd⟩ := Option.ne_none_iff_exists'.1 (mt List.getLast?_eq_none_iff.1 hne)
    have hlast : (w ++ (List.map (fun x => ' ' :: x) (x :: ws)).flatten).getLast? = some d := by
      simp only [List.map_cons, List.flatten_cons, List.cons_append, List.getLast?_append,
        List.getLast?_cons, hd]
      rfl
    obtain ⟨y, hy, hcy⟩ := ih x hws.2 c (by rw [hd]; rwa [hlast] at hc)
    exact ⟨y, List.mem_cons_of_mem _ hy, hcy⟩

theorem dropWhile_pyIsSpace_eq_self {l : List Char} (h : ∀ c ∈ l.head?, pyIsSpace c = false) :
    l.dropWhile pyIsSpace = l := by
  cases l with
  | nil => rfl
  | cons c l => simp_all [List.dropWhile_cons]

/-- Stripping a string that neither begins nor ends with whitespace changes nothing. -/
theorem pyStrip_eq_self {s : String} (h1 : ∀ c ∈ s.data.head?, pyIsSpace c = false)
    (h2 : ∀ c ∈ s.data.getLast?, pyIsSpace c = false) : pyStrip s = s := by
  rw [pyStrip, dropWhile_pyIsSpace_eq_self h1,
    dropWhile_pyIsSpace_eq_self (by simpa using h2), List.reverse_reverse]

section Words

variable {w : List Char} {ws : List (List Char)}
  (h : ∀ x ∈ w :: ws, x ≠ [] ∧ ∀ c ∈ x, pyIsSpace c = false)
include h

/-- Stripping non-empty words joined by spaces changes nothing. -/
theorem pyStrip_words :
    pyStrip ⟨w ++ (ws.map fun x => ' ' :: x).flatten⟩ = ⟨w ++ (ws.map fun x => ' ' :: x).flatten⟩ := by
  obtain ⟨c, l, rfl⟩ := List.exists_cons_of_ne_nil (h w (List.mem_cons_self _ _)).1
  apply pyStrip_eq_self
  · simpa using (h _ (List.mem_cons_self _ _)).2 c (List.mem_cons_self _ _)
  · intro d hd
    obtain ⟨x, hx, hdx⟩ := getLast?_words _ _ (fun x hx => (h x (List.mem_cons_of_mem _ hx)).1) d hd
    exact (h x hx).2 d hdx

/-- Splitting non-empty words joined by spaces gives the words back. -/
theorem pySplit_words :
    pySplit ⟨w ++ (ws.map fun x => ' ' :: x).flatten⟩ = (w :: ws).map String.mk := by
  rw [pySplit, splitOnP_words _ _ (h w (List.mem_cons_self _ _)).2
      (fun x hx => (h x (List.mem_cons_of_mem _ hx)).2),
    List.filter_eq_self.2 (fun x hx => by simpa using (h x hx).1)]

end Words

/-- Names without whitespace, joined by spaces, pass the `str` branch of `data()` as
the list of the names. -/
theorem splitFields_words (ws : List String) (hne : ws ≠ [])
    (hw : ∀ w ∈ ws, w ≠ "" ∧ ∀ c ∈ w.data, pyIsSpace c = false) :
    splitFields (.str (" ".intercalate ws)) = .ok (.list (ws.map .str)) := by
  obtain ⟨w, ws, rfl⟩ := List.exists_cons_of_ne_nil hne
  have h : ∀ x ∈ w.data :: ws.map String.data, x ≠ [] ∧ ∀ c ∈ x, pyIsSpace c = false := by
    simp only [← List.map_cons, List.forall_mem_map]
    exact fun x hx => ⟨fun h0 => (hw x hx).1 (String.ext h0), (hw x hx).2⟩
  have hS : " ".intercalate (w :: ws) =
      ⟨w.data ++ ((ws.map String.data).map fun x => ' ' :: x).flatten⟩ :=
    String.ext (by rw [List.map_map]; exact intercalate_go_data w " " ws)
  have hne' : (⟨w.data ++ ((ws.map String.data).map fun x => ' ' :: x).flatten⟩ : String) ≠ "" :=
    fun h0 => (h _ (List.mem_cons_self _ _)).1 (List.append_eq_nil.1 (congrArg String.data h0)).1
  rw [hS, splitFields, pyStrip_words h, if_neg hne', pySplit_words h]
  simp [Function.comp_def]

/-- **A string of names is the list of its names.**  Non-empty names free of
whitespace, joined by spaces, give `data()` the same result as the list of them. -/
theorem data_words_eq_list (ws : List String) (hne : ws ≠ [])
    (hw : ∀ w ∈ ws, w ≠ "" ∧ ∀ c ∈ w.data, pyIsSpace c = false)
    (size rows columns : PyVal) (pack : Bool) :
    data (.str (" ".intercalate ws)) size rows columns pack =
      data (.list (ws.map .str)) size rows columns pack := by
  simp only [data, dataFields, splitFields_words ws hne hw]
  rfl

/-- `data('product date price', 250)` is `data(['product', 'date', 'price'], 250)`. -/
theorem data_words_eq_list_three :
    ["product", "date", "price"] ≠ [] ∧
    (∀ w ∈ ["product", "date", "price"], w ≠ "" ∧ ∀ c ∈ w.data, pyIsSpace c = false) ∧
    data (.str (" ".intercalate ["product", "date", "price"])) (.int 250) .none .none false =
      data (.list (["product", "date", "price"].map .str)) (.int 250) .none .none false :=
  ⟨by simp, by decide, data_words_eq_list _ (by simp) (by decide) _ _ _ _⟩

/-- **Soundness.**  Every placeholder `data()` returns is a `DataSpec`: at least one
field, each a non-empty `str`, in a list or a tuple; an `int` size; and rows that
are a list, a dict or falsy. -/
theorem data_sound {f size rows columns v : PyVal} (h : data f size rows columns false = .ok v) :
    ∃ s : DataSpec, v = s.toPyVal := by
  obtain ⟨⟨fields, names⟩, hf, h⟩ := except_bind_eq_ok.mp h
  obtain ⟨hne, hall, hfields⟩ := dataFields_sound hf
  obtain ⟨u, hu, h⟩ := except_bind_eq_ok.mp h
  obtain ⟨n, -, h⟩ := except_bind_eq_ok.mp h
  cases h
  have hrows : rowsOk rows = true := by
    unfold checkRows at hu
    split at hu
    · assumption
    · cases hu
  rcases hfields with rfl | rfl
  · exact ⟨⟨names, false, n, rows, hne, hall, hrows⟩, rfl⟩
  · exact ⟨⟨names, true, n, rows, hne, hall, hrows⟩, rfl⟩

/-- **Completeness.**  Every `DataSpec` is what `data()` returns on its fields, size
and rows. -/
theorem data_complete (s : DataSpec) (columns : PyVal) :
    data s.fields s.size.toPyVal s.rows columns false = .ok s.toPyVal := by
  have hnames : fieldNames (s.names.map PyVal.str) = .ok s.names := by
    rw [fieldNames, if_neg (by simpa using s.names_ne), mapM_fieldName_map _ s.name_ne]
  have hrows : checkRows s.rows = .ok () := by simp [checkRows, s.rows_ok]
  have hsize : dataSize s.size.toPyVal = .ok s.size := by cases s.size <;> rfl
  cases ht : s.tuple <;>
    simp [data, dataFields, DataSpec.fields, DataSpec.toPyVal, ht, splitFields, fieldList, hnames,
      dataPlaceholder, hrows, hsize]

/-- **The placeholders `data()` returns are exactly the `DataSpec`s.** -/
theorem data_placeholders_eq_specs (v : PyVal) :
    (∃ f size rows columns, data f size rows columns false = .ok v) ↔ ∃ s : DataSpec, v = s.toPyVal :=
  ⟨fun ⟨_, _, _, _, h⟩ => data_sound h,
    fun ⟨s, hv⟩ => ⟨s.fields, s.size.toPyVal, s.rows, .none, hv ▸ data_complete s .none⟩⟩

end Telesync
