import Telesync.Protocol.Save
import Telesync.Core.Unmarshal
import Telesync.Config
set_option autoImplicit false

/-!
# The hub client: `load` and `download`

Source: `py/telesync/core.py`, `_BasicAuthClient.get` (lines 507-511) with
`Site.load` (lines 548-555) and `Page.load` (lines 418-424), and
`_BasicAuthClient.download` (lines 522-535) with `Site.download` (lines 566-574) and
`AsyncSite.download` (lines 609-619), over `posixpath.abspath`, `join`, `basename`
and `dirname`.

THE FUNCTIONS.  `get` asks the hub for a URL and reads the body of a 200 answer as
JSON; any other status raises `ServiceError`.  `download(url, path)` makes `path`
absolute and, when it names a directory, writes the file the hub serves at `url`
into it under the URL's last component; otherwise it writes the file at `path`.  It
returns the file's path.

WHAT IS PROVED.  `download_into_dir`: downloading into a directory keeps the file's
name and puts it directly in that directory, as the docstring of `Site.download`
says: the path returned has the URL's `basename`, and its `dirname` is the
directory's absolute path.  It rests on `posixNormpath_noTrailingSlash`: `abspath`
returns a path that ends with a slash only when it is all slashes.  A URL that ends
with a slash has an empty `basename`: the path returned is then the directory's own
with a slash after it, which `open` refuses.

LEFT OUT.  The transfers themselves (`requests.get` and `requests.patch`, `open` and
`shutil.copyfileobj`) and their errors, and the encoding `requests` guesses for a
body; `os.getcwd()` and `os.path.isdir` are the file system's answers, given as
arguments.
-/

namespace Telesync

/-! ## `load` -/

/-- `_BasicAuthClient.get` (lines 507-511), the hub answering `res`: `res.json()` of a
200 answer, or the `ServiceError` of any other. -/
def clientGet (floatRepr : String → String) (res : Response) : Option (Except PyErr PyVal) :=
  if res.statusCode ≠ 200 then some (.error (serviceError res)) else unmarshal floatRepr res.text

/-- The URL `_BasicAuthClient` requests for the path `url`: `f'{_config.hub_address}{url}'`. -/
def hubUrl (cfg : Config) (url : String) : String := cfg.hubAddress ++ url

/-- `Site.load(url)` (lines 548-555) and `Page.load()` (lines 418-424), which loads the
page's own URL: the URL requested, and what the hub's answer `res` gives. -/
def Site.load (floatRepr : String → String) (cfg : Config) (url : String) (res : Response) :
    String × Option (Except PyErr PyVal) :=
  (hubUrl cfg url, clientGet floatRepr res)

/-! ## `posixpath` -/

/-- `posixpath.basename`: what follows the last slash. -/
def posixBasename (p : String) : String := ⟨(p.data.reverse.takeWhile (· != '/')).reverse⟩

/-- `posixpath.dirname`: up to the last slash, without the slashes at its end unless
it is all slashes. -/
def posixDirname (p : String) : String :=
  let head := (p.data.reverse.dropWhile (· != '/')).reverse
  if head ≠ [] ∧ ¬head.all (· == '/') then ⟨(head.reverse.dropWhile (· == '/')).reverse⟩ else ⟨head⟩

/-- `posixpath.join(a, b)`. -/
def posixJoin (a b : String) : String :=
  if b.data.head? = some '/' then b
  else if a.data = [] ∨ a.data.getLast? = some '/' then a ++ b
  else a ++ "/" ++ b

/-- `posixpath.isabs`. -/
def posixIsabs (s : String) : Bool := s.data.head? == some '/'

/-- One component of the loop of `posixpath.normpath`, which keeps `slashes` slashes
in front: `''` and `'.'` are dropped, and `'..'` takes the last component off
unless there is none to take or it is itself `'..'`. -/
def normStep (slashes : Nat) (comps : List String) (comp : String) : List String :=
  if comp = "" ∨ comp = "." then comps
  else if comp ≠ ".." ∨ (slashes = 0 ∧ comps = []) ∨ comps.getLast? = some ".." then comps ++ [comp]
  else comps.dropLast

/-- `posixpath.normpath`: two slashes in front are kept, one or three and more become
one. -/
def posixNormpath (path : String) : String :=
  if path = "" then "." else
    let slashes :=
      if path.data.head? = some '/' then
        if path.data.take 2 = ['/', '/'] ∧ path.data.take 3 ≠ ['/', '/', '/'] then 2 else 1
      else 0
    let comps := ((path.data.splitOn '/').map String.mk).foldl (normStep slashes) []
    let p : String := ⟨List.replicate slashes '/'⟩ ++ "/".intercalate comps
    if p = "" then "." else p

/-- `posixpath.abspath`, in the current directory `cwd`. -/
def posixAbspath (cwd path : String) : String :=
  posixNormpath (if posixIsabs path then path else posixJoin cwd path)

example : posixAbspath "/home/user" "../data/./csv//" = "/home/data/csv" := by decide

/-! ## `download` -/

/-- What `download` does: the URL it fetches, and the file it writes and returns. -/
structure Download where
  url : String
  filepath : String

/-- `_BasicAuthClient.download` (lines 522-535), which `Site.download` and
`AsyncSite.download` call, in the current directory `cwd`, `isdir` telling the
directories. -/
def download (cfg : Config) (cwd : String) (isdir : String → Bool) (url path : String) : Download :=
  let path := posixAbspath cwd path
  let filepath := if isdir path then posixJoin path (posixBasename url) else path
  { url := hubUrl cfg url, filepath }

/-! ## `normpath` leaves no slash at the end -/

/-- A path that ends with a slash only when it is all slashes. -/
def NoTrailingSlash (p : String) : Prop := p.data.getLast? = some '/' → ∀ c ∈ p.data, c = '/'

/-- The pieces of `str.split('/')` hold no slash. -/
theorem not_mem_of_mem_splitOn (c : Char) : ∀ {l x : List Char}, x ∈ l.splitOn c → c ∉ x
  | [], x, h => by simp only [List.splitOn_nil, List.mem_singleton] at h; simp [h]
  | d :: l, x, h => by
    have ih : ∀ {y}, y ∈ l.splitOn c → c ∉ y := not_mem_of_mem_splitOn c
    rw [List.splitOn, List.splitOnP_cons] at h
    split_ifs at h with hd
    · rcases List.mem_cons.1 h with rfl | h
      · simp
      · exact ih h
    · obtain ⟨y, ys, hys⟩ := List.exists_cons_of_ne_nil (List.splitOnP_ne_nil (· == c) l)
      have hy : ∀ {z}, z ∈ y :: ys → c ∉ z := fun hz => ih (by rw [List.splitOn, hys]; exact hz)
      rw [hys, List.modifyHead_cons] at h
      rcases List.mem_cons.1 h with rfl | h
      · simp only [beq_iff_eq] at hd
        exact List.not_mem_cons_of_ne_of_not_mem (Ne.symm hd) (hy (List.mem_cons_self _ _))
      · exact hy (List.mem_cons_of_mem _ h)

/-- The components `normpath` keeps are components of the path, and not empty. -/
theorem mem_foldl_normStep (slashes : Nat) {P : String → Prop} :
    ∀ (xs : List String) {comps : List String}, (∀ x ∈ xs, x ≠ "" → P x) → (∀ x ∈ comps, P x) →
      ∀ x ∈ xs.foldl (normStep slashes) comps, P x
  | [], _, _, hc => hc
  | y :: xs, comps, hxs, hc => by
    refine mem_foldl_normStep slashes xs (fun x hx => hxs x (List.mem_cons_of_mem _ hx)) ?_
    unfold normStep
    split_ifs with h₁ h₂
    · exact hc
    · simp only [not_or] at h₁
      simpa [or_imp, forall_and] using ⟨hc, hxs y (List.mem_cons_self _ _) h₁.1⟩
    · exact fun x hx => hc x (List.dropLast_subset _ hx)

/-- Joining non-empty components without slashes by slashes, after a text that does
not end with a slash, ends without a slash. -/
theorem intercalate_go_noSlash {acc : String} {ss : List String}
    (ha : ∀ d ∈ acc.data.getLast?, d ≠ '/') (hs : ∀ x ∈ ss, x ≠ "" ∧ '/' ∉ x.data) :
    ∀ d ∈ (String.intercalate.go acc "/" ss).data.getLast?, d ≠ '/' := by
  induction ss generalizing acc with
  | nil => exact ha
  | cons x ss ih =>
    refine ih (fun d hd => ?_) fun y hy => hs y (List.mem_cons_of_mem _ hy)
    obtain ⟨hx, hxs⟩ := hs x (List.mem_cons_self _ _)
    obtain ⟨e, he⟩ := Option.ne_none_iff_exists'.1
      (mt List.getLast?_eq_none_iff.1 fun h => hx (String.ext h))
    simp only [String.data_append, List.getLast?_append, he, Option.or_some, Option.mem_def,
      Option.some.injEq] at hd
    subst hd
    exact fun h => hxs (h ▸ List.mem_of_getLast?_eq_some he)

theorem intercalate_noSlash {ss : List String} (hs : ∀ x ∈ ss, x ≠ "" ∧ '/' ∉ x.data) :
    ∀ d ∈ ("/".intercalate ss).data.getLast?, d ≠ '/' := by
  cases ss with
  | nil => rintro _ ⟨⟩
  | cons s ss =>
    obtain ⟨hs₀, hss⟩ := List.forall_mem_cons.1 hs
    exact intercalate_go_noSlash (fun d hd h => hs₀.2 (h ▸ List.mem_of_getLast?_eq_some hd)) hss

/-- What `normpath` builds from its slashes in front and its components ends with a
slash only when it is all slashes. -/
theorem noTrailingSlash_join (k : Nat) {comps : List String} (hc : ∀ x ∈ comps, x ≠ "" ∧ '/' ∉ x.data) :
    NoTrailingSlash (if (⟨List.replicate k '/'⟩ ++ "/".intercalate comps : String) = "" then "."
      else ⟨List.replicate k '/'⟩ ++ "/".intercalate comps) := by
  split_ifs
  · intro h; exact absurd h (by decide)
  · intro hlast
    have hj := intercalate_noSlash hc
    simp only [String.data_append, List.getLast?_append] at hlast ⊢
    cases hJ : ("/".intercalate comps).data.getLast? with
    | some d => rw [hJ] at hlast; cases hlast; exact absurd rfl (hj '/' hJ)
    | none =>
      rw [List.getLast?_eq_none_iff.1 hJ, List.append_nil]
      exact fun c hc => List.eq_of_mem_replicate hc

/-- `normpath` returns a path that ends with a slash only when it is all slashes. -/
theorem posixNormpath_noTrailingSlash (path : String) : NoTrailingSlash (posixNormpath path) := by
  unfold posixNormpath
  by_cases h₀ : path = ""
  · rw [if_pos h₀]; intro h; exact absurd h (by decide)
  rw [if_neg h₀]
  dsimp only
  -- the components kept are not empty and hold no slash
  refine noTrailingSlash_join _ (mem_foldl_normStep _ _ (fun x hx hne => ⟨hne, ?_⟩) fun _ h => nomatch h)
  obtain ⟨y, hy, rfl⟩ := List.mem_map.1 hx
  exact not_mem_of_mem_splitOn '/' hy

/-! ## Downloading into a directory -/

theorem posixBasename_no_slash (p : String) : '/' ∉ (posixBasename p).data := fun h => by
  have := List.mem_takeWhile_imp (List.mem_reverse.1 h)
  simp at this

/-- Backwards from a slash, or from nothing, there is no name to take. -/
theorem takeWhile_reverse_eq_nil {x : List Char} (hx : x = [] ∨ x.getLast? = some '/') :
    x.reverse.takeWhile (· != '/') = [] := by
  rcases hx with rfl | hx
  · rfl
  · obtain ⟨ys, rfl⟩ := List.getLast?_eq_some_iff.1 hx
    simp

/-- Backwards from a character `p` refuses, `dropWhile p` keeps everything. -/
theorem dropWhile_reverse_eq_self {p : Char → Bool} {x : List Char} {c : Char}
    (hx : x.getLast? = some c) (hc : p c = false) : x.reverse.dropWhile p = x.reverse := by
  obtain ⟨ys, rfl⟩ := List.getLast?_eq_some_iff.1 hx
  simp [hc]

/-- A name without a slash after some text: reading backwards, the name is passed
over whole. -/
theorem reverse_append_name {x b : List Char} (hb : '/' ∉ b) :
    (x ++ b).reverse.takeWhile (· != '/') = b.reverse ++ x.reverse.takeWhile (· != '/') ∧
      (x ++ b).reverse.dropWhile (· != '/') = x.reverse.dropWhile (· != '/') := by
  have hb' : ∀ c ∈ b.reverse, (c != '/') = true := fun c hc => by
    have := List.mem_reverse.1 hc
    simp only [bne_iff_ne, ne_eq]
    rintro rfl
    exact hb this
  rw [List.reverse_append]
  exact ⟨List.takeWhile_append_of_pos hb', List.dropWhile_append_of_pos hb'⟩

/-- `join(a, b)` for a name `b` without a slash: `a` and `b`, with a slash between them
unless `a` is empty or ends with one. -/
theorem posixJoin_data (a : String) {b : String} (hb : '/' ∉ b.data) :
    ∃ x, (posixJoin a b).data = x ++ b.data ∧ (x = [] ∨ x.getLast? = some '/') ∧
      (x = a.data ∨ x = a.data ++ ['/'] ∧ a.data ≠ [] ∧ a.data.getLast? ≠ some '/') := by
  have hhead : b.data.head? ≠ some '/' := fun h => hb (List.mem_of_mem_head? h)
  unfold posixJoin
  rw [if_neg hhead]
  split_ifs with ha
  · exact ⟨a.data, by rw [String.data_append], ha, .inl rfl⟩
  · rw [not_or] at ha
    exact ⟨a.data ++ ['/'], by simp only [String.data_append], .inr (by simp), .inr ⟨rfl, ha⟩⟩

/-- `basename(join(a, b))` is `b`, for a name `b` without a slash. -/
theorem posixBasename_join (a : String) {b : String} (hb : '/' ∉ b.data) :
    posixBasename (posixJoin a b) = b := by
  obtain ⟨x, hx, hx', -⟩ := posixJoin_data a hb
  unfold posixBasename
  rw [hx, (reverse_append_name hb).1, takeWhile_reverse_eq_nil hx', List.append_nil, List.reverse_reverse]

/-- `dirname(join(a, b))` is `a`, for a name `b` without a slash and a path `a` that ends
with a slash only when it is all slashes. -/
theorem posixDirname_join {a b : String} (ha : NoTrailingSlash a) (hb : '/' ∉ b.data) :
    posixDirname (posixJoin a b) = a := by
  obtain ⟨x, hx, hx', hxa⟩ := posixJoin_data a hb
  unfold posixDirname
  simp only [hx, (reverse_append_name hb).2]
  rcases hxa with rfl | ⟨rfl, hne, hlast⟩
  · rcases hx' with hx' | hx'
    · -- `a` is empty
      rw [hx']
      exact String.ext (by simp [hx'])
    · -- `a` ends with a slash, so it is all slashes
      have hall : a.data.all (· == '/') = true := List.all_eq_true.2 fun c hc => by simpa using ha hx' c hc
      rw [dropWhile_reverse_eq_self hx' rfl, List.reverse_reverse, if_neg (by simp [hall])]
  · rw [@dropWhile_reverse_eq_self _ _ '/' (by simp) rfl, List.reverse_reverse]
    obtain ⟨c, hc⟩ := Option.ne_none_iff_exists'.1 (mt List.getLast?_eq_none_iff.1 hne)
    have hc' : c ≠ '/' := fun h => hlast (h ▸ hc)
    have hnot : ¬(a.data ++ ['/']).all (· == '/') = true := fun h => hc'
      (by simpa using List.all_eq_true.1 h c (List.mem_append_left _ (List.mem_of_getLast?_eq_some hc)))
    -- the slashes `rstrip` takes off are the one `join` put in
    rw [if_pos ⟨by simp, hnot⟩]
    exact String.ext (by simp [@dropWhile_reverse_eq_self (· == '/') _ _ hc (beq_false_of_ne hc')])

/-- **Downloading into a directory keeps the file's name.**  When the local path names
a directory, the file `download` writes is named by the URL's last component and sits
directly in that directory, as the docstring of `Site.download` says. -/
theorem download_into_dir (cfg : Config) (cwd : String) (isdir : String → Bool) (url path : String)
    (hdir : isdir (posixAbspath cwd path) = true) :
    posixBasename (download cfg cwd isdir url path).filepath = posixBasename url ∧
      posixDirname (download cfg cwd isdir url path).filepath = posixAbspath cwd path := by
  simp only [download, hdir, if_true]
  exact ⟨posixBasename_join _ (posixBasename_no_slash url),
    posixDirname_join (posixNormpath_noTrailingSlash _) (posixBasename_no_slash url)⟩

/-- `download('/_f/report.csv', 'data')` run in `/home/user`, where `data` is a
directory, writes `/home/user/data/report.csv`. -/
theorem download_into_dir_report :
    (download (Config.init fun _ => none) "/home/user" (· == "/home/user/data") "/_f/report.csv"
      "data").filepath = "/home/user/data/report.csv" ∧
    (· == "/home/user/data") (posixAbspath "/home/user" "data") = true ∧
    posixBasename (download (Config.init fun _ => none) "/home/user" (· == "/home/user/data")
        "/_f/report.csv" "data").filepath = posixBasename "/_f/report.csv" ∧
      posixDirname (download (Config.init fun _ => none) "/home/user" (· == "/home/user/data")
        "/_f/report.csv" "data").filepath = posixAbspath "/home/user" "data" :=
  ⟨by decide, by decide, download_into_dir _ _ _ _ _ (by decide)⟩

end Telesync
