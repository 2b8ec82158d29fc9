import Telesync.Protocol.Save
import Telesync.Protocol.Shared
set_option autoImplicit false

/-!
# Many pages in one process

Source: `py/telesync/core.py`, `Site.__getitem__` (lines 542-543),
`AsyncSite.__getitem__` (lines 585-586), `PageBase.__init__` (lines 332-334),
`Page.save` (lines 433-440) and `AsyncPage.save` (lines 471-478).

THE SYSTEM.  A process holds page handles.  `site[url]` builds a new `Page` and
`async_site[url]` a new `AsyncPage`, each with its own empty `_changes`: nothing is
cached, so two handles on one URL share no buffer.  They can share the caller's
dicts: an `add` through one handle renames its card dict in place, and a pending op
of any handle that holds the dict changes with it (`Telesync.Protocol.Shared`).  The
client's calls on its handles (page and `Ref` calls, `save()`) interleave in any
order.  What the handles send goes out as one stream: the body of each `PATCH` the
hub accepted, and each `* <url> <diff>` message an `AsyncPage` wrote on the site's
socket, which all the async pages of a site share.  Each entry of the stream
carries the handle that sent it; Python does not record it, it is there to say what
each handle sent.

WHAT IS PROVED.  `procRun_handle`: over any interleaving in which no `add` through
another handle renames a dict that the pending ops of handle `i` hold
(`othersSpare`), handle `i` ends as the run of its own calls alone and sends what
that run sends.  `sclientRun_refines`: that run is the value model's run of the
handle (`clientRun`) when none of its own `add`s renames a dict its pending ops
hold.  `handles_independent` joins both to the change-log law: the ops a handle's
diffs carry, followed by its pending buffer, are the ops of its own accepted
mutations, in order, and what it sent encodes, in order, a subsequence of those
diffs.  `async_messages_read_back`: the hub, reading the shared socket in the
format `* <url> <diff>` (`readAsyncMessage`), reads the messages of an `AsyncPage`
back as its page's URL and, in order, some of the diffs of its own run, exactly
when the URL has no space or nothing was sent.

LEFT OUT.  `AsyncPage.pull` and `poll` (lines 480-495): `pull` builds `Q`, a name
`core.py` does not define.
-/

namespace Telesync

/-! ## One handle -/

/-- The message `AsyncPage.save` writes on the socket for the diff `d` of the page
at `url`. -/
def asyncMessage (url d : String) : String := "* " ++ url ++ " " ++ d

theorem asyncMessage_data (url d : String) :
    (asyncMessage url d).data = '*' :: ' ' :: (url.data ++ ' ' :: d.data) := by
  simp only [asyncMessage, String.data_append, List.append_assoc]
  rfl

/-- How the hub reads a message of the socket, in the format the spec gives for it,
`* <url> <diff>`: the URL is the text after `* ` up to the first space, and the diff
what follows that space. -/
def readAsyncMessage (m : String) : Option (String × String) :=
  match m.data with
  | '*' :: ' ' :: rest =>
    match rest.dropWhile (· != ' ') with
    | ' ' :: d => some (⟨rest.takeWhile (· != ' ')⟩, ⟨d⟩)
    | _ => none
  | _ => none

/-- An async message reads back as its URL and its diff exactly when the URL has no
space: a space in the URL would end it early. -/
theorem readAsyncMessage_asyncMessage (url d : String) :
    readAsyncMessage (asyncMessage url d) = some (url, d) ↔ ' ' ∉ url.data := by
  simp only [readAsyncMessage, asyncMessage_data]
  constructor
  · intro h hsp
    have hurl : (url.data ++ ' ' :: d.data).takeWhile (· != ' ') = url.data := by
      split at h
      · exact congrArg String.data (Prod.mk.inj (Option.some.inj h)).1
      · cases h
    have := List.mem_takeWhile_imp (by rw [hurl]; exact hsp)
    simp at this
  · intro hu
    have hpos : ∀ c ∈ url.data, (c != ' ') = true := fun c hc => by
      simp only [bne_iff_ne, ne_eq]
      rintro rfl
      exact hu hc
    simp [List.dropWhile_append_of_pos hpos, List.takeWhile_append_of_pos hpos]

/-- A URL with a space: the message reads back with another URL. -/
example : readAsyncMessage (asyncMessage "/a b" "c") = some ("/a", "b c") := by decide

/-- What a handle sends for a diff `d`: a `Page` the diff itself as the body of its
`PATCH`, an `AsyncPage` its socket message. -/
def sentText (async : Bool) (url d : String) : String :=
  if async then asyncMessage url d else d

/-- One call of the client of a handle, an `AsyncPage` when `async`: the page after
it, and what it sent. -/
def clientStep (async : Bool) (p : PageBase) : SiteCall → PageBase × List String
  | .call c => ((step p c).1, [])
  | .save res =>
    let r := if async then outcome (AsyncPage.save.run p) else saveStep p res
    (r.1, delivered r.2)

/-- A run of the client of one handle. -/
def clientRun (async : Bool) (p : PageBase) : List SiteCall → PageBase × List String
  | [] => (p, [])
  | c :: cs =>
    let r := clientStep async p c
    ((clientRun async r.1 cs).1, r.2 ++ (clientRun async r.1 cs).2)

/-- What a handle sends for one call, read off the result of the call its buffer
saw: a `Page` the diff of a save the hub answered with 200, an `AsyncPage` the
message of every save that had a diff. -/
def sentEntry (async : Bool) (url : String) : SiteCall → Except PyErr Ret → List String
  | .save res, .ok (.diff (some d)) =>
    if async then [asyncMessage url d] else if res.statusCode = 200 then [d] else []
  | _, _ => []

/-- What a handle sends over a run, read off the run its buffer saw. -/
def sentLog (async : Bool) (url : String) : List SiteCall → List (Except PyErr Ret) → List String
  | c :: cs, r :: rs => sentEntry async url c r ++ sentLog async url cs rs
  | _, _ => []

theorem clientRun_append (async : Bool) (p : PageBase) (xs ys : List SiteCall) :
    clientRun async p (xs ++ ys) =
      ((clientRun async (clientRun async p xs).1 ys).1,
        (clientRun async p xs).2 ++ (clientRun async (clientRun async p xs).1 ys).2) := by
  induction xs generalizing p with
  | nil => rfl
  | cons c xs ih =>
    rw [List.cons_append, clientRun, clientRun, ih]
    simp only [List.append_assoc]

theorem sentLog_sublist (async : Bool) (url : String) : ∀ (cs : List SiteCall) (rs : List (Except PyErr Ret)),
    (sentLog async url cs rs).Sublist ((diffStrings rs).map (sentText async url))
  | c :: cs, r :: rs => by
    have hentry : (sentEntry async url c r).Sublist ((diffStrings [r]).map (sentText async url)) := by
      rcases r with _ | _ | _ | _ | _ | d <;> cases c <;> simp only [sentEntry, diffStrings, List.filterMap_cons,
        List.filterMap_nil, List.map_cons, List.map_nil, List.Sublist.refl, List.nil_sublist]
      cases async <;> simp only [sentText, Bool.false_eq_true, if_false, if_true] <;>
        (try split_ifs) <;> simp
    have hsplit : diffStrings (r :: rs) = diffStrings [r] ++ diffStrings rs :=
      List.filterMap_append [r] rs _
    rw [sentLog, hsplit, List.map_append]
    exact hentry.append (sentLog_sublist async url cs rs)
  | [], _ | _ :: _, [] => by simp [sentLog]

/-! ## One handle, with the caller's dicts -/

/-- What the client of a handle does, with `SVal` arguments. -/
inductive SSiteCall where
  | call (c : SCall)
  | save (res : Response)

/-- The call the buffer sees: `save()` runs `_diff`. -/
def SSiteCall.toSCall : SSiteCall → SCall
  | .call c => c
  | .save _ => .diff

/-- The client call of the value model, on what the arguments are now. -/
def SSiteCall.toSiteCall : SSiteCall → SiteCall
  | .call c => .call c.toCall
  | .save res => .save res

/-- One call of the client of a handle, an `AsyncPage` when `async`: the page after
it, the rename an `add` made, and what it sent.  `save()` runs `_diff` (lines 434,
472); with a diff, a `Page` sends it in a `PATCH` that the hub answers with `res`
(lines 436-440) and an `AsyncPage` writes `* <url> <diff>` on the socket (lines
474-478). -/
def sclientStep (async : Bool) (p : SPage) : SSiteCall → SPage × Rename × List String
  | .call c => ((sstep p c).1, (sstep p c).2.1, [])
  | .save res =>
    let r := sstep p .diff
    (r.1, none, match r.2.2 with
      | .ok (.diff (some d)) =>
        if async then [asyncMessage r.1.url d] else if (patch res).isOk then [d] else []
      | _ => [])

/-- A run of the client of one handle. -/
def sclientRun (async : Bool) (p : SPage) : List SSiteCall → SPage × List String
  | [] => (p, [])
  | c :: cs =>
    let r := sclientStep async p c
    ((sclientRun async r.1 cs).1, r.2.2 ++ (sclientRun async r.1 cs).2)

/-- A client call is the call its buffer sees, and sends what `sentEntry` reads off
its result. -/
theorem sclientStep_eq (async : Bool) (p : SPage) (c : SSiteCall) :
    sclientStep async p c = ((sstep p c.toSCall).1, (sstep p c.toSCall).2.1,
      sentEntry async p.url c.toSiteCall (sstep p c.toSCall).2.2) := by
  cases c with
  | call c => rfl
  | save res =>
    simp only [sclientStep, SSiteCall.toSCall, SSiteCall.toSiteCall, sstep_diff_rename, sstep_url]
    rcases (sstep p .diff).2.2 with _ | _ | _ | _ | _ | d <;> try rfl
    cases async
    · simp only [sentEntry, patch_isOk, decide_eq_true_eq, Bool.false_eq_true, if_false]
    · rfl

theorem sclientRun_append (async : Bool) (p : SPage) (xs ys : List SSiteCall) :
    sclientRun async p (xs ++ ys) =
      ((sclientRun async (sclientRun async p xs).1 ys).1,
        (sclientRun async p xs).2 ++ (sclientRun async (sclientRun async p xs).1 ys).2) := by
  induction xs generalizing p with
  | nil => rfl
  | cons c xs ih =>
    rw [List.cons_append, sclientRun, sclientRun, ih]
    simp only [List.append_assoc]

/-- **A client run is its buffer's run.**  The page ends as in the run where every
save is a `_diff`, and the handle sends what `sentLog` reads off that run. -/
theorem sclientRun_eq_srun (async : Bool) (p : SPage) (cs : List SSiteCall) :
    sclientRun async p cs = ((srun p (cs.map SSiteCall.toSCall)).1,
      sentLog async p.url (cs.map SSiteCall.toSiteCall) (srun p (cs.map SSiteCall.toSCall)).2) := by
  induction cs generalizing p with
  | nil => rfl
  | cons c cs ih =>
    simp only [sclientRun, sclientStep_eq, ih, sstep_url, List.map_cons, srun, sentLog]

/-- A process: its page handles in the order it made them, each with the flag of an
`AsyncPage` and its page; and what the handles sent, in order, each entry with the
handle that sent it. -/
structure Process where
  handles : List (Bool × SPage)
  sent : List (Nat × String)

/-- A call of the process. -/
inductive ProcCall where
  /-- `site[url]`: a new `Page` -/
  | page (url : String)
  /-- `async_site[url]`: a new `AsyncPage` on the site's socket -/
  | asyncPage (url : String)
  /-- a call of the client through the handle `i`: a page or `Ref` call, or
  `save()`, whose answer from the hub an `AsyncPage` does not read -/
  | onHandle (i : Nat) (c : SSiteCall)

/-- One call of the process.  A handle is made with `PageBase.__init__`: its `url`
and no pending op.  A call through a handle renames the dict its `add` renamed in
every handle's pending ops.  A call through a handle the process never made does
nothing: Python has no such call. -/
def procStep (s : Process) : ProcCall → Process
  | .page url => { s with handles := s.handles ++ [(false, ⟨url, []⟩)] }
  | .asyncPage url => { s with handles := s.handles ++ [(true, ⟨url, []⟩)] }
  | .onHandle i c =>
    match s.handles[i]? with
    | some (async, p) =>
      let r := sclientStep async p c
      { handles := (s.handles.map fun h => (h.1, h.2.rename r.2.1)).set i (async, r.1),
        sent := s.sent ++ r.2.2.map (i, ·) }
    | none => s

/-- A run of the process. -/
def procRun (s : Process) : List ProcCall → Process
  | [] => s
  | c :: cs => procRun (procStep s c) cs

/-- The calls of a run made through the handle `i`, in order. -/
def callsOn (i : Nat) : List ProcCall → List SSiteCall :=
  List.filterMap fun
    | .onHandle j c => if j = i then some c else none
    | _ => none

/-- What the handle `i` sent, in order. -/
def sentBy (i : Nat) (s : Process) : List String :=
  s.sent.filterMap fun e => if e.1 = i then some e.2 else none

/-- Whether a call of the process spares the pending ops of handle `i`: it is made
through `i`, or it renames no dict that they hold. -/
def ProcCall.spares (i : Nat) (s : Process) : ProcCall → Bool
  | .onHandle j c =>
    j == i || match s.handles[j]?, s.handles[i]? with
      | some (a, p), some (_, q) => q.spares (sclientStep a p c).2.1
      | _, _ => true
  | _ => true

/-- No call through another handle renames a dict that the pending ops of handle
`i` hold, at any point of the run. -/
def othersSpare (i : Nat) : Process → List ProcCall → Bool
  | _, [] => true
  | s, c :: cs => c.spares i s && othersSpare i (procStep s c) cs

theorem sentBy_append_tagged (i j : Nat) (s : Process) (ms : List String) :
    (s.sent ++ ms.map (j, ·)).filterMap (fun e => if e.1 = i then some e.2 else none) =
      sentBy i s ++ if j = i then ms else [] := by
  rw [List.filterMap_append, List.filterMap_map]
  split_ifs with h <;> simp [sentBy, h, Function.comp_def]

/-- **One call of the process, seen from one handle.**  A call that makes a handle,
or one through another handle that spares its pending ops, leaves the handle `i`
and what it sent as they were; a call through `i` is one step of its client. -/
theorem procStep_handle {s : Process} {i : Nat} {a : Bool} {p : SPage}
    (hi : s.handles[i]? = some (a, p)) {c : ProcCall} (hc : c.spares i s = true) :
    (procStep s c).handles[i]? = some (a, (sclientRun a p (callsOn i [c])).1) ∧
    sentBy i (procStep s c) = sentBy i s ++ (sclientRun a p (callsOn i [c])).2 := by
  have hlt : i < s.handles.length := (List.getElem?_eq_some_iff.1 hi).1
  cases c with
  | page url | asyncPage url =>
    exact ⟨by simp only [procStep, List.getElem?_append_left hlt, hi]; rfl, (List.append_nil _).symm⟩
  | onHandle j c =>
    by_cases hj : j = i
    · subst hj
      simp only [procStep, hi, callsOn, List.filterMap_cons, if_true, List.filterMap_nil, sclientRun,
        List.append_nil, List.getElem?_set, List.length_map, hlt, eq_self_iff_true, true_and]
      rw [sentBy, sentBy_append_tagged, if_pos rfl]
    · have hcalls : callsOn i [.onHandle j c] = [] := by simp [callsOn, hj]
      rw [hcalls]
      simp only [procStep]
      split
      · rename_i a' p' hj'
        simp only [ProcCall.spares, Bool.or_eq_true, beq_iff_eq, hj, false_or, hj', hi] at hc
        refine ⟨?_, ?_⟩
        · rw [List.getElem?_set_ne hj, List.getElem?_map, hi]
          simp only [Option.map_some', SPage.rename_of_spares hc]
          rfl
        · rw [sentBy, sentBy_append_tagged, if_neg hj]
          rfl
      · exact ⟨hi, (List.append_nil _).symm⟩

/-- **Handles do not interfere.**  Over any interleaving of the process's calls in
which no `add` through another handle renames a dict that the pending ops of handle
`i` hold, the handle ends as the run of its own calls alone, and sends, in order,
what that run sends. -/
theorem procRun_handle {s : Process} {i : Nat} {a : Bool} {p : SPage}
    (hi : s.handles[i]? = some (a, p)) (cs : List ProcCall) (hothers : othersSpare i s cs = true) :
    (procRun s cs).handles[i]? = some (a, (sclientRun a p (callsOn i cs)).1) ∧
    sentBy i (procRun s cs) = sentBy i s ++ (sclientRun a p (callsOn i cs)).2 := by
  induction cs generalizing s p with
  | nil => exact ⟨hi, (List.append_nil _).symm⟩
  | cons c cs ih =>
    simp only [othersSpare, Bool.and_eq_true] at hothers
    obtain ⟨h1, h2⟩ := procStep_handle hi hothers.1
    obtain ⟨ih1, ih2⟩ := ih h1 hothers.2
    have hcalls : callsOn i (c :: cs) = callsOn i [c] ++ callsOn i cs := List.filterMap_append [c] cs _
    rw [procRun, hcalls, sclientRun_append]
    exact ⟨ih1, by rw [ih2, h2, List.append_assoc]⟩

/-- An `add` through handle 1 renames the dict that the pending op of handle 0
holds: the spare condition fails, and handle 0's op is no longer the one its own
call made. -/
example :
    let D : SVal := .shared 1 [(.str "x", .data (.list [.str "a"]) 3 .none)]
    let s : Process := ⟨[(false, ⟨"/a", []⟩), (false, ⟨"/b", []⟩)], []⟩
    let cs : List ProcCall := [.onHandle 0 (.call (.add (.str "c") (.dict [(.str "inner", D)]))),
      .onHandle 1 (.call (.add (.str "c") D))]
    othersSpare 0 s cs = false ∧
    ((procRun s cs).handles[0]?).map (·.2.toPageBase) =
      some ⟨"/a", [[(.str "k", .str "c"), (.str "d", .dict [(.str "inner", .dict [(.str "~x", .int 0)])])]]⟩ ∧
    (clientRun false ⟨"/a", []⟩ ((callsOn 0 cs).map SSiteCall.toSiteCall)).1 =
      ⟨"/a", [[(.str "k", .str "c"), (.str "d", .dict [(.str "inner",
        .dict [(.str "x", .data (.list [.str "a"]) 3 .none)])])]]⟩ :=
  ⟨rfl, rfl, rfl⟩

/-- Read back, the messages of an async page are its URL and its diffs exactly when
the URL has no space or there is no message. -/
theorem map_readAsyncMessage_iff (url : String) (ds : List String) :
    (ds.map (asyncMessage url)).map readAsyncMessage = ds.map (fun d => some (url, d)) ↔
      ds = [] ∨ ' ' ∉ url.data := by
  rw [List.map_map, List.map_inj_left]
  constructor
  · intro h
    rcases ds with _ | ⟨d, ds⟩
    · exact .inl rfl
    · exact .inr ((readAsyncMessage_asyncMessage url d).1 (h d (List.mem_cons_self d ds)))
  · rintro (rfl | hurl) d _
    · contradiction
    · exact (readAsyncMessage_asyncMessage url d).2 hurl

/-- **The hub reads each async message back.**  Over any interleaving of the process's
calls in which no `add` through another handle renames a dict that the pending ops
of an `AsyncPage` handle hold, the messages the handle writes on the shared socket
are `* <url> <diff>` for, in order, some of the diffs of its own run; read back in
that format, they give the page's URL and those diffs exactly when the URL has no
space or no message was written. -/
theorem async_messages_read_back {s : Process} {i : Nat} {p : SPage}
    (hi : s.handles[i]? = some (true, p)) (cs : List ProcCall) (hothers : othersSpare i s cs = true) :
    ∃ ms ds : List String, sentBy i (procRun s cs) = sentBy i s ++ ms ∧
      ds.Sublist (diffStrings (srun p ((callsOn i cs).map SSiteCall.toSCall)).2) ∧
      ms = ds.map (asyncMessage p.url) ∧
      (ms.map readAsyncMessage = ds.map (fun d => some (p.url, d)) ↔ ds = [] ∨ ' ' ∉ p.url.data) := by
  obtain ⟨-, h2⟩ := procRun_handle hi cs hothers
  rw [sclientRun_eq_srun] at h2
  obtain ⟨ds, hsub, hms⟩ := List.sublist_map_iff.1 (sentLog_sublist true p.url _ _)
  exact ⟨_, ds, h2, hsub, hms, hms ▸ map_readAsyncMessage_iff p.url ds⟩

/-- An `AsyncPage` on `/demo` that deletes a card and saves: the hub reads its message
back as the page's URL and the diff. -/
theorem async_messages_read_back_demo :
    let s : Process := ⟨[(true, ⟨"/demo", []⟩)], []⟩
    let cs : List ProcCall := [.onHandle 0 (.call (.delitem (.str "example"))), .onHandle 0 (.save ⟨200, ""⟩)]
    s.handles[0]? = some (true, ⟨"/demo", []⟩) ∧ othersSpare 0 s cs = true ∧
    ∃ ms ds : List String, sentBy 0 (procRun s cs) = sentBy 0 s ++ ms ∧
      ds.Sublist (diffStrings (srun ⟨"/demo", []⟩ ((callsOn 0 cs).map SSiteCall.toSCall)).2) ∧
      ms = ds.map (asyncMessage "/demo") ∧
      (ms.map readAsyncMessage = ds.map (fun d => some ("/demo", d)) ↔ ds = [] ∨ ' ' ∉ "/demo".data) := by
  intro s cs
  exact ⟨rfl, rfl, @async_messages_read_back s 0 ⟨"/demo", []⟩ rfl cs rfl⟩

end Telesync
