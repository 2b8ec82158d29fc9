import Mathlib
set_option autoImplicit false

/-!
# `_Config` and `configure`: the server addresses

Source: `py/telesync/core.py`, `_get_env`, `_Config` and `configure` (lines 18-71).

THE STATE.  `_Config` reads each address from a `TELESYNC_*` variable of the
environment, with a default; the external address defaults to the internal one.
`configure` overwrites each field whose argument is truthy (not `None` and not
empty), except that the external address, when no external address is given,
takes a new internal address only while it still equals the default
`ws://localhost:55556`.

WHAT IS PROVED.  `configure_fields_last`: every other field ends a run as the last
truthy argument given for it.  `externalAddress_configure` says what one call does
to the external address, and `external_address_history` gives the external address after
any sequence of calls: the first address different from the default in the list
made of the last explicit external address followed by the internal addresses
given since.  `external_stops_following_internal` shows that the external
address does not follow the internal one once it has left the default.

LEFT OUT.  `shutdown_timeout` (read with `int()`, never written by `configure`)
and the rebuilt `_client`, which only reads the hub fields.
-/

namespace Telesync

/-! ## The model -/

/-- `_default_internal_address` (line 22). -/
def defaultInternalAddress : String := "ws://localhost:55556"

/-- `_get_env` (lines 18-19): `os.environ.get(f'TELESYNC_{key}', value)`. -/
def getEnv (environ : String → Option String) (key value : String) : String :=
  (environ ("TELESYNC_" ++ key)).getD value

/-- The fields of `_Config` that `configure` writes. -/
structure Config where
  internalAddress : String
  externalAddress : String
  hubAddress : String
  hubAccessKeyId : String
  hubAccessKeySecret : String

/-- `_Config.__init__` (lines 26-32). -/
def Config.init (environ : String → Option String) : Config :=
  let internalAddress := getEnv environ "INTERNAL_ADDRESS" defaultInternalAddress
  { internalAddress
    externalAddress := getEnv environ "EXTERNAL_ADDRESS" internalAddress
    hubAddress := getEnv environ "ADDRESS" "http://localhost:55555"
    hubAccessKeyId := getEnv environ "ACCESS_KEY_ID" "access_key_id"
    hubAccessKeySecret := getEnv environ "ACCESS_KEY_SECRET" "access_key_secret" }

/-- The arguments of one `configure` call; `none` is the default `None`. -/
structure ConfigureArgs where
  internalAddress : Option String := none
  externalAddress : Option String := none
  hubAddress : Option String := none
  hubAccessKeyId : Option String := none
  hubAccessKeySecret : Option String := none

/-- `if x:` on an `Optional[str]`: the string, when it is neither `None` nor empty. -/
def truthyStr : Option String → Option String
  | some s => if s = "" then none else some s
  | none => none

/-- `configure` (lines 38-71) on `_config`. -/
def configure (c : Config) (a : ConfigureArgs) : Config :=
  { internalAddress := (truthyStr a.internalAddress).getD c.internalAddress
    externalAddress :=
      match truthyStr a.externalAddress, truthyStr a.internalAddress with
      | some e, _ => e
      | none, some i => if c.externalAddress = defaultInternalAddress then i else c.externalAddress
      | none, none => c.externalAddress
    hubAddress := (truthyStr a.hubAddress).getD c.hubAddress
    hubAccessKeyId := (truthyStr a.hubAccessKeyId).getD c.hubAccessKeyId
    hubAccessKeySecret := (truthyStr a.hubAccessKeySecret).getD c.hubAccessKeySecret }

/-- A sequence of `configure` calls. -/
def configureAll (c : Config) (calls : List ConfigureArgs) : Config := calls.foldl configure c

@[simp] theorem configureAll_nil (c : Config) : configureAll c [] = c := rfl

@[simp] theorem configureAll_cons (c : Config) (a : ConfigureArgs) (calls : List ConfigureArgs) :
    configureAll c (a :: calls) = configureAll (configure c a) calls := rfl

/-- **One call.**  A given external address is taken; otherwise a given internal
address is taken only while the external address is the default. -/
theorem externalAddress_configure (c : Config) (a : ConfigureArgs) :
    (configure c a).externalAddress =
      match truthyStr a.externalAddress, truthyStr a.internalAddress with
      | some e, _ => e
      | none, some i => if c.externalAddress = defaultInternalAddress then i else c.externalAddress
      | none, none => c.externalAddress := rfl

/-! ## The fields `configure` overwrites -/

/-- A field that a call sets from its argument when that argument is truthy ends a
run as the last truthy argument given for it, or as it started. -/
theorem field_configureAll {get : Config → String} {arg : ConfigureArgs → Option String}
    (hget : ∀ c a, get (configure c a) = (truthyStr (arg a)).getD (get c))
    (calls : List ConfigureArgs) (c : Config) :
    get (configureAll c calls) = ((calls.filterMap fun a => truthyStr (arg a)).getLast?).getD (get c) := by
  induction calls generalizing c with
  | nil => rfl
  | cons a calls ih =>
    rw [configureAll_cons, ih, hget, List.filterMap_cons]
    cases truthyStr (arg a) <;> simp [List.getLast?_cons]

/-- **The last truthy argument wins.**  After any sequence of `configure` calls, the
internal address, the hub address and the hub access key id and secret are each
the last truthy value passed for them, or their value at start-up. -/
theorem configure_fields_last (environ : String → Option String) (calls : List ConfigureArgs) :
    let c := configureAll (Config.init environ) calls
    let last (arg : ConfigureArgs → Option String) (init : String) :=
      ((calls.filterMap fun a => truthyStr (arg a)).getLast?).getD init
    c.internalAddress = last (·.internalAddress) (Config.init environ).internalAddress ∧
    c.hubAddress = last (·.hubAddress) (Config.init environ).hubAddress ∧
    c.hubAccessKeyId = last (·.hubAccessKeyId) (Config.init environ).hubAccessKeyId ∧
    c.hubAccessKeySecret = last (·.hubAccessKeySecret) (Config.init environ).hubAccessKeySecret :=
  ⟨field_configureAll (fun _ _ => rfl) calls _, field_configureAll (fun _ _ => rfl) calls _,
    field_configureAll (fun _ _ => rfl) calls _, field_configureAll (fun _ _ => rfl) calls _⟩

/-! ## The external address over a whole run -/

/-- The first address that differs from the default, or the default. -/
def firstNonDefault : List String → String
  | [] => defaultInternalAddress
  | x :: xs => if x = defaultInternalAddress then firstNonDefault xs else x

theorem firstNonDefault_snoc (l : List String) (i : String) :
    firstNonDefault (l ++ [i]) =
      if firstNonDefault l = defaultInternalAddress then i else firstNonDefault l := by
  induction l with
  | nil => by_cases h : i = defaultInternalAddress <;> simp [firstNonDefault, h]
  | cons x l ih => by_cases hx : x = defaultInternalAddress <;> simp [firstNonDefault, hx, ih]

theorem firstNonDefault_singleton (e : String) : firstNonDefault [e] = e := by
  by_cases h : e = defaultInternalAddress <;> simp [firstNonDefault, h]

/-- How one call changes the addresses the external address is chosen from: a
given external address starts a new list, a given internal address is appended. -/
def historyStep (h : List String) (a : ConfigureArgs) : List String :=
  match truthyStr a.externalAddress, truthyStr a.internalAddress with
  | some e, _ => [e]
  | none, some i => h ++ [i]
  | none, none => h

/-- The last explicit external address (an argument, else `TELESYNC_EXTERNAL_ADDRESS`,
else the initial internal address) followed by the internal addresses given since. -/
def addressHistory (environ : String → Option String) (calls : List ConfigureArgs) : List String :=
  calls.foldl historyStep [(Config.init environ).externalAddress]

/-- Step lemma: one call keeps the external address the first non-default entry of
the history. -/
theorem externalAddress_configure_history {c : Config} {h : List String} (a : ConfigureArgs)
    (hc : c.externalAddress = firstNonDefault h) :
    (configure c a).externalAddress = firstNonDefault (historyStep h a) := by
  rw [externalAddress_configure, historyStep]
  rcases truthyStr a.externalAddress with _ | e <;> rcases truthyStr a.internalAddress with _ | i
  · exact hc
  · simp only [firstNonDefault_snoc, hc]
  · exact (firstNonDefault_singleton e).symm
  · exact (firstNonDefault_singleton e).symm

theorem externalAddress_configureAll_history (calls : List ConfigureArgs) :
    ∀ {c : Config} {h : List String}, c.externalAddress = firstNonDefault h →
      (configureAll c calls).externalAddress = firstNonDefault (calls.foldl historyStep h) := by
  induction calls with
  | nil => exact id
  | cons a calls ih => exact fun hc => ih (externalAddress_configure_history a hc)

/-- **The external address after any sequence of `configure` calls**: the first
address different from the default among the last explicit external address and the
internal addresses given after it, or the default if there is none. -/
theorem external_address_history (environ : String → Option String) (calls : List ConfigureArgs) :
    (configureAll (Config.init environ) calls).externalAddress =
      firstNonDefault (addressHistory environ calls) :=
  externalAddress_configureAll_history calls (firstNonDefault_singleton _).symm

/-- The external address follows the first internal address and then stays: with
no variable set, `configure(internal_address='ws://a')` and then
`configure(internal_address='ws://b')` leave the external address `ws://a`; with
`TELESYNC_INTERNAL_ADDRESS=ws://x`, `configure(internal_address='ws://y')` leaves it
`ws://x`. -/
theorem external_stops_following_internal :
    (configureAll (Config.init fun _ => none)
        [{ internalAddress := some "ws://a" }, { internalAddress := some "ws://b" }]).externalAddress =
      "ws://a" ∧
    (configureAll (Config.init fun _ => none)
        [{ internalAddress := some "ws://a" }, { internalAddress := some "ws://b" }]).internalAddress =
      "ws://b" ∧
    (configureAll (Config.init fun k => if k = "TELESYNC_INTERNAL_ADDRESS" then some "ws://x" else none)
        [{ internalAddress := some "ws://y" }]).externalAddress = "ws://x" :=
  ⟨rfl, rfl, rfl⟩

end Telesync
