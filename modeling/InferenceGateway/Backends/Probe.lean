import InferenceGateway.Backends.Registry
import InferenceGateway.Lib.Dict
import InferenceGateway.Lib.Gather

/-!
# Readiness (`app/backends/probe.py`, `/ready` in `app/api/routes.py`)

The configured backends are asked for their health all at once, and the answers
are gathered into a dictionary by name. Each call of `client.get` has an outcome
of its own, also where two entries share a url; in which order the calls end is
an argument too. A call that raises anything but `httpx.HTTPError` makes
`probe_backends` raise what it raised.

The functions are those of the source: `probeOne`, `probeBackends` over
`gather`, `readyPayload` and `notReadyPayload`, and `ready` with the checks of
`request.app.state` that come first. About them:

- `probeBackends_of_answered`: where every call ends as the `try` statement
  provides for, the result is the dictionary of the items, in the order of the
  entries and not of the answers.
- `probeBackends_of_raised`: otherwise the first call to raise decides.
- `keysOf_items`, `length_items`, `countP_items`: the items have the names of
  the entries, are as many, and the healthy ones are those whose call returned
  200.
-/

namespace InferenceGateway

open Lib

/-- How `await client.get(url)` ends. -/
inductive ProbeOutcome where
  | response (status : ℤ)
  /-- `httpx.HTTPError`. -/
  | httpError
  /-- An exception the `except` clause does not name. -/
  | raised (name : String)
  deriving DecidableEq, Repr

namespace ProbeOutcome

/-- The probe ended in a way the `try` statement provides for. -/
def answered : ProbeOutcome → Bool
  | raised _ => false
  | _ => true

/-- What is put down for the backend. -/
def health : ProbeOutcome → String
  | response status => if status = 200 then "healthy" else "unhealthy"
  | _ => "unhealthy"

/-- A backend is healthy exactly if its probe returned 200; redirects and errors are
not. -/
theorem health_eq_iff {o : ProbeOutcome} : o.health = "healthy" ↔ o = .response 200 := by
  cases o with
  | response status => by_cases h : status = 200 <;> simp [health, h]
  | _ => simp [health]

end ProbeOutcome

/-- The JSON body of `/ready`; absent keys are `none`. -/
structure ReadyBody where
  status : String
  healthyBackends : ℕ
  totalBackends : ℕ
  backends : Dict String String
  reason : Option String := none
  missing : Option (List String) := none
  deriving DecidableEq

namespace Probe

/-- `_HEALTH_PATH`. -/
def healthPath : String := "/health"

def url (backend : BackendEntry) : String := BackendRegistry.rstripSlash backend.url ++ healthPath

/-- `_probe_one`: what it returns, or the exception that leaves it. -/
def probeOne (get : String → ProbeOutcome) (backend : BackendEntry) :
    Except String (String × String) :=
  match get (url backend) with
  | .response status => .ok (backend.name, if status = 200 then "healthy" else "unhealthy")
  | .httpError => .ok (backend.name, "unhealthy")
  | .raised name => .error name

/-- GET each backend `{url}/health`; return `{name: "healthy"|"unhealthy"}`. The calls end
in the order of `ends`. -/
def probeBackends (backends : List BackendEntry)
    (client : Fin backends.length → String → ProbeOutcome)
    (ends : List (Fin backends.length)) : Option (Except String (Dict String String)) :=
  if backends = [] then some (.ok .empty)
  else (gather (fun i => probeOne (client i) backends[i]) (List.finRange _) ends).map
    (·.map Dict.ofList)

/-- Build `/ready` JSON body and HTTP status from probe results. -/
def readyPayload (backendStatus : Dict String String) : ReadyBody × ℤ :=
  let total := backendStatus.entries.length
  let healthy := backendStatus.entries.countP fun e => decide (e.2 = "healthy")
  let allHealthy := decide (0 < total ∧ healthy = total)
  ({ status := if allHealthy then "ready" else "not_ready"
     healthyBackends := healthy
     totalBackends := total
     backends := backendStatus },
    if allHealthy then 200 else 503)

/-- Startup failure body with empty backend map (consistent shape). -/
def notReadyPayload (reason : String) (missing : Option (List String)) : ReadyBody where
  status := "not_ready"
  healthyBackends := 0
  totalBackends := 0
  backends := .empty
  reason := some reason
  missing := missing

/-- What `/ready` looks at of `request.app.state`. -/
structure AppState where
  attributes : List String
  httpClosed : Bool

/-- The required attributes that are not there. -/
def AppState.missing (app : AppState) : List String :=
  ["cfg", "registry", "queue", "http"].filter (· ∉ app.attributes)

/-- `ready`: app state OK, then probe each configured vLLM backend. -/
def ready (app : AppState) (backends : List BackendEntry)
    (client : Fin backends.length → String → ProbeOutcome) (ends : List (Fin backends.length)) :
    Option (Except String (ReadyBody × ℤ)) :=
  if app.missing ≠ [] then some (.ok (notReadyPayload "missing_state" (some app.missing), 503))
  else if app.httpClosed then some (.ok (notReadyPayload "http_client_closed" none, 503))
  else (probeBackends backends client ends).map (·.map readyPayload)

/-! ## What the functions do -/

/-- How the probe of an entry ended. -/
def outcome (backends : List BackendEntry) (client : Fin backends.length → String → ProbeOutcome)
    (i : Fin backends.length) : ProbeOutcome := client i (url backends[i])

/-- The items the dictionary is made of, one for each entry. -/
def items (backends : List BackendEntry) (client : Fin backends.length → String → ProbeOutcome) :
    List (String × String) :=
  (List.finRange _).map fun i => (backends[i].name, (outcome backends client i).health)

variable {backends : List BackendEntry} {client : Fin backends.length → String → ProbeOutcome}
  {ends before after : List (Fin backends.length)} {i : Fin backends.length}

/-- A probe that is answered returns the name of the entry with its health. -/
theorem probeOne_of_answered (h : (outcome backends client i).answered = true) :
    probeOne (client i) backends[i] =
      .ok (backends[i].name, (outcome backends client i).health) := by
  cases ho : outcome backends client i with
  | raised name =>
    rw [ho] at h
    cases h
  | _ =>
    unfold outcome at ho
    simp only [probeOne, ho, ProbeOutcome.health]

/-- **Every probe is answered.** The dictionary is built of the items in the order of
the entries, in whatever order the answers came. -/
theorem probeBackends_of_answered (h : ∀ i, (outcome backends client i).answered = true)
    (hends : ends.Perm (List.finRange _)) :
    probeBackends backends client ends = some (.ok (Dict.ofList (items backends client))) := by
  unfold probeBackends
  split
  · rename_i hnil
    subst hnil
    rfl
  · rw [gather_of_ok (fun i _ => probeOne_of_answered (h i)) hends]
    rfl

/-- **The first probe to raise.** What it raises leaves `probe_backends`; the calls that
are still running are not waited for. -/
theorem probeBackends_of_raised {name : String}
    (hbefore : ∀ j ∈ before, (outcome backends client j).answered = true)
    (hi : outcome backends client i = .raised name) :
    probeBackends backends client (before ++ i :: after) = some (.error name) := by
  have hne : backends ≠ [] := fun hnil => (hnil ▸ i).elim0
  have hraises : probeOne (client i) backends[i] = .error name := by
    unfold outcome at hi
    simp only [probeOne, hi]
  rw [probeBackends, if_neg hne,
    gather_of_error (fun j hj => probeOne_of_answered (hbefore j hj)) hraises]
  rfl

/-- The names of the items are those of the entries. -/
theorem keysOf_items : keysOf (items backends client) = backends.map (·.name) := by
  rw [items, keysOf, List.map_map]
  exact List.ext_getElem (by simp) fun k _ _ => by simp

/-- There is an item for every entry. -/
theorem length_items : (items backends client).length = backends.length := by
  simp [items]

/-- The healthy items are the entries whose probe returned 200. -/
theorem countP_items : (items backends client).countP (fun e => decide (e.2 = "healthy")) =
    (List.finRange _).countP fun i => decide (outcome backends client i = .response 200) := by
  rw [items, List.countP_map]
  exact List.countP_congr fun i _ => by simp [ProbeOutcome.health_eq_iff]

end Probe

end InferenceGateway
