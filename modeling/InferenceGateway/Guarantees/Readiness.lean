import InferenceGateway.Backends.Probe

/-!
# Readiness

What `/ready` says of the configured backends, in whatever order their probes
end. The probes run at once under `asyncio.gather`, and their results are put
into a dictionary by the name of the backend, so that two entries of one name
leave one result.

- `readiness_of_answered`: whatever the order in which the probes end, the
  answer is made of the results in the order of the configuration.
- `SoundAnswer`: 200 exactly if there is a backend and every probe returned 200,
  with the counts those of the configured entries.
- `readiness_iff`: the answer is sound and complete, and the counts count
  entries, exactly when no two entries share a name.
- `ready_iff`: with distinct names, the whole route answers 200 exactly when the
  process has started, its client is open, and every probe returned 200.
-/

namespace InferenceGateway

open Lib

namespace Probe

variable {backends : List BackendEntry} {client : Fin backends.length → String → ProbeOutcome}
  {ends : List (Fin backends.length)} {app : AppState}

/-- `ready_payload(await probe_backends(backends, client))`. -/
def readiness (backends : List BackendEntry) (client : Fin backends.length → String → ProbeOutcome)
    (ends : List (Fin backends.length)) : Option (Except String (ReadyBody × ℤ)) :=
  (probeBackends backends client ends).map (·.map readyPayload)

/-- Every entry's own probe returned 200, and there is one. -/
def AllHealthy (backends : List BackendEntry)
    (client : Fin backends.length → String → ProbeOutcome) : Prop :=
  backends ≠ [] ∧ ∀ i, outcome backends client i = .response 200

/-- The status says whether all are healthy, and the counts are of entries. -/
structure SoundAnswer (backends : List BackendEntry)
    (client : Fin backends.length → String → ProbeOutcome) (answer : ReadyBody × ℤ) : Prop where
  status : answer.2 = 200 ↔ AllHealthy backends client
  healthyBackends : answer.1.healthyBackends =
    (List.finRange _).countP fun i => decide (outcome backends client i = .response 200)
  totalBackends : answer.1.totalBackends = backends.length

theorem readyPayload_status {status : Dict String String} : (readyPayload status).2 = 200 ↔
    status.entries ≠ [] ∧ ∀ e ∈ status.entries, e.2 = "healthy" := by
  have hall : status.entries.countP (fun e => decide (e.2 = "healthy")) = status.entries.length ↔
      ∀ e ∈ status.entries, e.2 = "healthy" := by
    simp [List.countP_eq_length]
  rw [← List.length_pos_iff_ne_nil, ← hall]
  by_cases h : 0 < status.entries.length ∧
      status.entries.countP (fun e => decide (e.2 = "healthy")) = status.entries.length
  · exact iff_of_true (by simp only [readyPayload, h, decide_true, and_self, if_true]) h
  · exact iff_of_false (by simp only [readyPayload, h, decide_false]; decide) h

/-- With distinct names nothing is lost on the way to the payload, since no result
replaces another in the dictionary. -/
theorem soundAnswer_of_nodup (h : (backends.map (·.name)).Nodup) :
    SoundAnswer backends client (readyPayload (Dict.ofList (items backends client))) := by
  -- with distinct names no result replaces another
  have hentries : (Dict.ofList (items backends client)).entries = items backends client :=
    ofItems_of_nodup (keysOf_items ▸ h)
  refine ⟨?_, ?_, ?_⟩
  · rw [readyPayload_status, hentries]
    have hnil : items backends client ≠ [] ↔ backends ≠ [] := by
      rw [← List.length_pos_iff_ne_nil, ← List.length_pos_iff_ne_nil, length_items]
    have hhealthy : (∀ e ∈ items backends client, e.2 = "healthy") ↔
        ∀ i, outcome backends client i = .response 200 := by
      simp [items, ProbeOutcome.health_eq_iff]
    rw [hnil, hhealthy]
    exact Iff.rfl
  · show (Dict.ofList (items backends client)).entries.countP _ = _
    rw [hentries, countP_items]
  · show (Dict.ofList (items backends client)).entries.length = _
    rw [hentries, length_items]

theorem readiness_of_answered (hanswered : ∀ i, (outcome backends client i).answered = true)
    (hends : ends.Perm (List.finRange _)) : readiness backends client ends =
      some (.ok (readyPayload (Dict.ofList (items backends client)))) := by
  rw [readiness, probeBackends_of_answered hanswered hends]
  rfl

/-- **Readiness.** For every list of entries and every way their probes may be answered, in
every order: the answer is 200 exactly if there are entries and each one's own probe returned
200, and the counts count entries, if and only if no two entries share a name. -/
theorem readiness_iff (hanswered : ∀ i, (outcome backends client i).answered = true)
    (hends : ends.Perm (List.finRange _)) :
    (∃ answer, readiness backends client ends = some (.ok answer) ∧
      SoundAnswer backends client answer) ↔ (backends.map (·.name)).Nodup := by
  rw [readiness_of_answered hanswered hends]
  constructor
  · rintro ⟨answer, hanswer, hsound⟩
    obtain rfl := Except.ok.inj (Option.some.inj hanswer)
    have htotal : (ofItems (items backends client)).length = (items backends client).length :=
      hsound.totalBackends.trans length_items.symm
    have hkeys : keysOf (items backends client) = backends.map (·.name) := keysOf_items
    rw [← hkeys]
    exact length_ofItems_eq_iff.mp htotal
  · intro hnodup
    exact ⟨_, rfl, soundAnswer_of_nodup hnodup⟩

/-- Two nodes. -/
def nodes (name name' : String) : List BackendEntry :=
  [{ name := name, url := "http://10.0.0.1:8000/" },
    { name := name', url := "http://10.0.0.2:8000/" }]

def first (name name' : String) : Fin (nodes name name').length := ⟨0, Nat.zero_lt_two⟩

def second (name name' : String) : Fin (nodes name name').length := ⟨1, Nat.one_lt_two⟩

/-- Only the second node answers. -/
def firstDown (name name' : String) : Fin (nodes name name').length → String → ProbeOutcome :=
  fun i _ => if i = first name name' then .httpError else .response 200

theorem readiness_iff_distinct :
    (∃ answer, readiness (nodes "gpu-node-1" "gpu-node-2") (firstDown _ _)
        [second _ _, first _ _] = some (.ok answer) ∧
      SoundAnswer (nodes "gpu-node-1" "gpu-node-2") (firstDown _ _) answer) ↔
      ((nodes "gpu-node-1" "gpu-node-2").map (·.name)).Nodup :=
  readiness_iff (by decide) (by decide)

/-- Under one name the node that answers hides the one that does not. -/
theorem readiness_hides : ∃ answer,
    readiness (nodes "gpu-node-1" "gpu-node-1") (firstDown _ _) [first _ _, second _ _] =
      some (.ok answer) ∧
    answer.2 = 200 ∧ answer.1.healthyBackends = 1 ∧ answer.1.totalBackends = 1 ∧
    outcome (nodes "gpu-node-1" "gpu-node-1") (firstDown _ _) (first _ _) = .httpError ∧
    ¬ SoundAnswer (nodes "gpu-node-1" "gpu-node-1") (firstDown _ _) answer := by
  have hanswer : readiness (nodes "gpu-node-1" "gpu-node-1") (firstDown _ _)
      [first _ _, second _ _] = some (.ok
        ({ status := "ready", healthyBackends := 1, totalBackends := 1,
           backends := Dict.ofList [("gpu-node-1", "healthy")] }, 200)) := by
    decide
  refine ⟨_, hanswer, rfl, rfl, rfl, by decide, fun h => ?_⟩
  have hup := (h.status.mp rfl).2 (first _ _)
  cases hup

/-! ## The route -/

/-- **The route.** With distinct names `/ready` answers 200 exactly when the process has
started, its client is open, there are backends, and every probe returned 200. -/
theorem ready_iff (hnodup : (backends.map (·.name)).Nodup)
    (hanswered : ∀ i, (outcome backends client i).answered = true)
    (hends : ends.Perm (List.finRange _)) :
    (∃ body, ready app backends client ends = some (.ok (body, 200))) ↔
      app.missing = [] ∧ app.httpClosed = false ∧ AllHealthy backends client := by
  unfold ready
  -- the route looks at the process first, then at the client, and probes only then
  by_cases hm : app.missing = []
  · rw [if_neg (not_not.mpr hm)]
    cases hc : app.httpClosed with
    | true => simp
    | false =>
      have hanswer := readiness_of_answered hanswered hends
      have hsound : SoundAnswer backends client
          (readyPayload (Dict.ofList (items backends client))) := soundAnswer_of_nodup hnodup
      generalize readyPayload (Dict.ofList (items backends client)) = answer at hanswer hsound
      unfold readiness at hanswer
      rw [if_neg Bool.false_ne_true, hanswer, ← hsound.status]
      constructor
      · rintro ⟨body, hbody⟩
        obtain rfl := Except.ok.inj (Option.some.inj hbody)
        exact ⟨hm, rfl, rfl⟩
      · rintro ⟨-, -, hok⟩
        exact ⟨answer.1, by rw [← hok]⟩
  · rw [if_pos hm]
    simp [hm]

end Probe

end InferenceGateway
