import InferenceGateway.Fleet.Breaker
import InferenceGateway.Fleet.Deeds
import InferenceGateway.Proxy.Signals
import InferenceGateway.Proxy.Writes
import InferenceGateway.Scheduler.Dispatcher

/-!
# What moves the averages of a backend

`update_success` and `update_failure` (`app/backends/state.py`) are the only
functions that touch the error rate and the latency averages of a backend, and
every call of them is noted in the history as a sample. This module says of each
operation of the registry, the scheduler and the proxy whether it takes a sample
or not, so that a later argument about a whole run needs to look at the
accounting of attempts only.

- `World.Unsampled w w'`: between the two worlds no sample is written and no
  end-to-end average moves. Everything that has to do with circuits, slots,
  choices and the clock is of this kind, and the lemmas `unsampled_…` go through
  it operation by operation.
- `World.SampledOnce b result w w'`: one attempt on `b` is blended in, as a
  success with its latency or as a failure, with `Unsampled` stretches before
  and after. The five ways in which the proxy accounts for an attempt are of
  this kind (`sampledOnce_…`).
- `SampledOnce.samples_self`, `SampledOnce.ewmaE2eMs_self` and their companions
  for the other backends: what one of these does to the two things a run
  argument reads off the world, the samples in the history and the average in
  the row.

Both relations are closed under composition (`Unsampled.trans`,
`SampledOnce.before`, `SampledOnce.after`), which is how the lemmas about a
whole tick or a whole resumption of a handler are put together at the end.
-/

namespace InferenceGateway

open Fleet (sampled)

/-- The event is a sample: one call of `update_success` or `update_failure`. -/
def Event.isSample : Event → Bool
  | sampled .. => true
  | _ => false

namespace World

variable {w w' w'' : World} {b : String} {cls : RequestClass} {health : HealthConfig} {e : Event}
  {lease : Lease} {how : Ending}

/-- Between `w` and `w'` no sample is written and no latency average moves, on any
backend. The registered names stay, because whether a sample is taken at all depends on
them. -/
structure Unsampled (w w' : World) : Prop where
  names : w'.names = w.names
  writes : Writes (fun e => !e.isSample) w w'
  ewmaE2eMs : ∀ b, (w'.row b).ewmaE2eMs = (w.row b).ewmaE2eMs

theorem Unsampled.refl (w : World) : Unsampled w w := ⟨rfl, .refl w, fun _ => rfl⟩

/-- Two stretches without a sample, one after the other, are one. -/
theorem Unsampled.trans (h : Unsampled w w') (h' : Unsampled w' w'') : Unsampled w w'' where
  names := h'.names.trans h.names
  writes := h.writes.trans h'.writes
  ewmaE2eMs b := (h'.ewmaE2eMs b).trans (h.ewmaE2eMs b)

/-! ## The registry's operations -/

/-- Any event but a sample may be written without the averages taking notice. -/
theorem unsampled_emit (he : e.isSample = false) : Unsampled w (w.emit e) :=
  ⟨rfl, .emit (by rw [he]; rfl), fun _ => rfl⟩

/-- A choice of `pick_backend` reads the clock and the rows and writes neither history
nor rows, so it takes no sample. -/
theorem unsampled_of_sameButClock (h : Scoring.SameButClock w w') : Unsampled w w' := by
  obtain ⟨hreg, htrace, -⟩ := h
  refine ⟨?_, .ofTrace htrace, fun b => ?_⟩
  · unfold names
    rw [hreg]
  · unfold row
    rw [hreg]

theorem unsampled_readClock : Unsampled w w.readClock := ⟨rfl, .readClock w, fun _ => rfl⟩

/-- A row may be replaced by one with the same end-to-end average, as the functions
about circuits and slots do. -/
theorem unsampled_setRow {s : BackendRuntimeState} (hs : s.ewmaE2eMs = (w.row b).ewmaE2eMs) :
    Unsampled w (w.setRow b s) := by
  refine ⟨rfl, .ofTrace rfl, fun b' => ?_⟩
  by_cases hb : b' = b
  · subst hb
    rw [row, setRow_row_self, hs]
  · rw [row, setRow_row_of_ne hb]

/-- A circuit may be moved by any function of `health.py` that keeps the average; the
line that is written about the move is no sample. -/
theorem unsampled_moveCircuit {f : BackendRuntimeState → BackendRuntimeState} {cause : Cause}
    (hf : ∀ s, (f s).ewmaE2eMs = s.ewmaE2eMs) : Unsampled w (w.moveCircuit b f cause) := by
  by_cases hb : b ∈ w.names
  · rw [moveCircuit_of_mem hb]
    -- the circuit stays where it is, or the move is written
    split
    · exact unsampled_setRow (hf _)
    · exact (unsampled_setRow (hf _)).trans (unsampled_emit rfl)
  · rw [moveCircuit_of_notMem hb]
    exact .refl w

/-- `maybe_transition_from_open` opens the half-open period and leaves the averages
alone. -/
theorem unsampled_maybeTransitionFromOpen : Unsampled w (w.maybeTransitionFromOpen health b) := by
  refine unsampled_readClock.trans (unsampled_moveCircuit fun s => ?_)
  rcases Health.maybeTransitionFromOpen_cases health w.readClock.clock.now s with
    ⟨t, -, -, -, h⟩ | h <;> rw [h]

/-- `tick_circuits` goes over all backends and lets each open circuit cool down, no
more. -/
theorem unsampled_tickCircuits : Unsampled w (w.tickCircuits health) :=
  tickCircuits_rule (I := Unsampled w) (fun _ _ hv => hv.trans unsampled_maybeTransitionFromOpen)
    (.refl w)

/-- The search for candidates looks at every backend, and may let circuits cool down on
its way, but it judges nobody. -/
theorem unsampled_eligible {avoid : Option String} {bs : List String} :
    Unsampled w (eligible health avoid bs w).1 :=
  eligible_rule (I := Unsampled w)
    (fun _ _ _ _ hv => hv.trans unsampled_maybeTransitionFromOpen) (.refl w)

theorem unsampled_takeSlot : Unsampled w (w.takeSlot b cls).1 := by
  refine ⟨takeSlot_names, ⟨[_], takeSlot_trace, by simp [Event.isSample]⟩, fun b' => ?_⟩
  by_cases hb : b' = b
  · subst hb
    rw [row, takeSlot_row_self]
    rfl
  · rw [row, takeSlot_row_of_ne hb]

/-- `_release_dispatch` counts a slot down, or does nothing for a name without a row. -/
theorem unsampled_releaseDispatch : Unsampled w (w.releaseDispatch b cls) := by
  by_cases hb : b ∈ w.names
  · rw [releaseDispatch_of_mem hb]
    refine Unsampled.trans ?_ (unsampled_emit rfl)
    exact unsampled_setRow rfl
  · rw [releaseDispatch_of_notMem hb]
    exact .refl w

theorem unsampled_endAttempt : Unsampled w (w.endAttempt lease how) := by
  cases lease with
  | granted grant => exact unsampled_emit rfl
  | fallback t => exact .refl w

/-! ## One sample -/

/-- What an attempt blends into the row: the latency of a success with the time to its
first byte, where one was measured, or a failure. -/
def blend (ttftMs : Option ℚ) : Option ℚ → BackendRuntimeState → BackendRuntimeState
  | some e2eMs => (·.updateSuccess ttftMs e2eMs)
  | none => (·.updateFailure)

/-- One sample of `b` is blended in, if `b` is registered, and nothing else is sampled:
there is a world `u` in between at which `update_success` or `update_failure` is
called. -/
def SampledOnce (b : String) (result : Option ℚ) (w w' : World) : Prop :=
  ∃ u ttftMs, Unsampled w u ∧ Unsampled (sampled u b result.isNone (blend ttftMs result)) w'

/-- What happens before the sample may be anything that takes none. -/
theorem SampledOnce.before {result : Option ℚ} (h : SampledOnce b result w' w'')
    (hw : Unsampled w w') : SampledOnce b result w w'' := by
  obtain ⟨u, ttftMs, hu, hrest⟩ := h
  exact ⟨u, ttftMs, hw.trans hu, hrest⟩

/-- What happens after the sample may be anything that takes none. -/
theorem SampledOnce.after {result : Option ℚ} (h : SampledOnce b result w w')
    (hw : Unsampled w' w'') : SampledOnce b result w w'' := by
  obtain ⟨u, ttftMs, hu, hrest⟩ := h
  exact ⟨u, ttftMs, hu, hrest.trans hw⟩

/-- The accounting of a success, `on_success` and then `update_success`, takes one
sample. The first of the two may close a half-open circuit, which is not seen by the
averages. -/
theorem sampledOnce_recordSuccess {probe : Option ℕ} {ttftMs : Option ℚ} {e2eMs : ℚ} :
    SampledOnce b (some e2eMs) w (w.recordSuccess b probe ttftMs e2eMs) := by
  rw [Fleet.recordSuccess_eq]
  -- the sample comes first in the equation, the move of the circuit after it
  refine ⟨_, ttftMs, unsampled_moveCircuit fun s => ?_, .refl _⟩
  by_cases hs : s.circuit = .halfOpen
  · rw [Health.onSuccess_of_halfOpen hs]
  · rw [Health.onSuccess_of_not_halfOpen hs]

/-- `update_failure` by itself, as for a status below 500, takes one sample. -/
theorem sampledOnce_sampleFailure : SampledOnce b none w (w.sampleFailure b) := by
  rw [Fleet.sampleFailure_eq]
  exact ⟨w, none, .refl w, .refl _⟩

/-- The `update_success` in the `finally` block of a relayed stream takes one sample,
without a time to the first byte. -/
theorem sampledOnce_sampleStream {e2eMs : ℚ} :
    SampledOnce b (some e2eMs) w (w.sampleStream b e2eMs) := by
  rw [Fleet.sampleStream_eq]
  exact ⟨w, none, .refl w, .refl _⟩

/-- The accounting of a failure, `on_failure` and then `update_failure`, takes one
sample. -/
theorem sampledOnce_recordFailure {probe : Option ℕ} :
    SampledOnce b none w (w.recordFailure health b probe) := by
  refine sampledOnce_sampleFailure.before (unsampled_readClock.trans
    (unsampled_moveCircuit fun s => ?_))
  rcases Health.onFailure_cases health w.readClock.clock.now s with ⟨-, h⟩ | ⟨-, h⟩ <;> rw [h]

/-- The accounting of an error status takes one sample whatever the status is: only from
500 on is there an `on_failure` before it. -/
theorem sampledOnce_recordErrorStatus {probe : Option ℕ} {status : ℤ} :
    SampledOnce b none w (w.recordErrorStatus health b probe status) := by
  unfold recordErrorStatus
  split
  · exact sampledOnce_recordFailure
  · exact sampledOnce_sampleFailure

/-! ## What the averages see -/

variable {b' : String} {result : Option ℚ}

/-- Without a sample in between, the samples of every backend stay as they were: an
event that is no sample is not seen as one by any backend. -/
theorem Unsampled.samples_eq (h : Unsampled w w') :
    samples (w'.history b) = samples (w.history b) := by
  obtain ⟨new, htrace, hnew⟩ := h.writes
  have hhistory : w'.history b = new.filterMap (Event.seenBy b) ++ w.history b := by
    show w'.trace.filterMap (Event.seenBy b) = _
    rw [htrace, List.filterMap_append]
    rfl
  rw [hhistory]
  refine Fleet.samples_append_of_none fun x hx failed heq => ?_
  obtain ⟨e, he, hseen⟩ := List.mem_filterMap.mp hx
  have hquiet := hnew e he
  -- what is seen as a sample is one
  cases e <;> simp_all [Event.seenBy, Event.isSample]

/-- For a name without a row nothing is blended in and nothing is written. -/
theorem sampled_of_notMem {failed : Bool} {f : BackendRuntimeState → BackendRuntimeState}
    (hb : b ∉ w.names) : sampled w b failed f = w := if_neg hb

/-- For a registered name the row is blended with the sample, and the sample is
written. -/
theorem sampled_of_mem {failed : Bool} {f : BackendRuntimeState → BackendRuntimeState}
    (hb : b ∈ w.names) :
    sampled w b failed f = (w.setRow b (f (w.row b))).emit (.sampled b failed) := if_pos hb

theorem sampled_names {failed : Bool} {f : BackendRuntimeState → BackendRuntimeState} :
    (sampled w b failed f).names = w.names := by
  by_cases hb : b ∈ w.names
  · rw [sampled_of_mem hb]
    exact setRow_names
  · rw [sampled_of_notMem hb]

theorem SampledOnce.names (h : SampledOnce b result w w') : w'.names = w.names := by
  obtain ⟨u, ttftMs, hu, hrest⟩ := h
  exact (hrest.names.trans sampled_names).trans hu.names

/-- An unregistered backend has no averages. -/
theorem sampledOnce_of_notMem (hb : b ∉ w.names) :
    SampledOnce b result w w' ↔ Unsampled w w' := by
  constructor
  · rintro ⟨u, ttftMs, hu, hrest⟩
    rw [sampled_of_notMem (hu.names ▸ hb)] at hrest
    exact hu.trans hrest
  · intro h
    refine ⟨w, none, .refl w, ?_⟩
    rw [sampled_of_notMem hb]
    exact h

/-- The sample of an attempt on `b` stands at the head of the samples of `b`: a failure
if the attempt had no latency to blend in. -/
theorem SampledOnce.samples_self (h : SampledOnce b result w w') (hb : b ∈ w.names) :
    samples (w'.history b) = result.isNone :: samples (w.history b) := by
  obtain ⟨u, ttftMs, hu, hrest⟩ := h
  rw [hrest.samples_eq, sampled_of_mem (hu.names ▸ hb), ← hu.samples_eq, history, emit_trace,
    history_cons, setRow_trace]
  simp [Event.seenBy, samples, history]

/-- The samples of the other backends stay as they were. -/
theorem SampledOnce.samples_of_ne (h : SampledOnce b result w w') (hne : b' ≠ b) :
    samples (w'.history b') = samples (w.history b') := by
  obtain ⟨u, ttftMs, hu, hrest⟩ := h
  rw [hrest.samples_eq, ← hu.samples_eq]
  -- the sample that is written names `b`, which `b'` does not see
  by_cases hb : b ∈ u.names
  · rw [sampled_of_mem hb, history, emit_trace, history_cons, setRow_trace]
    simp [Event.seenBy, hne.symm, history]
  · rw [sampled_of_notMem hb]

/-- A success moves the latency average by its latency, a failure leaves it alone. -/
theorem SampledOnce.ewmaE2eMs_self (h : SampledOnce b result w w') (hb : b ∈ w.names) :
    (w'.row b).ewmaE2eMs =
      result.elim (w.row b).ewmaE2eMs (ewma (w.row b).ewmaE2eMs · (2 / 10)) := by
  obtain ⟨u, ttftMs, hu, hrest⟩ := h
  rw [hrest.ewmaE2eMs, sampled_of_mem (hu.names ▸ hb), ← hu.ewmaE2eMs]
  show (((u.setRow b (blend ttftMs result (u.row b))).row b)).ewmaE2eMs = _
  rw [row, setRow_row_self]
  cases result <;> rfl

/-- The latency averages of the other backends stay as they were. -/
theorem SampledOnce.ewmaE2eMs_of_ne (h : SampledOnce b result w w') (hne : b' ≠ b) :
    (w'.row b').ewmaE2eMs = (w.row b').ewmaE2eMs := by
  obtain ⟨u, ttftMs, hu, hrest⟩ := h
  rw [hrest.ewmaE2eMs, ← hu.ewmaE2eMs]
  by_cases hb : b ∈ u.names
  · rw [sampled_of_mem hb]
    show ((u.setRow b (blend ttftMs result (u.row b))).row b').ewmaE2eMs = _
    rw [row, setRow_row_of_ne hne]
  · rw [sampled_of_notMem hb]

end World

/-! ## The scheduler -/

namespace Admission

open World

variable {cfg : GatewayConfig} {now : ℚ} {p : PendingRequest} {A : Admission} {cls : RequestClass}
  {w : World}

theorem unsampled_search : Unsampled w (search cfg cls w).1 :=
  unsampled_eligible.trans (unsampled_of_sameButClock (Scoring.pickBackend_sameButClock ..))

/-- One round of a tick may write that a request is rejected, find nobody, or take a
slot and resolve a future. None of this is a sample. -/
theorem unsampled_dispatchOne : Unsampled A.world (dispatchOne cfg now p A).1.world := by
  rcases dispatchOne_cases cfg now p A with
    ⟨-, h⟩ | ⟨-, -, h⟩ | ⟨-, -, -, h⟩ | ⟨-, -, chosen, -, h⟩ <;> rw [h]
  · exact .refl _
  · exact (unsampled_emit rfl).trans (unsampled_emit rfl)
  · exact unsampled_search
  · exact (unsampled_search.trans unsampled_takeSlot).trans (unsampled_emit rfl)

/-- A pass over the batch takes no sample, by the rule for whole passes. -/
theorem unsampled_dispatchTick : Unsampled A.world (dispatchTick cfg A).world :=
  dispatchTick_rule (I := fun B => Unsampled A.world B.world) (fun _ _ hB => hB)
    (fun _ hB => hB.trans unsampled_readClock) (fun _ _ _ hB => hB.trans unsampled_dispatchOne)
    (.refl _)

/-- A tick of the scheduler, circuits and pass, takes no sample. -/
theorem unsampled_schedulerTick : Unsampled A.world (schedulerTick cfg A).world :=
  unsampled_tickCircuits.trans
    (unsampled_dispatchTick (A := { A with world := A.world.tickCircuits cfg.health }))

end Admission

/-! ## The proxy -/

namespace Proxy

open World

variable {D : Deployment} {w : World} {c : ProxyCall} {status : ℤ} {relayable : Bool}
  {e : UpstreamError}

/-- `_pick_retry_target` looks for another backend and takes a slot on it, if there is
one. -/
theorem unsampled_pickRetryTarget {cfg : GatewayConfig} {cls : RequestClass} {avoid : String} :
    Unsampled w (pickRetryTarget cfg w cls avoid).1 := by
  have hsearch : Unsampled w (search cfg w cls avoid).1 :=
    unsampled_eligible.trans (unsampled_of_sameButClock (Scoring.pickBackend_sameButClock ..))
  rcases pickRetryTarget_cases cfg w cls avoid with ⟨-, h⟩ | ⟨b, -, h⟩ <;> rw [h]
  · exact hsearch
  · exact hsearch.trans unsampled_takeSlot

/-- The beginning of an attempt takes no sample: it is sent, or it ends before it is
sent, with its slot given back or not. -/
theorem unsampled_beginAttempt : Unsampled w (beginAttempt D w c).1 := by
  rcases beginAttempt_cases D w c with ⟨-, reply, -, h⟩ | ⟨v, hv, h⟩ | ⟨reply, h⟩ <;> rw [h]
  · exact unsampled_endAttempt
  · exact unsampled_of_sameButClock hv
  · exact unsampled_releaseDispatch.trans unsampled_endAttempt

theorem unsampled_start {p : PendingRequest} {initial : Lease} :
    Unsampled w (start D w p initial).1 :=
  (unsampled_emit rfl).trans unsampled_beginAttempt

/-- Giving the slot of a failed attempt back, and counting a retry, takes no sample. -/
theorem unsampled_giveBack {how : Ending} : Unsampled w (giveBack w c how) :=
  ((unsampled_emit rfl).trans unsampled_releaseDispatch).trans unsampled_endAttempt

/-- After a failed attempt has been accounted for, nothing more is sampled: there is no
retry, no alternate, or the next attempt begins. -/
theorem unsampled_retryOrGiveUp {retry : Bool} {how : Ending} {final : Reply} :
    Unsampled w (retryOrGiveUp D w c retry how final).1 := by
  have hpick : Unsampled w
      (pickRetryTarget D.cfg (giveBack w c how) c.reqClass c.target.name).1 :=
    unsampled_giveBack.trans unsampled_pickRetryTarget
  rcases retryOrGiveUp_cases D w c retry how final with
    ⟨-, h⟩ | ⟨-, -, h⟩ | ⟨-, grant, -, h⟩ <;> rw [h]
  · exact unsampled_releaseDispatch.trans unsampled_endAttempt
  · exact hpick.trans unsampled_releaseDispatch
  · exact hpick.trans unsampled_beginAttempt

end Proxy

end InferenceGateway
