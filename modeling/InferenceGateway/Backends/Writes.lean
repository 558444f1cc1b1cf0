import InferenceGateway.Backends.Registry

/-!
# What the world's operations write to the history

Every operation of the model writes what it does to the history of the world it
runs in. `Writes q w w'` says that `w'` extends the history of `w` by events
that all meet `q`, and says nothing about the rest of the two worlds, so that it
holds of almost everything and composes (`Writes.trans`). Three kinds of events
are told apart, each in the next one:

- `SlotWrites`: events of slots and circuits. The operations of the scheduler
  and the circuit breaker that judge no attempt write no others.
- `Inner`: events of attempts, that is samples and errors as well. All
  operations of the registry, and the accounting of the proxy, are of this kind.
- `Quiet`: anything but the hand-over of a request between scheduler and route,
  which is where futures are resolved, requests withdrawn, proxied or turned
  away.

A count or a projection of the history that looks for events of another kind is
the same before and after (`Writes.filterMap`, `Writes.count`). Most frame
arguments of the later modules are one of these lemmas and the entry for an
operation below.
-/

namespace InferenceGateway

/-- The events of the hand-over of a request between scheduler and route: its future is
resolved, it is withdrawn, proxied or refused, and rejections are counted. -/
def Event.handover : Event → Bool
  | resolved .. | withdrawn .. | proxied .. | refused .. | rejectionsTotal .. => true
  | _ => false

/-- The events of attempts: slots, circuits, health and errors. -/
def Event.ofAttempt : Event → Bool
  | moved .. | dispatched .. | sampled .. | released .. | ended .. | errorsTotal .. => true
  | _ => false

/-- The events of slots and circuits: those of attempts, but samples and errors. -/
def Event.ofSlot : Event → Bool
  | moved .. | dispatched .. | released .. | ended .. => true
  | _ => false

namespace World

/-- Between `w` and `w'` only events that meet `q` are written, and nothing is taken
back. -/
def Writes (q : Event → Bool) (w w' : World) : Prop :=
  ∃ new, w'.trace = new ++ w.trace ∧ ∀ e ∈ new, q e = true

/-- Nothing but events of attempts is written. -/
abbrev Inner (w w' : World) : Prop := Writes Event.ofAttempt w w'

/-- Nothing but events of slots and circuits is written. -/
abbrev SlotWrites (w w' : World) : Prop := Writes Event.ofSlot w w'

/-- Nothing about a hand-over is written. -/
abbrev Quiet (w w' : World) : Prop := Writes (fun e => !e.handover) w w'

section Writes

variable {q q' : Event → Bool} {w w' w'' : World} {e : Event}

/-- An operation that leaves the history alone writes events of any kind one likes:
none. -/
theorem Writes.ofTrace (h : w'.trace = w.trace) : Writes q w w' := ⟨[], h, by simp⟩

theorem Writes.refl (w : World) : Writes q w w := .ofTrace rfl

theorem Writes.readClock (w : World) : Writes q w w.readClock := .ofTrace rfl

/-- What is written in two stretches, one after the other, is what each of them
writes. -/
theorem Writes.trans (h : Writes q w w') (h' : Writes q w' w'') : Writes q w w'' := by
  obtain ⟨new, htrace, hnew⟩ := h
  obtain ⟨new', htrace', hnew'⟩ := h'
  refine ⟨new' ++ new, by rw [htrace', htrace, List.append_assoc], fun e he => ?_⟩
  -- the later events stand in front of the earlier ones
  rcases List.mem_append.mp he with he | he
  · exact hnew' e he
  · exact hnew e he

/-- An operation that writes one event writes events of its kind. -/
theorem Writes.ofEvent (he : q e = true) (h : w'.trace = e :: w.trace) : Writes q w w' :=
  ⟨[e], h, by simp [he]⟩

theorem Writes.emit (he : q e = true) : Writes q w (w.emit e) := .ofEvent he rfl

/-- Events of a kind are events of a wider kind. -/
theorem Writes.mono (hq : ∀ e, q e = true → q' e = true) (h : Writes q w w') :
    Writes q' w w' := by
  obtain ⟨new, htrace, hnew⟩ := h
  exact ⟨new, htrace, fun e he => hq e (hnew e he)⟩

/-- What is written does not show where nothing of its kind is looked for. -/
theorem Writes.filterMap {κ : Type*} {f : Event → Option κ} (h : Writes q w w')
    (hf : ∀ e, q e = true → f e = none) : w'.trace.filterMap f = w.trace.filterMap f := by
  obtain ⟨new, htrace, hnew⟩ := h
  rw [htrace, List.filterMap_append,
    List.filterMap_eq_nil_iff.mpr fun e he => hf e (hnew e he), List.nil_append]

/-- An event of another kind is counted as often as before. -/
theorem Writes.count (h : Writes q w w') (he : q e = false) :
    w'.trace.count e = w.trace.count e := by
  obtain ⟨new, htrace, hnew⟩ := h
  have hnone : e ∉ new := fun hmem => Bool.false_ne_true (he.symm.trans (hnew e hmem))
  rw [htrace, List.count_append, List.count_eq_zero_of_not_mem hnone, Nat.zero_add]

/-- Events of slots and circuits are events of attempts. -/
theorem SlotWrites.inner (h : SlotWrites w w') : Inner w w' := by
  refine h.mono fun e he => ?_
  cases e <;> first | rfl | cases he

/-- Events of attempts are not about the hand-over of requests. -/
theorem Inner.quiet (h : Inner w w') : Quiet w w' := by
  refine h.mono fun e he => ?_
  cases e <;> first | rfl | cases he

end Writes

/-! ## The registry's operations -/

variable {w : World} {b : String} {cls : RequestClass} {health : HealthConfig}
  {f : BackendRuntimeState → BackendRuntimeState} {cause : Cause}

/-- A circuit that moves is written about in one line, and one that stays in none. -/
theorem slotWrites_moveCircuit : SlotWrites w (w.moveCircuit b f cause) := by
  rcases moveCircuit_trace w b f cause with h | ⟨src, dst, h⟩
  · exact .ofTrace h
  · exact .ofEvent rfl h

theorem inner_moveCircuit : Inner w (w.moveCircuit b f cause) := slotWrites_moveCircuit.inner

/-- `maybe_transition_from_open` reads the clock and may move the circuit. -/
theorem slotWrites_maybeTransitionFromOpen : SlotWrites w (w.maybeTransitionFromOpen health b) :=
  slotWrites_moveCircuit (w := w.readClock)

theorem inner_maybeTransitionFromOpen : Inner w (w.maybeTransitionFromOpen health b) :=
  slotWrites_maybeTransitionFromOpen.inner

/-- `tick_circuits` runs `maybe_transition_from_open` on every backend. By the rule for
loops over the registry. -/
theorem slotWrites_tickCircuits (health : HealthConfig) (w : World) :
    SlotWrites w (w.tickCircuits health) :=
  tickCircuits_rule (fun _ _ hv => hv.trans slotWrites_maybeTransitionFromOpen) (.refl w)

theorem inner_tickCircuits (health : HealthConfig) (w : World) : Inner w (w.tickCircuits health) :=
  (slotWrites_tickCircuits health w).inner

/-- A search for candidates runs `is_healthy_for_schedule` on every backend, which may
move circuits on its way. -/
theorem slotWrites_eligible (health : HealthConfig) (avoid : Option String) (bs : List String)
    (w : World) : SlotWrites w (eligible health avoid bs w).1 :=
  eligible_rule (fun _ _ _ _ hv => hv.trans slotWrites_maybeTransitionFromOpen) (.refl w)

theorem inner_eligible (health : HealthConfig) (avoid : Option String) (bs : List String)
    (w : World) : Inner w (eligible health avoid bs w).1 :=
  (slotWrites_eligible health avoid bs w).inner

/-- Taking a slot (`on_request_start`) is written about in one line, for any name. -/
theorem slotWrites_takeSlot : SlotWrites w (w.takeSlot b cls).1 :=
  .ofEvent rfl takeSlot_trace

theorem inner_takeSlot : Inner w (w.takeSlot b cls).1 := slotWrites_takeSlot.inner

/-- `_release_dispatch` writes one line if the backend has a row, and otherwise none. -/
theorem slotWrites_releaseDispatch : SlotWrites w (w.releaseDispatch b cls) := by
  rcases releaseDispatch_trace w b cls with h | ⟨clamped, h⟩
  · exact .ofTrace h
  · exact .ofEvent rfl h

theorem inner_releaseDispatch : Inner w (w.releaseDispatch b cls) :=
  slotWrites_releaseDispatch.inner

theorem inner_modify {g : BackendRuntimeState → BackendRuntimeState} :
    Inner w (w.modify b g) := by
  unfold modify
  split <;> exact .ofTrace rfl

/-- `update_failure` blends a failure into the row and writes the sample. -/
theorem inner_sampleFailure : Inner w (w.sampleFailure b) := by
  unfold sampleFailure
  split
  · exact inner_modify.trans (.emit rfl)
  · exact .refl w

theorem inner_sampleStream {e2eMs : ℚ} : Inner w (w.sampleStream b e2eMs) := by
  unfold sampleStream
  split
  · exact inner_modify.trans (.emit rfl)
  · exact .refl w

/-- The accounting of a success may close a circuit, and then blends and writes the
sample. -/
theorem inner_recordSuccess {probe : Option ℕ} {ttftMs : Option ℚ} {e2eMs : ℚ} :
    Inner w (w.recordSuccess b probe ttftMs e2eMs) := by
  unfold recordSuccess
  split
  · exact (inner_moveCircuit.trans inner_modify).trans (.emit rfl)
  · exact .refl w

/-- The accounting of a failure may open a circuit, and then blends and writes the
sample. -/
theorem inner_recordFailure {probe : Option ℕ} : Inner w (w.recordFailure health b probe) :=
  (inner_moveCircuit (w := w.readClock)).trans inner_sampleFailure

/-- The accounting of an error status is that of a failure from 500 on, and a sample
below. -/
theorem inner_recordErrorStatus {probe : Option ℕ} {status : ℤ} :
    Inner w (w.recordErrorStatus health b probe status) := by
  unfold recordErrorStatus
  split
  · exact inner_recordFailure
  · exact inner_sampleFailure

/-- The end of an attempt is noted for a slot that was granted; a call to the fallback
provider holds none. -/
theorem slotWrites_endAttempt {lease : Lease} {how : Ending} :
    SlotWrites w (w.endAttempt lease how) := by
  cases lease with
  | granted g => exact .emit rfl
  | fallback t => exact .refl w

theorem inner_endAttempt {lease : Lease} {how : Ending} : Inner w (w.endAttempt lease how) :=
  slotWrites_endAttempt.inner

end World

end InferenceGateway
