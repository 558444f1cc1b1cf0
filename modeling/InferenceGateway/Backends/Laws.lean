import InferenceGateway.Backends.Registry

/-!
# Laws of a row

Many facts about the registry speak of one row at a time: a counter is never
negative, an average lies between bounds, the dispatches that are kept are in
order. `RowLaw` is what such a property `P` has to survive, once and for all, to
hold of every row whatever happens to it. It has one field for each kind of
write: time passes, the circuit moves, a slot is taken on a row that passes the
checks, a slot is given back, a failure or a success is blended in. The property
may speak of the time of the last reading, so that it can bound the dispatches
that are noted in a row.

- `World.Upholds P w w'`: the way from `w` to `w'` keeps the property on every
  row, loses no backend and does not turn back time. The relation composes.
- `upholds_…`: every operation of the registry does so, under the two
  assumptions that its callers meet: slots are taken on backends that pass the
  checks, and the latencies that are blended in are not negative.

A property that is a `RowLaw` is an invariant of all runs by the rules of
`Guarantees.Rows`, without another look at the scheduler or the proxy.
-/

namespace InferenceGateway

/-- Rows that differ in the four fields of the circuit only: its state, the streak of
failures, the time of opening and the probes of the period. -/
def CircuitOnly (s s' : BackendRuntimeState) : Prop :=
  ∃ c n t k, s' = { s with
    circuit := c, consecutiveFailures := n, circuitOpenedAtMonotonic := t, halfOpenProbes := k }

/-- A dispatch may be noted in both rows. -/
theorem CircuitOnly.recordDispatch {s s' : BackendRuntimeState} {now : ℚ} (h : CircuitOnly s s') :
    CircuitOnly (s.recordDispatch now) (s'.recordDispatch now) := by
  obtain ⟨c, n, t, k, rfl⟩ := h
  refine ⟨c, n, t, k, ?_⟩
  simp only [BackendRuntimeState.recordDispatch]

namespace BackendRuntimeState

/-- The counters of a row once a slot has been taken on it. -/
def taken (s : BackendRuntimeState) (cls : RequestClass) : BackendRuntimeState :=
  { s with
    inflight := s.inflight + 1
    largeInflight := s.largeInflight + if cls.isLarge then 1 else 0 }

/-- The counters of a row once a slot has been given back. -/
def givenBack (s : BackendRuntimeState) (cls : RequestClass) : BackendRuntimeState :=
  { s with
    inflight := max 0 (s.inflight - 1)
    largeInflight := if cls.isLarge then max 0 (s.largeInflight - 1) else s.largeInflight }

end BackendRuntimeState

/-- What a property of a row has to survive; `now` is the last reading of the clock. One
field for each kind of write. -/
structure RowLaw (health : HealthConfig) (P : ℚ → BackendRuntimeState → Prop) : Prop where
  later : ∀ {now now' s}, now ≤ now' → P now s → P now' s
  circuit : ∀ {now s s'}, CircuitOnly s s' → P now s → P now s'
  taken : ∀ {now s} (cls : RequestClass), Health.passes health s = true → P now s →
    P now ((s.taken cls).recordDispatch now)
  givenBack : ∀ {now s} (cls : RequestClass), P now s → P now (s.givenBack cls)
  failed : ∀ {now s}, P now s → P now s.updateFailure
  succeeded : ∀ {now s ttftMs e2eMs}, (∀ t ∈ ttftMs, 0 ≤ t) → 0 ≤ e2eMs → P now s →
    P now (s.updateSuccess ttftMs e2eMs)

namespace Health

variable {health : HealthConfig} {now : ℚ} {s : BackendRuntimeState}

/-- The cooldown writes fields of the circuit only. -/
theorem circuitOnly_maybeTransitionFromOpen :
    CircuitOnly s (maybeTransitionFromOpen health now s) := by
  rcases maybeTransitionFromOpen_cases health now s with ⟨t, -, -, -, h⟩ | h <;> rw [h]
  · exact ⟨_, _, _, _, rfl⟩
  · exact ⟨_, _, _, _, rfl⟩

/-- A recorded success writes fields of the circuit only: it resets the streak and may
close the circuit. -/
theorem circuitOnly_onSuccess : CircuitOnly s (onSuccess s) := by
  by_cases h : s.circuit = .halfOpen
  · rw [onSuccess_of_halfOpen h]
    exact ⟨_, _, _, _, rfl⟩
  · rw [onSuccess_of_not_halfOpen h]
    exact ⟨_, _, _, _, rfl⟩

/-- A recorded failure lengthens the streak and may open the circuit, and writes nothing
else. -/
theorem circuitOnly_onFailure : CircuitOnly s (onFailure health now s) := by
  rcases onFailure_cases health now s with ⟨-, h⟩ | ⟨-, h⟩ <;> rw [h]
  · exact ⟨_, _, _, _, rfl⟩
  · exact ⟨_, _, _, _, rfl⟩

end Health

namespace World

variable {health : HealthConfig} {P : ℚ → BackendRuntimeState → Prop} {w w' w'' : World}
  {b : String} {cls : RequestClass} {f : BackendRuntimeState → BackendRuntimeState} {cause : Cause}

/-- The property holds of every row, at the present reading of the clock. -/
def Rows (P : ℚ → BackendRuntimeState → Prop) (w : World) : Prop :=
  ∀ b ∈ w.names, P w.clock.now (w.row b)

/-- From `w` to `w'` the property is kept, and time does not turn back. -/
structure Upholds (P : ℚ → BackendRuntimeState → Prop) (w w' : World) : Prop where
  names : w'.names = w.names
  now : w.clock.now ≤ w'.clock.now
  rows : w.Rows P → w'.Rows P

namespace Upholds

theorem refl (w : World) : Upholds P w w := ⟨rfl, le_refl _, id⟩

/-- Two ways that keep the property, one after the other, keep it. -/
theorem trans (h : Upholds P w w') (h' : Upholds P w' w'') : Upholds P w w'' :=
  ⟨h'.names.trans h.names, h.now.trans h'.now, fun hw => h'.rows (h.rows hw)⟩

/-- Only the clock or the history moves, so that the property holds by
`RowLaw.later`. -/
theorem ofRegistry (hP : RowLaw health P) (hreg : w'.registry = w.registry)
    (hnow : w.clock.now ≤ w'.clock.now) : Upholds P w w' where
  names := congrArg BackendRegistry.names hreg
  now := hnow
  rows hw b hb := by
    simp only [World.row, World.names, hreg] at hb ⊢
    exact hP.later hnow (hw b hb)

/-- Writing to the history keeps the property. -/
theorem emit (hP : RowLaw health P) (e : Event) : Upholds P w (w.emit e) :=
  .ofRegistry hP rfl (le_refl _)

/-- Reading the clock keeps the property. -/
theorem readClock (hP : RowLaw health P) : Upholds P w w.readClock :=
  .ofRegistry hP rfl w.clock.now_le_read

/-- One row is written, with one that has the property if the old row had it. -/
theorem setRow {s : BackendRuntimeState} (hs : w.Rows P → b ∈ w.names → P w.clock.now s) :
    Upholds P w (w.setRow b s) where
  names := rfl
  now := le_refl _
  rows hw x hx := by
    by_cases hxb : x = b
    · subst hxb
      simp only [World.row, setRow_row_self]
      exact hs hw hx
    · simp only [World.row, setRow_row_of_ne hxb]
      exact hw x hx

/-- The row of a registered backend is changed by a function that keeps the property. -/
theorem modify (hf : ∀ s, P w.clock.now s → P w.clock.now (f s)) : Upholds P w (w.modify b f) := by
  unfold World.modify
  split
  · rename_i hb
    exact setRow fun hw _ => hf _ (hw b hb)
  · exact .refl w

end Upholds

/-- A circuit is moved by a function that writes nothing else. -/
theorem upholds_moveCircuit (hP : RowLaw health P) (hf : ∀ s, CircuitOnly s (f s)) :
    Upholds P w (w.moveCircuit b f cause) := by
  by_cases hb : b ∈ w.names
  · have hrow : Upholds P w (w.setRow b (f (w.row b))) :=
      .setRow fun hw _ => hP.circuit (hf _) (hw b hb)
    rw [moveCircuit_of_mem hb]
    split
    · exact hrow
    · exact hrow.trans (.emit hP _)
  · rw [moveCircuit_of_notMem hb]
    exact .refl w

/-- An open circuit cools down, or not. -/
theorem upholds_maybeTransitionFromOpen (hP : RowLaw health P) :
    Upholds P w (w.maybeTransitionFromOpen health b) :=
  (Upholds.readClock hP).trans
    (upholds_moveCircuit hP fun _ => Health.circuitOnly_maybeTransitionFromOpen)

/-- `tick_circuits` keeps the property, by the rule for its loop. -/
theorem upholds_tickCircuits (hP : RowLaw health P) : Upholds P w (w.tickCircuits health) :=
  tickCircuits_rule (fun _ _ hv => hv.trans (upholds_maybeTransitionFromOpen hP)) (.refl w)

/-- A search for candidates keeps the property, by the rule for the comprehension. -/
theorem upholds_eligible (hP : RowLaw health P) {avoid : Option String} {bs : List String} :
    Upholds P w (eligible health avoid bs w).1 :=
  eligible_rule (fun _ _ _ _ hv => hv.trans (upholds_maybeTransitionFromOpen hP)) (.refl w)

/-- A slot is taken on a backend that passes the checks. The reading of the clock comes
between the counters and the note of the dispatch, so the property is first carried to
that reading. -/
theorem upholds_takeSlot (hP : RowLaw health P) (hpass : Health.passes health (w.row b) = true) :
    Upholds P w (w.takeSlot b cls).1 where
  names := takeSlot_names
  now := by
    rw [takeSlot_clock]
    exact w.clock.now_le_read
  rows hw x hx := by
    have hx' : x ∈ w.names := by simpa using hx
    rw [takeSlot_clock]
    by_cases hxb : x = b
    · subst hxb
      have htaken := hP.taken cls hpass (hP.later w.clock.now_le_read (hw x hx'))
      simp only [World.row, takeSlot_row_self]
      -- the probe is counted in a field of the circuit
      have hcircuit : CircuitOnly ((w.row x).taken cls) { w.row x with
          halfOpenProbes :=
            (w.row x).halfOpenProbes + if (w.row x).circuit = .halfOpen then 1 else 0
          inflight := (w.row x).inflight + 1
          largeInflight := (w.row x).largeInflight + if cls.isLarge then 1 else 0 } :=
        ⟨_, _, _, _, rfl⟩
      exact hP.circuit hcircuit.recordDispatch htaken
    · simp only [World.row, takeSlot_row_of_ne hxb]
      exact hP.later w.clock.now_le_read (hw x hx')

/-- A slot is given back, or the name has no row. -/
theorem upholds_releaseDispatch (hP : RowLaw health P) : Upholds P w (w.releaseDispatch b cls) := by
  by_cases hb : b ∈ w.names
  · rw [releaseDispatch_of_mem hb]
    exact (Upholds.setRow fun hw _ => hP.givenBack cls (hw b hb)).trans (.emit hP _)
  · rw [releaseDispatch_of_notMem hb]
    exact .refl w

/-- A failure is blended in. -/
theorem upholds_sampleFailure (hP : RowLaw health P) : Upholds P w (w.sampleFailure b) := by
  unfold sampleFailure
  split
  · exact (Upholds.modify fun _ => hP.failed).trans (.emit hP _)
  · exact .refl w

/-- A success is blended in that has no time to its first byte. -/
theorem upholds_sampleStream (hP : RowLaw health P) {e2eMs : ℚ} (h : 0 ≤ e2eMs) :
    Upholds P w (w.sampleStream b e2eMs) := by
  unfold sampleStream
  split
  · exact (Upholds.modify fun _ => hP.succeeded (by simp) h).trans (.emit hP _)
  · exact .refl w

/-- A success is recorded: the circuit may close, then its latencies are blended in. -/
theorem upholds_recordSuccess (hP : RowLaw health P) {probe : Option ℕ} {ttftMs : Option ℚ}
    {e2eMs : ℚ} (httft : ∀ t ∈ ttftMs, 0 ≤ t) (he2e : 0 ≤ e2eMs) :
    Upholds P w (w.recordSuccess b probe ttftMs e2eMs) := by
  unfold recordSuccess
  split
  · exact ((upholds_moveCircuit hP fun _ => Health.circuitOnly_onSuccess).trans
      (.modify fun _ => hP.succeeded httft he2e)).trans (.emit hP _)
  · exact .refl w

/-- A failure is recorded: the clock is read, the circuit may open, then the failure is
blended in. -/
theorem upholds_recordFailure (hP : RowLaw health P) {probe : Option ℕ} {health' : HealthConfig} :
    Upholds P w (w.recordFailure health' b probe) :=
  ((Upholds.readClock hP).trans (upholds_moveCircuit hP fun _ =>
      Health.circuitOnly_onFailure)).trans
    (upholds_sampleFailure hP)

/-- An error status is recorded as a failure, or below 500 only blended in as one. -/
theorem upholds_recordErrorStatus (hP : RowLaw health P) {probe : Option ℕ} {status : ℤ}
    {health' : HealthConfig} : Upholds P w (w.recordErrorStatus health' b probe status) := by
  unfold recordErrorStatus
  split
  · exact upholds_recordFailure hP
  · exact upholds_sampleFailure hP

/-- The end of an attempt is a note in the history. -/
theorem upholds_endAttempt (hP : RowLaw health P) {lease : Lease} {how : Ending} :
    Upholds P w (w.endAttempt lease how) := by
  cases lease with
  | granted g => exact .emit hP _
  | fallback t => exact .refl w

end World

end InferenceGateway
