import InferenceGateway.Fleet.Refinement

/-!
# What a row represents

Circuit, opening time, probe counter and failure streak are four fields that are
written apart: `on_success` and `on_failure` may write all of them,
`maybe_transition_from_open` leaves the opening time, and `on_request_start`
writes the probe counter alone. `CircuitSound` says which combinations of them
mean something. A closed circuit has no opening time, no probes and a streak
below the threshold; an open one has been opened at a time that has passed; a
half-open one was opened a cooldown ago, has no streak, and has used between
none and all of its probes.

- `RowRule`: what a property of one row has to survive to hold in every run.
  Each of the handlers is asked for by name, and everything else only leaves the
  four fields alone.
- `row_of_reach`: what survives all that holds of every row of the gateway, in
  every run, since every step of the gateway is a chain of deeds.
- `circuitSound_rule`: soundness survives it. The two settings are asked to be
  what validation makes them.
-/

namespace InferenceGateway

open Lib

/-- Rows that agree on the four fields of the circuit. -/
structure SameCircuit (s s' : BackendRuntimeState) : Prop where
  circuit : s'.circuit = s.circuit
  circuitOpenedAtMonotonic : s'.circuitOpenedAtMonotonic = s.circuitOpenedAtMonotonic
  halfOpenProbes : s'.halfOpenProbes = s.halfOpenProbes
  consecutiveFailures : s'.consecutiveFailures = s.consecutiveFailures

namespace Fleet

/-- A sample leaves the four fields alone. -/
theorem Blends.sameCircuit {failed : Bool} {f : BackendRuntimeState → BackendRuntimeState}
    (h : Blends failed f) (s : BackendRuntimeState) : SameCircuit s (f s) := by
  cases h <;> exact ⟨rfl, rfl, rfl, rfl⟩

/-! ## A rule for properties of one row -/

/-- `P now s` survives the passing of time, every handler of the breaker, and every other
write to the row. -/
structure RowRule (health : HealthConfig) (P : ℚ → BackendRuntimeState → Prop) : Prop where
  later : ∀ {now now' s}, now ≤ now' → P now s → P now' s
  cooled : ∀ {now s}, P now s → P now (Health.maybeTransitionFromOpen health now s)
  started : ∀ {now s}, Health.passes health s = true → P now s → P now (Health.onRequestStart s)
  recorded : ∀ {now s} (v : Verdict), P now s → P now (v.handler health now s)
  unrelated : ∀ {now s s'}, SameCircuit s s' → P now s → P now s'

section RowRule

variable {health : HealthConfig} {P : ℚ → BackendRuntimeState → Prop} {w w' : World}
  {b b₀ : String}

/-- The property of the row of `b` in a world. -/
abbrev At (P : ℚ → BackendRuntimeState → Prop) (b : String) (w : World) : Prop :=
  P w.clock.now (w.row b)

namespace RowRule

/-- Time has passed, and the row is the same. -/
theorem same (hP : RowRule health P) (hrow : w'.registry.row b = w.registry.row b)
    (hnow : w.clock.now ≤ w'.clock.now) (h : At P b w) : At P b w' := by
  unfold At World.row
  rw [hrow]
  exact hP.later hnow h

theorem maybeTransitionFromOpen (hP : RowRule health P) (hb : b ∈ w.names) (h : At P b w) :
    At P b (w.maybeTransitionFromOpen health b₀) := by
  have hclock : (w.maybeTransitionFromOpen health b₀).clock = w.clock.read :=
    World.moveCircuit_clock
  by_cases hbb : b = b₀
  · subst hbb
    unfold At World.row
    rw [World.maybeTransitionFromOpen_row_self hb, hclock]
    exact hP.cooled (hP.later w.clock.now_le_read h)
  · refine hP.same (World.maybeTransitionFromOpen_row_of_ne hbb) ?_ h
    rw [hclock]
    exact w.clock.now_le_read

/-- A recorded outcome, of whichever backend. -/
theorem moveCircuit (hP : RowRule health P) {v : Verdict} {cause : Cause} (hb : b ∈ w.names)
    (h : At P b w) : At P b (w.moveCircuit b₀ (v.handler health w.clock.now) cause) := by
  by_cases hbb : b = b₀
  · subst hbb
    unfold At World.row
    rw [World.moveCircuit_row_self hb, World.moveCircuit_clock]
    exact hP.recorded v h
  · refine hP.same (World.moveCircuit_row_of_ne hbb) ?_ h
    rw [World.moveCircuit_clock]

/-- A slot taken on a backend that passes the checks. -/
theorem takeSlot (hP : RowRule health P) {cls : RequestClass}
    (hpass : Health.passes health (w.row b₀) = true) (h : At P b w) :
    At P b (w.takeSlot b₀ cls).1 := by
  have hnow : w.clock.now ≤ (w.takeSlot b₀ cls).1.clock.now := by
    rw [World.takeSlot_clock]
    exact w.clock.now_le_read
  by_cases hbb : b = b₀
  · subst hbb
    refine hP.later hnow (hP.unrelated (s := Health.onRequestStart (w.row b)) ?_
      (hP.started hpass h))
    unfold World.row
    rw [World.takeSlot_row_self, Health.onRequestStart_eq]
    exact ⟨rfl, rfl, rfl, rfl⟩
  · exact hP.same (World.takeSlot_row_of_ne hbb) hnow h

/-- A release changes the load counters, and those are none of the four fields of the
circuit. -/
theorem releaseDispatch (hP : RowRule health P) {cls : RequestClass} (h : At P b w) :
    At P b (w.releaseDispatch b₀ cls) := by
  unfold At
  rw [World.releaseDispatch_clock]
  refine hP.unrelated ?_ h
  by_cases hbb : b = b₀
  · subst hbb
    -- a name that is not registered is ignored, with a warning
    by_cases hb : b ∈ w.names
    · simp only [World.row, World.releaseDispatch_of_mem hb, World.emit_registry,
        World.setRow_row_self]
      exact ⟨rfl, rfl, rfl, rfl⟩
    · rw [World.releaseDispatch_of_notMem hb]
      exact ⟨rfl, rfl, rfl, rfl⟩
  · simp only [World.row, World.releaseDispatch_row_of_ne hbb]
    exact ⟨rfl, rfl, rfl, rfl⟩

/-- A sample, of whichever backend. -/
theorem sampled (hP : RowRule health P) {failed : Bool}
    {f : BackendRuntimeState → BackendRuntimeState} (hf : Blends failed f) (h : At P b w) :
    At P b (Fleet.sampled w b₀ failed f) := by
  unfold Fleet.sampled
  split
  · refine hP.unrelated ?_ h
    by_cases hbb : b = b₀
    · subst hbb
      simp only [World.row, World.emit_registry, World.setRow_row_self]
      exact hf.sameCircuit _
    · simp only [World.row, World.emit_registry, World.setRow_row_of_ne hbb]
      exact ⟨rfl, rfl, rfl, rfl⟩
  · exact h

/-- **Step lemma.** A deed is one of the handlers of the circuit, or leaves the four
fields alone. -/
theorem step (hP : RowRule health P) {F F' : Fleet} {d : Deed} (hb : b ∈ F.names)
    (hstep : Step health F d F') (h : At P b F.world) : At P b F'.world := by
  cases hstep with
  | enrol hvacant => exact h
  | idle hc => exact hP.later hc h
  | note he => exact h
  | cool => exact hP.maybeTransitionFromOpen hb h
  | acquire hr hheld hb₀ hpass => exact hP.takeSlot hpass h
  | judge hr hheld hnew => exact hP.moveCircuit hb h
  | stray => exact hP.moveCircuit hb h
  | sample hf => exact hP.sampled hf h
  | giveUp hr hheld hhow => exact hP.releaseDispatch h
  | overRelease => exact hP.releaseDispatch h
  | abandon hr hheld hhow => exact h

end RowRule

end RowRule

end Fleet

/-! ## The circuit -/

/-- What circuit, opening time, probe counter and failure streak may say together, at
`now`. -/
structure CircuitSound (health : HealthConfig) (now : ℚ) (s : BackendRuntimeState) : Prop where
  closed : s.circuit = .closed → s.circuitOpenedAtMonotonic = none ∧ s.halfOpenProbes = 0 ∧
    s.consecutiveFailures < health.consecutiveFailuresOpen
  opened : s.circuit = .opened →
    (∃ t, s.circuitOpenedAtMonotonic = some t ∧ t ≤ now) ∧ s.halfOpenProbes = 0
  halfOpen : s.circuit = .halfOpen →
    (∃ t, s.circuitOpenedAtMonotonic = some t ∧ Health.cooledDown health t now) ∧
      s.consecutiveFailures = 0 ∧ 0 ≤ s.halfOpenProbes ∧
      s.halfOpenProbes ≤ health.halfOpenMaxInflight

namespace CircuitSound

variable {health : HealthConfig} {now now' : ℚ} {s s' : BackendRuntimeState}

/-- A row fresh from the configuration is sound: closed, with a streak of zero. -/
theorem fromEntry (hopen : 1 ≤ health.consecutiveFailuresOpen) (e : BackendEntry) :
    CircuitSound health now (BackendRegistry.fromEntry e) where
  closed _ := ⟨rfl, rfl, hopen⟩
  opened h := by cases h
  halfOpen h := by cases h

/-- Time passes: an opening that was in the past still is. -/
theorem later (h : CircuitSound health now s) (hle : now ≤ now') :
    CircuitSound health now' s where
  closed := h.closed
  opened hc := by
    obtain ⟨⟨t, hat, ht⟩, hprobes⟩ := h.opened hc
    exact ⟨⟨t, hat, ht.trans hle⟩, hprobes⟩
  halfOpen hc := by
    obtain ⟨⟨t, hat, hcool⟩, hrest⟩ := h.halfOpen hc
    refine ⟨⟨t, hat, hcool.trans ?_⟩, hrest⟩
    linarith

/-- Soundness is about the four fields only. -/
theorem unrelated (h : CircuitSound health now s) (hsame : SameCircuit s s') :
    CircuitSound health now s' := by
  obtain ⟨hcircuit, hat, hprobes, hstreak⟩ := hsame
  constructor
  · rw [hcircuit, hat, hprobes, hstreak]
    exact h.closed
  · rw [hcircuit, hat, hprobes]
    exact h.opened
  · rw [hcircuit, hat, hprobes, hstreak]
    exact h.halfOpen

/-- A circuit that opens now. -/
theorem opens (hc : s.circuit = .opened) (hat : s.circuitOpenedAtMonotonic = some now)
    (hprobes : s.halfOpenProbes = 0) : CircuitSound health now s where
  closed h := by cases hc.symm.trans h
  opened _ := ⟨⟨now, hat, le_refl now⟩, hprobes⟩
  halfOpen h := by cases hc.symm.trans h

theorem maybeTransitionFromOpen (hmax : 0 ≤ health.halfOpenMaxInflight)
    (h : CircuitSound health now s) :
    CircuitSound health now (Health.maybeTransitionFromOpen health now s) := by
  rcases Health.maybeTransitionFromOpen_cases health now s with ⟨t, -, hat, hcool, heq⟩ | heq <;>
    rw [heq]
  · exact ⟨fun hc => (by cases hc), fun hc => (by cases hc),
      fun _ => ⟨⟨t, hat, hcool⟩, rfl, le_refl 0, hmax⟩⟩
  · exact h

/-- The check before a dispatch leaves room for one probe. -/
theorem onRequestStart (hpass : Health.passes health s = true) (h : CircuitSound health now s) :
    CircuitSound health now (Health.onRequestStart s) := by
  obtain ⟨-, hnotopen, -, -, hallow⟩ := Health.passes_iff.mp hpass
  rw [Health.onRequestStart_eq]
  refine ⟨fun hc => ?_, fun hc => absurd hc hnotopen, fun hc => ?_⟩
  · have hne : s.circuit ≠ .halfOpen := fun heq => by cases hc.symm.trans heq
    simpa [hne] using h.closed hc
  · obtain ⟨hat, hstreak, hnonneg, -⟩ := h.halfOpen hc
    have hroom := hallow hc
    refine ⟨hat, hstreak, ?_, ?_⟩ <;> simp only [show s.circuit = .halfOpen from hc, if_true] <;>
      omega

/-- A success ends the streak and closes a half-open circuit. -/
theorem onSuccess (hopen : 1 ≤ health.consecutiveFailuresOpen) (h : CircuitSound health now s) :
    CircuitSound health now (Health.onSuccess s) := by
  by_cases hc : s.circuit = .halfOpen
  · rw [Health.onSuccess_of_halfOpen hc]
    exact ⟨fun _ => ⟨rfl, rfl, hopen⟩, fun h => (by cases h), fun h => (by cases h)⟩
  · rw [Health.onSuccess_of_not_halfOpen hc]
    refine ⟨fun hclosed => ?_, h.opened, fun hhalf => absurd hhalf hc⟩
    obtain ⟨hat, hprobes, -⟩ := h.closed hclosed
    exact ⟨hat, hprobes, hopen⟩

/-- A failure lengthens the streak of a closed circuit or opens it, opens a half-open
one again, and leaves an open one open. -/
theorem onFailure (h : CircuitSound health now s) :
    CircuitSound health now (Health.onFailure health now s) := by
  cases hc : s.circuit with
  | closed =>
    obtain ⟨hat, hprobes, -⟩ := h.closed hc
    by_cases hle : health.consecutiveFailuresOpen ≤ s.consecutiveFailures + 1
    · -- the counter is not reset on this way into open, and need not be
      exact opens (by simp [Health.onFailure, hc, hle]) (by simp [Health.onFailure, hc, hle])
        (by simpa [Health.onFailure, hc, hle] using hprobes)
    · have hstreak := not_le.mp hle
      refine ⟨fun _ => ?_, ?_, ?_⟩ <;>
        simp [Health.onFailure, hc, hle, hat, hprobes, hstreak]
  | opened =>
    -- an open circuit keeps its opening time: the cooldown is not prolonged
    have heq : Health.onFailure health now s =
        { s with consecutiveFailures := s.consecutiveFailures + 1 } := by
      simp [Health.onFailure, hc]
    rw [heq]
    exact ⟨fun h => (by cases hc.symm.trans h), h.opened, fun h => (by cases hc.symm.trans h)⟩
  | halfOpen =>
    exact opens (by simp [Health.onFailure, hc]) (by simp [Health.onFailure, hc])
      (by simp [Health.onFailure, hc])

end CircuitSound

/-- Every handler keeps a row sound, if at least one failure is needed to open a circuit
and the probe allowance is not negative. -/
theorem Fleet.circuitSound_rule {health : HealthConfig}
    (hopen : 1 ≤ health.consecutiveFailuresOpen) (hmax : 0 ≤ health.halfOpenMaxInflight) :
    RowRule health (CircuitSound health) where
  later hle h := h.later hle
  cooled h := h.maybeTransitionFromOpen hmax
  started hpass h := h.onRequestStart hpass
  recorded v h := by
    cases v with
    | success => exact h.onSuccess hopen
    | failure => exact h.onFailure
  unrelated hsame h := h.unrelated hsame

namespace Gateway

variable {D : Deployment} {g : Gateway} {b : String} {P : ℚ → BackendRuntimeState → Prop}

/-- **Run lemma.** In every run a property that the rule is for holds of every row of
the registry, if it holds of the rows the configuration gives. -/
theorem row_of_reach {ok : Gateway → Action → Prop} (hP : Fleet.RowRule D.cfg.health P)
    (hentry : ∀ now e, P now (BackendRegistry.fromEntry e)) (h : ReachableWith D ok g)
    (hb : b ∈ g.names) : P g.world.clock.now (g.row b) := by
  refine invariantOf (I := fun g => b ∈ g.names → Fleet.At P b g.world) ?_ ?_ h hb
  · intro clock hb
    exact BackendRegistry.ofConfig_rule (hentry clock.now) b hb
  · intro g a g' hinv hg _ hs hb
    have hdeeds := step_deeds hinv hs
    -- the backend has been there all along, since no deed adds one
    have hfleet : g'.fleet.names = g.fleet.names :=
      hdeeds.preserves (I := fun F => F.names = g.fleet.names)
        (fun F d F' hF _ hd => (Fleet.names_step hd).trans hF) rfl
    have hb₀ : b ∈ g.fleet.names := hfleet ▸ hb
    refine (hdeeds.preserves (I := fun F => b ∈ F.names ∧ Fleet.At P b F.world) ?_
      ⟨hb₀, hg hb₀⟩).2
    intro F d F' ⟨hbF, hF⟩ _ hd
    exact ⟨(Fleet.names_step hd).symm ▸ hbF, hP.step hbF hd hF⟩

end Gateway

end InferenceGateway
