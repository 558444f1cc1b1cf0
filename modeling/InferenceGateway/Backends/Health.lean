import InferenceGateway.Backends.State

/-!
# Circuit breaker (`app/backends/health.py`)

The five handlers of the per-backend breaker as functions of the runtime row.
`onFailure` and `maybeTransitionFromOpen` take the reading of `time.monotonic()`
they would make; the source reads the clock only in the branch that uses it.
`passes` is the rest of `is_healthy_for_schedule` (`app/backends/registry.py`),
after the transition that it tries first, check by check in the order of the
source.

The second half says once what each handler can do, and nothing later unfolds
one:

- `onSuccess_of_halfOpen`, `onSuccess_of_not_halfOpen`, `onFailure_cases` and
  `maybeTransitionFromOpen_cases` list the possible results, with the circuit
  that leads to each;
- `passes_iff` gives the checks as a conjunction;
- `SameLoad` is the frame: no handler touches the counters of slots, the limits,
  the drain flag or the error rate.
-/

namespace InferenceGateway

namespace Health

/-- Count probes dispatched while the circuit is half-open. -/
def onRequestStart (s : BackendRuntimeState) : BackendRuntimeState :=
  if s.circuit = .halfOpen then { s with halfOpenProbes := s.halfOpenProbes + 1 } else s

/-- Reset failure streak; half-open success closes the circuit. -/
def onSuccess (s : BackendRuntimeState) : BackendRuntimeState :=
  let s := { s with consecutiveFailures := 0 }
  if s.circuit = .halfOpen then
    { s with circuit := .closed, halfOpenProbes := 0, circuitOpenedAtMonotonic := none }
  else s

/-- Record failure; may open circuit from closed or from failed half-open probe. -/
def onFailure (health : HealthConfig) (now : ℚ) (s : BackendRuntimeState) :
    BackendRuntimeState :=
  let s := { s with consecutiveFailures := s.consecutiveFailures + 1 }
  if s.circuit = .halfOpen then
    { s with circuit := .opened, circuitOpenedAtMonotonic := some now, halfOpenProbes := 0 }
  else if s.circuit = .closed then
    if health.consecutiveFailuresOpen ≤ s.consecutiveFailures then
      { s with circuit := .opened, circuitOpenedAtMonotonic := some now }
    else s
  -- an open circuit keeps the time it was opened at
  else s

/-- `open_cooldown_ms` have passed since `openedAt`, in the arithmetic of the source. -/
def cooledDown (health : HealthConfig) (openedAt now : ℚ) : Prop :=
  (health.openCooldownMs : ℚ) ≤ (now - openedAt) * 1000

instance (health : HealthConfig) (openedAt now : ℚ) : Decidable (cooledDown health openedAt now) :=
  inferInstanceAs (Decidable (_ ≤ _))

/-- After cooldown, move OPEN → HALF_OPEN to allow limited recovery traffic. -/
def maybeTransitionFromOpen (health : HealthConfig) (now : ℚ) (s : BackendRuntimeState) :
    BackendRuntimeState :=
  match s.circuit, s.circuitOpenedAtMonotonic with
  | .opened, some openedAt =>
    if cooledDown health openedAt now then
      -- the time of opening is kept too; nothing reads it while half-open
      { s with circuit := .halfOpen, halfOpenProbes := 0, consecutiveFailures := 0 }
    else s
  | _, _ => s

/-- True if half-open backend may accept another probe. -/
def halfOpenAllowDispatch (health : HealthConfig) (s : BackendRuntimeState) : Bool :=
  if s.circuit ≠ .halfOpen then true
  else decide (s.halfOpenProbes < health.halfOpenMaxInflight)

/-- The checks of `is_healthy_for_schedule` that follow its circuit transition
(drain, circuit, limits, errors, probe allowance). -/
def passes (health : HealthConfig) (s : BackendRuntimeState) : Bool :=
  if s.drained then false
  else if s.circuit = .opened then false
  else if s.hardLimit ≤ s.inflight then false
  else if health.maxErrorRateForEligibility < s.recentErrorRate then false
  else if s.circuit = .halfOpen ∧ halfOpenAllowDispatch health s = false then false
  else true

/-! ## What each handler can do -/

variable {health : HealthConfig} {s : BackendRuntimeState} {now : ℚ}

/-- `on_request_start` counts one probe if the circuit is half-open, and is otherwise
nothing. -/
theorem onRequestStart_eq (s : BackendRuntimeState) :
    onRequestStart s = { s with
      halfOpenProbes := s.halfOpenProbes + if s.circuit = .halfOpen then 1 else 0 } := by
  by_cases h : s.circuit = .halfOpen <;> simp [onRequestStart, h]

/-- A success while half-open closes the circuit, whoever's success it is. -/
theorem onSuccess_of_halfOpen (h : s.circuit = .halfOpen) :
    onSuccess s = { s with
      consecutiveFailures := 0, circuit := .closed, halfOpenProbes := 0,
      circuitOpenedAtMonotonic := none } := by
  simp [onSuccess, h]

/-- A success while closed or open resets the streak and nothing else. -/
theorem onSuccess_of_not_halfOpen (h : s.circuit ≠ .halfOpen) :
    onSuccess s = { s with consecutiveFailures := 0 } := by
  simp [onSuccess, h]

/-- A failure opens the circuit now, or leaves everything but the streak alone; from
half-open it always opens. A circuit that is open already keeps the time it was opened
at. -/
theorem onFailure_cases (health : HealthConfig) (now : ℚ) (s : BackendRuntimeState) :
    (s.circuit ≠ .opened ∧ onFailure health now s = { s with
      consecutiveFailures := s.consecutiveFailures + 1, circuit := .opened,
      circuitOpenedAtMonotonic := some now,
      halfOpenProbes := if s.circuit = .halfOpen then 0 else s.halfOpenProbes }) ∨
    (s.circuit ≠ .halfOpen ∧
      onFailure health now s = { s with consecutiveFailures := s.consecutiveFailures + 1 }) := by
  cases hc : s.circuit with
  | closed =>
    by_cases hle : health.consecutiveFailuresOpen ≤ s.consecutiveFailures + 1
    · exact .inl ⟨by simp, by simp [onFailure, hc, hle]⟩
    · exact .inr ⟨by simp, by simp [onFailure, hc, hle]⟩
  | opened => exact .inr ⟨by simp, by simp [onFailure, hc]⟩
  | halfOpen => exact .inl ⟨by simp, by simp [onFailure, hc]⟩

/-- Every failure lengthens the streak. -/
theorem onFailure_consecutiveFailures :
    (onFailure health now s).consecutiveFailures = s.consecutiveFailures + 1 := by
  rcases onFailure_cases health now s with ⟨-, h⟩ | ⟨-, h⟩ <;> rw [h]

/-- The eligibility check moves a cooled-down open circuit to half-open and
nothing else. -/
theorem maybeTransitionFromOpen_cases (health : HealthConfig) (now : ℚ)
    (s : BackendRuntimeState) :
    (∃ t, s.circuit = .opened ∧ s.circuitOpenedAtMonotonic = some t ∧ cooledDown health t now ∧
      maybeTransitionFromOpen health now s =
        { s with circuit := .halfOpen, halfOpenProbes := 0, consecutiveFailures := 0 }) ∨
    maybeTransitionFromOpen health now s = s := by
  cases hc : s.circuit with
  | closed => exact .inr (by simp [maybeTransitionFromOpen, hc])
  | halfOpen => exact .inr (by simp [maybeTransitionFromOpen, hc])
  | opened =>
    cases ho : s.circuitOpenedAtMonotonic with
    | none => exact .inr (by simp [maybeTransitionFromOpen, hc, ho])
    | some t =>
      by_cases hcool : cooledDown health t now
      · exact .inl ⟨t, rfl, rfl, hcool, by simp [maybeTransitionFromOpen, hc, ho, hcool]⟩
      · exact .inr (by simp [maybeTransitionFromOpen, hc, ho, hcool])

/-- **The checks of `is_healthy_for_schedule`.** Not drained, not open, below the hard
limit, within the cap on the error rate, and, if half-open, with a probe to spare. -/
theorem passes_iff : passes health s = true ↔
    s.drained = false ∧ s.circuit ≠ .opened ∧ s.inflight < s.hardLimit ∧
      s.recentErrorRate ≤ health.maxErrorRateForEligibility ∧
      (s.circuit = .halfOpen → s.halfOpenProbes < health.halfOpenMaxInflight) := by
  unfold passes halfOpenAllowDispatch
  by_cases hd : s.drained
  · simp [hd]
  by_cases hc : s.circuit = .halfOpen
  · simp [hd, hc]
  · simp [hd, hc]

/-- Rows that agree on everything the breaker does not own: the slots, the limit, the
drain flag and the error rate. -/
structure SameLoad (s s' : BackendRuntimeState) : Prop where
  inflight : s'.inflight = s.inflight
  largeInflight : s'.largeInflight = s.largeInflight
  hardLimit : s'.hardLimit = s.hardLimit
  drained : s'.drained = s.drained
  recentErrorRate : s'.recentErrorRate = s.recentErrorRate

theorem SameLoad.refl (s : BackendRuntimeState) : SameLoad s s := ⟨rfl, rfl, rfl, rfl, rfl⟩

/-- A recorded success is nothing to the load of the row. -/
theorem onSuccess_sameLoad (s : BackendRuntimeState) : SameLoad s (onSuccess s) := by
  by_cases h : s.circuit = .halfOpen
  · rw [onSuccess_of_halfOpen h]
    exact ⟨rfl, rfl, rfl, rfl, rfl⟩
  · rw [onSuccess_of_not_halfOpen h]
    exact ⟨rfl, rfl, rfl, rfl, rfl⟩

/-- A recorded failure is nothing to the load of the row. -/
theorem onFailure_sameLoad (health : HealthConfig) (now : ℚ) (s : BackendRuntimeState) :
    SameLoad s (onFailure health now s) := by
  rcases onFailure_cases health now s with ⟨-, h⟩ | ⟨-, h⟩ <;> rw [h] <;>
    exact ⟨rfl, rfl, rfl, rfl, rfl⟩

/-- The cooldown is nothing to the load of the row. -/
theorem maybeTransitionFromOpen_sameLoad (health : HealthConfig) (now : ℚ)
    (s : BackendRuntimeState) : SameLoad s (maybeTransitionFromOpen health now s) := by
  rcases maybeTransitionFromOpen_cases health now s with ⟨t, -, -, -, h⟩ | h <;> rw [h]
  · exact ⟨rfl, rfl, rfl, rfl, rfl⟩
  · exact .refl s

/-- After a success has been recorded the circuit is not half-open. -/
theorem onSuccess_circuit_ne : (onSuccess s).circuit ≠ .halfOpen := by
  by_cases h : s.circuit = .halfOpen
  · simp [onSuccess_of_halfOpen h]
  · simpa [onSuccess_of_not_halfOpen h] using h

/-- After a failure has been recorded the circuit is not half-open. -/
theorem onFailure_circuit_ne : (onFailure health now s).circuit ≠ .halfOpen := by
  rcases onFailure_cases health now s with ⟨-, h⟩ | ⟨hne, h⟩
  · simp [h]
  · simpa [h] using hne

end Health

end InferenceGateway
