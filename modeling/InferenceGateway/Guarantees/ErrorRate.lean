import InferenceGateway.Fleet.Breaker
import InferenceGateway.Fleet.Refinement

/-!
# The error rate against the breaker

A backend is kept out by its circuit or by its error rate, and only the circuit
recovers with time: the rate of a registered backend is a function of the
samples of its history, and moves with the next sample or not at all. A backend
that gets no requests gets no samples, so a rate above the cap is one that
stays.

- `recentErrorRate_eq`: that function, in every run.
- `eligible_iff`: a backend whose circuit is closed, or open and cooled down, is
  eligible exactly when its samples and the slots left behind on it allow it.
- `locked_out`: enough failures in a row keep it out for good under a low cap.
- `stays_out`: with default settings, as many as open the circuit are enough.

The default cap is one half and five failures open the circuit, after which the
rate is above it. The half-open state is then never entered.
-/

namespace InferenceGateway

open Lib BackendRuntimeState

namespace Gateway

variable {D : Deployment} {g g' : Gateway} {b : String} {a : Action} {c : ProxyCall}

/-! ## Recovery -/

theorem recentErrorRate_eq (h : Reachable D g) (hb : b ∈ g.names) :
    (g.row b).recentErrorRate = errorRate (samples (g.world.history b)) :=
  Fleet.rated_of_reach (reaches_fleet_any h) hb

/-- On a row whose circuit is closed, or open and cooled down, the checks come
down to limit and error rate. -/
theorem passes_recovered {health : HealthConfig} {s : BackendRuntimeState} {now : ℚ}
    (hdrained : s.drained = false) (hprobe : 1 ≤ health.halfOpenMaxInflight)
    (hcircuit : s.circuit = .closed ∨ (s.circuit = .opened ∧
      ∃ t, s.circuitOpenedAtMonotonic = some t ∧ Health.cooledDown health t now)) :
    Health.passes health (Health.maybeTransitionFromOpen health now s) = true ↔
      s.recentErrorRate ≤ health.maxErrorRateForEligibility ∧ s.inflight < s.hardLimit := by
  rw [Health.passes_iff]
  rcases hcircuit with hclosed | ⟨hopen, t, hat, hcool⟩
  · have hsame : Health.maybeTransitionFromOpen health now s = s := by
      simp [Health.maybeTransitionFromOpen, hclosed]
    rw [hsame]
    simp [hdrained, hclosed, and_comm]
  · -- the check itself moves the circuit to half-open, with a fresh counter
    have hhalf : Health.maybeTransitionFromOpen health now s =
        { s with circuit := .halfOpen, halfOpenProbes := 0, consecutiveFailures := 0 } := by
      simp [Health.maybeTransitionFromOpen, hopen, hat, hcool]
    rw [hhalf]
    have hroom : (0 : ℤ) < health.halfOpenMaxInflight := by omega
    simp [hdrained, hroom, and_comm]

/-- **Recovery.** A backend that is not drained, and whose circuit is closed or has
cooled down, is eligible if and only if the error rate of all its samples is within
the cap and fewer slots than its hard limit count as taken. -/
theorem eligible_iff (h : Reachable D g) (hb : b ∈ g.names)
    (hdrained : (g.row b).drained = false) (hprobe : 1 ≤ D.cfg.health.halfOpenMaxInflight)
    (hcircuit : (g.row b).circuit = .closed ∨ ((g.row b).circuit = .opened ∧
      ∃ t, (g.row b).circuitOpenedAtMonotonic = some t ∧
        Health.cooledDown D.cfg.health t g.world.clock.read.now)) :
    (g.world.isHealthyForSchedule D.cfg.health b).2 = true ↔
      errorRate (samples (g.world.history b)) ≤ D.cfg.health.maxErrorRateForEligibility ∧
        (g.row b).inflight < (g.row b).hardLimit := by
  have hrow : ((g.world.maybeTransitionFromOpen D.cfg.health b).row b) =
      Health.maybeTransitionFromOpen D.cfg.health g.world.clock.read.now (g.row b) :=
    World.moveCircuit_row_self (w := g.world.readClock) hb
  rw [← recentErrorRate_eq h hb, World.isHealthyForSchedule, hrow]
  exact passes_recovered hdrained hprobe hcircuit

/-- One backend whose circuit opens on the first failure, under the default cap. -/
def hasty : Deployment where
  cfg := { lone.cfg with health := { consecutiveFailuresOpen := 1 } }
  environ := fun _ => none

/-- The one request so far has timed out, and the circuit this opened has cooled down. The rate
is a quarter and within the cap, so that the backend is to have its probe. -/
theorem eligible_iff_cooled : ∃ g, Reachable hasty g ∧
    (g.row "gpu-node-1").circuit = .opened ∧ samples (g.world.history "gpu-node-1") = [true] ∧
    (g.world.isHealthyForSchedule hasty.cfg.health "gpu-node-1").2 = true ∧
    ((g.world.isHealthyForSchedule hasty.cfg.health "gpu-node-1").2 = true ↔
      errorRate (samples (g.world.history "gpu-node-1")) ≤
          hasty.cfg.health.maxErrorRateForEligibility ∧
        (g.row "gpu-node-1").inflight < (g.row "gpu-node-1").hardLimit) := by
  have hrun : ∃ g, Reachable hasty g ∧ "gpu-node-1" ∈ g.names ∧
      (g.row "gpu-node-1").drained = false ∧ (g.row "gpu-node-1").circuit = .opened ∧
      (g.row "gpu-node-1").circuitOpenedAtMonotonic = some 0 ∧
      Health.cooledDown hasty.cfg.health 0 g.world.clock.read.now ∧
      samples (g.world.history "gpu-node-1") = [true] ∧
      (g.world.isHealthyForSchedule hasty.cfg.health "gpu-node-1").2 = true := by
    refine exists_reachable (.ofGaps 0 (List.replicate 9 0 ++ [15])) [.arrive (chat false), .tick,
      .resume 0, .upstream 0 (.failed (.timeout "read timed out"))] ?_
    decide +kernel
  obtain ⟨g, hreach, hb, hdrained, hopen, hat, hcool, hsamples, hpass⟩ := hrun
  exact ⟨g, hreach, hopen, hsamples, hpass,
    eligible_iff hreach hb hdrained (by decide) (.inr ⟨hopen, 0, hat, hcool⟩)⟩

/-- After `n` failures in a row the rate is at least `1 - (3/4)^n`: under a lower cap
the backend stays out, whatever happened before and however long ago. -/
theorem locked_out (h : Reachable D g) (hb : b ∈ g.names) {n : ℕ} {past : List Bool}
    (hsamples : samples (g.world.history b) = List.replicate n true ++ past)
    (hcap : D.cfg.health.maxErrorRateForEligibility < 1 - (3 / 4) ^ n) :
    (g.world.isHealthyForSchedule D.cfg.health b).2 = false := by
  have hrate := recentErrorRate_eq h hb
  have hgap := one_sub_errorRate_failures past n
  obtain ⟨hnonneg, -⟩ := errorRate_bounds past
  have hpow : (3 / 4 : ℚ) ^ n * (1 - errorRate past) ≤ (3 / 4) ^ n := by
    refine mul_le_of_le_one_right (by positivity) ?_
    linarith
  have hrow : ((g.world.maybeTransitionFromOpen D.cfg.health b).row b) =
      Health.maybeTransitionFromOpen D.cfg.health g.world.clock.read.now (g.row b) :=
    World.moveCircuit_row_self (w := g.world.readClock) hb
  refine Bool.eq_false_iff.mpr fun hpass => ?_
  rw [World.isHealthyForSchedule, hrow] at hpass
  obtain ⟨-, -, -, hle, -⟩ := Health.passes_iff.mp hpass
  rw [(Health.maybeTransitionFromOpen_sameLoad _ _ _).recentErrorRate, hrate, hsamples] at hle
  linarith

/-- Five requests are dispatched and all time out, which opens the circuit at `0`;
after the cooldown nothing is outstanding and the backend is still not eligible. -/
theorem stays_out : ∃ g, Reachable lone g ∧ "gpu-node-1" ∈ g.names ∧
    (g.row "gpu-node-1").drained = false ∧ 1 ≤ (g.row "gpu-node-1").hardLimit ∧
    1 ≤ lone.cfg.health.halfOpenMaxInflight ∧ 0 < lone.cfg.health.maxErrorRateForEligibility ∧
    g.fleet.heldOn "gpu-node-1" = 0 ∧ (g.row "gpu-node-1").circuit = .opened ∧
    (g.row "gpu-node-1").circuitOpenedAtMonotonic = some 0 ∧
    Health.cooledDown lone.cfg.health 0 g.world.clock.read.now ∧
    (g.world.isHealthyForSchedule lone.cfg.health "gpu-node-1").2 = false := by
  refine exists_reachable (.ofGaps 0 (List.replicate 37 0 ++ [15]))
    (List.replicate 5 (.arrive (chat false)) ++ [.tick] ++
      (List.range 5).flatMap fun r => [.resume r, .upstream r (.failed (.timeout "timed out"))]) ?_
  decide +kernel

end Gateway

end InferenceGateway
