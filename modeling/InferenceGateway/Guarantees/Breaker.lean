import InferenceGateway.Fleet.Circuit
import InferenceGateway.Fleet.Probes

/-!
# The circuit breaker

What the breaker of a registered backend guarantees in every interleaving of the
gateway, and the condition under which it guarantees the rest. All of it is read
off the history of the backend: every dispatch, sample and move of its circuit
with its time. A period is what lies between entering half-open and leaving it,
and is counted by the moves.

- `breaker_safety`: nothing is dispatched in a cooldown, and no more than the
  allowance between entering half-open and leaving it.
- `circuit_sound`: circuit, opening time, probe counter and failure streak of a
  row always fit together.
- `halfOpen_reopens`: an idle half-open backend lets a probe through exactly
  when fewer probes of the period than the allowance ended without an outcome.
- `probes_bounded`: probes of any period outstanding in half-open are within the
  allowance, as long as half-open is entered with none outstanding.

The laws are invariants of `Fleet`, proved there by what one deed can do to a
row.
-/

namespace InferenceGateway

open Lib

namespace Gateway

variable {D : Deployment} {g : Gateway} {b : String}

/-! ## Dispatch safety -/

/-- The history of a backend ends in the circuit its row has. -/
theorem circuitOf_history (h : Reachable D g) (hb : b ∈ g.names) :
    circuitOf (g.world.history b) = (g.row b).circuit :=
  (Fleet.breaker_of_reach (reaches_fleet_any h) hb).circuit

/-- **Dispatch safety.** (1) After an opening at `t` nothing is dispatched before
the cooldown is over. (2) From an entry into half-open on, and while it has not
been left, no more than the allowance is dispatched. -/
theorem breaker_safety (h : Reachable D g) (hb : b ∈ g.names) :
    (∀ recent past src cause t,
      g.world.history b = recent ++ .moved src .opened cause t :: past →
      ∀ probe t', .dispatched probe t' ∈ recent → cooldownEnd D.cfg.health t ≤ t') ∧
    (∀ recent during past src cause t,
      g.world.history b = recent ++ (during ++ .moved src .halfOpen cause t :: past) →
      (∀ e ∈ during, e.leavesHalfOpen = false) →
      (during.countP Incident.isDispatch : ℤ) ≤ max 0 D.cfg.health.halfOpenMaxInflight) := by
  have hbr := Fleet.breaker_of_reach (reaches_fleet_any h) hb
  constructor
  · intro recent past src cause t hsplit probe t' hmem
    exact hbr.cooldown_respected hsplit hmem
  · intro recent during past src cause t hsplit hstay
    exact hbr.allowance_respected hsplit hstay

/-- One backend whose circuit opens on the first failure, whatever its error rate. -/
def brittle : Deployment where
  cfg := { lone.cfg with
    health := { consecutiveFailuresOpen := 1, maxErrorRateForEligibility := 1 } }
  environ := fun _ => none

/-- A clock that stands still but for a cooldown after each of these many readings. -/
def cooling (readings : List ℕ) : Clock :=
  .ofGaps 0 (readings.flatMap fun n => List.replicate n 0 ++ [15])

/-- The first request times out and opens the circuit. -/
def tripped : List Action :=
  [.arrive (chat false), .tick, .resume 0, .upstream 0 (.failed (.timeout "read timed out"))]

/-- The circuit has cooled down, and a probe has been let out. -/
theorem exists_probing : ∃ g, Reachable brittle g ∧ "gpu-node-1" ∈ g.names ∧
    (g.row "gpu-node-1").circuit = .halfOpen ∧
    Lawful EntersClean (g.world.history "gpu-node-1") ∧
    g.fleet.probesHeldOn "gpu-node-1" = 1 := by
  refine exists_reachable (cooling [9]) (tripped ++ [.arrive (chat false), .tick]) ?_
  decide +kernel

theorem breaker_safety_probing : ∃ g : Gateway, (g.row "gpu-node-1").circuit = .halfOpen ∧
    (∀ recent past src cause t,
      g.world.history "gpu-node-1" = recent ++ .moved src .opened cause t :: past →
      ∀ probe t', .dispatched probe t' ∈ recent → cooldownEnd brittle.cfg.health t ≤ t') ∧
    (∀ recent during past src cause t,
      g.world.history "gpu-node-1" = recent ++ (during ++ .moved src .halfOpen cause t :: past) →
      (∀ e ∈ during, e.leavesHalfOpen = false) →
      (during.countP Incident.isDispatch : ℤ) ≤ max 0 brittle.cfg.health.halfOpenMaxInflight) := by
  obtain ⟨g, hreach, hb, hho, -⟩ := exists_probing
  exact ⟨g, hho, breaker_safety hreach hb⟩

/-! ## The fields of the circuit -/

/-- **Representation.** With a threshold of at least one failure and no negative allowance,
in every reachable state: a closed circuit has no opening time, no probes and a streak below
the threshold; an open one has an opening time in the past and no probes; a half-open one has
an opening time that has cooled down, no streak, and probes within the allowance. -/
theorem circuit_sound (h : Reachable D g) (hb : b ∈ g.names)
    (hopen : 1 ≤ D.cfg.health.consecutiveFailuresOpen)
    (hmax : 0 ≤ D.cfg.health.halfOpenMaxInflight) :
    CircuitSound D.cfg.health g.world.clock.now (g.row b) :=
  row_of_reach (Fleet.circuitSound_rule hopen hmax) (fun _ => CircuitSound.fromEntry hopen) h hb

theorem circuit_sound_probing : ∃ g : Gateway, (g.row "gpu-node-1").circuit = .halfOpen ∧
    CircuitSound brittle.cfg.health g.world.clock.now (g.row "gpu-node-1") := by
  obtain ⟨g, hreach, hb, hho, -⟩ := exists_probing
  exact ⟨g, hho, circuit_sound hreach hb (by decide) (by decide)⟩

/-! ## The half-open counter -/

/-- **Half-open is wedged exactly by silent ends.** When no request dispatched to a
half-open backend is outstanding, another probe is let through if and only if
fewer than the allowance of the probes of this period ended with neither a success
nor a failure recorded. -/
theorem halfOpen_reopens (h : Reachable D g) (hb : b ∈ g.names)
    (hho : (g.row b).circuit = .halfOpen) (hidle : g.fleet.heldOn b = 0) :
    ((g.row b).halfOpenProbes < D.cfg.health.halfOpenMaxInflight ∧
        Health.halfOpenAllowDispatch D.cfg.health (g.row b) = true) ↔
      (silentEnds (g.world.history b) : ℤ) < D.cfg.health.halfOpenMaxInflight := by
  have hprobes := (Fleet.probes_of_reach (reaches_fleet_any h) hb).idle hidle hho
  have hcount : (g.row b).halfOpenProbes = silentEnds (g.world.history b) := hprobes
  rw [Health.halfOpenAllowDispatch, if_neg (not_not.mpr hho), decide_eq_true_iff, and_self, hcount]

/-- `brittle` with an allowance of two probes. -/
def generous : Deployment where
  cfg := { brittle.cfg with health := { brittle.cfg.health with halfOpenMaxInflight := 2 } }
  environ := fun _ => none

/-- The first probe of the period was answered 404, and nothing is outstanding: of the two that
are allowed one is left. -/
theorem halfOpen_reopens_silent : ∃ g : Gateway,
    silentEnds (g.world.history "gpu-node-1") = 1 ∧
    (((g.row "gpu-node-1").halfOpenProbes < generous.cfg.health.halfOpenMaxInflight ∧
        Health.halfOpenAllowDispatch generous.cfg.health (g.row "gpu-node-1") = true) ↔
      (silentEnds (g.world.history "gpu-node-1") : ℤ) <
        generous.cfg.health.halfOpenMaxInflight) := by
  have hrun : ∃ g, Reachable generous g ∧ "gpu-node-1" ∈ g.names ∧
      (g.row "gpu-node-1").circuit = .halfOpen ∧ g.fleet.heldOn "gpu-node-1" = 0 ∧
      silentEnds (g.world.history "gpu-node-1") = 1 := by
    refine exists_reachable (cooling [9])
      (tripped ++ [.arrive (chat false), .tick, .resume 1, .upstream 1 (.response 404 true)]) ?_
    decide +kernel
  obtain ⟨g, hreach, hb, hho, hidle, hsilent⟩ := hrun
  exact ⟨g, hsilent, halfOpen_reopens hreach hb hho hidle⟩

/-- The only probe of the allowance is answered 404: nothing is outstanding and no
probe is let through again. -/
theorem halfOpen_wedged : ∃ g, Reachable brittle g ∧ "gpu-node-1" ∈ g.names ∧
    (g.row "gpu-node-1").circuit = .halfOpen ∧ g.fleet.heldOn "gpu-node-1" = 0 ∧
    1 ≤ brittle.cfg.health.halfOpenMaxInflight ∧
    ¬ (g.row "gpu-node-1").halfOpenProbes < brittle.cfg.health.halfOpenMaxInflight ∧
    Health.halfOpenAllowDispatch brittle.cfg.health (g.row "gpu-node-1") = false := by
  refine exists_reachable (cooling [9])
    (tripped ++ [.arrive (chat false), .tick, .resume 1, .upstream 1 (.response 404 true)]) ?_
  decide +kernel

/-! ## How many probes run at once -/

/-- Two requests go out while the circuit is closed, and the first one trips it.
After the cooldown a third is the probe. -/
def straggling : List Action :=
  [.arrive (chat false), .arrive (chat false), .tick, .resume 0, .resume 1,
    .upstream 0 (.failed (.timeout "read timed out")), .arrive (chat false), .tick, .resume 2]

/-- **Concurrent probes.** In every run in which `b` enters half-open only when no
probe of an earlier period is outstanding, the probes outstanding in half-open, of
whatever period, are within the allowance. -/
theorem probes_bounded (h : Reachable D g) (hb : b ∈ g.names)
    (hclean : Lawful EntersClean (g.world.history b)) (hho : (g.row b).circuit = .halfOpen) :
    (g.fleet.probesHeldOn b : ℤ) ≤ max 0 D.cfg.health.halfOpenMaxInflight := by
  have hfleet := reaches_fleet_any h
  exact Fleet.probesHeldOn_le (Fleet.breaker_of_reach hfleet hb) (Fleet.probes_of_reach hfleet hb)
    (Fleet.outstanding_of_reach hfleet hb) hclean hho

theorem probes_bounded_probing : ∃ g : Gateway, g.fleet.probesHeldOn "gpu-node-1" = 1 ∧
    (g.fleet.probesHeldOn "gpu-node-1" : ℤ) ≤ max 0 brittle.cfg.health.halfOpenMaxInflight := by
  obtain ⟨g, hreach, hb, hho, hclean, hone⟩ := exists_probing
  exact ⟨g, hone, probes_bounded hreach hb hclean hho⟩

/-- The straggler times out instead: the circuit opens, cools down and lets a
second probe out while the first is still running. -/
theorem probes_overlap : ∃ g, Reachable brittle g ∧ "gpu-node-1" ∈ g.names ∧
    (g.row "gpu-node-1").circuit = .halfOpen ∧
    brittle.cfg.health.halfOpenMaxInflight < g.fleet.probesHeldOn "gpu-node-1" := by
  refine exists_reachable (cooling [15, 8])
    (straggling ++ [.upstream 1 (.failed (.timeout "read timed out")), .arrive (chat false),
      .tick]) ?_
  decide +kernel

end Gateway

end InferenceGateway
