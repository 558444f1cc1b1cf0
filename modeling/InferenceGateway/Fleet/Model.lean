import InferenceGateway.Backends.Registry
import InferenceGateway.Lib.Tally
import InferenceGateway.Lib.Transition

/-!
# The fleet: what the gateway is to its backends

An abstract model that forgets queues, handlers and replies and keeps what the
backends see: the shared world, and which request holds a slot where. Its steps
are the elementary deeds every activity of the gateway is made of, each with the
discipline it is meant to follow.

- A request that holds no slot may `acquire` one on a backend that passes the
  eligibility checks; it may have its outcome recorded once (`judge`); it ends
  by handing the slot back (`giveUp`).
- The three deeds below are the undisciplined ones, which no fleet should need:
  `overRelease` decrements counters for nobody, `abandon` ends an attempt and
  keeps its slot, `stray` records an outcome nobody holds a slot for.

What is proved here of every run, or of every run without some of the
undisciplined deeds, holds of the gateway because the gateway refines the fleet
(`Fleet.Refinement`). Which of them a step of the gateway can need is what makes
the conditions of the guarantees.

- `machine`, `invariantOn`: the fleet as a machine, and the invariant rule for
  one backend of it.
- `count`, with a lemma for each way `put` is used: how many slots a predicate
  holds of, which is what every counter is compared with.
- `handler_cases`: what recording an outcome does to a circuit.
-/

namespace InferenceGateway

open Lib

/-- A slot some request holds, and whether its outcome has been recorded. -/
structure Slot where
  grant : Grant
  cls : RequestClass
  judged : Bool
  deriving DecidableEq, Repr

namespace Slot

abbrev backend (s : Slot) : String := s.grant.target.name

/-- The slot is on `b`. -/
def on (b : String) (s : Slot) : Bool := decide (s.backend = b)

/-- The slot is on `b` and counts towards `large_inflight`. -/
def largeOn (b : String) (s : Slot) : Bool := s.on b && s.cls.isLarge

/-- The slot is on `b` and was taken in some half-open period. -/
def probeOn (b : String) (s : Slot) : Bool := s.on b && s.grant.probe.isSome

/-- The slot is on `b` and was taken in half-open period `k`. -/
def probeOf (b : String) (k : ℕ) (s : Slot) : Bool := s.on b && decide (s.grant.probe = some k)

end Slot

namespace Verdict

/-- The breaker handler a verdict runs. -/
def handler (health : HealthConfig) (now : ℚ) : Verdict → BackendRuntimeState → BackendRuntimeState
  | success => Health.onSuccess
  | failure => Health.onFailure health now

def cause (probe : Option ℕ) : Verdict → Cause
  | success => .success probe
  | failure => .failure probe

/-- The two handlers are about the circuit: counters, limit and averages stay. -/
theorem handler_sameLoad (v : Verdict) (health : HealthConfig) (now : ℚ)
    (s : BackendRuntimeState) : Health.SameLoad s (v.handler health now s) := by
  cases v with
  | success => exact Health.onSuccess_sameLoad s
  | failure => exact Health.onFailure_sameLoad health now s

/-- After an outcome has been recorded the circuit is not half-open: a success closes it
and a failure opens it, whoever the outcome is of. -/
theorem handler_circuit_ne (v : Verdict) {health : HealthConfig} {now : ℚ}
    {s : BackendRuntimeState} : (v.handler health now s).circuit ≠ .halfOpen := by
  cases v with
  | success => exact Health.onSuccess_circuit_ne
  | failure => exact Health.onFailure_circuit_ne

/-- What recording an outcome does to the circuit: a half-open one closes, one that
is not open may open now, and otherwise nothing happens to it. -/
theorem handler_cases (v : Verdict) (health : HealthConfig) (now : ℚ)
    (s : BackendRuntimeState) :
    (v = .success ∧ s.circuit = .halfOpen ∧ (v.handler health now s).circuit = .closed) ∨
    (v = .failure ∧ s.circuit ≠ .opened ∧ (v.handler health now s).circuit = .opened ∧
      (v.handler health now s).circuitOpenedAtMonotonic = some now) ∨
    (s.circuit ≠ .halfOpen ∧ (v.handler health now s).circuit = s.circuit ∧
      (v.handler health now s).circuitOpenedAtMonotonic = s.circuitOpenedAtMonotonic) := by
  cases v with
  | success =>
    by_cases h : s.circuit = .halfOpen
    · exact .inl ⟨rfl, h, by simp [handler, Health.onSuccess_of_halfOpen h]⟩
    · exact .inr (.inr ⟨h, by simp [handler, Health.onSuccess_of_not_halfOpen h]⟩)
  | failure =>
    rcases Health.onFailure_cases health now s with ⟨hne, h⟩ | ⟨hne, h⟩
    · exact .inr (.inl ⟨rfl, hne, by simp [handler, h]⟩)
    · exact .inr (.inr ⟨hne, by simp [handler, h]⟩)

end Verdict

structure Fleet where
  world : World
  held : ReqId → Option Slot
  /-- Requests seen so far: only those below hold anything. -/
  population : ℕ

/-- What can happen to a fleet. -/
inductive Deed where
  | enrol
  | idle
  | note (e : Event)
  | cool (b : String)
  | acquire (r : ReqId) (b : String) (cls : RequestClass)
  | judge (r : ReqId) (v : Verdict)
  | stray (b : String) (v : Verdict)
  | sample (b : String) (failed : Bool)
  | giveUp (r : ReqId) (how : Ending)
  | overRelease (b : String) (cls : RequestClass)
  | abandon (r : ReqId) (how : Ending)

/-- The deeds that follow the discipline whatever the circumstances. -/
def Deed.benign : Deed → Bool
  | judge .. | stray .. | overRelease .. | abandon .. => false
  | _ => true

namespace Fleet

@[simp] abbrev row (F : Fleet) (b : String) : BackendRuntimeState := F.world.row b

@[simp] abbrev names (F : Fleet) : List String := F.world.names

@[simp] abbrev trace (F : Fleet) : List Event := F.world.trace

/-- What `b` has lived through. -/
abbrev history (F : Fleet) (b : String) : List Incident := F.world.history b

/-- The half-open period of `b`. -/
abbrev period (F : Fleet) (b : String) : ℕ := F.world.period b

/-- The last reading of the clock. -/
abbrev now (F : Fleet) : ℚ := F.world.clock.now

/-- How many requests hold a slot that meets `p`. -/
def count (F : Fleet) (p : Slot → Bool) : ℕ :=
  tally (Option.any p) F.held (List.range F.population)

/-- Slots held on `b`. -/
abbrev heldOn (F : Fleet) (b : String) : ℕ := F.count (Slot.on b)

/-- Slots held on `b` for classes that count as large. -/
abbrev largeHeldOn (F : Fleet) (b : String) : ℕ := F.count (Slot.largeOn b)

/-- Slots held on `b` that were taken while it was half-open, in any period. -/
abbrev probesHeldOn (F : Fleet) (b : String) : ℕ := F.count (Slot.probeOn b)

/-- Set the world and the slot of one request. -/
def put (F : Fleet) (r : ReqId) (x : Option Slot) (w : World) : Fleet :=
  { F with world := w, held := Function.update F.held r x }

/-- A sample of `b`'s error rate (and of its latencies, which `f` may blend in). -/
def sampled (w : World) (b : String) (failed : Bool)
    (f : BackendRuntimeState → BackendRuntimeState) : World :=
  if b ∈ w.names then (w.setRow b (f (w.row b))).emit (.sampled b failed) else w

/-- `f` blends one sample in: `update_success` or `update_failure`. -/
inductive Blends : Bool → (BackendRuntimeState → BackendRuntimeState) → Prop where
  | success (ttftMs : Option ℚ) (e2eMs : ℚ) : Blends false (·.updateSuccess ttftMs e2eMs)
  | failure : Blends true (·.updateFailure)

inductive Step (health : HealthConfig) : Fleet → Deed → Fleet → Prop where
  | enrol {F : Fleet} (hvacant : F.held F.population = none) :
      Step health F .enrol { F with population := F.population + 1 }
  | idle {F : Fleet} {c : Clock} (hc : F.world.clock.now ≤ c.now) :
      Step health F .idle { F with world := { F.world with clock := c } }
  | note {F : Fleet} {e : Event} (he : e.neutral = true) :
      Step health F (.note e) { F with world := F.world.emit e }
  | cool {F : Fleet} {b : String} :
      Step health F (.cool b) { F with world := F.world.maybeTransitionFromOpen health b }
  | acquire {F : Fleet} {r : ReqId} {b : String} {cls : RequestClass}
      (hr : r < F.population) (hheld : F.held r = none) (hb : b ∈ F.names)
      (hpass : Health.passes health (F.row b) = true) :
      Step health F (.acquire r b cls)
        (F.put r (some ⟨(F.world.takeSlot b cls).2, cls, false⟩) (F.world.takeSlot b cls).1)
  | judge {F : Fleet} {r : ReqId} {s : Slot} {v : Verdict}
      (hr : r < F.population) (hheld : F.held r = some s) (hnew : s.judged = false) :
      Step health F (.judge r v)
        (F.put r (some { s with judged := true })
          (F.world.moveCircuit s.backend (v.handler health F.world.clock.now)
            (v.cause s.grant.probe)))
  | stray {F : Fleet} {b : String} {v : Verdict} :
      Step health F (.stray b v)
        { F with
          world := F.world.moveCircuit b (v.handler health F.world.clock.now) (v.cause none) }
  | sample {F : Fleet} {b : String} {failed : Bool} {f : BackendRuntimeState → BackendRuntimeState}
      (hf : Blends failed f) :
      Step health F (.sample b failed) { F with world := sampled F.world b failed f }
  | giveUp {F : Fleet} {r : ReqId} {s : Slot} {how : Ending}
      (hr : r < F.population) (hheld : F.held r = some s) (hhow : how.silent = !s.judged) :
      Step health F (.giveUp r how)
        (F.put r none ((F.world.releaseDispatch s.backend s.cls).emit
          (.ended s.backend s.grant.probe how)))
  | overRelease {F : Fleet} {b : String} {cls : RequestClass} :
      Step health F (.overRelease b cls) { F with world := F.world.releaseDispatch b cls }
  | abandon {F : Fleet} {r : ReqId} {s : Slot} {how : Ending}
      (hr : r < F.population) (hheld : F.held r = some s) (hhow : how.silent = !s.judged) :
      Step health F (.abandon r how)
        (F.put r none (F.world.emit (.ended s.backend s.grant.probe how)))

/-- A row nothing has happened to. -/
structure Fresh (s : BackendRuntimeState) : Prop where
  circuit : s.circuit = .closed
  inflight : s.inflight = 0
  largeInflight : s.largeInflight = 0
  halfOpenProbes : s.halfOpenProbes = 0
  recentErrorRate : s.recentErrorRate = 0

/-- Nobody holds anything and nothing has happened. -/
structure Start (F : Fleet) : Prop where
  fresh : ∀ b ∈ F.names, Fresh (F.row b)
  trace : F.trace = []
  held : F.held = fun _ => none
  population : F.population = 0

def machine (health : HealthConfig) : Machine Fleet Deed := ⟨Start, Step health⟩

/-- No deed adds or removes a backend: the registry is what the configuration made
it. -/
theorem names_step {health : HealthConfig} {F F' : Fleet} {d : Deed} (h : Step health F d F') :
    F'.names = F.names := by
  cases h with
  | @sample b failed f hf =>
    show (sampled F.world b failed f).registry.names = F.world.registry.names
    unfold sampled
    split <;> rfl
  | _ => simp [put]

/-- The invariant rule for one backend: a property of fleets that lists `b`, true
at the start and kept by every licensed deed, holds throughout a run. -/
theorem invariantOn {health : HealthConfig} {licence : Fleet → Deed → Prop} {b : String}
    {I : Fleet → Prop} (hstart : ∀ F, F.Start → b ∈ F.names → I F)
    (hstep : ∀ F d F', I F → b ∈ F.names → licence F d → Step health F d F' → I F') {F : Fleet}
    (h : Reach (machine health) licence F) (hb : b ∈ F.names) : I F := by
  refine h.invariant (I := fun F => b ∈ F.names → I F) hstart ?_ hb
  intro F d F' hF hlicence hd hb'
  rw [names_step hd] at hb'
  exact hstep F d F' (hF hb') hb' hlicence hd

/-- A sample moves error rate and latencies only. -/
structure SameBreaker (s s' : BackendRuntimeState) : Prop where
  circuit : s'.circuit = s.circuit
  halfOpenProbes : s'.halfOpenProbes = s.halfOpenProbes
  circuitOpenedAtMonotonic : s'.circuitOpenedAtMonotonic = s.circuitOpenedAtMonotonic

theorem SameBreaker.refl (s : BackendRuntimeState) : SameBreaker s s := ⟨rfl, rfl, rfl⟩

/-- A sample feeds the averages, so it leaves the fields of the breaker alone. -/
theorem Blends.sameBreaker {failed : Bool} {f : BackendRuntimeState → BackendRuntimeState}
    (h : Blends failed f) (s : BackendRuntimeState) : SameBreaker s (f s) := by
  cases h <;> exact ⟨rfl, rfl, rfl⟩

/-- Every sample moves the error rate by the blend of `_update_error_rate`, whatever
else it feeds. -/
theorem Blends.recentErrorRate {failed : Bool} {f : BackendRuntimeState → BackendRuntimeState}
    (h : Blends failed f) (s : BackendRuntimeState) :
    (f s).recentErrorRate = BackendRuntimeState.errorSample failed s.recentErrorRate := by
  cases h <;> rfl

theorem Blends.counters {failed : Bool} {f : BackendRuntimeState → BackendRuntimeState}
    (h : Blends failed f) (s : BackendRuntimeState) :
    (f s).inflight = s.inflight ∧ (f s).largeInflight = s.largeInflight ∧
      (f s).hardLimit = s.hardLimit := by
  cases h <;> exact ⟨rfl, rfl, rfl⟩

/-! ## Setting one slot -/

/-- The last `put` for a request is the one that counts. -/
@[simp] theorem put_put (F : Fleet) (r : ReqId) (x y : Option Slot) (w v : World) :
    (F.put r x w).put r y v = F.put r y v := by
  simp [put]

@[simp] theorem put_world (F : Fleet) (r : ReqId) (x : Option Slot) (w : World) :
    (F.put r x w).world = w := rfl

@[simp] theorem put_population (F : Fleet) (r : ReqId) (x : Option Slot) (w : World) :
    (F.put r x w).population = F.population := rfl

@[simp] theorem put_held_self (F : Fleet) (r : ReqId) (x : Option Slot) (w : World) :
    (F.put r x w).held r = x := Function.update_self ..

/-- A slot held after `put` is the new one, or was held before. -/
theorem held_of_put {F : Fleet} {r r' : ReqId} {x : Option Slot} {w : World} {s : Slot}
    (h : (F.put r x w).held r' = some s) : (r' = r ∧ x = some s) ∨ F.held r' = some s := by
  by_cases hr : r' = r
  · subst hr
    exact .inl ⟨rfl, by simpa [put] using h⟩
  · exact .inr (by simpa [put, hr] using h)

theorem put_eq_self {F : Fleet} {r : ReqId} {x : Option Slot} (h : F.held r = x) (w : World) :
    F.put r x w = { F with world := w } := by
  subst h
  simp [put]

/-! ## Counting slots -/

variable {F : Fleet} {p : Slot → Bool} {r : ReqId}

/-- At start-up no request holds anything. -/
theorem count_start (h : F.Start) : F.count p = 0 := by
  rw [count, h.population]
  rfl

/-- Only the table of slots matters for a count. -/
@[simp] theorem count_world {w : World} : ({ F with world := w } : Fleet).count p = F.count p := rfl

/-- Rewriting the slot of one request. Both sides add what the other has, so that no
subtraction of naturals is needed. -/
theorem count_put {w : World} {x : Option Slot} (hr : r < F.population) :
    (F.put r x w).count p + (if (F.held r).any p then 1 else 0) =
      F.count p + if x.any p then 1 else 0 :=
  tally_update List.nodup_range (List.mem_range.mpr hr) x

/-- A new request holds no slot, so it is not counted. -/
theorem count_enrol (hvacant : F.held F.population = none) :
    ({ F with population := F.population + 1 } : Fleet).count p = F.count p := by
  show tally (Option.any p) F.held (List.range (F.population + 1)) = F.count p
  rw [List.range_succ, tally_append_singleton, hvacant]
  rfl

/-- A slot that is taken adds one to every count that looks at it. -/
theorem count_acquire {w : World} {s : Slot} (hr : r < F.population) (hheld : F.held r = none) :
    (F.put r (some s) w).count p = F.count p + if p s then 1 else 0 := by
  have h := count_put (F := F) (p := p) (w := w) (x := some s) hr
  rw [hheld] at h
  simpa using h

/-- Recording an outcome moves no slot, as far as `p` does not look at `judged`. -/
theorem count_judge {w : World} {s : Slot} (hr : r < F.population) (hheld : F.held r = some s)
    (hp : p { s with judged := true } = p s) :
    (F.put r (some { s with judged := true }) w).count p = F.count p := by
  have h := count_put (F := F) (p := p) (w := w) (x := some { s with judged := true }) hr
  rw [hheld, Option.any_some, Option.any_some, hp] at h
  exact Nat.add_right_cancel h

/-- A slot that is given up, or lost, takes one off every count that looked at it. -/
theorem count_end {w : World} {s : Slot} (hr : r < F.population) (hheld : F.held r = some s) :
    (F.put r none w).count p + (if p s then 1 else 0) = F.count p := by
  have h := count_put (F := F) (p := p) (w := w) (x := none) hr
  rw [hheld] at h
  simpa using h

theorem count_le_of_imp {q : Slot → Bool} (h : ∀ r s, F.held r = some s → p s = true → q s = true) :
    F.count p ≤ F.count q := by
  refine tally_le_of_imp fun r _ => ?_
  cases hs : F.held r with
  | none => simp
  | some s => simpa using h r s hs

end Fleet

end InferenceGateway
