import InferenceGateway.Api.Routes
import InferenceGateway.Scheduler.Lifecycle

/-!
# The scheduler loop (`run_scheduler_loop` in `app/scheduler/dispatcher.py`)

The gateway together with the one task that makes it tick. A round of the loop
takes the time, ticks, takes the time again and sleeps for what is left of
`tick_ms`, or until the process stops. Nothing a tick does in this model raises,
so that the `except Exception` of the loop is never reached, and the gauges it
sets after a tick are read by nobody.

The machine of the gateway ticks whenever it likes, which is more than the loop
does, so what holds of every run of the gateway holds with the loop. This module
is for what is true only because of the loop: how often it ticks.

- `Looped.step`: a tick is taken by a round of the loop only; everything else
  happens whenever it likes.
- `steps_of_step`: the step inversion.
- `le_due`: the next round is at least `tick_ms` after the last one began.
-/

namespace InferenceGateway

open Lib

/-- `scheduler.tick_ms`, and how exact the event loop is. -/
structure LoopConfig where
  tickMs : ℤ := 10
  /-- How early the event loop may run what is due. -/
  early : ℚ

/-- `tick_s` -/
def LoopConfig.tickS (P : LoopConfig) : ℚ := P.tickMs / 1000

/-- Where the task of the loop is while others run. -/
inductive LoopPhase where
  | created
  /-- In `asyncio.wait_for(stop.wait(), timeout=wait)`, which gives up then. -/
  | sleeping (due : ℚ)
  | ended

/-- A round of the loop: when it began, and how many requests it granted a backend. -/
structure Round where
  begun : ℚ
  granted : ℕ

structure Looped where
  gateway : Gateway
  phase : LoopPhase
  /-- `stop.is_set()` -/
  stop : Bool
  /-- Ghost: the rounds so far, newest first. -/
  rounds : List Round

inductive LoopAct where
  /-- Another task, or the outside, moves. -/
  | elsewhere (a : Action)
  /-- The task of the loop runs until it sleeps, or to its end. -/
  | turn
  /-- `stop.set()` in `lifespan` -/
  | stop
  /-- `scheduler_task.cancel()` in `lifespan`, delivered where the task sleeps -/
  | cancel

namespace Looped

variable {D : Deployment} {P : LoopConfig} {s s' : Looped}

/-- The time a round begins. -/
def begins (s : Looped) : World := s.gateway.world.readClock

/-- What the tick of a round leaves. -/
def ticked (D : Deployment) (s : Looped) : Admission :=
  { s.gateway.adm with world := s.begins }.schedulerTick D.cfg

/-- One round. The event loop takes the time once more to arm the timer. With nothing left to
wait for it arms none, and the task goes on when the others have had their turn. -/
def round (D : Deployment) (P : LoopConfig) (s : Looped) : Looped :=
  let t0 := s.begins.clock.now
  let adm := s.ticked D
  let w := adm.world.readClock
  let wait := max 0 (P.tickS - (w.clock.now - t0))
  let w := w.readClock
  { s with
    gateway := { s.gateway with adm := { adm with world := w } }
    phase := .sleeping (w.clock.now + wait)
    rounds := ⟨t0, adm.grants - s.gateway.adm.grants⟩ :: s.rounds }

def step (D : Deployment) (P : LoopConfig) (s : Looped) : LoopAct → Option Looped
  | .elsewhere .tick => none
  | .elsewhere a => (s.gateway.step D a).map fun g => { s with gateway := g }
  | .turn =>
    match s.phase with
    | .created => some (if s.stop then { s with phase := .ended } else s.round D P)
    | .sleeping due =>
      -- either the event is set, or the timer fires
      if s.stop then some { s with phase := .ended }
      else if due - P.early ≤ s.begins.clock.now then some (s.round D P)
      else none
    | .ended => none
  | .stop => some { s with stop := true }
  | .cancel => some { s with phase := .ended }

def machine (D : Deployment) (P : LoopConfig) : Machine Looped LoopAct :=
  .ofFn (fun s => ∃ clock, s = ⟨Gateway.init D clock, .created, false, []⟩) (step D P)

/-- What a step of the loop's world is: one of the gateway that is no tick, a round that is
due, or neither. -/
inductive Steps (D : Deployment) (P : LoopConfig) (s : Looped) : Looped → Prop where
  | elsewhere {a : Action} {g : Gateway} (ha : a ≠ .tick) (h : s.gateway.step D a = some g) :
      Steps D P s { s with gateway := g }
  | round (hdue : ∀ due, s.phase = .sleeping due → due - P.early ≤ s.begins.clock.now)
      (hphase : s.phase ≠ .ended) (hstop : s.stop = false) : Steps D P s (s.round D P)
  | ended : Steps D P s { s with phase := .ended }
  | stop : Steps D P s { s with stop := true }

/-- **Step inversion.** A step is one of the gateway's own, a round of the loop when its
timer is due, the end of the loop, or the request to stop. -/
theorem steps_of_step {a : LoopAct} (h : s.step D P a = some s') : Steps D P s s' := by
  cases a with
  | elsewhere a =>
    have hne : a ≠ .tick := by
      rintro rfl
      cases h
    -- the loop's own phase is untouched by what happens elsewhere
    have hmap : (s.gateway.step D a).map (fun g => { s with gateway := g }) = some s' := by
      rw [← h]
      cases a <;> first | rfl | exact absurd rfl hne
    obtain ⟨g, hg, rfl⟩ := Option.map_eq_some_iff.mp hmap
    exact .elsewhere hne hg
  | turn =>
    cases hphase : s.phase with
    | created =>
      simp only [step, hphase] at h
      cases h
      split
      · exact .ended
      · next hstop =>
        refine .round (fun due hdue => ?_) (by rw [hphase]; nofun) (Bool.eq_false_iff.mpr hstop)
        cases hphase.symm.trans hdue
    | sleeping due =>
      simp only [step, hphase] at h
      split at h
      · cases h
        exact .ended
      · next hstop =>
        split at h
        · next hdue =>
          cases h
          refine .round (fun due' hdue' => ?_) (by rw [hphase]; nofun) (Bool.eq_false_iff.mpr hstop)
          cases hphase.symm.trans hdue'
          exact hdue
        · cases h
    | ended =>
      simp only [step, hphase] at h
      cases h
  | stop =>
    cases h
    exact .stop
  | cancel =>
    cases h
    exact .ended

/-- The timer of a round is not due before `tick_ms` have passed since it began. -/
theorem le_due (s : Looped) : ∃ due, (s.round D P).phase = .sleeping due ∧
    s.begins.clock.now + P.tickS ≤ due := by
  refine ⟨_, rfl, ?_⟩
  have hread := (s.ticked D).world.readClock.clock.now_le_read
  have hwait := le_max_right 0 (P.tickS - ((s.ticked D).world.readClock.clock.now -
    s.begins.clock.now))
  show _ ≤ (s.ticked D).world.readClock.clock.read.now + _
  linarith

end Looped

end InferenceGateway
