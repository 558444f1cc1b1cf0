import InferenceGateway.Lib.EventLoop
import InferenceGateway.Scheduler.Lifecycle

/-!
# The tasks of the admission layer, statement by statement

What `Lifecycle` takes as one step is here the code the event loop really runs:
the three critical sections of `AdmissionQueue` with their `async with
self._lock`, and the statements of a scheduler tick in between.

- `enqueueCode`, `tickCode`: one call of `enqueue`, one round of the scheduler
  loop.
- `Starts`: which task may get control when; the environment of the layer
  (waiters that cancel or withdraw, backends and clock that move on) are tasks
  of one statement.
- `tidy_of_starts`: no task suspends with the lock in its hands, nor ends with
  it. This is all that the event loop's own results ask of a task.
- `run_tickCode`: the statements of a round add up to `schedulerTick`.
- `lifecycle_of_tasks`, `tasks_of_reach`: between two tasks the states are
  exactly those the steps of `Lifecycle` reach, so those steps are atomic.
-/

namespace InferenceGateway

open Lib

namespace Lifecycle

/-- The body of `enqueue`'s critical section. `QueueFullError` leaves the `async with`
block like a normal end does, by releasing the lock. -/
def enqueueBody (cfg : GatewayConfig) (p : PendingRequest) (L : Lifecycle) : Lifecycle :=
  match AdmissionQueue.enqueue cfg.scheduler.queueMaxSize L.adm.queue p with
  | some q => ⟨{ L.adm with queue := q }, L.arrived + 1, p :: L.accepted⟩
  | none => { L with arrived := L.arrived + 1 }

def enqueueCode (cfg : GatewayConfig) (p : PendingRequest) : Code Lifecycle :=
  .acquire (.plain (enqueueBody cfg p) fun _ => .release .halt)

/-- `requeue_front`. -/
def requeueCode (requeue : List PendingRequest) : Code Lifecycle :=
  .acquire (.plain
    (fun L => { L with adm := { L.adm with
      queue := AdmissionQueue.requeueFront requeue L.adm.queue } })
    fun _ => .release .halt)

/-- The loop `for pending in batch`, one request a statement, and what follows it. -/
def batchCode (cfg : GatewayConfig) (now : ℚ) :
    List PendingRequest → List PendingRequest → Code Lifecycle
  | [], requeue => if requeue.isEmpty then .halt else requeueCode requeue
  | p :: batch, requeue =>
    .plain (fun L => { L with adm := (Admission.dispatchOne cfg now p L.adm).1 })
      fun L => batchCode cfg now batch (requeue ++ (Admission.dispatchOne cfg now p L.adm).2)

/-- `_dispatch_tick` once `pop_batch` has returned. -/
def afterPop (cfg : GatewayConfig) (batch : List PendingRequest) : Code Lifecycle :=
  if batch.isEmpty then .halt
  else .plain (fun L => { L with adm := { L.adm with world := L.adm.world.readClock } })
    fun L => batchCode cfg L.adm.world.readClock.clock.now batch []

/-- `await registry.tick_circuits()`, which awaits nothing itself, and then
`await _dispatch_tick(...)`. -/
def tickCode (cfg : GatewayConfig) : Code Lifecycle :=
  .plain (fun L => { L with adm := { L.adm with world := L.adm.world.tickCircuits cfg.health } })
    fun _ => .acquire (.plain
      (fun L => { L with adm := { L.adm with
        queue := (AdmissionQueue.popBatch cfg.scheduler.dispatchBatchSize L.adm.queue).2 } })
      fun L => .release (afterPop cfg
        (AdmissionQueue.popBatch cfg.scheduler.dispatchBatchSize L.adm.queue).1))

/-- A task of one statement that leaves the queue alone. -/
def elsewhereCode (f : Lifecycle → Lifecycle) : Code Lifecycle := .plain f fun _ => .halt

/-- Which task may get control. -/
inductive Starts (cfg : GatewayConfig) (L : Lifecycle) : Act → Code Lifecycle → Prop where
  | enqueue {p : PendingRequest} (hoid : p.oid = L.arrived) :
      Starts cfg L (.enqueue p) (enqueueCode cfg p)
  | tick : Starts cfg L .tick (tickCode cfg)
  | cancel {r : ReqId} (hr : r < L.arrived) :
      Starts cfg L (.cancel r) (elsewhereCode fun L => { L with adm := { L.adm with
        future := if (L.adm.future r).done then L.adm.future
          else Function.update L.adm.future r .cancelled } })
  | withdraw {r : ReqId} (hr : r < L.arrived) :
      Starts cfg L (.withdraw r) (elsewhereCode fun L => { L with adm := { L.adm with
        world := L.adm.world.emit (.withdrawn r)
        cancelled := Function.update L.adm.cancelled r true } })
  | elsewhere {w : World} (hw : Admission.Aside L.adm.world w) :
      Starts cfg L .elsewhere (elsewhereCode fun L => { L with adm := { L.adm with world := w } })

/-- The event loop with the tasks of the admission layer. -/
def tasks (cfg : GatewayConfig) : Machine (Loop Lifecycle) (Option Act) :=
  Loop.machine Start (Starts cfg)

variable {cfg : GatewayConfig} {now : ℚ} {L : Lifecycle} {a : Act} {c : Code Lifecycle}
  {S : Loop Lifecycle}

/-! ## The lock discipline -/

/-- The loop over a batch takes no lock. By induction over the batch. -/
theorem tidy_batchCode : ∀ batch requeue, (batchCode cfg now batch requeue).Tidy false
  | [], requeue => by
    unfold batchCode
    split
    · exact rfl
    · exact ⟨rfl, fun _ => ⟨rfl, rfl⟩⟩
  | p :: batch, requeue => fun L =>
    tidy_batchCode batch (requeue ++ (Admission.dispatchOne cfg now p L.adm).2)

/-- A round takes the lock twice, for `pop_batch` and for `requeue_front`, and gives it
back both times before it goes on. -/
theorem tidy_tickCode : (tickCode cfg).Tidy false := by
  refine fun _ => ⟨rfl, fun L => ⟨rfl, ?_⟩⟩
  unfold afterPop
  split
  · exact rfl
  · exact fun L => tidy_batchCode _ _

/-- No task suspends while it holds the lock, and none keeps it. -/
theorem tidy_of_starts (h : Starts cfg L a c) : c.Tidy false := by
  cases h with
  | enqueue => exact ⟨rfl, fun _ => ⟨rfl, rfl⟩⟩
  | tick => exact tidy_tickCode
  | cancel => exact fun _ => rfl
  | withdraw => exact fun _ => rfl
  | elsewhere => exact fun _ => rfl

/-! ## What a whole task does -/

/-- The loop over a batch, one statement after another, is `dispatchBatch`, and what
found no backend is put back at its end. By induction over the batch, for any requests
put back so far. -/
theorem run_batchCode : ∀ (batch requeue : List PendingRequest) (L : Lifecycle),
    (batchCode cfg now batch requeue).run L =
      { L with adm :=
        let A := (Admission.dispatchBatch cfg now batch L.adm).1
        let all := requeue ++ (Admission.dispatchBatch cfg now batch L.adm).2
        if all.isEmpty then A
        else { A with queue := AdmissionQueue.requeueFront all A.queue } }
  | [], requeue, L => by
    simp only [batchCode, Admission.dispatchBatch, List.append_nil]
    split <;> rfl
  | p :: batch, requeue, L => by
    show (batchCode cfg now batch _).run _ = _
    rw [run_batchCode batch]
    simp only [Admission.dispatchBatch, List.append_assoc]
    rfl

/-- The statements of a round add up to `schedulerTick`. -/
theorem run_tickCode : (tickCode cfg).run L = { L with adm := L.adm.schedulerTick cfg } := by
  show (afterPop cfg _).run _ = _
  unfold afterPop Admission.schedulerTick Admission.dispatchTick
  by_cases hempty : (AdmissionQueue.popBatch cfg.scheduler.dispatchBatchSize L.adm.queue).1.isEmpty
  · have hrest := AdmissionQueue.popBatch_append cfg.scheduler.dispatchBatchSize L.adm.queue
    rw [List.isEmpty_iff.mp hempty, List.nil_append] at hrest
    simp only [hempty, if_true, hrest]
    rfl
  · simp only [hempty]
    show (batchCode cfg _ _ []).run _ = _
    rw [run_batchCode]
    rfl

/-- A task that runs to its end is a step of the admission layer. -/
theorem step_of_starts (h : Starts cfg L a c) : Step cfg L a (c.run L) := by
  cases h with
  | @enqueue p hoid =>
    show Step cfg L _ (enqueueBody cfg p L)
    unfold enqueueBody
    cases hq : AdmissionQueue.enqueue cfg.scheduler.queueMaxSize L.adm.queue p with
    | some q => exact .accepted hoid hq
    | none => exact .refused hoid hq
  | tick =>
    rw [run_tickCode]
    exact .tick
  | cancel hr => exact .cancel hr
  | withdraw hr => exact .withdraw hr
  | elsewhere hw => exact .elsewhere hw

/-- Runs of whole tasks are runs of the admission layer. -/
theorem reach_of_atomic (h : Reach (Loop.atomic Start (Starts cfg)) anyStep L) :
    Reach (machine cfg) anyStep L := by
  refine h.invariant (I := Reach (machine cfg) anyStep) ?_ ?_
  · intro L hL
    exact .start hL
  · rintro L a _ hL _ ⟨c, hstart, rfl⟩
    exact hL.step trivial (step_of_starts hstart)

/-- **A tick is one atomic step.** Whatever statements the event loop interleaves,
nobody ever waits for the lock of the queue, and between two tasks the state is one
that the admission layer reaches. -/
theorem lifecycle_of_tasks (h : Reach (tasks cfg) anyStep S) :
    S.waiters = [] ∧
      (S.current = none → S.locked = false ∧ Reach (machine cfg) anyStep S.shared) := by
  obtain ⟨hnobody, hidle⟩ := Loop.atomicity (fun _ _ _ hs => tidy_of_starts hs) h
  exact ⟨hnobody, fun hc => ⟨(hidle hc).1, reach_of_atomic (hidle hc).2⟩⟩

/-- Every step of the admission layer is some task, run as a whole. -/
theorem starts_of_step {L' : Lifecycle} (h : Step cfg L a L') :
    ∃ c, Starts cfg L a c ∧ L' = c.run L := by
  cases h with
  | @accepted p q hoid hq =>
    refine ⟨_, .enqueue hoid, ?_⟩
    show _ = enqueueBody cfg p L
    rw [enqueueBody, hq]
  | @refused p hoid hq =>
    refine ⟨_, .enqueue hoid, ?_⟩
    show _ = enqueueBody cfg p L
    rw [enqueueBody, hq]
  | tick => exact ⟨_, .tick, run_tickCode.symm⟩
  | cancel hr => exact ⟨_, .cancel hr, rfl⟩
  | withdraw hr => exact ⟨_, .withdraw hr, rfl⟩
  | elsewhere hw => exact ⟨_, .elsewhere hw, rfl⟩

/-- The other half of `lifecycle_of_tasks`: what the admission layer reaches, the event
loop reaches, with the lock free and nobody in control. -/
theorem tasks_of_reach (h : Reach (machine cfg) anyStep L) :
    Reach (tasks cfg) anyStep ⟨L, false, [], none⟩ := by
  refine Loop.machine_of_atomic (fun _ _ _ hs => tidy_of_starts hs) ?_
  refine h.invariant (I := Reach (Loop.atomic Start (Starts cfg)) anyStep) ?_ ?_
  · intro L hL
    exact .start hL
  · intro L a L' hreach _ hs
    exact hreach.step trivial (starts_of_step hs)

end Lifecycle

end InferenceGateway
