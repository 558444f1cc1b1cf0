import InferenceGateway.Queue.AdmissionQueue
import InferenceGateway.Scheduler.Scoring

/-!
# Scheduler (`app/scheduler/dispatcher.py`)

`Admission` is what the scheduler task works on: the shared world, the queue,
and the two mutable parts of every pending request, its future and its cancelled
flag. `dispatchTick` is one scheduling pass: pop a batch, run the loop over it,
put back what found no backend. It awaits only uncontended locks, so the pass is
one atomic step; the clock may advance at every reading inside it.

- `dispatchOne_cases`: the inversion of the loop body, one case for each branch.
  What one round does is proved from it, and nothing unfolds the body again.
- `dispatchBatch_rule`, `dispatchTick_rule`: from a round to the loop, and from
  the loop to a pass.
- `schedulerTick_queue`, `schedulerTick_future`: what a whole tick can do to the
  queue and to a future. It takes requests out and resolves what was unresolved;
  it adds nobody, reorders nobody and resolves nothing twice.
-/

namespace InferenceGateway

structure Admission where
  world : World
  queue : List PendingRequest
  /-- `pending.dispatch_future`. -/
  future : ReqId → Future
  /-- `pending.cancelled.is_set()`. -/
  cancelled : ReqId → Bool

namespace Admission

/-- `set_result` or `set_exception`. On a done future `asyncio` raises
`InvalidStateError` and the future stays as it was. -/
def resolve (A : Admission) (p : PendingRequest) (value : Future) (tick : ℚ) : Admission :=
  { A with
    future := if (A.future p.oid).done then A.future else Function.update A.future p.oid value
    world := A.world.emit (.resolved p (A.future p.oid) value tick) }

/-- Fail the waiter's future unless it is done already (`_reject`). -/
def reject (A : Admission) (p : PendingRequest) (message : String) (tick : ℚ) : Admission :=
  if (A.future p.oid).done then A else A.resolve p (.scheduleError message) tick

/-- `observe_rejection`. -/
def observeRejection (A : Admission) (reason : RejectionReason) : Admission :=
  { A with world := A.world.emit (.rejectionsTotal reason) }

/-- The body of the batch loop for one popped request: the state after it and
what it appends to `requeue`. -/
def dispatchOne (cfg : GatewayConfig) (now : ℚ) (p : PendingRequest) (A : Admission) :
    Admission × List PendingRequest :=
  if A.cancelled p.oid || (A.future p.oid).done then (A, [])
  else if cfg.maxAgeS ≤ now - p.enqueuedAtMonotonic then
    -- the future is still open here, so `_reject` always resolves it
    ((A.reject p "queue age exceeded" now).observeRejection .queueAge, [])
  else
    let (w, candidates) := World.eligible cfg.health none A.world.names A.world
    if candidates.isEmpty then ({ A with world := w }, [p])
    else
      match Scoring.pickBackend cfg.routing p.classify.reqClass candidates w with
      | (w, none) => ({ A with world := w }, [p])
      | (w, some chosen) =>
        let (w, grant) := w.takeSlot chosen p.classify.reqClass
        ({ A with world := w }.resolve p (.target grant) now, [])

/-- The batch loop, with the requests it puts in `requeue`. -/
def dispatchBatch (cfg : GatewayConfig) (now : ℚ) :
    List PendingRequest → Admission → Admission × List PendingRequest
  | [], A => (A, [])
  | p :: batch, A =>
    let (A, kept) := dispatchOne cfg now p A
    let (A, rest) := dispatchBatch cfg now batch A
    (A, kept ++ rest)

/-- One scheduling pass: assign backends or requeue when none eligible. -/
def dispatchTick (cfg : GatewayConfig) (A : Admission) : Admission :=
  let (batch, rest) := AdmissionQueue.popBatch cfg.scheduler.dispatchBatchSize A.queue
  if batch.isEmpty then A
  else
    -- one reading serves the whole batch
    let w := A.world.readClock
    let (A, requeue) := dispatchBatch cfg w.clock.now batch { A with world := w, queue := rest }
    if requeue.isEmpty then A
    else { A with queue := AdmissionQueue.requeueFront requeue A.queue }

/-- The body of the scheduler loop: advance circuits, then dispatch a batch. -/
def schedulerTick (cfg : GatewayConfig) (A : Admission) : Admission :=
  dispatchTick cfg { A with world := A.world.tickCircuits cfg.health }

/-! ## What the batch loop can do with one request -/

variable {cfg : GatewayConfig} {now : ℚ} {p : PendingRequest} {A : Admission}

/-- Nobody has resolved, cancelled or withdrawn the request. -/
def Live (A : Admission) (r : ReqId) : Prop :=
  A.cancelled r = false ∧ A.future r = .unresolved

instance (A : Admission) (r : ReqId) : Decidable (A.Live r) :=
  inferInstanceAs (Decidable (_ ∧ _))

/-- A future is done as soon as it has a result, an exception or a cancellation. -/
theorem done_eq_false_iff {fut : Future} : fut.done = false ↔ fut = .unresolved := by
  cases fut <;> simp [Future.done]

/-- The search for a backend: check them all, pick the cheapest that passes. -/
def search (cfg : GatewayConfig) (cls : RequestClass) (w : World) : World × Option String :=
  Scoring.pickBackend cfg.routing cls (World.eligible cfg.health none w.names w).2
    (World.eligible cfg.health none w.names w).1

/-- Setting the future of a live request. -/
theorem resolve_of_unresolved (h : A.future p.oid = .unresolved) (value : Future) (tick : ℚ) :
    A.resolve p value tick = { A with
      future := Function.update A.future p.oid value
      world := A.world.emit (.resolved p .unresolved value tick) } := by
  simp [resolve, h, Future.done]

/-- **The five branches.** A request that is no longer live is dropped, one that
is too old is rejected, one that finds no backend is put back (two branches of
the source with one effect), and any other is dispatched. -/
theorem dispatchOne_cases (cfg : GatewayConfig) (now : ℚ) (p : PendingRequest) (A : Admission) :
    (¬ A.Live p.oid ∧ dispatchOne cfg now p A = (A, [])) ∨
    (A.Live p.oid ∧ cfg.maxAgeS ≤ now - p.enqueuedAtMonotonic ∧
      dispatchOne cfg now p A = ({ A with
        future := Function.update A.future p.oid (.scheduleError "queue age exceeded")
        world := (A.world.emit (.resolved p .unresolved
          (.scheduleError "queue age exceeded") now)).emit (.rejectionsTotal .queueAge) }, [])) ∨
    (A.Live p.oid ∧ now - p.enqueuedAtMonotonic < cfg.maxAgeS ∧
      (search cfg p.classify.reqClass A.world).2 = none ∧
      dispatchOne cfg now p A =
        ({ A with world := (search cfg p.classify.reqClass A.world).1 }, [p])) ∨
    (A.Live p.oid ∧ now - p.enqueuedAtMonotonic < cfg.maxAgeS ∧
      ∃ chosen, (search cfg p.classify.reqClass A.world).2 = some chosen ∧
        let w := (search cfg p.classify.reqClass A.world).1
        let grant := (w.takeSlot chosen p.classify.reqClass).2
        dispatchOne cfg now p A = ({ A with
          future := Function.update A.future p.oid (.target grant)
          world := (w.takeSlot chosen p.classify.reqClass).1.emit
            (.resolved p .unresolved (.target grant) now) }, [])) := by
  -- the checks in the order of the loop: dead, too old, no candidate, dispatched
  by_cases hlive : A.Live p.oid
  · obtain ⟨hcancelled, hfuture⟩ := hlive
    have hskip : (A.cancelled p.oid || (A.future p.oid).done) = false := by
      simp [hcancelled, hfuture, Future.done]
    unfold dispatchOne
    rw [if_neg (by simp [hskip])]
    by_cases hage : cfg.maxAgeS ≤ now - p.enqueuedAtMonotonic
    · refine .inr (.inl ⟨⟨hcancelled, hfuture⟩, hage, ?_⟩)
      rw [if_pos hage, reject, if_neg (by simp [hfuture, Future.done]),
        resolve_of_unresolved hfuture]
      rfl
    · rw [if_neg hage]
      by_cases hnil : (World.eligible cfg.health none A.world.names A.world).2 = []
      · -- no candidate: picking among none leaves the world alone
        have hsearch : search cfg p.classify.reqClass A.world =
            ((World.eligible cfg.health none A.world.names A.world).1, none) := by
          simp [search, Scoring.pickBackend, hnil]
        refine .inr (.inr (.inl ⟨⟨hcancelled, hfuture⟩, not_le.mp hage, by rw [hsearch], ?_⟩))
        rw [hsearch]
        simp [hnil]
      · have hne : (World.eligible cfg.health none A.world.names A.world).2.isEmpty = false := by
          simpa using hnil
        cases hsearch : search cfg p.classify.reqClass A.world with
        | mk w found =>
          rw [search] at hsearch
          cases found with
          | none =>
            refine .inr (.inr (.inl ⟨⟨hcancelled, hfuture⟩, not_le.mp hage, rfl, ?_⟩))
            simp [hne, hsearch]
          | some chosen =>
            refine .inr (.inr (.inr ⟨⟨hcancelled, hfuture⟩, not_le.mp hage, chosen, rfl, ?_⟩))
            simp [hne, hsearch, resolve, hfuture, Future.done]
  · refine .inl ⟨hlive, ?_⟩
    unfold dispatchOne
    rw [if_pos]
    by_contra hskip
    refine hlive ⟨?_, ?_⟩
    · simpa using (Bool.or_eq_false_iff.mp (Bool.eq_false_iff.mpr hskip)).1
    · exact done_eq_false_iff.mp (Bool.or_eq_false_iff.mp (Bool.eq_false_iff.mpr hskip)).2

/-! ## What a tick does to queue and futures -/

/-- The queue was popped before the loop, and the loop leaves it alone. -/
theorem dispatchOne_queue : (dispatchOne cfg now p A).1.queue = A.queue := by
  rcases dispatchOne_cases cfg now p A with ⟨-, h⟩ | ⟨-, -, h⟩ | ⟨-, -, -, h⟩ | ⟨-, -, c, -, h⟩ <;>
    rw [h]

theorem dispatchOne_cancelled : (dispatchOne cfg now p A).1.cancelled = A.cancelled := by
  rcases dispatchOne_cases cfg now p A with ⟨-, h⟩ | ⟨-, -, h⟩ | ⟨-, -, -, h⟩ | ⟨-, -, c, -, h⟩ <;>
    rw [h]

/-- Only the future of the popped request can change, and only from unresolved. -/
theorem dispatchOne_future (cfg : GatewayConfig) (now : ℚ) (p : PendingRequest) (A : Admission)
    (r : ReqId) :
    (dispatchOne cfg now p A).1.future r = A.future r ∨
      (r = p.oid ∧ A.future r = .unresolved ∧
        ((dispatchOne cfg now p A).1.future r).done = true) := by
  rcases dispatchOne_cases cfg now p A with
    ⟨-, h⟩ | ⟨hlive, -, h⟩ | ⟨-, -, -, h⟩ | ⟨hlive, -, c, -, h⟩
  · exact .inl (by rw [h])
  · by_cases hr : r = p.oid
    · subst hr
      exact .inr ⟨rfl, hlive.2, by simp [h, Future.done]⟩
    · exact .inl (by simp [h, hr])
  · exact .inl (by rw [h])
  · by_cases hr : r = p.oid
    · subst hr
      exact .inr ⟨rfl, hlive.2, by simp [h, Future.done]⟩
    · exact .inl (by simp [h, hr])

/-- A popped request is put back alone or not at all. -/
theorem dispatchOne_requeue : (dispatchOne cfg now p A).2.Sublist [p] := by
  rcases dispatchOne_cases cfg now p A with ⟨-, h⟩ | ⟨-, -, h⟩ | ⟨-, -, -, h⟩ | ⟨-, -, c, -, h⟩
  · exact h ▸ List.nil_sublist _
  · exact h ▸ List.nil_sublist _
  · exact h ▸ List.Sublist.refl _
  · exact h ▸ List.nil_sublist _

/-- **Rule for the batch loop.** What one round preserves for every request of the
batch, the loop preserves. -/
theorem dispatchBatch_rule {I : Admission → Prop} {batch : List PendingRequest}
    (hone : ∀ B, ∀ p ∈ batch, I B → I (dispatchOne cfg now p B).1) (hA : I A) :
    I (dispatchBatch cfg now batch A).1 := by
  induction batch generalizing A with
  | nil => exact hA
  | cons p batch ih =>
    exact ih (fun B q hq => hone B q (List.mem_cons_of_mem _ hq))
      (hone A p (List.mem_cons_self ..) hA)

theorem dispatchBatch_queue (batch : List PendingRequest) :
    (dispatchBatch cfg now batch A).1.queue = A.queue :=
  dispatchBatch_rule (I := fun B => B.queue = A.queue)
    (fun _ _ _ hB => dispatchOne_queue.trans hB) rfl

theorem dispatchBatch_cancelled (batch : List PendingRequest) :
    (dispatchBatch cfg now batch A).1.cancelled = A.cancelled :=
  dispatchBatch_rule (I := fun B => B.cancelled = A.cancelled)
    (fun _ _ _ hB => dispatchOne_cancelled.trans hB) rfl

/-- The loop over a batch changes futures of its requests only. One that changes was
unresolved, and is done from then on. -/
theorem dispatchBatch_future (cfg : GatewayConfig) (now : ℚ) (r : ReqId)
    (batch : List PendingRequest) (A : Admission) :
    (dispatchBatch cfg now batch A).1.future r = A.future r ∨
      ((∃ p ∈ batch, r = p.oid) ∧ A.future r = .unresolved ∧
        ((dispatchBatch cfg now batch A).1.future r).done = true) := by
  refine dispatchBatch_rule (I := fun B => B.future r = A.future r ∨
    ((∃ p ∈ batch, r = p.oid) ∧ A.future r = .unresolved ∧ (B.future r).done = true)) ?_ (.inl rfl)
  intro B p hp hB
  rcases dispatchOne_future cfg now p B r with hsame | ⟨hr, hun, hdone⟩
  · rw [hsame]
    exact hB
  · rcases hB with hold | ⟨-, -, hdone'⟩
    · exact .inr ⟨⟨p, hp, hr⟩, hold ▸ hun, hdone⟩
    · -- a done future is not touched again
      rw [hun] at hdone'
      cases hdone'

/-- What is put back is a part of the batch, in the order of the batch. -/
theorem dispatchBatch_requeue (cfg : GatewayConfig) (now : ℚ) :
    ∀ (batch : List PendingRequest) (A : Admission),
      (dispatchBatch cfg now batch A).2.Sublist batch
  | [], _ => List.Sublist.refl _
  | p :: batch, _ => (dispatchOne_requeue (p := p)).append (dispatchBatch_requeue cfg now batch _)

/-- A tick on an empty batch does nothing. -/
theorem dispatchTick_of_empty
    (h : (AdmissionQueue.popBatch cfg.scheduler.dispatchBatchSize A.queue).1 = []) :
    dispatchTick cfg A = A := by
  simp [dispatchTick, h]

/-- The batch loop as a tick runs it. -/
def tickBatch (cfg : GatewayConfig) (A : Admission) : Admission × List PendingRequest :=
  let popped := AdmissionQueue.popBatch cfg.scheduler.dispatchBatchSize A.queue
  let w := A.world.readClock
  dispatchBatch cfg w.clock.now popped.1 { A with world := w, queue := popped.2 }

/-- What is left of the queue is the requeued part of the batch and the rest. -/
theorem dispatchTick_eq
    (h : (AdmissionQueue.popBatch cfg.scheduler.dispatchBatchSize A.queue).1 ≠ []) :
    dispatchTick cfg A = { (tickBatch cfg A).1 with
      queue := (tickBatch cfg A).2 ++
        (AdmissionQueue.popBatch cfg.scheduler.dispatchBatchSize A.queue).2 } := by
  have hne : (AdmissionQueue.popBatch cfg.scheduler.dispatchBatchSize A.queue).1.isEmpty =
    false := by
    simpa using h
  have hqueue : (tickBatch cfg A).1.queue =
      (AdmissionQueue.popBatch cfg.scheduler.dispatchBatchSize A.queue).2 :=
    dispatchBatch_queue _
  simp only [dispatchTick, hne]
  rw [AdmissionQueue.requeueFront_eq]
  by_cases hnil : (tickBatch cfg A).2 = []
  · show (if (tickBatch cfg A).2.isEmpty then (tickBatch cfg A).1 else _) = _
    rw [if_pos (by simp [hnil]), hnil, List.nil_append, ← hqueue]
  · show (if (tickBatch cfg A).2.isEmpty then (tickBatch cfg A).1 else
      { (tickBatch cfg A).1 with queue := (tickBatch cfg A).2 ++ (tickBatch cfg A).1.queue }) = _
    rw [if_neg (by simpa using hnil), hqueue]

/-- A pass takes requests out of the queue, and adds or reorders none. -/
theorem dispatchTick_queue (cfg : GatewayConfig) (A : Admission) :
    (dispatchTick cfg A).queue.Sublist A.queue := by
  by_cases h : (AdmissionQueue.popBatch cfg.scheduler.dispatchBatchSize A.queue).1 = []
  · rw [dispatchTick_of_empty h]
  · have happend := AdmissionQueue.popBatch_append cfg.scheduler.dispatchBatchSize A.queue
    have hsub := (dispatchBatch_requeue cfg A.world.readClock.clock.now
      (AdmissionQueue.popBatch cfg.scheduler.dispatchBatchSize A.queue).1
      { A with
        world := A.world.readClock
        queue := (AdmissionQueue.popBatch cfg.scheduler.dispatchBatchSize A.queue).2 }).append
      (List.Sublist.refl (AdmissionQueue.popBatch cfg.scheduler.dispatchBatchSize A.queue).2)
    rw [happend] at hsub
    rw [dispatchTick_eq h]
    exact hsub

/-- **Rule for a scheduling pass.** A property that does not look at the queue, and
that the clock and the batch loop preserve, a pass preserves. -/
theorem dispatchTick_rule {I : Admission → Prop} (hqueue : ∀ B q, I B → I { B with queue := q })
    (hread : ∀ B, I B → I { B with world := B.world.readClock })
    (hone : ∀ B now p, I B → I (dispatchOne cfg now p B).1) (hA : I A) :
    I (dispatchTick cfg A) := by
  by_cases h : (AdmissionQueue.popBatch cfg.scheduler.dispatchBatchSize A.queue).1 = []
  · rw [dispatchTick_of_empty h]
    exact hA
  · rw [dispatchTick_eq h]
    refine hqueue _ _ (dispatchBatch_rule (fun B p _ => hone B _ p) ?_)
    exact hqueue _ _ (hread A hA)

theorem dispatchTick_cancelled (cfg : GatewayConfig) (A : Admission) :
    (dispatchTick cfg A).cancelled = A.cancelled :=
  dispatchTick_rule (I := fun B => B.cancelled = A.cancelled) (fun _ _ hB => hB) (fun _ hB => hB)
    (fun _ _ _ hB => dispatchOne_cancelled.trans hB) rfl

/-- A pass resolves futures of requests that were in the queue, and none that is done
already. -/
theorem dispatchTick_future (cfg : GatewayConfig) (A : Admission) (r : ReqId) :
    (dispatchTick cfg A).future r = A.future r ∨
      ((∃ p ∈ A.queue, r = p.oid) ∧ A.future r = .unresolved ∧
        ((dispatchTick cfg A).future r).done = true) := by
  by_cases h : (AdmissionQueue.popBatch cfg.scheduler.dispatchBatchSize A.queue).1 = []
  · rw [dispatchTick_of_empty h]
    exact .inl rfl
  · rw [dispatchTick_eq h]
    rcases dispatchBatch_future cfg A.world.readClock.clock.now r
      (AdmissionQueue.popBatch cfg.scheduler.dispatchBatchSize A.queue).1 _ with hsame | hres
    · exact .inl hsame
    · obtain ⟨⟨p, hp, hr⟩, hrest⟩ := hres
      refine .inr ⟨⟨p, ?_, hr⟩, hrest⟩
      rw [← AdmissionQueue.popBatch_append cfg.scheduler.dispatchBatchSize A.queue]
      exact List.mem_append_left _ hp

/-- The state in which a tick enters its loop over the batch. -/
def opened (cfg : GatewayConfig) (A : Admission) : Admission :=
  { A with
    world := (A.world.tickCircuits cfg.health).readClock
    queue := (AdmissionQueue.popBatch cfg.scheduler.dispatchBatchSize A.queue).2 }

/-- With nothing to dispatch a tick is the pass over the circuits. -/
theorem schedulerTick_of_empty
    (h : (AdmissionQueue.popBatch cfg.scheduler.dispatchBatchSize A.queue).1 = []) :
    schedulerTick cfg A = { A with world := A.world.tickCircuits cfg.health } :=
  dispatchTick_of_empty (A := { A with world := A.world.tickCircuits cfg.health }) h

/-- A tick with a batch, from the state its loop starts in. -/
theorem schedulerTick_eq {batch : List PendingRequest}
    (hbatch : (AdmissionQueue.popBatch cfg.scheduler.dispatchBatchSize A.queue).1 = batch)
    (h : batch ≠ []) :
    schedulerTick cfg A =
      let B := dispatchBatch cfg (opened cfg A).world.clock.now batch (opened cfg A)
      { B.1 with queue := B.2 ++ (opened cfg A).queue } := by
  subst hbatch
  exact dispatchTick_eq (A := { A with world := A.world.tickCircuits cfg.health }) h

/-- A tick takes requests out of the queue, and adds or reorders none. -/
theorem schedulerTick_queue : (schedulerTick cfg A).queue.Sublist A.queue :=
  dispatchTick_queue cfg { A with world := A.world.tickCircuits cfg.health }

theorem schedulerTick_cancelled : (schedulerTick cfg A).cancelled = A.cancelled :=
  dispatchTick_cancelled cfg { A with world := A.world.tickCircuits cfg.health }

/-- A tick resolves futures of queued requests only, and none that is done. -/
theorem schedulerTick_future (cfg : GatewayConfig) (A : Admission) (r : ReqId) :
    (schedulerTick cfg A).future r = A.future r ∨
      ((∃ p ∈ A.queue, r = p.oid) ∧ A.future r = .unresolved ∧
        ((schedulerTick cfg A).future r).done = true) :=
  dispatchTick_future cfg { A with world := A.world.tickCircuits cfg.health } r

end Admission

end InferenceGateway
