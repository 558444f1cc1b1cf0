import InferenceGateway.Guarantees.Breaker
import InferenceGateway.Scheduler.Rounds
import InferenceGateway.Scheduler.Tasks

/-!
# The queue: bounded, and first in first out

- `queue_bounded`: at every statement of every task the queue is within its
  bound, although `requeue_front` checks none, and `enqueue` refuses exactly
  when the bound is reached. It is proved of the code of each task, statement by
  statement: what a tick has in hand still has its place in the queue
  (`bounded_batchCode`), and no `enqueue` can come in between, since the tick
  never really suspends.
- `fifo`: what waits stands in the order of acceptance, and a round of a tick
  dispatches its request past an older live one if and only if one has been put
  back and a circuit cools down just then. The order is an invariant of every
  run (`Scheduler.Rounds`); that nobody is overtaken needs that the requests
  which were put back still find nothing (`Calm`).
- `search_none_of_stuck`: where nothing passes, a search finds something exactly
  when a circuit cools down at its turn.
- `fifo_overtaken`: a run in which a cooldown ends between two checks.
-/

namespace InferenceGateway

open Lib

namespace Lifecycle

variable {cfg : GatewayConfig} {now : ℚ} {L L' : Lifecycle} {a : Act} {S : Loop Lifecycle}
  {p q : PendingRequest}

/-! ## Capacity -/

/-- The queue is within its bound. -/
def Bounded (cfg : GatewayConfig) (L : Lifecycle) : Prop :=
  (L.adm.queue.length : ℤ) ≤ cfg.scheduler.queueMaxSize

/-- `enqueue` refuses a queue that is full, and no other. -/
theorem enqueue_eq_none_iff {maxSize : ℤ} {queue : List PendingRequest} :
    AdmissionQueue.enqueue maxSize queue p = none ↔ maxSize ≤ queue.length := by
  unfold AdmissionQueue.enqueue
  split <;> simp_all

/-- Below its bound the queue takes the request, at the end. -/
theorem enqueue_of_room {maxSize : ℤ} {queue : List PendingRequest}
    (h : (queue.length : ℤ) < maxSize) :
    AdmissionQueue.enqueue maxSize queue p = some (queue ++ [p]) :=
  if_neg (not_le.mpr h)

/-- From the loop over the batch on, what is still in hand has its place in the queue:
the bound counts the popped requests as well, so putting them back cannot break it. -/
theorem bounded_batchCode : ∀ (batch requeue : List PendingRequest) (L : Lifecycle),
    (L.adm.queue.length + batch.length + requeue.length : ℤ) ≤ cfg.scheduler.queueMaxSize →
    (batchCode cfg now batch requeue).Always (Bounded cfg) L
  | [], requeue, L, h => by
    have hnow : Bounded cfg L := by
      unfold Bounded
      simp only [List.length_nil] at h
      omega
    unfold batchCode
    split
    · exact hnow
    · refine ⟨hnow, ?_⟩
      show ((AdmissionQueue.requeueFront requeue L.adm.queue).length : ℤ) ≤ _
      rw [AdmissionQueue.requeueFront_eq, List.length_append]
      push_cast
      simp only [List.length_nil] at h
      omega
  | p :: batch, requeue, L, h => by
    -- one request less in the batch, and at most one more to put back
    have hsub : (Admission.dispatchOne cfg now p L.adm).2.Sublist [p] :=
      Admission.dispatchOne_requeue
    have hone := hsub.length_le
    rw [List.length_cons, List.length_nil] at hone
    rw [List.length_cons] at h
    push_cast at h
    refine ⟨by unfold Bounded; omega, bounded_batchCode batch _ _ ?_⟩
    rw [Admission.dispatchOne_queue, List.length_append]
    push_cast
    omega

/-- After `pop_batch` the batch is in hand and no longer in the queue. -/
theorem bounded_afterPop {batch : List PendingRequest}
    (h : (L.adm.queue.length + batch.length : ℤ) ≤ cfg.scheduler.queueMaxSize) :
    (afterPop cfg batch).Always (Bounded cfg) L := by
  have hnow : Bounded cfg L := by
    unfold Bounded
    omega
  unfold afterPop
  split
  · exact hnow
  · refine ⟨hnow, bounded_batchCode _ _ _ ?_⟩
    rw [List.length_nil]
    push_cast
    omega

/-- A tick keeps the bound at each of its statements, if it begins within it. -/
theorem bounded_tickCode (h : Bounded cfg L) : (tickCode cfg).Always (Bounded cfg) L := by
  have hsplit := congrArg List.length
    (AdmissionQueue.popBatch_append cfg.scheduler.dispatchBatchSize L.adm.queue)
  rw [List.length_append] at hsplit
  refine ⟨h, h, bounded_afterPop ?_⟩
  show ((AdmissionQueue.popBatch _ L.adm.queue).2.length +
    (AdmissionQueue.popBatch _ L.adm.queue).1.length : ℤ) ≤ _
  unfold Bounded at h
  omega

/-- A call of `enqueue` keeps the bound at each of its statements. -/
theorem bounded_enqueueCode (h : Bounded cfg L) :
    (enqueueCode cfg p).Always (Bounded cfg) L := by
  refine ⟨h, ?_⟩
  show Bounded cfg (enqueueBody cfg p L)
  unfold enqueueBody Bounded
  by_cases hroom : (L.adm.queue.length : ℤ) < cfg.scheduler.queueMaxSize
  · rw [enqueue_of_room hroom]
    show ((L.adm.queue ++ [p]).length : ℤ) ≤ _
    rw [List.length_append, List.length_singleton]
    push_cast
    omega
  · rw [enqueue_eq_none_iff.mpr (not_lt.mp hroom)]
    exact h

/-- **Step lemma.** Whatever task gets control keeps the bound, whether it is about the
queue or not. -/
theorem bounded_of_starts {c : Code Lifecycle} (h : Bounded cfg L) (hs : Starts cfg L a c) :
    c.Always (Bounded cfg) L := by
  cases hs with
  | enqueue => exact bounded_enqueueCode h
  | tick => exact bounded_tickCode h
  | cancel => exact ⟨h, h⟩
  | withdraw => exact ⟨h, h⟩
  | elsewhere => exact ⟨h, h⟩

/-- **Capacity.** However the event loop interleaves the tasks, at every statement the
queue holds at most `queue_max_size` requests and nobody waits for its lock. `enqueue`
raises `QueueFullError` exactly when that many are queued, and then leaves queue,
futures and flags alone; otherwise it appends. -/
theorem queue_bounded (hmax : 0 ≤ cfg.scheduler.queueMaxSize) (h : Reach (tasks cfg) anyStep S) :
    (S.shared.adm.queue.length : ℤ) ≤ cfg.scheduler.queueMaxSize ∧ S.waiters = [] ∧
    ∀ p,
      (AdmissionQueue.enqueue cfg.scheduler.queueMaxSize S.shared.adm.queue p = none ↔
        (S.shared.adm.queue.length : ℤ) = cfg.scheduler.queueMaxSize) ∧
      ((S.shared.adm.queue.length : ℤ) = cfg.scheduler.queueMaxSize →
        (enqueueBody cfg p S.shared).adm = S.shared.adm) ∧
      ((S.shared.adm.queue.length : ℤ) ≠ cfg.scheduler.queueMaxSize →
        (enqueueBody cfg p S.shared).adm =
          { S.shared.adm with queue := S.shared.adm.queue ++ [p] }) := by
  -- a bound of the shared queue that every task keeps, run as a whole
  have hbound : Bounded cfg S.shared := by
    refine Loop.always (fun _ _ _ hs => tidy_of_starts hs) ?_
      (fun _ _ _ _ hL hs => bounded_of_starts hL hs) h
    intro L hL
    unfold Bounded
    rw [hL.queue]
    exact hmax
  unfold Bounded at hbound
  refine ⟨hbound, (lifecycle_of_tasks h).1, fun p => ⟨?_, fun hfull => ?_, fun hroom => ?_⟩⟩
  · rw [enqueue_eq_none_iff]
    exact ⟨fun hle => le_antisymm hbound hle, fun heq => heq.ge⟩
  · rw [enqueueBody, enqueue_eq_none_iff.mpr hfull.ge]
  · rw [enqueueBody, enqueue_of_room (lt_of_le_of_ne hbound hroom)]

/-- `linedUp` after a tick, which has put requests 2 and 3 back, and two more calls of
`enqueue`. -/
def crowded : Lifecycle :=
  enqueueBody narrow (inLineSince 3 5) (enqueueBody narrow (inLineSince 3 4)
    { linedUp with adm := linedUp.adm.schedulerTick narrow })

theorem crowded_queue : crowded.adm.queue.map (·.oid) = [2, 3, 4, 5] := by
  decide +kernel

/-- A tick has put two requests back, and two more were accepted after it. -/
theorem crowded_reachable : Reach (tasks narrow) anyStep ⟨crowded, false, [], none⟩ := by
  have hticked : Reach (machine narrow) anyStep
      { linedUp with adm := linedUp.adm.schedulerTick narrow } :=
    linedUp_reachable.step trivial .tick
  have hfifth : Reach (machine narrow) anyStep (enqueueBody narrow (inLineSince 3 4) _) :=
    hticked.step trivial (step_of_starts (.enqueue rfl))
  refine tasks_of_reach (hfifth.step trivial (step_of_starts (.enqueue ?_)))
  decide +kernel

theorem queue_bounded_crowded :
    (crowded.adm.queue.map (·.oid) = [2, 3, 4, 5] ∧
      ∀ p, AdmissionQueue.enqueue narrow.scheduler.queueMaxSize crowded.adm.queue p = none) ∧
    (crowded.adm.queue.length : ℤ) ≤ narrow.scheduler.queueMaxSize ∧
    (⟨crowded, false, [], none⟩ : Loop Lifecycle).waiters = [] ∧
    ∀ p,
      (AdmissionQueue.enqueue narrow.scheduler.queueMaxSize crowded.adm.queue p = none ↔
        (crowded.adm.queue.length : ℤ) = narrow.scheduler.queueMaxSize) ∧
      ((crowded.adm.queue.length : ℤ) = narrow.scheduler.queueMaxSize →
        (enqueueBody narrow p crowded).adm = crowded.adm) ∧
      ((crowded.adm.queue.length : ℤ) ≠ narrow.scheduler.queueMaxSize →
        (enqueueBody narrow p crowded).adm =
          { crowded.adm with queue := crowded.adm.queue ++ [p] }) := by
  have hbounded := queue_bounded (by decide) crowded_reachable
  have hfull : (crowded.adm.queue.length : ℤ) = narrow.scheduler.queueMaxSize := by
    rw [← List.length_map (PendingRequest.oid ·), crowded_queue]
    rfl
  exact ⟨⟨crowded_queue, fun p => (hbounded.2.2 p).1.mpr hfull⟩, hbounded⟩

end Lifecycle

/-! ## Order -/

namespace World

variable {w : World} {health : HealthConfig} {b : String}

/-- The checks refuse `b` as its row is and pass it at its next turn: its circuit is
open and cools down in between. -/
def Thaws (health : HealthConfig) (w : World) (b : String) : Prop :=
  b ∈ w.names ∧ Health.passes health (w.row b) = false ∧
    Health.passes health
      (Health.maybeTransitionFromOpen health (w.readingFor none w.names b) (w.row b)) = true

/-- No backend passes the checks as its row is. -/
def Stuck (health : HealthConfig) (w : World) : Prop :=
  ∀ b ∈ w.names, Health.passes health (w.row b) = false

end World

namespace Admission

variable {cfg : GatewayConfig} {now : ℚ} {A : Admission} {p q : PendingRequest}
  {c : RequestClass} {w : World} {b : String}

/-- What the search does to a row, and whether it admits the backend, is what its one
check does: each row is checked once, at a reading of its own. -/
theorem search_check (hb : b ∈ w.names) :
    (search cfg c w).1.row b = Health.maybeTransitionFromOpen cfg.health
        (w.readingFor none w.names b) (w.row b) ∧
      (b ∈ (World.eligible cfg.health none w.names w).2 ↔ Health.passes cfg.health
        (Health.maybeTransitionFromOpen cfg.health (w.readingFor none w.names b) (w.row b))
          = true) := by
  obtain ⟨hrow, hmem⟩ : (World.eligible cfg.health none w.names w).1.registry.row b = _ ∧
      (b ∈ (World.eligible cfg.health none w.names w).2 ↔ _) :=
    World.eligible_check w.names w w.registry.nodup hb (Option.some_ne_none b) hb
  obtain ⟨hreg, -, -⟩ := Scoring.pickBackend_sameButClock cfg.routing c
    (World.eligible cfg.health none w.names w).2 (World.eligible cfg.health none w.names w).1
  refine ⟨?_, hmem⟩
  show (search cfg c w).1.registry.row b = _
  rw [search, hreg]
  exact hrow

/-- The search finds nothing exactly when no backend passes at its turn. -/
theorem search_none_iff : (search cfg c w).2 = none ↔ ∀ b ∈ w.names,
    Health.passes cfg.health (Health.maybeTransitionFromOpen cfg.health
      (w.readingFor none w.names b) (w.row b)) = false := by
  rw [search, Scoring.pickBackend_eq_none_iff, List.eq_nil_iff_forall_not_mem]
  constructor
  · intro hnone b hb
    exact Bool.eq_false_iff.mpr fun hpass => hnone b ((search_check (c := c) hb).2.mpr hpass)
  · intro hfail b hb
    obtain ⟨hname, -, -⟩ := World.eligible_spec w.names w w.registry.nodup hb
    have hpass := (search_check (c := c) hname).2.mp hb
    rw [hfail b hname] at hpass
    cases hpass

theorem search_names : (search cfg c w).1.names = w.names := by
  obtain ⟨hreg, -, -⟩ := Scoring.pickBackend_sameButClock cfg.routing c
    (World.eligible cfg.health none w.names w).2 (World.eligible cfg.health none w.names w).1
  exact (congrArg BackendRegistry.names hreg).trans (World.eligible_names w.names w)

/-- After a search that found nothing, nothing passes. -/
theorem stuck_of_search_none (h : (search cfg c w).2 = none) :
    (search cfg c w).1.Stuck cfg.health := by
  intro b hb
  rw [search_names] at hb
  rw [(search_check hb).1]
  exact search_none_iff.mp h b hb

/-- Where nothing passes, a search finds something exactly when a circuit cools down. -/
theorem search_none_of_stuck (h : w.Stuck cfg.health) :
    (search cfg c w).2 = none ↔ ∀ b, ¬ w.Thaws cfg.health b := by
  rw [search_none_iff]
  constructor
  · rintro hfail b ⟨hb, -, hpass⟩
    rw [hfail b hb] at hpass
    cases hpass
  · exact fun hcold b hb => Bool.eq_false_iff.mpr fun hpass => hcold b ⟨hb, h b hb, hpass⟩

/-- The round of `q` dispatches it. -/
def Dispatches (cfg : GatewayConfig) (now : ℚ) (q : PendingRequest) (A : Admission) : Prop :=
  A.future q.oid = .unresolved ∧
    ∃ grant, (dispatchOne cfg now q A).1.future q.oid = .target grant

/-- A round dispatches its request if the request is live, young, and finds a
backend. -/
theorem dispatches_iff : Dispatches cfg now q A ↔
    A.Live q.oid ∧ now - q.enqueuedAtMonotonic < cfg.maxAgeS ∧
      (search cfg q.classify.reqClass A.world).2 ≠ none := by
  unfold Dispatches
  -- dead, too old, without a backend, or dispatched
  rcases dispatchOne_cases cfg now q A with
    ⟨hdead, h⟩ | ⟨hlive, hage, h⟩ | ⟨hlive, hage, hnone, h⟩ | ⟨hlive, hage, chosen, hchosen, h⟩
  · rw [h]
    refine iff_of_false ?_ fun hall => hdead hall.1
    rintro ⟨hun, grant, hf⟩
    cases hun.symm.trans hf
  · rw [h]
    refine iff_of_false ?_ fun hall => absurd hall.2.1 (not_lt.mpr hage)
    rintro ⟨-, grant, hf⟩
    cases (Function.update_self .. : _ = _).symm.trans hf
  · rw [h]
    refine iff_of_false ?_ fun hall => hall.2.2 hnone
    rintro ⟨hun, grant, hf⟩
    cases hun.symm.trans hf
  · rw [h]
    refine iff_of_true ⟨hlive.2, _, Function.update_self ..⟩ ⟨hlive, hage, ?_⟩
    rw [hchosen]
    exact Option.some_ne_none chosen

end Admission

namespace Rounds

variable {cfg : GatewayConfig} {now : ℚ} {S : Rounds} {a : Act}

/-- The round about to run dispatches its request only when every request accepted
before it has been dispatched, rejected or cancelled. -/
def InTurn (cfg : GatewayConfig) (S : Rounds) : Prop :=
  ∀ now q batch requeue, S.pass = some ⟨now, q :: batch, requeue⟩ →
    Admission.Dispatches cfg now q S.life.adm →
      ∀ p, [q, p].Sublist S.life.accepted → ¬ S.life.adm.Live p.oid

/-- The round about to run is that of a live request that is young enough, another
request has been put back, and a circuit cools down. -/
def Overtakes (cfg : GatewayConfig) (S : Rounds) : Prop :=
  ∃ now q batch requeue, S.pass = some ⟨now, q :: batch, requeue⟩ ∧ requeue ≠ [] ∧
    S.life.adm.Live q.oid ∧ now - q.enqueuedAtMonotonic < cfg.maxAgeS ∧
    ∃ b, S.life.adm.world.Thaws cfg.health b

/-- The guard: no round of this kind runs. -/
def Steady (cfg : GatewayConfig) (S : Rounds) (a : Act) : Prop := a = .round → ¬ Overtakes cfg S

/-- Once a request has been put back, nothing passes any more. -/
def Calm (cfg : GatewayConfig) (S : Rounds) : Prop :=
  ∀ pass, S.pass = some pass → pass.requeue ≠ [] → S.life.adm.world.Stuck cfg.health

/-- A round keeps what was put back from finding anything, unless a circuit thaws in
it. -/
theorem Calm.round {L : Lifecycle} {p : PendingRequest} {batch requeue : List PendingRequest}
    (h : Calm cfg ⟨L, some ⟨now, p :: batch, requeue⟩⟩)
    (hcold : ¬ Overtakes cfg ⟨L, some ⟨now, p :: batch, requeue⟩⟩) :
    Calm cfg ⟨{ L with adm := (Admission.dispatchOne cfg now p L.adm).1 },
      some ⟨now, batch, requeue ++ (Admission.dispatchOne cfg now p L.adm).2⟩⟩ := by
  rintro pass ⟨⟩ hback
  -- a round that puts nothing back finds something put back already
  have hstuck : (Admission.dispatchOne cfg now p L.adm).2 = [] →
      requeue ≠ [] ∧ L.adm.world.Stuck cfg.health := by
    intro hnil
    have hne : requeue ≠ [] := by
      rintro rfl
      exact hback (by simp only [hnil, List.append_nil])
    exact ⟨hne, h _ rfl hne⟩
  show (Admission.dispatchOne cfg now p L.adm).1.world.Stuck cfg.health
  rcases Admission.dispatchOne_cases cfg now p L.adm with
    ⟨-, heq⟩ | ⟨-, -, heq⟩ | ⟨-, -, hnone, heq⟩ | ⟨hlive, hage, chosen, hchosen, heq⟩
  · have hold := (hstuck (by rw [heq])).2
    rw [heq]
    exact hold
  · have hold := (hstuck (by rw [heq])).2
    rw [heq]
    exact hold
  · rw [heq]
    exact Admission.stuck_of_search_none hnone
  · -- a dispatch here would need a circuit that has just cooled down
    obtain ⟨hne, hold⟩ := hstuck (by rw [heq])
    have hnone := (Admission.search_none_of_stuck (c := p.classify.reqClass) hold).mpr
      fun b hthaw => hcold ⟨now, p, batch, requeue, rfl, hne, hlive, hage, b, hthaw⟩
    rw [hnone] at hchosen
    cases hchosen

/-- **Run lemma.** As long as no round overtakes, whatever was put back still finds
nothing. -/
theorem calm_of_reach (h : Reach (machine cfg) (Steady cfg) S) : Calm cfg S := by
  refine h.invariant (I := Calm cfg) ?_ ?_
  · rintro ⟨L, pass⟩ ⟨-, rfl⟩ pass hpass
    cases hpass
  rintro ⟨L, pass⟩ a S' hS hok hs
  -- nothing is in hand between the passes; within one the round decides
  cases hs with
  | outside => exact fun _ hpass => by cases hpass
  | empty => exact fun _ hpass => by cases hpass
  | pop =>
    rintro pass ⟨⟩ hback
    exact absurd rfl hback
  | round hpass =>
    obtain rfl : pass = _ := hpass
    exact hS.round (hok rfl)
  | finish => exact fun _ hpass => by cases hpass

/-- **First in, first out.** What waits stands in the order of acceptance, with every
accepted live request in it. In a run without such rounds, the next round dispatches
its request in turn if and only if it is not such a round either. -/
theorem fifo (h : Reach (machine cfg) (Steady cfg) S) :
    S.waiting.reverse.Sublist S.life.accepted ∧
    (∀ p ∈ S.life.accepted, S.life.adm.Live p.oid → p ∈ S.waiting) ∧
    (InTurn cfg S ↔ ¬ Overtakes cfg S) := by
  have hline := inLine_of_reach h.any
  have hcalm := calm_of_reach h
  obtain ⟨L, pass⟩ := S
  refine ⟨hline.order, hline.kept, ?_, ?_⟩
  · rintro hturn ⟨now, q, batch, requeue, hpass, hback, hlive, hage, b, hb, hfail, hthaw⟩
    obtain rfl : pass = _ := hpass
    obtain ⟨p, hp⟩ := List.exists_mem_of_ne_nil requeue hback
    have hfound : (Admission.search cfg q.classify.reqClass L.adm.world).2 ≠ none :=
      fun hnone => by
        rw [Admission.search_none_iff.mp hnone b hb] at hthaw
        cases hthaw
    refine hturn now q batch requeue rfl (Admission.dispatches_iff.mpr ⟨hlive, hage, hfound⟩) p ?_
      (hline.back _ rfl p hp)
    -- what was put back stands before `q`
    have horder : [p, q].Sublist (requeue ++ q :: batch ++ L.adm.queue) := by
      rw [List.append_assoc]
      exact (List.singleton_sublist.mpr hp).append (List.singleton_sublist.mpr (by simp))
    exact (List.reverse_sublist.mpr horder).trans hline.order
  · rintro hcold now q batch requeue hpass hdispatch p hbefore hlive
    obtain rfl : pass = _ := hpass
    obtain ⟨hliveq, hage, hfound⟩ := Admission.dispatches_iff.mp hdispatch
    have hlt : p.oid < q.oid := by
      have hpair := hline.numbered.sublist hbefore
      exact (List.pairwise_cons.mp hpair).1 p (by simp)
    have hsorted : (requeue ++ (q :: batch ++ L.adm.queue)).Pairwise
        (fun p q => p.oid < q.oid) := by
      rw [← List.append_assoc]
      exact hline.sorted
    have hwait : p ∈ requeue ++ (q :: batch ++ L.adm.queue) := by
      rw [← List.append_assoc]
      exact hline.kept p (hbefore.subset (by simp)) hlive
    -- an older one that waits has been put back
    have hback : p ∈ requeue := by
      refine (List.mem_append.mp hwait).resolve_right fun hlater => ?_
      rcases List.mem_cons.mp hlater with rfl | hlater
      · exact lt_irrefl _ hlt
      · have hq := (List.pairwise_append.mp hsorted).2.1
        exact absurd hlt (lt_asymm ((List.pairwise_cons.mp hq).1 p hlater))
    have hne : requeue ≠ [] := List.ne_nil_of_mem hback
    obtain ⟨b, hthaw⟩ :=
      not_forall_not.mp ((Admission.search_none_of_stuck (hcalm _ rfl hne)).not.mp hfound)
    exact hcold ⟨now, q, batch, requeue, rfl, hne, hliveq, hage, b, hthaw⟩

section Witness

open Lifecycle (narrow inLineSince untouched untouched_start linedUp)

/-- As long as nothing has been put back, the round of a request overtakes nobody. -/
theorem round_of_none_back {L : Lifecycle} {p : PendingRequest} {batch : List PendingRequest}
    (h : Reach (machine cfg) (Steady cfg) ⟨L, some ⟨now, p :: batch, []⟩⟩) :
    Reach (machine cfg) (Steady cfg)
      ⟨{ L with adm := (Admission.dispatchOne cfg now p L.adm).1 },
        some ⟨now, batch, (Admission.dispatchOne cfg now p L.adm).2⟩⟩ := by
  have hsteady : Steady cfg ⟨L, some ⟨now, p :: batch, []⟩⟩ .round := by
    rintro - ⟨now', q, batch', requeue, hpass, hback, -⟩
    obtain ⟨-, -, rfl⟩ := Pass.mk.inj (Option.some.inj hpass)
    exact hback rfl
  have hround : Step cfg ⟨L, some ⟨now, p :: batch, []⟩⟩ .round _ := .round rfl
  exact h.step hsteady hround

/-- The moment at which a tick looks at the four requests. -/
def lookedAt : ℚ := (firstPass narrow linedUp.adm).now

/-- The rounds of requests 0, 1 and 2: too old, granted the slot, put back. -/
def tooOld : Admission × List PendingRequest :=
  Admission.dispatchOne narrow lookedAt (inLineSince 0 0) (linedUp.adm.opened narrow)

def grantedSlot : Admission × List PendingRequest :=
  Admission.dispatchOne narrow lookedAt (inLineSince 2 1) tooOld.1

def foundNothing : Admission × List PendingRequest :=
  Admission.dispatchOne narrow lookedAt (inLineSince 2 2) grantedSlot.1

/-- The tick after these rounds; that of request 3 is next. -/
def putBack : Rounds :=
  ⟨{ linedUp with adm := foundNothing.1 },
    some ⟨lookedAt, [inLineSince 2 3], foundNothing.2⟩⟩

/-- The only slot is taken, and the first of two requests of a batch has been put
back. -/
theorem putBack_reachable : Reach (machine narrow) (Steady narrow) putBack := by
  have hidle : Reach (machine narrow) (Steady narrow) ⟨untouched, none⟩ :=
    .start ⟨untouched_start, rfl⟩
  have hfirst := hidle.step (a := .outside (.enqueue (inLineSince 0 0))) nofun
    (.outside rfl nofun (.accepted rfl rfl))
  have hsecond := hfirst.step (a := .outside (.enqueue (inLineSince 2 1))) nofun
    (.outside rfl nofun (.accepted rfl rfl))
  have hthird := hsecond.step (a := .outside (.enqueue (inLineSince 2 2))) nofun
    (.outside rfl nofun (.accepted rfl rfl))
  have hlined : Reach (machine narrow) (Steady narrow) ⟨linedUp, none⟩ :=
    hthird.step (a := .outside (.enqueue (inLineSince 2 3))) nofun
      (.outside rfl nofun (.accepted rfl rfl))
  have hopened : Reach (machine narrow) (Steady narrow)
      ⟨{ linedUp with adm := linedUp.adm.opened narrow }, some ⟨lookedAt,
        [inLineSince 0 0, inLineSince 2 1, inLineSince 2 2, inLineSince 2 3], []⟩⟩ :=
    hlined.step (a := .pop) nofun (.pop rfl (by decide +kernel))
  -- the first two rounds put nothing back
  obtain ⟨hold, hgranted⟩ : tooOld.2 = [] ∧ grantedSlot.2 = [] := by decide +kernel
  have hfirstRound : Reach (machine narrow) (Steady narrow)
      ⟨{ linedUp with adm := tooOld.1 },
        some ⟨lookedAt, [inLineSince 2 1, inLineSince 2 2, inLineSince 2 3], tooOld.2⟩⟩ :=
    round_of_none_back hopened
  rw [hold] at hfirstRound
  have hsecondRound : Reach (machine narrow) (Steady narrow)
      ⟨{ linedUp with adm := grantedSlot.1 },
        some ⟨lookedAt, [inLineSince 2 2, inLineSince 2 3], grantedSlot.2⟩⟩ :=
    round_of_none_back hfirstRound
  rw [hgranted] at hsecondRound
  exact round_of_none_back hsecondRound

theorem fifo_putBack :
    putBack.waiting.map (·.oid) = [2, 3] ∧
    putBack.waiting.reverse.Sublist putBack.life.accepted ∧
    (∀ p ∈ putBack.life.accepted, putBack.life.adm.Live p.oid → p ∈ putBack.waiting) ∧
    (InTurn narrow putBack ↔ ¬ Overtakes narrow putBack) :=
  ⟨by decide +kernel, fifo putBack_reachable⟩

end Witness

end Rounds

namespace Gateway

/-- The only circuit is open. Request 1 finds no backend and is put back; then the
cooldown ends, and request 2 of the same batch is dispatched. -/
theorem fifo_overtaken : ∃ g, Reachable brittle g ∧ g.adm.Live 1 ∧
    g.adm.queue.map (·.oid) = [1] ∧
    g.adm.future 2 = .target ⟨⟨"gpu-node-1", "http://10.0.0.1:8000"⟩, some 1⟩ := by
  refine exists_reachable (cooling [14])
    (tripped ++ [.arrive (chat false), .arrive (chat false), .tick]) ?_
  decide +kernel

end Gateway

end InferenceGateway
