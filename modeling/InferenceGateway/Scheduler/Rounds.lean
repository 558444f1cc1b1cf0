import InferenceGateway.Scheduler.Lifecycle

/-!
# The scheduler loop, one request of a batch at a time

`Lifecycle` with its tick taken apart: `pop` runs up to the loop over the batch,
`round` is the body of that loop, `finish` puts back what found no backend. The
locals of the loop are part of the state, so what each round starts from can be
spoken about: the order in which requests are looked at is a fact about rounds,
and a tick as a whole does not show it.

- `completion`: where a pass that is under way will end.
- `rounds_of_reach`, `reach_of_rounds`: the two machines reach the same states
  between two ticks. One direction runs a pass to its end (`chain_completion`);
  in the other every round leads to the same completion.
- `InLine`, `inLine_of_reach`: the requests that wait, in the order they are in,
  are a part of the accepted ones in the order they came in. While a pass is
  under way, those that wait are the ones put back, the rest of the batch, and
  the queue.
-/

namespace InferenceGateway

open Lib

/-- The locals of `_dispatch_tick` while its loop runs. -/
structure Pass where
  now : ℚ
  /-- What is left of the batch. -/
  batch : List PendingRequest
  requeue : List PendingRequest

structure Rounds where
  life : Lifecycle
  pass : Option Pass

namespace Rounds

inductive Act where
  | outside (a : Lifecycle.Act)
  | pop
  | round
  | finish

/-- The locals the loop over the batch starts with. -/
def firstPass (cfg : GatewayConfig) (A : Admission) : Pass where
  now := (A.opened cfg).world.clock.now
  batch := (AdmissionQueue.popBatch cfg.scheduler.dispatchBatchSize A.queue).1
  requeue := []

/-- The end of a pass. -/
def closed (requeue : List PendingRequest) (A : Admission) : Admission :=
  if requeue.isEmpty then A
  else { A with queue := AdmissionQueue.requeueFront requeue A.queue }

inductive Step (cfg : GatewayConfig) (S : Rounds) : Act → Rounds → Prop where
  /-- No other task gets control while a tick runs. -/
  | outside {a : Lifecycle.Act} {L : Lifecycle} (hidle : S.pass = none) (ha : a ≠ .tick)
      (hstep : Lifecycle.Step cfg S.life a L) : Step cfg S (.outside a) ⟨L, none⟩
  | empty (hidle : S.pass = none)
      (hnone : (AdmissionQueue.popBatch cfg.scheduler.dispatchBatchSize S.life.adm.queue).1 = []) :
      Step cfg S .pop ⟨{ S.life with adm := { S.life.adm with
        world := S.life.adm.world.tickCircuits cfg.health } }, none⟩
  | pop (hidle : S.pass = none)
      (hsome : (AdmissionQueue.popBatch cfg.scheduler.dispatchBatchSize S.life.adm.queue).1 ≠ []) :
      Step cfg S .pop ⟨{ S.life with adm := S.life.adm.opened cfg },
        some (firstPass cfg S.life.adm)⟩
  | round {now : ℚ} {p : PendingRequest} {batch requeue : List PendingRequest}
      (hpass : S.pass = some ⟨now, p :: batch, requeue⟩) :
      Step cfg S .round
        ⟨{ S.life with adm := (Admission.dispatchOne cfg now p S.life.adm).1 },
          some ⟨now, batch, requeue ++ (Admission.dispatchOne cfg now p S.life.adm).2⟩⟩
  | finish {now : ℚ} {requeue : List PendingRequest} (hpass : S.pass = some ⟨now, [], requeue⟩) :
      Step cfg S .finish ⟨{ S.life with adm := closed requeue S.life.adm }, none⟩

def machine (cfg : GatewayConfig) : Machine Rounds Act where
  start S := Lifecycle.Start S.life ∧ S.pass = none
  step := Step cfg

variable {cfg : GatewayConfig} {S S' : Rounds} {a : Act} {L : Lifecycle} {now : ℚ}

/-! ## The tick put together again -/

/-- The state once a pass has run to its end. -/
def completion (cfg : GatewayConfig) (S : Rounds) : Lifecycle :=
  match S.pass with
  | none => S.life
  | some pass =>
    let (A, rest) := Admission.dispatchBatch cfg pass.now pass.batch S.life.adm
    { S.life with adm := closed (pass.requeue ++ rest) A }

/-- When the loop begins, its end is what the tick would make of the state before it. -/
theorem completion_opened
    (h : (AdmissionQueue.popBatch cfg.scheduler.dispatchBatchSize L.adm.queue).1 ≠ []) :
    completion cfg ⟨{ L with adm := L.adm.opened cfg }, some (firstPass cfg L.adm)⟩ =
      { L with adm := L.adm.schedulerTick cfg } := by
  have hne : (AdmissionQueue.popBatch cfg.scheduler.dispatchBatchSize L.adm.queue).1.isEmpty
      = false := by
    simpa using h
  unfold Admission.schedulerTick Admission.dispatchTick
  simp only [hne]
  rfl

/-- A round leads to the same end as the state before it. -/
theorem completion_round {p : PendingRequest} {batch requeue : List PendingRequest} :
    completion cfg ⟨{ L with adm := (Admission.dispatchOne cfg now p L.adm).1 },
        some ⟨now, batch, requeue ++ (Admission.dispatchOne cfg now p L.adm).2⟩⟩ =
      completion cfg ⟨L, some ⟨now, p :: batch, requeue⟩⟩ := by
  simp only [completion, Admission.dispatchBatch, List.append_assoc]

/-- A pass can always be run to its end. By induction on what is left of the batch. -/
theorem chain_completion : ∀ (batch requeue : List PendingRequest) (L : Lifecycle),
    Chain (Step cfg) anyStep ⟨L, some ⟨now, batch, requeue⟩⟩
      ⟨completion cfg ⟨L, some ⟨now, batch, requeue⟩⟩, none⟩
  | [], requeue, L => by
    have hend : completion cfg ⟨L, some ⟨now, [], requeue⟩⟩ =
        { L with adm := closed requeue L.adm } := by
      simp [completion, Admission.dispatchBatch]
    rw [hend]
    exact .single (a := .finish) trivial (.finish rfl)
  | p :: batch, requeue, L => by
    rw [← completion_round]
    exact (Chain.single (a := .round) trivial (.round rfl)).trans (chain_completion batch _ _)

/-- Every step of the admission layer is a chain of the finer machine. -/
theorem rounds_of_reach (h : Reach (Lifecycle.machine cfg) anyStep L) :
    Reach (machine cfg) anyStep ⟨L, none⟩ := by
  refine h.invariant (I := fun L => Reach (machine cfg) anyStep ⟨L, none⟩)
    (fun L hL => .start ⟨hL, rfl⟩) ?_
  intro L a L' hL _ hs
  by_cases ha : a = .tick
  · subst ha
    cases hs
    -- with an empty queue a tick is one step of the finer machine, else a chain
    by_cases hempty : (AdmissionQueue.popBatch cfg.scheduler.dispatchBatchSize L.adm.queue).1 = []
    · rw [Admission.schedulerTick_of_empty hempty]
      exact hL.step (a := .pop) trivial (.empty rfl hempty)
    · have hpop : Step cfg ⟨L, none⟩ .pop
          ⟨{ L with adm := L.adm.opened cfg }, some (firstPass cfg L.adm)⟩ := .pop rfl hempty
      rw [← completion_opened hempty]
      exact (hL.step trivial hpop).chain (chain_completion _ _ _)
  · exact hL.step (a := .outside a) trivial (.outside rfl ha hs)

/-- Wherever the finer machine is, running the rest of its pass gives a state of the
admission layer, so the finer machine reaches nothing that the layer does not pass
through. -/
theorem reach_completion (h : Reach (machine cfg) anyStep S) :
    Reach (Lifecycle.machine cfg) anyStep (completion cfg S) := by
  refine h.invariant (I := fun S => Reach (Lifecycle.machine cfg) anyStep (completion cfg S)) ?_ ?_
  · rintro ⟨L, pass⟩ ⟨hstart, rfl⟩
    exact .start hstart
  rintro ⟨L, pass⟩ a S' hL _ hs
  cases hs with
  | outside hidle ha hstep =>
    obtain rfl : pass = none := hidle
    exact hL.step trivial hstep
  | empty hidle hnone =>
    obtain rfl : pass = none := hidle
    have htick : Reach (Lifecycle.machine cfg) anyStep { L with adm := L.adm.schedulerTick cfg } :=
      hL.step trivial .tick
    rw [Admission.schedulerTick_of_empty hnone] at htick
    exact htick
  | pop hidle hsome =>
    obtain rfl : pass = none := hidle
    rw [completion_opened hsome]
    exact hL.step trivial .tick
  -- the round changes the state but not where its pass will end
  | round hpass =>
    obtain rfl : pass = _ := hpass
    rw [completion_round]
    exact hL
  | finish hpass =>
    obtain rfl : pass = _ := hpass
    simpa only [completion, Admission.dispatchBatch, List.append_nil] using hL

/-- Between two ticks the two machines are in the same states. -/
theorem reach_of_rounds (h : Reach (machine cfg) anyStep S) (hidle : S.pass = none) :
    Reach (Lifecycle.machine cfg) anyStep S.life := by
  have hend := reach_completion h
  rwa [completion, hidle] at hend

/-! ## The line -/

/-- The requests that wait: those put back, the rest of the batch, the queue. -/
def waiting (S : Rounds) : List PendingRequest :=
  match S.pass with
  | none => S.life.adm.queue
  | some pass => pass.requeue ++ pass.batch ++ S.life.adm.queue

/-- What waits stands in the order of acceptance, and no accepted live request is
missing. -/
structure InLine (S : Rounds) : Prop where
  order : S.waiting.reverse.Sublist S.life.accepted
  numbered : S.life.accepted.Pairwise (fun q p => p.oid < q.oid)
  fresh : ∀ p ∈ S.life.accepted, p.oid < S.life.arrived
  kept : ∀ p ∈ S.life.accepted, S.life.adm.Live p.oid → p ∈ S.waiting
  /-- What has been put back is live. -/
  back : ∀ pass, S.pass = some pass → ∀ p ∈ pass.requeue, S.life.adm.Live p.oid

theorem closed_eq (requeue : List PendingRequest) (A : Admission) :
    closed requeue A = { A with queue := requeue ++ A.queue } := by
  unfold closed
  split
  · rename_i hnil
    rw [List.isEmpty_iff.mp hnil, List.nil_append]
  · rw [AdmissionQueue.requeueFront_eq]

/-- The waiting requests stand in the order of their numbers. -/
theorem InLine.sorted (h : InLine S) : S.waiting.Pairwise (fun p q => p.oid < q.oid) :=
  List.pairwise_reverse.mp (h.numbered.sublist h.order)

/-- Steps of the layer that are not ticks. -/
theorem InLine.outside {a : Lifecycle.Act} {L' : Lifecycle} (h : InLine ⟨L, none⟩)
    (ha : a ≠ .tick) (hs : Lifecycle.Step cfg L a L') : InLine ⟨L', none⟩ := by
  cases hs with
  | @accepted p q hoid hq =>
    obtain rfl : q = L.adm.queue ++ [p] := by
      unfold AdmissionQueue.enqueue at hq
      split at hq
      · cases hq
      · exact (Option.some.inj hq).symm
    refine ⟨?_, ?_, ?_, ?_, fun _ hnone => by cases hnone⟩
    · show (L.adm.queue ++ [p]).reverse.Sublist (p :: L.accepted)
      rw [List.reverse_append]
      exact h.order.cons_cons p
    · refine List.pairwise_cons.mpr ⟨fun x hx => ?_, h.numbered⟩
      rw [hoid]
      exact h.fresh x hx
    · intro x hx
      rcases List.mem_cons.mp hx with rfl | hx
      · exact hoid ▸ Nat.lt_succ_self _
      · exact (h.fresh x hx).trans (Nat.lt_succ_self _)
    · intro x hx hlive
      rcases List.mem_cons.mp hx with rfl | hx
      · exact List.mem_append_right _ (List.mem_singleton_self x)
      · exact List.mem_append_left _ (h.kept x hx hlive)
  -- a refused request has a number but no place in the line
  | refused hoid hq =>
    exact ⟨h.order, h.numbered, fun x hx => (h.fresh x hx).trans (Nat.lt_succ_self _), h.kept,
      fun _ hnone => by cases hnone⟩
  | tick => exact absurd rfl ha
  | @cancel r hr =>
    refine ⟨h.order, h.numbered, h.fresh, fun x hx hlive => h.kept x hx ⟨hlive.1, ?_⟩,
      fun _ hnone => by cases hnone⟩
    have hfut : (if (L.adm.future r).done then L.adm.future
      else Function.update L.adm.future r .cancelled) x.oid = .unresolved := hlive.2
    split at hfut
    · exact hfut
    · by_cases hxr : x.oid = r
      · rw [hxr, Function.update_self] at hfut
        cases hfut
      · rwa [Function.update_of_ne hxr] at hfut
  | @withdraw r hr =>
    refine ⟨h.order, h.numbered, h.fresh, fun x hx hlive => h.kept x hx ⟨?_, hlive.2⟩,
      fun _ hnone => by cases hnone⟩
    have hflag : Function.update L.adm.cancelled r true x.oid = false := hlive.1
    by_cases hxr : x.oid = r
    · rw [hxr, Function.update_self] at hflag
      cases hflag
    · rwa [Function.update_of_ne hxr] at hflag
  | elsewhere hw => exact ⟨h.order, h.numbered, h.fresh, h.kept, fun _ hnone => by cases hnone⟩

/-- A round takes its request out of the line, or moves it to those that are put back,
which stand in front of the batch. -/
theorem InLine.round {p : PendingRequest} {batch requeue : List PendingRequest}
    (h : InLine ⟨L, some ⟨now, p :: batch, requeue⟩⟩) :
    InLine ⟨{ L with adm := (Admission.dispatchOne cfg now p L.adm).1 },
      some ⟨now, batch, requeue ++ (Admission.dispatchOne cfg now p L.adm).2⟩⟩ := by
  have hone : (Admission.dispatchOne cfg now p L.adm).2.Sublist [p] :=
    Admission.dispatchOne_requeue
  have hqueue : (Admission.dispatchOne cfg now p L.adm).1.queue = L.adm.queue :=
    Admission.dispatchOne_queue
  -- the line after the round is the line before it, with or without the request of the round
  have hsub : (requeue ++ (Admission.dispatchOne cfg now p L.adm).2 ++ batch ++
      (Admission.dispatchOne cfg now p L.adm).1.queue).Sublist
      (requeue ++ p :: batch ++ L.adm.queue) := by
    rw [hqueue, List.append_assoc requeue]
    exact ((List.Sublist.refl requeue).append (hone.append (List.Sublist.refl batch))).append
      (List.Sublist.refl _)
  have hsorted : (requeue ++ p :: batch ++ L.adm.queue).Pairwise (fun p q => p.oid < q.oid) :=
    h.sorted
  refine ⟨(List.reverse_sublist.mpr hsub).trans h.order, h.numbered, h.fresh, ?_, ?_⟩
  · intro x hx hlive
    have hbefore : x ∈ requeue ++ p :: batch ++ L.adm.queue :=
      h.kept x hx (Admission.live_of_dispatchOne hlive)
    show x ∈ requeue ++ (Admission.dispatchOne cfg now p L.adm).2 ++ batch ++
      (Admission.dispatchOne cfg now p L.adm).1.queue
    rw [hqueue]
    by_cases hxp : x = p
    · subst hxp
      rw [Admission.requeue_of_live hlive]
      simp
    · simp only [List.mem_append, List.mem_cons, hxp, false_or] at hbefore ⊢
      tauto
  · rintro pass ⟨⟩ x hx
    rcases List.mem_append.mp hx with hx | hx
    · -- an older one, so not the request of this round
      have hlt : x.oid < p.oid := by
        rw [List.append_assoc] at hsorted
        exact (List.pairwise_append.mp hsorted).2.2 x hx p (by simp)
      exact (Admission.live_dispatchOne_of_ne hlt.ne).mpr (h.back _ rfl x hx)
    · obtain rfl : x = p := List.mem_singleton.mp (hone.subset hx)
      exact Admission.live_of_requeue hx

/-- **Step lemma.** A tick that begins splits the queue into batch and rest, and one
that ends joins what was put back and the rest. -/
theorem InLine.step (h : InLine S) (hs : Step cfg S a S') : InLine S' := by
  obtain ⟨L, pass⟩ := S
  cases hs with
  | outside hidle ha hstep =>
    obtain rfl : pass = none := hidle
    exact h.outside ha hstep
  | empty hidle hnone =>
    obtain rfl : pass = none := hidle
    exact ⟨h.order, h.numbered, h.fresh, h.kept, fun _ hnone => by cases hnone⟩
  | pop hidle hsome =>
    obtain rfl : pass = none := hidle
    -- the pass opens with what `pop_batch` took in front of what it left
    have hsplit : (firstPass cfg L.adm).requeue ++ (firstPass cfg L.adm).batch ++
        (L.adm.opened cfg).queue = L.adm.queue :=
      AdmissionQueue.popBatch_append cfg.scheduler.dispatchBatchSize L.adm.queue
    refine ⟨?_, h.numbered, h.fresh, ?_, ?_⟩
    · show (_ ++ _ ++ _ : List PendingRequest).reverse.Sublist _
      rw [hsplit]
      exact h.order
    · intro x hx hlive
      show x ∈ (_ ++ _ ++ _ : List PendingRequest)
      rw [hsplit]
      exact h.kept x hx hlive
    · rintro pass ⟨⟩ x hx
      cases hx
  | round hpass =>
    obtain rfl : pass = _ := hpass
    exact h.round
  | @finish now requeue hpass =>
    obtain rfl : pass = _ := hpass
    -- `requeue_front` puts back in front, in the order of the batch
    have hqueue : requeue ++ [] ++ L.adm.queue = (closed requeue L.adm).queue := by
      rw [closed_eq, List.append_nil]
    refine ⟨?_, h.numbered, h.fresh, ?_, fun _ hnone => by cases hnone⟩
    · show (closed requeue L.adm).queue.reverse.Sublist _
      rw [← hqueue]
      exact h.order
    · intro x hx hlive
      show x ∈ (closed requeue L.adm).queue
      rw [← hqueue]
      refine h.kept x hx ?_
      rw [closed_eq] at hlive
      exact hlive

/-- **Run lemma.** The line keeps its order, in the middle of a pass as well as between
two. -/
theorem inLine_of_reach (h : Reach (machine cfg) anyStep S) : InLine S := by
  refine h.invariant (I := InLine) ?_ fun _ _ _ hS _ hs => hS.step hs
  rintro ⟨L, pass⟩ ⟨hstart, rfl⟩
  refine ⟨?_, ?_, ?_, ?_, fun _ hnone => by cases hnone⟩
  · show L.adm.queue.reverse.Sublist L.accepted
    rw [hstart.queue]
    exact List.nil_sublist _
  all_goals
    show _
    rw [hstart.accepted]
    simp

end Rounds

end InferenceGateway
