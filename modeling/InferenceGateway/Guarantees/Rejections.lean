import InferenceGateway.Guarantees.Admission

/-!
# Rejections: what `gateway_rejections_total` counts

The counter is bumped in two tasks: by the scheduler when it finds a request too
old, and by the route when it answers 503. A request that the scheduler fails
for its age is counted there, and again under another label when its handler
resumes and finds no fallback. In a run in which no tick finds a live request
too old, only the route counts.

- `Overdue`, `NoneOverdue`: a request that a round would fail for its age, and
  the condition on a step that its tick meets none.
- `rejections_lt_dispatchBatch`: a batch with such a request is counted, so the
  condition cannot be weakened.
- `TurnsDown`, `step_turnsDown`: every other step answers and counts nobody, or
  one request for its cause.
- `rejections_counted`: in such a run the counter under each label is the number
  of requests answered 503 with that reason, every answer is counted in its own
  step under its own cause, and the next step keeps it so if and only if it is
  no such tick.
-/

namespace InferenceGateway

open Lib

/-! ## The counter -/

namespace World

variable {w w' : World} {reason : RejectionReason}

/-- `gateway_rejections_total` under one label. -/
def rejections (w : World) (reason : RejectionReason) : ℕ :=
  w.trace.count (.rejectionsTotal reason)

/-- What is quiet about requests counts no rejection. -/
theorem rejections_quiet (h : World.Quiet w w') : w'.rejections reason = w.rejections reason :=
  Writes.count h rfl

theorem rejections_emit_of_ne {e : Event} (he : ∀ reason, e ≠ .rejectionsTotal reason) :
    (w.emit e).rejections reason = w.rejections reason :=
  List.count_cons_of_ne (he reason)

theorem rejections_emit {counted : RejectionReason} :
    (w.emit (.rejectionsTotal counted)).rejections reason =
      w.rejections reason + if reason = counted then 1 else 0 := by
  show List.count _ (_ :: w.trace) = _
  rw [List.count_cons]
  by_cases h : reason = counted
  · simp [h, rejections]
  · simp [h, Ne.symm h, rejections]

/-- The pass over the circuits reads the clock once for each backend. -/
theorem tickCircuits_clock (health : HealthConfig) (w : World) :
    (w.tickCircuits health).clock = Clock.read^[w.names.length] w.clock := by
  unfold tickCircuits
  generalize w.names = bs
  induction bs generalizing w with
  | nil => rfl
  | cons b bs ih =>
    rw [List.foldl_cons, ih, List.length_cons, Function.iterate_succ_apply]
    rw [show (w.maybeTransitionFromOpen health b).clock = w.clock.read from moveCircuit_clock ..]

end World

/-! ## A tick and the counter -/

namespace Admission

variable {cfg : GatewayConfig} {now : ℚ} {p : PendingRequest} {A : Admission}
  {reason : RejectionReason} {batch : List PendingRequest}

/-- The round finds a live request too old. -/
def Overdue (cfg : GatewayConfig) (now : ℚ) (A : Admission) (p : PendingRequest) : Prop :=
  A.Live p.oid ∧ cfg.maxAgeS ≤ now - p.enqueuedAtMonotonic

instance : Decidable (Overdue cfg now A p) := inferInstanceAs (Decidable (_ ∧ _))

/-- A round counts a rejection exactly if its request is overdue. -/
theorem rejections_dispatchOne : (dispatchOne cfg now p A).1.world.rejections reason =
    A.world.rejections reason +
      if Overdue cfg now A p ∧ reason = .queueAge then 1 else 0 := by
  -- only the branch of a request that is too old counts a rejection
  rcases dispatchOne_cases cfg now p A with
    ⟨hdead, h⟩ | ⟨hlive, hage, h⟩ | ⟨-, hage, -, h⟩ | ⟨-, hage, chosen, -, h⟩
  · rw [h, if_neg fun hall => hdead hall.1.1, Nat.add_zero]
  · rw [h]
    show (World.emit (World.emit _ _) _).rejections reason = _
    rw [World.rejections_emit, World.rejections_emit_of_ne (by rintro _ ⟨⟩)]
    simp only [Overdue, hlive, hage, true_and]
  · rw [h, if_neg fun hall => absurd hall.1.2 (not_le.mpr hage), Nat.add_zero]
    exact World.rejections_quiet inner_search.quiet
  · rw [h, if_neg fun hall => absurd hall.1.2 (not_le.mpr hage), Nat.add_zero]
    show (World.emit _ _).rejections reason = _
    rw [World.rejections_emit_of_ne (by rintro _ ⟨⟩)]
    exact World.rejections_quiet (inner_search.quiet.trans World.inner_takeSlot.quiet)

/-- No future has been failed by the scheduler. -/
def Unfailed (A : Admission) : Prop := ∀ r m, A.future r ≠ .scheduleError m

/-- A round on a request that is not overdue fails no future. -/
theorem Unfailed.dispatchOne (h : A.Unfailed) (hage : ¬ Overdue cfg now A p) :
    (dispatchOne cfg now p A).1.Unfailed := by
  intro r m
  -- the branch that fails a future is the one of an overdue request
  rcases dispatchOne_cases cfg now p A with
    ⟨-, heq⟩ | ⟨hlive, hold, -⟩ | ⟨-, -, -, heq⟩ | ⟨-, -, chosen, -, heq⟩
  · rw [heq]
    exact h r m
  · exact absurd ⟨hlive, hold⟩ hage
  · rw [heq]
    exact h r m
  · rw [heq]
    by_cases hr : r = p.oid
    · subst hr
      simp
    · simpa [hr] using h r m

/-- A batch without overdue requests is not counted, and fails no future. -/
theorem dispatchBatch_unfailed (h : A.Unfailed) (hnone : ∀ p ∈ batch, ¬ Overdue cfg now A p) :
    (dispatchBatch cfg now batch A).1.Unfailed ∧ ∀ reason,
      (dispatchBatch cfg now batch A).1.world.rejections reason = A.world.rejections reason := by
  let I : Admission → Prop := fun B => (∀ r, B.Live r → A.Live r) ∧ B.Unfailed ∧
    ∀ reason, B.world.rejections reason = A.world.rejections reason
  have hall : I (dispatchBatch cfg now batch A).1 := by
    refine dispatchBatch_rule ?_ ⟨fun _ => id, h, fun _ => rfl⟩
    rintro B p hp ⟨hlive, hunfailed, hcount⟩
    have hage : ¬ Overdue cfg now B p := fun hover => hnone p hp ⟨hlive _ hover.1, hover.2⟩
    refine ⟨fun r hr => hlive r (live_of_dispatchOne hr), hunfailed.dispatchOne hage,
      fun reason => ?_⟩
    rw [rejections_dispatchOne, if_neg fun hall => hage hall.1, Nat.add_zero]
    exact hcount reason
  exact hall.2

/-- The loop only ever adds to the counter. -/
theorem rejections_le_dispatchBatch : A.world.rejections reason ≤
    (dispatchBatch cfg now batch A).1.world.rejections reason :=
  dispatchBatch_rule (I := fun B => A.world.rejections reason ≤ B.world.rejections reason)
    (fun B p _ hB => hB.trans (by rw [rejections_dispatchOne]; exact Nat.le_add_right _ _)) le_rfl

/-- An overdue request of the batch is counted. By induction on the rounds before its
own, none of which is about it. -/
theorem rejections_lt_dispatchBatch : ∀ (batch : List PendingRequest) (A : Admission),
    (batch.map (·.oid)).Nodup → (∃ p ∈ batch, Overdue cfg now A p) →
      A.world.rejections .queueAge <
        (dispatchBatch cfg now batch A).1.world.rejections .queueAge
  | [], _, _, hover => by
    obtain ⟨p, hp, -⟩ := hover
    cases hp
  | q :: batch, A, hnd, hover => by
    obtain ⟨p, hp, hover⟩ := hover
    obtain ⟨hq, hnd⟩ := List.nodup_cons.mp hnd
    have hone : (dispatchOne cfg now q A).1.world.rejections .queueAge =
        A.world.rejections .queueAge +
          if Overdue cfg now A q ∧ RejectionReason.queueAge = .queueAge then 1 else 0 :=
      rejections_dispatchOne
    rcases List.mem_cons.mp hp with rfl | hp
    · rw [if_pos ⟨hover, rfl⟩] at hone
      have hrest : (dispatchOne cfg now p A).1.world.rejections .queueAge ≤
          (dispatchBatch cfg now batch (dispatchOne cfg now p A).1).1.world.rejections .queueAge :=
        rejections_le_dispatchBatch
      show _ <
        (dispatchBatch cfg now batch (dispatchOne cfg now p A).1).1.world.rejections .queueAge
      omega
    · have hne : p.oid ≠ q.oid := fun heq => hq (List.mem_map.mpr ⟨p, hp, heq⟩)
      -- the round of another request leaves it live, so it is still overdue
      have hlater := rejections_lt_dispatchBatch batch (dispatchOne cfg now q A).1 hnd
        ⟨p, hp, (live_dispatchOne_of_ne hne).mpr hover.1, hover.2⟩
      show _ <
        (dispatchBatch cfg now batch (dispatchOne cfg now q A).1).1.world.rejections .queueAge
      omega

end Admission

/-! ## Answers -/

/-- The `reason` in the body of a 503 the handler has raised. -/
def Handler.rejection : Handler → Option String
  | .replied (.httpException status detail) => if status = 503 then detail.reason else none
  | _ => none

/-- The handler has not answered 503 with one of the counter's labels. -/
def Handler.Unrejected (h : Handler) : Prop :=
  ∀ reason : RejectionReason, h.rejection ≠ some reason.value

theorem Handler.unrejected_of_none {h : Handler} (hnone : h.rejection = none) : h.Unrejected := by
  intro reason hsome
  rw [hnone] at hsome
  cases hsome

/-- The labels of the counter. -/
def RejectionReason.all : List RejectionReason := [.queueFull, .queueAge, .noBackend, .overload]

/-- The handler has answered 503 with one of the counter's labels. -/
def Handler.isRejected (h : Handler) : Bool :=
  RejectionReason.all.any fun reason => decide (h.rejection = some reason.value)

/-- The label of a rejection says its reason. -/
theorem RejectionReason.value_injective : Function.Injective RejectionReason.value := by
  intro a b h
  cases a <;> cases b <;> simp_all [RejectionReason.value]

namespace Proxy

variable {D : Deployment} {w : World} {c : ProxyCall} {e : UpstreamError} {status : ℤ}
  {relayable : Bool}

theorem prepareTargetRequest_unrejected {target : BackendTarget} {p : PendingRequest}
    {reply : Reply} (h : prepareTargetRequest D target p = some reply) :
    (Handler.replied reply).Unrejected := by
  rcases prepareTargetRequest_eq_some h with
    ⟨name, -, rfl⟩ | ⟨-, -, -, detail, rfl, hreason⟩
  · exact Handler.unrejected_of_none rfl
  · intro reason
    cases reason <;> simp [Handler.rejection, RejectionReason.value, hreason]

/-- The proxy never answers 503 with a reason of the rejection branch. -/
theorem beginAttempt_unrejected : (beginAttempt D w c).2.Unrejected := by
  unfold beginAttempt
  by_cases hleft : (c.attempts : ℤ) < D.cfg.retry.maxAttempts
  · rw [if_pos hleft]
    cases hreply : prepareTargetRequest D c.target c.pending with
    | some reply =>
      simp only [hreply]
      exact prepareTargetRequest_unrejected hreply
    | none =>
      simp only [hreply]
      exact Handler.unrejected_of_none rfl
  · rw [if_neg hleft]
    exact Handler.unrejected_of_none rfl

theorem retryOrGiveUp_unrejected {retry : Bool} {how : Ending} {final : Reply}
    (hfinal : (Handler.replied final).Unrejected) :
    (retryOrGiveUp D w c retry how final).2.Unrejected := by
  rcases retryOrGiveUp_cases D w c retry how final with
    ⟨-, h⟩ | ⟨-, -, h⟩ | ⟨-, grant, -, h⟩ <;> rw [h]
  · exact hfinal
  · exact hfinal
  · exact beginAttempt_unrejected

theorem relay_unrejected : (Handler.replied (relay status relayable)).Unrejected := by
  refine Handler.unrejected_of_none ?_
  cases relayable <;> rfl

theorem onTransportError_unrejected : (onTransportError D w c e).2.Unrejected := by
  unfold onTransportError
  exact retryOrGiveUp_unrejected (Handler.unrejected_of_none rfl)

/-- Whatever came of `send`, the reply is no rejection. -/
theorem onUpstream_unrejected {o : Upstream} : (onUpstream D w c o).2.Unrejected := by
  generalize hnext : onUpstream D w c o = next
  cases upstreams_of_eq hnext with
  | answered hs hlt => exact relay_unrejected
  | refused hs hge => exact retryOrGiveUp_unrejected relay_unrejected
  | relayed hs hlt => exact Handler.unrejected_of_none rfl
  | unrelayable hs hlt => exact relay_unrejected
  | drained hs hge => exact Handler.unrejected_of_none rfl
  | uncaught he => exact Handler.unrejected_of_none rfl
  | streamError hs he => exact Handler.unrejected_of_none rfl
  | transportError hs he => exact onTransportError_unrejected

theorem onDrained_unrejected {o : BodyRead} : (onDrained D w c status o).2.Unrejected := by
  generalize hnext : onDrained D w c status o = next
  cases drains_of_eq hnext with
  | read => exact relay_unrejected
  | uncaught he => exact Handler.unrejected_of_none rfl
  | transportError he => exact onTransportError_unrejected

end Proxy

namespace Gateway

variable {D : Deployment} {g g' : Gateway} {a : Action} {r : ReqId} {reason : RejectionReason}

/-- Request `r` has been answered 503 with this reason. -/
def RejectedWith (g : Gateway) (r : ReqId) (reason : RejectionReason) : Prop :=
  (g.handler r).rejection = some reason.value

instance : Decidable (g.RejectedWith r reason) := inferInstanceAs (Decidable (_ = _))

/-- The requests answered 503 with this reason. -/
def rejected (g : Gateway) (reason : RejectionReason) : ℕ :=
  tally (fun h => decide (h.rejection = some reason.value)) g.handler (List.range g.arrived)

abbrev rejections (g : Gateway) (reason : RejectionReason) : ℕ := g.world.rejections reason

/-- The step answers `r` with this reason and counts it, once, under that label. -/
structure TurnsDown (g g' : Gateway) (r : ReqId) (reason : RejectionReason) : Prop where
  before : (g.handler r).Unrejected
  after : g'.RejectedWith r reason
  others : ∀ r', r' ≠ r → ∀ other, g'.RejectedWith r' other ↔ g.RejectedWith r' other
  counted : ∀ label,
    g'.rejections label = g.rejections label + if label = reason then 1 else 0

/-- The step answers nobody so and counts nothing. -/
structure TurnsDownNobody (g g' : Gateway) : Prop where
  answers : ∀ r reason, g'.RejectedWith r reason ↔ g.RejectedWith r reason
  counted : ∀ label, g'.rejections label = g.rejections label

/-- Why the step turns `r` away. -/
inductive Cause (D : Deployment) (g : Gateway) : Action → ReqId → RejectionReason → Prop where
  /-- The queue is full when the request arrives. -/
  | full {sub : Submission} (h : D.cfg.scheduler.queueMaxSize ≤ (g.adm.queue.length : ℤ)) :
      Cause D g (.arrive sub) g.arrived .queueFull
  /-- The handler resumes with the `TimeoutError` of its timer. -/
  | aged {r : ReqId} {p : PendingRequest} (h : g.handler r = .expired p) :
      Cause D g (.resume r) r .queueAge

/-- The reading a tick would take before its batch loop: the circuits read first. -/
def tickTime (g : Gateway) : ℚ := (Clock.read^[g.names.length + 1] g.world.clock).now

/-- No tick finds a live request too old in its batch. -/
def NoneOverdue (D : Deployment) (g : Gateway) (a : Action) : Prop :=
  a = .tick → ∀ p ∈ (AdmissionQueue.popBatch D.cfg.scheduler.dispatchBatchSize g.adm.queue).1,
    ¬ Admission.Overdue D.cfg g.tickTime g.adm p

instance : Decidable (NoneOverdue D g a) := inferInstanceAs (Decidable (_ → _))

/-! ## One step -/

/-- A handler moves on to anything but such an answer. -/
theorem turnsDownNobody_put {result : World × Handler} (hr : (g.handler r).Unrejected)
    (hnew : result.2.Unrejected)
    (hcount : ∀ label, result.1.rejections label = g.rejections label) :
    TurnsDownNobody g (g.put r result) := by
  refine ⟨fun r' reason => ?_, hcount⟩
  by_cases heq : r' = r
  · subst heq
    refine iff_of_false ?_ (hr reason)
    show ((g.put r' result).handler r').rejection ≠ _
    rw [put_handler_self]
    exact hnew reason
  · show ((g.put r result).handler r').rejection = _ ↔ _
    rw [put_handler_of_ne heq]
    rfl

/-- The tail of the three rejection branches. -/
theorem turnsDown_fallbackOrReject {w : World} {p : PendingRequest} {message : Option String}
    (hr : (g.handler r).Unrejected)
    (hcount : ∀ label, w.rejections label = g.rejections label) :
    TurnsDownNobody g (g.put r (fallbackOrReject D w p reason message)) ∨
      TurnsDown g (g.put r (fallbackOrReject D w p reason message)) r reason := by
  -- the fallback provider takes the request, or it is turned down
  refine fallbackOrReject_rule (P := fun next => TurnsDownNobody g (g.put r next) ∨
    TurnsDown g (g.put r next) r reason) (fun t _ => ?_) ?_
  · refine .inl (turnsDownNobody_put hr Proxy.beginAttempt_unrejected fun label => ?_)
    rw [World.rejections_quiet Proxy.quiet_start, World.rejections_emit_of_ne (by rintro _ ⟨⟩),
      World.rejections_emit_of_ne (by rintro _ ⟨⟩)]
    exact hcount label
  · refine .inr ⟨hr, ?_, fun r' hne other => ?_, fun label => ?_⟩
    · show ((g.put r _).handler r).rejection = _
      rw [put_handler_self]
      rfl
    · show ((g.put r _).handler r').rejection = _ ↔ _
      rw [put_handler_of_ne hne]
      rfl
    · show (World.emit (World.emit _ _) _).rejections label = _
      rw [World.rejections_emit_of_ne (by rintro _ ⟨⟩), World.rejections_emit, hcount label]

theorem tickTime_eq : (g.adm.opened D.cfg).world.clock.now = g.tickTime := by
  show (g.world.tickCircuits D.cfg.health).clock.read.now = _
  rw [World.tickCircuits_clock, tickTime, Function.iterate_succ_apply']

/-- **A tick** without overdue requests counts nothing and fails no future; any other
counts. -/
theorem tick_counts (hreach : Reachable D g) (hunfailed : g.adm.Unfailed) :
    (NoneOverdue D g .tick → (g.adm.schedulerTick D.cfg).Unfailed ∧
      ∀ label, (g.adm.schedulerTick D.cfg).world.rejections label = g.rejections label) ∧
    (¬ NoneOverdue D g .tick →
      g.rejections .queueAge < (g.adm.schedulerTick D.cfg).world.rejections .queueAge) := by
  have hquiet : ∀ label, (g.adm.opened D.cfg).world.rejections label = g.rejections label :=
    fun label => World.rejections_quiet (World.inner_tickCircuits D.cfg.health g.world).quiet
  -- the loop starts with the futures and flags of `g`
  have hopened : ∀ now p, Admission.Overdue D.cfg now (g.adm.opened D.cfg) p ↔
      Admission.Overdue D.cfg now g.adm p := fun _ _ => Iff.rfl
  cases hbatch : (AdmissionQueue.popBatch D.cfg.scheduler.dispatchBatchSize g.adm.queue).1 with
  | nil =>
    rw [Admission.schedulerTick_of_empty hbatch]
    refine ⟨fun _ => ⟨hunfailed, hquiet⟩, fun hover => absurd (fun _ p hp => ?_) hover⟩
    rw [hbatch] at hp
    cases hp
  | cons q batch =>
    rw [Admission.schedulerTick_eq hbatch (List.cons_ne_nil q batch), tickTime_eq]
    constructor
    · intro hnone
      obtain ⟨hkept, hcount⟩ := Admission.dispatchBatch_unfailed (A := g.adm.opened D.cfg) hunfailed
        fun p hp => (hopened _ p).not.mpr (hnone rfl p (hbatch ▸ hp))
      exact ⟨hkept, fun label => (hcount label).trans (hquiet label)⟩
    · intro hover
      unfold NoneOverdue at hover
      push Not at hover
      obtain ⟨-, p, hp, hover⟩ := hover
      obtain ⟨accepted, hlife, -⟩ := lifecycle_of_gateway hreach
      have hnd : ((q :: batch).map (·.oid)).Nodup := by
        have honce := (Lifecycle.sound_of_reach hlife).once
        rw [← AdmissionQueue.popBatch_append D.cfg.scheduler.dispatchBatchSize g.adm.queue,
          hbatch] at honce
        exact honce.sublist ((List.sublist_append_left _ _).map _)
      have hlt := Admission.rejections_lt_dispatchBatch (q :: batch) (g.adm.opened D.cfg) hnd
        ⟨p, hbatch ▸ hp, (hopened _ p).mpr hover⟩
      rwa [hquiet] at hlt

/-- **Step lemma.** A step other than an overdue tick answers and counts nobody, or
one request for its cause. -/
theorem step_turnsDown (hreach : Reachable D g) (hinv : g.Inv) (hunfailed : g.adm.Unfailed)
    (hok : NoneOverdue D g a) (hs : Steps D g a g') :
    TurnsDownNobody g g' ∨ ∃ r reason, TurnsDown g g' r reason ∧ Cause D g a r reason := by
  -- a handler that is about to move has not answered yet
  have hmoving : ∀ {r h}, g.handler r = h → h.rejection = none → (g.handler r).Unrejected :=
    fun heq hnone => Handler.unrejected_of_none (heq ▸ hnone)
  cases hs with
  | arrive sub =>
    have habsent := (hinv.fresh g.arrived le_rfl).1
    have hworld : ∀ label, g.arrivalWorld.rejections label = g.rejections label := fun label =>
      World.rejections_emit_of_ne (by rintro _ ⟨⟩)
    by_cases hfull : D.cfg.scheduler.queueMaxSize ≤ (g.adm.queue.length : ℤ)
    · rw [arrive_full hfull]
      exact (turnsDown_fallbackOrReject (g := { g with arrived := g.arrived + 1 })
        (hmoving habsent rfl) hworld).imp (fun h => ⟨h.answers, h.counted⟩)
        fun h => ⟨_, _, ⟨h.before, h.after, h.others, h.counted⟩, .full hfull⟩
    · rw [arrive_accepted (not_le.mp hfull)]
      have hput : TurnsDownNobody g
          (g.put g.arrived (g.arrivalWorld, .waiting (g.newRequest sub))) :=
        turnsDownNobody_put (hmoving habsent rfl) (Handler.unrejected_of_none rfl) hworld
      exact .inl ⟨hput.answers, hput.counted⟩
  | tick => exact .inl ⟨fun _ _ => Iff.rfl, ((tick_counts hreach hunfailed).1 hok).2⟩
  | @timer r p hp =>
    have hput : TurnsDownNobody g (g.put r (g.world, .expired p)) :=
      turnsDownNobody_put (hmoving hp rfl) (Handler.unrejected_of_none rfl) fun _ => rfl
    exact .inl ⟨hput.answers, hput.counted⟩
  | @granted r p grant hp hf =>
    refine .inl (turnsDownNobody_put (hmoving hp rfl) Proxy.beginAttempt_unrejected fun label => ?_)
    rw [World.rejections_quiet Proxy.quiet_start, World.rejections_emit_of_ne (by rintro _ ⟨⟩)]
  | @rejected r p m hp hf => exact absurd hf (hunfailed r m)
  | @timedOut r p hp =>
    have hlost : ∀ label, (g.withdraw r).rejections label = g.rejections label := by
      intro label
      have hout : (g.world.emit (.withdrawn r)).rejections label = g.rejections label :=
        World.rejections_emit_of_ne (by rintro _ ⟨⟩)
      rcases g.withdraw_cases r with ⟨grant, -, heq⟩ | ⟨-, heq⟩ <;> rw [heq]
      · exact (World.rejections_quiet World.inner_endAttempt.quiet).trans hout
      · exact hout
    exact (turnsDown_fallbackOrReject (g := { g with adm := { g.adm with
      cancelled := Function.update g.adm.cancelled r true } }) (hmoving hp rfl) hlost).imp
      (fun h => ⟨h.answers, h.counted⟩)
      fun h => ⟨_, _, ⟨h.before, h.after, h.others, h.counted⟩, .aged hp⟩
  | upstream o hc =>
    exact .inl (turnsDownNobody_put (hmoving hc rfl) Proxy.onUpstream_unrejected
      fun _ => World.rejections_quiet Proxy.quiet_onUpstream)
  | drained o hc =>
    exact .inl (turnsDownNobody_put (hmoving hc rfl) Proxy.onDrained_unrejected
      fun _ => World.rejections_quiet Proxy.quiet_onDrained)
  | streamStart hc =>
    exact .inl (turnsDownNobody_put (hmoving hc rfl) (Handler.unrejected_of_none rfl)
      fun _ => rfl)
  | @streamEnd r c t e acloseRaises hc =>
    refine .inl (turnsDownNobody_put (hmoving hc rfl) (Handler.unrejected_of_none ?_)
      fun _ => World.rejections_quiet Proxy.inner_onStreamEnd.quiet)
    cases acloseRaises <;> rfl
  | streamDropped hc =>
    exact .inl (turnsDownNobody_put (hmoving hc rfl) (Handler.unrejected_of_none rfl)
      fun _ => World.rejections_quiet World.inner_endAttempt.quiet)

/-! ## Runs -/

/-- **Run lemma.** No future is failed for its age in a run in which no tick meets an
overdue request, so no handler ever answers for a failed future. -/
theorem unfailed_of_reach (h : ReachableWith D (NoneOverdue D) g) : g.adm.Unfailed := by
  -- along the run, with reachability beside it for the lemma about the tick
  have hboth : Reachable D g ∧ g.adm.Unfailed := by
    refine h.invariant (I := fun g => Reachable D g ∧ g.adm.Unfailed) ?_ ?_
    · rintro g ⟨clock, rfl⟩
      exact ⟨.start ⟨clock, rfl⟩, fun _ _ => nofun⟩
    rintro g a g' ⟨hreach, hunfailed⟩ hok hstep
    refine ⟨hreach.step trivial hstep, ?_⟩
    cases steps_of_step hstep with
    | arrive sub =>
      by_cases hfull : D.cfg.scheduler.queueMaxSize ≤ (g.adm.queue.length : ℤ)
      · rw [arrive_full hfull]
        exact hunfailed
      · rw [arrive_accepted (not_le.mp hfull)]
        exact hunfailed
    | tick => exact ((tick_counts hreach hunfailed).1 hok).1
    | @timer r p hp =>
      intro r' m
      show (if (g.adm.future r).done then g.adm.future
        else Function.update g.adm.future r .cancelled) r' ≠ _
      split
      · exact hunfailed r' m
      · by_cases hr : r' = r
        · subst hr
          simp
        · simpa [hr] using hunfailed r' m
    | _ => exact hunfailed
  exact hboth.2

/-- Nobody past the last arrival has been answered. -/
theorem not_rejectedWith_of_le (hinv : g.Inv) (hr : g.arrived ≤ r) : ¬ g.RejectedWith r reason := by
  unfold RejectedWith
  rw [(hinv.fresh r hr).1]
  exact nofun

/-- Counting further than the last arrival counts nobody more. -/
theorem rejected_eq_of_le (hinv : g.Inv) {n : ℕ} (hn : g.arrived ≤ n) :
    tally (fun h => decide (h.rejection = some reason.value)) g.handler (List.range n) =
      g.rejected reason := by
  induction n, hn using Nat.le_induction with
  | base => rfl
  | succ n hn ih =>
    have hout : decide ((g.handler n).rejection = some reason.value) = false :=
      decide_eq_false (not_rejectedWith_of_le hinv hn)
    rw [List.range_succ, tally_append_singleton, ih, hout]
    rfl

theorem TurnsDownNobody.rejected (h : TurnsDownNobody g g') (hinv : g.Inv) (hinv' : g'.Inv) :
    g'.rejected reason = g.rejected reason := by
  have hn := le_max_left g.arrived g'.arrived
  have hn' := le_max_right g.arrived g'.arrived
  rw [← rejected_eq_of_le hinv hn, ← rejected_eq_of_le hinv' hn']
  exact tally_congr fun r _ => decide_eq_decide.mpr (h.answers r reason)

/-- Whoever is turned down is one more under the reason. -/
theorem TurnsDown.rejected {cause : RejectionReason} (h : TurnsDown g g' r cause) (hinv : g.Inv)
    (hinv' : g'.Inv) :
    g'.rejected reason = g.rejected reason + if reason = cause then 1 else 0 := by
  have hr : r < g'.arrived := by
    by_contra hge
    exact not_rejectedWith_of_le hinv' (not_lt.mp hge) h.after
  have hn := le_max_left g.arrived g'.arrived
  have hn' := le_max_right g.arrived g'.arrived
  have hagree := tally_of_agree (p := fun h : Handler => decide (h.rejection = some reason.value))
    List.nodup_range (List.mem_range.mpr (hr.trans_le hn'))
    fun r' _ hne => decide_eq_decide.mpr (h.others r' hne reason)
  -- one request more has the label, and every other has what it had
  rw [rejected_eq_of_le hinv hn, rejected_eq_of_le hinv' hn',
    decide_eq_false (h.before reason)] at hagree
  have hafter : (decide ((g'.handler r).rejection = some reason.value) = true) ↔
      reason = cause := by
    rw [decide_eq_true_iff, h.after]
    exact ⟨fun heq => RejectionReason.value_injective (Option.some.inj heq).symm,
      fun heq => heq ▸ rfl⟩
  simpa only [hafter, Bool.false_eq_true, if_false, Nat.add_zero] using hagree

/-- Every rejection has one of the four reasons, so the labels add up to all the
requests that were rejected. -/
theorem sum_rejected : (RejectionReason.all.map g.rejected).sum =
    tally Handler.isRejected g.handler (List.range g.arrived) := by
  unfold rejected
  -- on the requests, each of which has one label or none
  induction List.range g.arrived with
  | nil => rfl
  | cons r l ih =>
    have hone : (RejectionReason.all.map fun reason : RejectionReason =>
        if decide ((g.handler r).rejection = some reason.value) then 1 else 0).sum =
        if (g.handler r).isRejected then 1 else 0 := by
      unfold Handler.isRejected
      cases (g.handler r).rejection with
      | none => rfl
      | some text =>
        simp only [RejectionReason.all, List.map_cons, List.map_nil, List.sum_cons, List.sum_nil,
          List.any_cons, List.any_nil, RejectionReason.value, Option.some.injEq]
        by_cases hfull : text = "queue_full" <;> by_cases hage : text = "queue_age" <;>
          by_cases hnone : text = "no_backend" <;> by_cases hover : text = "overload" <;> simp_all
    simp only [tally_cons, List.sum_map_add, ih, hone]

/-- The counter agrees with the answers, label by label. -/
def Accounted (g : Gateway) : Prop := ∀ reason, g.rejections reason = g.rejected reason

/-- **Step lemma.** The counter of a label and the answers under it move together, by
the same one or not at all. -/
theorem accounted_step (h : g.Accounted) (hinv : g.Inv) (hinv' : g'.Inv)
    (hs : TurnsDownNobody g g' ∨ ∃ r reason, TurnsDown g g' r reason ∧ Cause D g a r reason) :
    g'.Accounted := by
  intro reason
  rcases hs with hs | ⟨r, cause, hs, -⟩
  · rw [hs.counted, hs.rejected hinv hinv', h]
  · rw [hs.counted, hs.rejected hinv hinv', h]

/-- **Run lemma.** Counter and answers agree under each label, in every run in which no
tick meets an overdue request. -/
theorem accounted_of_reach (h : ReachableWith D (NoneOverdue D) g) : g.Accounted := by
  have hboth : ReachableWith D (NoneOverdue D) g ∧ g.Accounted := by
    refine h.invariant (I := fun g => ReachableWith D (NoneOverdue D) g ∧ g.Accounted) ?_ ?_
    · rintro g ⟨clock, rfl⟩
      exact ⟨.start ⟨clock, rfl⟩, fun _ => rfl⟩
    rintro g a g' ⟨hreach, hacc⟩ hok hstep
    have hreach' := hreach.step hok hstep
    have hinv := inv_of_reach hreach.any
    have hs := steps_of_step hstep
    exact ⟨hreach', accounted_step hacc hinv (hinv.step hs)
      (step_turnsDown hreach.any hinv (unfailed_of_reach hreach) hok hs)⟩
  exact hboth.2

/-- **Rejection accounting.** In a run in which no tick finds a live request too old,
the counter stands under each label at the number of requests answered 503 with that
reason, and in sum at the number of all of them. The next step, if it is no such tick
either, answers and counts nobody, or one request not answered before, once, under its
cause. And the counter agrees with the answers after the next step if and only if that
step is no such tick. -/
theorem rejections_counted (h : ReachableWith D (NoneOverdue D) g) :
    (∀ reason, g.rejections reason = g.rejected reason) ∧
    (RejectionReason.all.map g.rejections).sum =
      tally Handler.isRejected g.handler (List.range g.arrived) ∧
    ∀ a g', step D g a = some g' →
      (NoneOverdue D g a → TurnsDownNobody g g' ∨
        ∃ r reason, TurnsDown g g' r reason ∧ Cause D g a r reason) ∧
      ((∀ reason, g'.rejections reason = g'.rejected reason) ↔ NoneOverdue D g a) := by
  have hacc := accounted_of_reach h
  have hsum : (RejectionReason.all.map g.rejections).sum =
      tally Handler.isRejected g.handler (List.range g.arrived) := by
    rw [← sum_rejected]
    exact congrArg List.sum (List.map_congr_left fun reason _ => hacc reason)
  refine ⟨hacc, hsum, fun a g' hstep => ?_⟩
  have hinv := inv_of_reach h.any
  have hunfailed := unfailed_of_reach h
  have hs := steps_of_step hstep
  refine ⟨fun hok => step_turnsDown h.any hinv hunfailed hok hs, fun hacc' => ?_, fun hok =>
    accounted_step hacc hinv (hinv.step hs) (step_turnsDown h.any hinv hunfailed hok hs)⟩
  by_contra hover
  -- only a tick can be overdue, and it answers nobody
  obtain rfl : a = .tick := by
    by_contra hne
    exact hover fun heq => absurd heq hne
  cases hs with
  | tick =>
    have hlt := (tick_counts h.any hunfailed).2 hover
    have hafter := hacc' .queueAge
    have hbefore := hacc .queueAge
    have hanswers : ({ g with adm := g.adm.schedulerTick D.cfg } : Gateway).rejected .queueAge =
        g.rejected .queueAge := rfl
    have hcounted : ({ g with adm := g.adm.schedulerTick D.cfg } : Gateway).rejections .queueAge =
        (g.adm.schedulerTick D.cfg).world.rejections .queueAge := rfl
    omega

/-- A tick dispatches the first request, which is young enough. The second one's timer fires
before the next tick, and its handler answers 503. -/
def timedOut : Option Gateway :=
  runGuarded (step lone) (NoneOverdue lone) (init lone still)
    [.arrive (chat false), .tick, .resume 0, .arrive (chat false), .timer 1, .resume 1, .tick]

theorem rejections_counted_timedOut : ∃ g, timedOut = some g ∧
    (g.adm.grants = 1 ∧ g.RejectedWith 1 .queueAge) ∧
    (∀ reason, g.rejections reason = g.rejected reason) ∧
    (RejectionReason.all.map g.rejections).sum =
      tally Handler.isRejected g.handler (List.range g.arrived) ∧
    ∀ a g', step lone g a = some g' →
      (NoneOverdue lone g a → TurnsDownNobody g g' ∨
        ∃ r reason, TurnsDown g g' r reason ∧ Cause lone g a r reason) ∧
      ((∀ reason, g'.rejections reason = g'.rejected reason) ↔ NoneOverdue lone g a) := by
  have hrun : timedOut.any (fun g => g.adm.grants = 1 ∧ g.RejectedWith 1 .queueAge) = true := by
    decide +kernel
  obtain ⟨g, hg, hmixed⟩ := (Option.any_eq_true ..).mp hrun
  have hreach : ReachableWith lone (NoneOverdue lone) g := reach_runGuarded (.start ⟨_, rfl⟩) hg
  exact ⟨g, hg, of_decide_eq_true hmixed, rejections_counted hreach⟩

/-- The deployment of one backend that `lone` describes, with the fallback provider
beside it. -/
def covered : Deployment where
  cfg := { lone.cfg with openaiFallback := { enabled := true } }
  environ := fun _ => some "sk-test"

/-- The tick after which the request is 15 s old is the first: the scheduler counts a
rejection for age. Without the fallback the handler answers 503 with another reason
and counts it too; with the fallback the request is served. -/
theorem rejections_counted_twice :
    (∃ g, Reachable lone g ∧ g.arrived = 1 ∧ g.RejectedWith 0 .noBackend ∧
      g.rejections .queueAge = 1 ∧ g.rejections .noBackend = 1) ∧
    ∃ g, Reachable covered g ∧ g.arrived = 1 ∧ g.handler 0 = .replied (.response 200) ∧
      g.rejections .queueAge = 1 := by
  refine ⟨exists_reachable (.ofGaps 0 [0, 15]) [.arrive (chat false), .tick, .resume 0] ?_,
    exists_reachable (.ofGaps 0 [0, 15])
      [.arrive (chat false), .tick, .resume 0, .upstream 0 (.response 200 true)] ?_⟩ <;>
    decide +kernel

end Gateway

end InferenceGateway
