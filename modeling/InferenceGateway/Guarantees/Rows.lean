import InferenceGateway.Backends.Laws
import InferenceGateway.Fleet.Refinement
import InferenceGateway.Scheduler.Choice

/-!
# Rows stay sound

Whatever the requests, the upstreams and the clock do, the numbers in a row of
the registry keep to their ranges. The code checks none of these ranges; it
relies on where the numbers come from.

- `RowLaw`: what a property of one row has to survive: the cooldown check, a
  recorded outcome, a slot taken or given back, a sample with latencies that are
  not negative, and time. `Upholds` and `Runs` carry it through the functions of
  the gateway.
- `rows_of_reach`: a property of a row that survives what `RowLaw` lists holds
  of every row of every reachable state. Latencies are differences of clock
  readings, and the later one comes last, so the run lemma also keeps track of
  when each handler has read the clock (`Handler.Timed`).
- `rows_sound`: `inflight` is between zero and `hard_limit`, the averages are in
  range, and the dispatch ring holds at most 256 times of the past, in order.
- `score_nonneg`: no backend ever has a negative cost.
-/

namespace InferenceGateway

open Lib World

variable {P : ℚ → BackendRuntimeState → Prop}

/-- The times a handler has kept are past. -/
def Handler.Timed (now : ℚ) : Handler → Prop
  | .sending c => c.sentAt ≤ now
  | .relaying _ (some startedAt) => startedAt ≤ now
  | _ => True

/-- A reading of the past stays one. -/
theorem Handler.Timed.later {now now' : ℚ} {h : Handler} (ht : h.Timed now) (hle : now ≤ now') :
    h.Timed now' := by
  cases h with
  | sending c => exact le_trans ht hle
  | relaying c startedAt =>
    cases startedAt with
    | none => trivial
    | some t => exact le_trans ht hle
  | _ => trivial

/-- What running a handler gives: rows are kept, and the times it keeps are past. -/
structure Runs (P : ℚ → BackendRuntimeState → Prop) (w : World) (next : World × Handler) :
    Prop where
  upholds : Upholds P w next.1
  timed : next.2.Timed next.1.clock.now

/-- A world that upholds the rows, and then a function that does. -/
theorem Runs.after {w w' : World} {next : World × Handler} (h : Upholds P w w')
    (hn : Runs P w' next) : Runs P w next :=
  ⟨h.trans hn.upholds, hn.timed⟩

namespace Scoring

variable {health : HealthConfig} {routing : RoutingConfig} {w : World} {cls : RequestClass}
  {avoid : Option String} {b : String}

/-- A search upholds, and the backend it finds passes the checks. -/
theorem upholds_search (hP : RowLaw health P) :
    Upholds P w (pickBackend routing cls (eligible health avoid w.names w).2
      (eligible health avoid w.names w).1).1 := by
  obtain ⟨hreg, -, hnow⟩ := pickBackend_sameButClock routing cls
    (eligible health avoid w.names w).2 (eligible health avoid w.names w).1
  exact (upholds_eligible hP).trans (.ofRegistry hP hreg hnow)

/-- What the search finds has passed the checks, in the world it is found in. -/
theorem passes_of_search (h : (pickBackend routing cls (eligible health avoid w.names w).2
    (eligible health avoid w.names w).1).2 = some b) :
    Health.passes health ((pickBackend routing cls (eligible health avoid w.names w).2
      (eligible health avoid w.names w).1).1.row b) = true := by
  obtain ⟨hreg, -, -⟩ := pickBackend_sameButClock routing cls
    (eligible health avoid w.names w).2 (eligible health avoid w.names w).1
  obtain ⟨-, -, hpass⟩ := eligible_spec w.names w w.registry.nodup (pickBackend_mem h)
  simp only [World.row, hreg]
  exact hpass

end Scoring

namespace Proxy

variable {D : Deployment} {w : World} {c : ProxyCall} {status : ℤ} {e : UpstreamError}

theorem upholds_pickRetryTarget {cfg : GatewayConfig} (hP : RowLaw cfg.health P)
    {cls : RequestClass} {avoid : String} : Upholds P w (pickRetryTarget cfg w cls avoid).1 := by
  have hsearch : Upholds P w (search cfg w cls avoid).1 := Scoring.upholds_search hP
  rcases pickRetryTarget_cases cfg w cls avoid with ⟨-, h⟩ | ⟨b, hb, h⟩ <;> rw [h]
  · exact hsearch
  · exact hsearch.trans (upholds_takeSlot hP (Scoring.passes_of_search hb))

/-- The next attempt of a call begins. -/
theorem runs_beginAttempt {health : HealthConfig} (hP : RowLaw health P) :
    Runs P w (beginAttempt D w c) := by
  rcases beginAttempt_cases D w c with ⟨-, reply, -, h⟩ | ⟨v, hv, h⟩ | ⟨reply, h⟩ <;> rw [h]
  · exact ⟨upholds_endAttempt hP, trivial⟩
  · exact ⟨.ofRegistry hP hv.1 hv.2.2, le_refl v.clock.now⟩
  · exact ⟨(upholds_releaseDispatch hP).trans (upholds_endAttempt hP), trivial⟩

theorem runs_start {health : HealthConfig} (hP : RowLaw health P) {p : PendingRequest}
    {initial : Lease} : Runs P w (start D w p initial) := by
  obtain ⟨hupholds, htimed⟩ := runs_beginAttempt (D := D) hP
    (w := w.emit (.proxied p.oid initial))
    (c := ⟨p, initial, 0, none, [], w.clock.now⟩)
  exact ⟨(Upholds.emit hP _).trans hupholds, htimed⟩

/-- A slot is given back, and the retry counted. -/
theorem upholds_giveBack {health : HealthConfig} (hP : RowLaw health P) {how : Ending} :
    Upholds P w (giveBack w c how) :=
  ((Upholds.emit hP _).trans (upholds_releaseDispatch hP)).trans (upholds_endAttempt hP)

/-- The tail of a failed attempt: the slot goes back, and the next attempt may take
another one. -/
theorem runs_retryOrGiveUp (hP : RowLaw D.cfg.health P) {retry : Bool} {how : Ending}
    {final : Reply} : Runs P w (retryOrGiveUp D w c retry how final) := by
  have hpick : Upholds P w
      (pickRetryTarget D.cfg (giveBack w c how) c.reqClass c.target.name).1 :=
    (upholds_giveBack hP).trans (upholds_pickRetryTarget hP)
  rcases retryOrGiveUp_cases D w c retry how final with
    ⟨-, h⟩ | ⟨-, -, h⟩ | ⟨-, grant, -, h⟩ <;> rw [h]
  · exact ⟨(upholds_releaseDispatch hP).trans (upholds_endAttempt hP), trivial⟩
  · exact ⟨hpick.trans (upholds_releaseDispatch hP), trivial⟩
  · obtain ⟨hupholds, htimed⟩ := runs_beginAttempt (D := D) hP
      (w := (pickRetryTarget D.cfg (giveBack w c how) c.reqClass c.target.name).1)
      (c := { c with lease := .granted grant })
    exact ⟨hpick.trans hupholds, htimed⟩

/-- An error status is accounted for with samples that carry no latency. -/
theorem upholds_accountErrorStatus (hP : RowLaw D.cfg.health P) :
    Upholds P w (accountErrorStatus D w c status) :=
  (upholds_recordErrorStatus hP).trans (.emit hP _)

theorem upholds_accountTransportError (hP : RowLaw D.cfg.health P) :
    Upholds P w (accountTransportError D w c) :=
  (Upholds.emit hP _).trans (upholds_recordFailure hP)

theorem runs_onTransportError (hP : RowLaw D.cfg.health P) :
    Runs P w (onTransportError D w c e) := by
  unfold onTransportError
  exact Runs.after (upholds_accountTransportError hP) (runs_retryOrGiveUp hP)

theorem runs_onStreamSendError (hP : RowLaw D.cfg.health P) :
    Runs P w (onStreamSendError D w c e) where
  upholds := (((upholds_recordFailure hP).trans (.emit hP _)).trans
    (upholds_releaseDispatch hP)).trans (upholds_endAttempt hP)
  timed := trivial

/-- The latency of an attempt that has been sent is not negative. -/
theorem latencyMs_nonneg (h : c.sentAt ≤ w.clock.now) : 0 ≤ latencyMs w c := by
  have hread : c.sentAt ≤ w.readClock.clock.now := h.trans w.clock.now_le_read
  unfold latencyMs
  linarith

theorem upholds_relayedWorld {health : HealthConfig} (hP : RowLaw health P)
    (h : c.sentAt ≤ w.clock.now) : Upholds P w (relayedWorld w c) := by
  have hlatency := latencyMs_nonneg h
  refine (Upholds.readClock hP).trans (upholds_recordSuccess hP ?_ hlatency)
  rintro _ ⟨⟩
  exact hlatency

/-- What came of `send`. The latency that a success feeds into the averages is measured
from the time the attempt was sent, and that lies in the past. -/
theorem runs_onUpstream (hP : RowLaw D.cfg.health P) (h : c.sentAt ≤ w.clock.now) {o : Upstream} :
    Runs P w (onUpstream D w c o) := by
  generalize hnext : onUpstream D w c o = next
  cases upstreams_of_eq hnext with
  | answered hs hlt =>
    -- both samples of a success are latencies, the first one capped at ten seconds
    have hlatency := latencyMs_nonneg h
    have hsuccess : Upholds P w (w.readClock.recordSuccess c.target.name c.lease.probe
        (some (min (latencyMs w c) 10000)) (latencyMs w c)) := by
      refine (Upholds.readClock hP).trans (upholds_recordSuccess hP ?_ hlatency)
      rintro _ ⟨⟩
      exact le_min hlatency (by norm_num)
    exact ⟨(hsuccess.trans (upholds_releaseDispatch hP)).trans (upholds_endAttempt hP), trivial⟩
  | refused hs hge =>
    exact Runs.after ((Upholds.readClock hP).trans (upholds_accountErrorStatus hP))
      (runs_retryOrGiveUp hP)
  | relayed hs hlt => exact ⟨upholds_relayedWorld hP h, trivial⟩
  | unrelayable hs hlt =>
    exact ⟨(upholds_relayedWorld hP h).trans (upholds_endAttempt hP), trivial⟩
  | drained hs hge => exact ⟨.readClock hP, trivial⟩
  | uncaught he => exact ⟨upholds_endAttempt hP, trivial⟩
  | streamError hs he => exact runs_onStreamSendError hP
  | transportError hs he => exact runs_onTransportError hP

theorem runs_onDrained (hP : RowLaw D.cfg.health P) {o : BodyRead} :
    Runs P w (onDrained D w c status o) := by
  generalize hnext : onDrained D w c status o = next
  cases drains_of_eq hnext with
  | read =>
    exact ⟨((upholds_accountErrorStatus hP).trans (upholds_releaseDispatch hP)).trans
      (upholds_endAttempt hP), trivial⟩
  | uncaught he => exact ⟨upholds_endAttempt hP, trivial⟩
  | transportError he => exact runs_onTransportError hP

/-- A stream ends: its duration is measured from the time it started. -/
theorem runs_onStreamEnd {health : HealthConfig} (hP : RowLaw health P) {startedAt : ℚ}
    {acloseRaises : Bool} (h : startedAt ≤ w.clock.now) :
    Runs P w (onStreamEnd w c startedAt acloseRaises) := by
  cases acloseRaises with
  | true => exact ⟨upholds_endAttempt hP, trivial⟩
  | false =>
    have hlatency : 0 ≤ (w.readClock.clock.now - startedAt) * 1000 := by
      have hread : startedAt ≤ w.readClock.clock.now := h.trans w.clock.now_le_read
      linarith
    exact ⟨(((Upholds.readClock hP).trans (upholds_sampleStream hP hlatency)).trans
      (upholds_releaseDispatch hP)).trans (upholds_endAttempt hP), trivial⟩

end Proxy

namespace Admission

variable {cfg : GatewayConfig} {now : ℚ} {p : PendingRequest} {A : Admission}

/-- A round of the batch loop takes a slot on a backend that passes the checks, or
none. -/
theorem upholds_dispatchOne (hP : RowLaw cfg.health P) :
    Upholds P A.world (dispatchOne cfg now p A).1.world := by
  have hsearch : Upholds P A.world (search cfg p.classify.reqClass A.world).1 :=
    Scoring.upholds_search hP
  rcases dispatchOne_cases cfg now p A with
    ⟨-, heq⟩ | ⟨-, -, heq⟩ | ⟨-, -, -, heq⟩ | ⟨-, -, chosen, hchosen, heq⟩ <;> rw [heq]
  · exact .refl _
  · exact (Upholds.emit hP _).trans (.emit hP _)
  · exact hsearch
  · exact (hsearch.trans (upholds_takeSlot hP (Scoring.passes_of_search hchosen))).trans
      (.emit hP _)

/-- A tick upholds the rows, by the rule for passes. -/
theorem upholds_schedulerTick (hP : RowLaw cfg.health P) :
    Upholds P A.world (schedulerTick cfg A).world :=
  dispatchTick_rule (I := fun B => Upholds P A.world B.world) (fun _ _ hB => hB)
    (fun _ hB => hB.trans (.readClock hP)) (fun _ _ _ hB => hB.trans (upholds_dispatchOne hP))
    (upholds_tickCircuits hP)

end Admission

namespace Gateway

variable {D : Deployment} {g g' : Gateway} {a : Action} {b : String}

theorem runs_fallbackOrReject {health : HealthConfig} (hP : RowLaw health P) {w : World}
    {p : PendingRequest} {reason : RejectionReason} {message : Option String} :
    Runs P w (fallbackOrReject D w p reason message) := by
  refine fallbackOrReject_rule (P := fun next => Runs P w next) (fun t _ => ?_) ?_
  · exact Runs.after (.emit hP _) (Proxy.runs_start hP)
  · exact ⟨(Upholds.emit hP _).trans (.emit hP _), trivial⟩

theorem upholds_withdraw {health : HealthConfig} (hP : RowLaw health P) (r : ReqId) :
    Upholds P g.world (g.withdraw r) := by
  rcases g.withdraw_cases r with ⟨grant, -, h⟩ | ⟨-, h⟩ <;> rw [h]
  · exact (Upholds.emit hP _).trans (upholds_endAttempt hP)
  · exact .emit hP _

/-- Rows have the property, and what handlers have read off the clock is past. -/
structure Kept (P : ℚ → BackendRuntimeState → Prop) (g : Gateway) : Prop where
  rows : g.world.Rows P
  timed : ∀ r, (g.handler r).Timed g.world.clock.now

/-- A step that upholds the rows and moves at most one handler, to a timed one. -/
theorem Kept.move (h : g.Kept P) (hupholds : Upholds P g.world g'.world)
    (hhandler : ∀ r, g'.handler r = g.handler r ∨ (g'.handler r).Timed g'.world.clock.now) :
    g'.Kept P where
  rows := hupholds.rows h.rows
  timed r := by
    rcases hhandler r with hsame | htimed
    · rw [hsame]
      exact (h.timed r).later hupholds.now
    · exact htimed

theorem Kept.put (h : g.Kept P) {r : ReqId} {next : World × Handler} (hruns : Runs P g.world next) :
    (g.put r next).Kept P := by
  refine h.move hruns.upholds fun r' => ?_
  by_cases hr : r' = r
  · subst hr
    rw [put_handler_self]
    exact .inr hruns.timed
  · exact .inl (put_handler_of_ne hr)

/-- An arrival touches no row. -/
theorem Kept.arrive (hP : RowLaw D.cfg.health P) (h : g.Kept P) (sub : Submission) :
    (g.arrive D sub).Kept P := by
  have harrival : Upholds P g.world g.arrivalWorld := (Upholds.readClock hP).trans (.emit hP _)
  rcases lt_or_ge (g.adm.queue.length : ℤ) D.cfg.scheduler.queueMaxSize with hlt | hge
  · rw [arrive_accepted hlt]
    refine h.move harrival fun r => ?_
    by_cases hr : r = g.arrived
    · subst hr
      exact .inr (by simp [Handler.Timed])
    · exact .inl (Function.update_of_ne hr ..)
  · rw [arrive_full hge]
    have hcounted : ({ g with arrived := g.arrived + 1 } : Gateway).Kept P := ⟨h.rows, h.timed⟩
    exact hcounted.put (Runs.after harrival (runs_fallbackOrReject hP))

/-- **Step lemma.** Every step upholds the rows, and its handler has read the clock in
time. -/
theorem Kept.step (hP : RowLaw D.cfg.health P) (h : g.Kept P) (hs : Steps D g a g') :
    g'.Kept P := by
  cases hs with
  | arrive sub => exact h.arrive hP sub
  | tick => exact h.move (Admission.upholds_schedulerTick hP) fun r => .inl rfl
  | @timer r p hp =>
    refine h.move (.refl _) fun r' => ?_
    by_cases hr : r' = r
    · subst hr
      rw [fireTimer_handler_self]
      exact .inr trivial
    · exact .inl (fireTimer_handler_of_ne hr)
  | granted _ _ => exact h.put (Proxy.runs_start hP)
  | rejected _ _ => exact h.put (runs_fallbackOrReject hP)
  | @timedOut r p hp =>
    have hflag : ({ g with adm := { g.adm with
        cancelled := Function.update g.adm.cancelled r true } } : Gateway).Kept P :=
      ⟨h.rows, h.timed⟩
    exact hflag.put (Runs.after (upholds_withdraw hP r) (runs_fallbackOrReject hP))
  -- the handler knows when the attempt was sent
  | @upstream r c o hc =>
    have htimed := h.timed r
    rw [hc] at htimed
    exact h.put (Proxy.runs_onUpstream hP htimed)
  | drained o hc => exact h.put (Proxy.runs_onDrained hP)
  | streamStart hc => exact h.put ⟨.readClock hP, le_refl _⟩
  | @streamEnd r c t e acloseRaises hc =>
    have htimed := h.timed r
    rw [hc] at htimed
    exact h.put (Proxy.runs_onStreamEnd hP htimed)
  | streamDropped hc => exact h.put ⟨upholds_endAttempt hP, trivial⟩

/-- **Run lemma.** What survives the operations on a row holds of every row in every
run. -/
theorem rows_of_reach (hP : RowLaw D.cfg.health P)
    (hentry : ∀ now e, P now (BackendRegistry.fromEntry e)) (h : Reachable D g)
    (hb : b ∈ g.names) : P g.world.clock.now (g.row b) := by
  have hkept : g.Kept P := by
    refine h.invariant ?_ fun g a g' hg _ hs => hg.step hP (steps_of_step hs)
    rintro g ⟨clock, rfl⟩
    exact ⟨fun b hb => BackendRegistry.ofConfig_rule (hentry clock.now) b hb, fun r => trivial⟩
  exact hkept.rows b hb

end Gateway

/-! ## What a row says -/

/-- The numbers of a row are in range at `now`. -/
structure RowSound (now : ℚ) (s : BackendRuntimeState) : Prop where
  inflight : 0 ≤ s.inflight ∧ s.inflight ≤ max 0 s.hardLimit
  largeInflight : 0 ≤ s.largeInflight
  errorRate : 0 ≤ s.recentErrorRate ∧ s.recentErrorRate < 1
  ewmaQueueMs : s.ewmaQueueMs = 0
  ewmaTtftMs : 0 ≤ s.ewmaTtftMs
  ewmaE2eMs : 0 ≤ s.ewmaE2eMs
  ring : s.dispatchTimes.length ≤ dispatchRing
  past : ∀ t ∈ s.dispatchTimes, t ≤ now
  ordered : s.dispatchTimes.Pairwise (· ≤ ·)

namespace RowSound

variable {health : HealthConfig} {now now' : ℚ} {s s' : BackendRuntimeState}

/-- A row fresh from the configuration is sound. -/
theorem fromEntry (e : BackendEntry) : RowSound now (BackendRegistry.fromEntry e) where
  inflight := ⟨le_refl _, le_max_left _ _⟩
  largeInflight := le_refl _
  errorRate := ⟨le_refl _, zero_lt_one⟩
  ewmaQueueMs := rfl
  ewmaTtftMs := by norm_num [BackendRegistry.fromEntry]
  ewmaE2eMs := by norm_num [BackendRegistry.fromEntry]
  ring := by simp [BackendRegistry.fromEntry]
  past := by simp [BackendRegistry.fromEntry]
  ordered := by simp [BackendRegistry.fromEntry]

/-- Time passes: what lay in the past still does. -/
theorem later (h : RowSound now s) (hle : now ≤ now') : RowSound now' s :=
  { h with past := fun t ht => (h.past t ht).trans hle }

theorem circuitOnly (h : RowSound now s) (hs : CircuitOnly s s') : RowSound now s' := by
  obtain ⟨c, n, t, k, rfl⟩ := hs
  exact ⟨h.inflight, h.largeInflight, h.errorRate, h.ewmaQueueMs, h.ewmaTtftMs, h.ewmaE2eMs,
    h.ring, h.past, h.ordered⟩

/-- The check before a dispatch leaves room for one more, and the dispatch is the
latest. -/
theorem taken (h : RowSound now s) (cls : RequestClass) (hpass : Health.passes health s = true) :
    RowSound now ((s.taken cls).recordDispatch now) := by
  have hroom : s.inflight < s.hardLimit := (Health.passes_iff.mp hpass).2.2.1
  obtain ⟨hnonneg, -⟩ := h.inflight
  have hlarge := h.largeInflight
  have htimes : ((s.taken cls).recordDispatch now).dispatchTimes =
      (s.dispatchTimes ++ [now]).rtake dispatchRing :=
    BackendRuntimeState.dispatchTimes_recordDispatch (s.taken cls) now
  refine ⟨?_, ?_, h.errorRate, h.ewmaQueueMs, h.ewmaTtftMs, h.ewmaE2eMs, ?_, ?_, ?_⟩
  · show 0 ≤ s.inflight + 1 ∧ s.inflight + 1 ≤ max 0 s.hardLimit
    omega
  · show 0 ≤ s.largeInflight + if cls.isLarge then 1 else 0
    split <;> omega
  · rw [htimes, length_rtake]
    exact min_le_left _ _
  · intro t ht
    rcases BackendRuntimeState.mem_recordDispatch ht with hold | rfl
    · exact h.past t hold
    · exact le_refl t
  -- the new time is not before any in the ring
  · rw [htimes, List.rtake]
    refine List.Pairwise.sublist (List.drop_sublist _ _)
      (List.pairwise_append.mpr ⟨h.ordered, ?_, ?_⟩)
    · exact List.pairwise_singleton _ _
    · intro t ht t' ht'
      rw [List.mem_singleton.mp ht']
      exact h.past t ht

/-- The counters are clamped at zero. -/
theorem givenBack (h : RowSound now s) (cls : RequestClass) : RowSound now (s.givenBack cls) := by
  obtain ⟨hnonneg, hle⟩ := h.inflight
  have hlarge := h.largeInflight
  refine ⟨?_, ?_, h.errorRate, h.ewmaQueueMs, h.ewmaTtftMs, h.ewmaE2eMs, h.ring, h.past, h.ordered⟩
  · show 0 ≤ max 0 (s.inflight - 1) ∧ max 0 (s.inflight - 1) ≤ max 0 s.hardLimit
    omega
  · show 0 ≤ if cls.isLarge then max 0 (s.largeInflight - 1) else s.largeInflight
    split <;> omega

theorem failed (h : RowSound now s) : RowSound now s.updateFailure :=
  { h with
    errorRate := by
      rw [BackendRuntimeState.updateFailure_recentErrorRate]
      exact BackendRuntimeState.errorSample_lt_one h.errorRate.1 h.errorRate.2 }

/-- An average of what is not negative is not negative. -/
theorem ewma_nonneg {prev sample alpha : ℚ} (hprev : 0 ≤ prev) (hsample : 0 ≤ sample)
    (h₀ : 0 ≤ alpha) (h₁ : alpha ≤ 1) : 0 ≤ ewma prev sample alpha := by
  have hrest : 0 ≤ 1 - alpha := by linarith
  unfold ewma
  positivity

/-- A success feeds averages with latencies that are not negative. -/
theorem succeeded (h : RowSound now s) {ttftMs : Option ℚ} {e2eMs : ℚ} (httft : ∀ t ∈ ttftMs, 0 ≤ t)
    (he2e : 0 ≤ e2eMs) : RowSound now (s.updateSuccess ttftMs e2eMs) := by
  refine ⟨h.inflight, h.largeInflight, ?_, h.ewmaQueueMs, ?_, ?_, h.ring, h.past, h.ordered⟩
  · rw [BackendRuntimeState.updateSuccess_recentErrorRate]
    exact BackendRuntimeState.errorSample_lt_one h.errorRate.1 h.errorRate.2
  · cases ttftMs with
    | none => exact h.ewmaTtftMs
    | some t => exact ewma_nonneg h.ewmaTtftMs (httft t rfl) (by norm_num) (by norm_num)
  · exact ewma_nonneg h.ewmaE2eMs he2e (by norm_num) (by norm_num)

/-- Soundness of a row survives all that happens to it. -/
theorem law (health : HealthConfig) : RowLaw health RowSound where
  later hle h := h.later hle
  circuit hs h := h.circuitOnly hs
  taken cls hpass h := h.taken cls hpass
  givenBack cls h := h.givenBack cls
  failed h := h.failed
  succeeded httft he2e h := h.succeeded httft he2e

end RowSound

namespace Gateway

variable {D : Deployment} {g : Gateway} {b : String}

/-- **Rows are sound** in every reachable state: counters and averages are within their
bounds, and the ring holds dispatches in the order of their times. -/
theorem rows_sound (h : Reachable D g) (hb : b ∈ g.names) : RowSound g.world.clock.now (g.row b) :=
  rows_of_reach (RowSound.law D.cfg.health) (fun _ => RowSound.fromEntry) h hb

/-- After a request has been answered and another one dispatched. -/
theorem rows_sound_lone : ∃ g, Reachable lone g ∧ (g.row "gpu-node-1").inflight = 1 ∧
    (g.row "gpu-node-1").dispatchTimes.length = 2 ∧
    RowSound g.world.clock.now (g.row "gpu-node-1") := by
  obtain ⟨g, hg, hb, hinflight, hring⟩ : ∃ g, Reachable lone g ∧ "gpu-node-1" ∈ g.names ∧
      (g.row "gpu-node-1").inflight = 1 ∧ (g.row "gpu-node-1").dispatchTimes.length = 2 :=
    exists_reachable still [.arrive (chat false), .tick, .resume 0,
      .upstream 0 (.response 200 true), .arrive (chat true), .tick] (by decide +kernel)
  exact ⟨g, hg, hinflight, hring, rows_sound hg hb⟩

/-- With weights that are not negative no backend ever has a negative cost, in any
reachable state and for any class, total and time. -/
theorem score_nonneg {routing : RoutingConfig} (hweights : routing.NonNegative)
    (h : Reachable D g) (hb : b ∈ g.names) (cls : RequestClass) (total : ℕ) (now : ℚ) :
    0 ≤ Scoring.scoreBackend (g.row b) routing cls total now := by
  have hrow := (rows_sound h hb)
  have hin : (0 : ℚ) ≤ ((g.row b).inflight : ℚ) := by exact_mod_cast hrow.inflight.1
  have hhot : 0 ≤ Scoring.hotPenalty (g.row b) total routing now := by
    by_cases htotal : total = 0
    · rw [Scoring.hotPenalty, if_pos htotal]
    · rw [Scoring.hotPenalty_eq htotal]
      exact Scoring.sharePenalty_nonneg hweights _
  have hover : 0 ≤ Scoring.overloadPenalty (g.row b) routing := by
    unfold Scoring.overloadPenalty
    split
    · exact le_refl 0
    next hsoft =>
      have hexcess : (0 : ℚ) ≤ (((g.row b).inflight - (g.row b).softLimit : ℤ) : ℚ) := by
        exact_mod_cast (by omega : 0 ≤ (g.row b).inflight - (g.row b).softLimit)
      exact mul_nonneg hweights.overloadPenalty hexcess
  have hclass := (Scoring.classPenaltyForBackend_bounds (g.row b).largeInflight cls).1
  have h₁ := mul_nonneg hweights.inflight hin
  have h₂ := mul_nonneg hweights.queue hrow.ewmaQueueMs.ge
  have h₃ := mul_nonneg hweights.ttft hrow.ewmaTtftMs
  have h₄ := mul_nonneg hweights.e2e hrow.ewmaE2eMs
  have h₅ := mul_nonneg hweights.error hrow.errorRate.1
  -- a sum of eight terms, none of them negative
  unfold Scoring.scoreBackend
  linarith

theorem score_nonneg_lone : ∃ g, Reachable lone g ∧
    ((g.row "gpu-node-1").inflight = 1 ∧ 0 < (g.row "gpu-node-1").recentErrorRate) ∧
    0 ≤ Scoring.scoreBackend (g.row "gpu-node-1") lone.cfg.routing .smallChat 1 0 := by
  obtain ⟨g, hg, hb, hloaded⟩ : ∃ g, Reachable lone g ∧ "gpu-node-1" ∈ g.names ∧
      (g.row "gpu-node-1").inflight = 1 ∧ 0 < (g.row "gpu-node-1").recentErrorRate :=
    exists_reachable still [.arrive (chat false), .arrive (chat false), .tick, .resume 0,
      .upstream 0 (.response 404 true)] (by decide +kernel)
  have hweights : lone.cfg.routing.NonNegative := by constructor <;> norm_num [lone]
  exact ⟨g, hg, hloaded, score_nonneg hweights hg hb .smallChat 1 0⟩

end Gateway

end InferenceGateway
