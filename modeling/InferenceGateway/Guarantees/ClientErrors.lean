import InferenceGateway.Fleet.Records
import InferenceGateway.Guarantees.ErrorRate
import InferenceGateway.Proxy.Signals

/-!
# Client errors

A status of 400 to 499 is the client's fault, and both proxy paths keep `on_failure` for 500
and above. Both call `update_failure` for it all the same, so that every such answer is one
more failed sample of the backend.

- `AttemptLaw`: what the step that ends one such attempt does to its backend.
- `RunLaw`: what any number of them have done to a backend by the end of a run, against the
  same run without them. Circuit and opening time are the same; the error rate is not, nor
  are the probes left of a half-open period.
- `clientErrors_iff`: both hold, of every such step and in every run.
- `clientErrors_exclude`: under default settings two answers keep everybody else out.
-/

namespace InferenceGateway

open Lib BackendRuntimeState

namespace Gateway

variable {D : Deployment} {g g' : Gateway} {b : String} {a : Action} {c : ProxyCall}

/-! ## One attempt -/

/-- The step ends an attempt, made for `c`, that the upstream answered with a status
in 400 to 499. The headers of a streamed answer only suspend the handler. -/
inductive ClientError (g : Gateway) (c : ProxyCall) : Action → Prop where
  | buffered {r : ReqId} {status : ℤ} {relayable : Bool} (hc : g.handler r = .sending c)
      (hs : c.pending.classify.stream = false) (h400 : 400 ≤ status) (h500 : status < 500) :
      ClientError g c (.upstream r (.response status relayable))
  | streamed {r : ReqId} {status : ℤ} {relayable : Bool} (hc : g.handler r = .draining c status)
      (h400 : 400 ≤ status) (h500 : status < 500) : ClientError g c (.drained r (.read relayable))
  /-- The body of the answer to a streamed request cannot be read. -/
  | unread {r : ReqId} {status : ℤ} {e : UpstreamError} (hc : g.handler r = .draining c status)
      (h400 : 400 ≤ status) (h500 : status < 500) : ClientError g c (.drained r (.failed e))

/-- The step loses a streamed error's body in an exception. -/
def UnreadBody (a : Action) (e : UpstreamError) : Prop := ∃ r, a = .drained r (.failed e)

/-- One failed sample and nothing else: seen in the signals of a registered row,
unless its rate is `1` already. -/
theorem sampled_iff {w : World} {s' : BackendRuntimeState}
    (h : Health.SameSignals ((w.sampleFailure b).row b) s') :
    Health.SameSignals (w.row b) s' ↔ b ∉ w.names ∨ (w.row b).recentErrorRate = 1 := by
  by_cases hb : b ∈ w.names
  · rw [World.sampleFailure_row_of_mem hb] at h
    have hgap := one_sub_errorSample_true (w.row b).recentErrorRate
    rw [← updateFailure_recentErrorRate, ← h.recentErrorRate] at hgap
    constructor
    · intro hsame
      rw [hsame.recentErrorRate] at hgap
      exact .inr (by linarith)
    · intro hor
      have hone := hor.resolve_left (not_not.mpr hb)
      exact ⟨h.circuit, h.consecutiveFailures, by linarith⟩
  · rw [World.sampleFailure_of_notMem hb] at h
    exact iff_of_true h (.inl hb)

/-- The signals after a buffered answer 400 to 499. If there is no retry, the row is the
one before with a failed sample and the slot given back, and nothing else. -/
theorem onBufferedResponse_clientError {w : World} {status : ℤ} (relayable : Bool)
    (h400 : 400 ≤ status) (h500 : status < 500) :
    Health.SameSignals ((w.sampleFailure c.target.name).row c.target.name)
        ((Proxy.onBufferedResponse D w c status relayable).1.row c.target.name) ∧
      ((Proxy.attemptsLeft D.cfg c && Proxy.retryableStatus D.cfg status) = false →
        (Proxy.onBufferedResponse D w c status relayable).1.row c.target.name =
          ((w.sampleFailure c.target.name).releaseDispatch c.target.name c.reqClass).row
            c.target.name) := by
  have hacc : Proxy.accountErrorStatus D w.readClock c status =
      (w.readClock.sampleFailure c.target.name).emit (.errorsTotal c.target.name) := by
    simp [Proxy.accountErrorStatus, World.recordErrorStatus, not_le.mpr h500]
  have hsample : (w.readClock.sampleFailure c.target.name).registry =
      (w.sampleFailure c.target.name).registry := World.sampleFailure_registry rfl
  rw [Proxy.onBufferedResponse_of_le h400, hacc]
  constructor
  · rw [World.row, ← hsample]
    exact Proxy.retryOrGiveUp_signals
      (w := (w.readClock.sampleFailure c.target.name).emit (.errorsTotal c.target.name))
  · intro hno
    rw [hno, Proxy.retryOrGiveUp_row_of_not]
    exact congrArg (BackendRegistry.row · c.target.name) (World.releaseDispatch_registry hsample)

/-- A transport error lengthens the streak of a registered row, and nothing else can
shorten it again within the step. -/
theorem transportError_iff {w : World} {e : UpstreamError} :
    Health.SameSignals (w.row c.target.name)
        ((Proxy.onTransportError D w c e).1.row c.target.name) ↔ c.target.name ∉ w.names := by
  have hrest : Health.SameSignals
      ((Proxy.accountTransportError D w c).row c.target.name)
      ((Proxy.onTransportError D w c e).1.row c.target.name) :=
    Proxy.retryOrGiveUp_signals (c := { c with lastError := some e }.withFailure e)
  -- a registered backend has a longer streak afterwards; any other has no row at all
  by_cases hb : c.target.name ∈ w.names
  · refine iff_of_false (fun hsame => ?_) (not_not.mpr hb)
    have hstreak : ((Proxy.accountTransportError D w c).row c.target.name).consecutiveFailures =
        (w.row c.target.name).consecutiveFailures + 1 := by
      rw [Proxy.accountTransportError, World.recordFailure,
        World.sampleFailure_row_of_mem (by simpa using hb), World.row,
        World.moveCircuit_row_self (by simpa using hb)]
      exact Health.onFailure_consecutiveFailures
    rw [← hrest.consecutiveFailures, hsame.consecutiveFailures] at hstreak
    omega
  · have hacc : (Proxy.accountTransportError D w c).row c.target.name = w.row c.target.name := by
      have hb' : c.lease.target.name ∉ w.registry.names := hb
      simp [Proxy.accountTransportError, World.recordFailure, World.moveCircuit,
        World.sampleFailure, hb', World.readClock, World.emit]
    rw [hacc] at hrest
    exact iff_of_true hrest hb

/-- Raising the error rate of a row can cost it its eligibility, in no other way. -/
theorem eligibleAt_sampled {health : HealthConfig} {s : BackendRuntimeState} {now : ℚ}
    (hle : s.recentErrorRate ≤ 1) :
    Health.eligibleAt health now s.updateFailure = true ↔
      Health.eligibleAt health now s = true ∧
        errorSample true s.recentErrorRate ≤ health.maxErrorRateForEligibility := by
  unfold Health.eligibleAt
  have hcomm : Health.maybeTransitionFromOpen health now s.updateFailure =
      (Health.maybeTransitionFromOpen health now s).updateFailure := by
    cases hc : s.circuit <;> cases ho : s.circuitOpenedAtMonotonic <;>
      simp only [Health.maybeTransitionFromOpen, updateFailure, hc, ho]
    split <;> simp [hc, ho]
  have hgap := one_sub_errorSample_true s.recentErrorRate
  have hrate := (Health.maybeTransitionFromOpen_sameLoad health now s).recentErrorRate
  rw [hcomm, Health.passes_iff, Health.passes_iff, updateFailure_recentErrorRate, hrate]
  constructor
  · rintro ⟨hdrained, hopen, hroom, hcap, hprobe⟩
    exact ⟨⟨hdrained, hopen, hroom, by linarith, hprobe⟩, hcap⟩
  · rintro ⟨⟨hdrained, hopen, hroom, -, hprobe⟩, hcap⟩
    exact ⟨hdrained, hopen, hroom, hcap, hprobe⟩

theorem releaseDispatch_sampleFailure {w : World} {cls : RequestClass} (hb : b ∈ w.names) :
    ((w.sampleFailure b).releaseDispatch b cls).row b =
      ((w.releaseDispatch b cls).row b).updateFailure := by
  have hb' : b ∈ (w.sampleFailure b).names := by simpa using hb
  rw [World.releaseDispatch_of_mem hb', World.releaseDispatch_of_mem hb,
    World.sampleFailure_row_of_mem hb]
  simp [updateFailure]

theorem onDrained_clientError {w : World} {status : ℤ} (relayable : Bool) (h500 : status < 500) :
    (Proxy.onDrained D w c status (.read relayable)).1.row c.target.name =
      ((w.sampleFailure c.target.name).releaseDispatch c.target.name c.reqClass).row
        c.target.name := by
  have hacc : (Proxy.accountErrorStatus D w c status).registry =
      (w.sampleFailure c.target.name).registry := by
    simp [Proxy.accountErrorStatus, World.recordErrorStatus, not_le.mpr h500]
  simp only [Proxy.onDrained, World.row, World.endAttempt_registry]
  rw [World.releaseDispatch_registry hacc]

/-- A body that cannot be read leaves the signals alone only where nothing is
accounted for. -/
theorem onDrained_failed_iff {w : World} {status : ℤ} {e : UpstreamError} :
    Health.SameSignals (w.row c.target.name)
        ((Proxy.onDrained D w c status (.failed e)).1.row c.target.name) ↔
      c.target.name ∉ w.names ∨ e.caught = false := by
  cases hcaught : e.caught with
  | false =>
    -- nothing is accounted for, nor is the slot released
    refine iff_of_true ?_ (.inr rfl)
    rw [Proxy.onDrained_uncaught hcaught]
    show Health.SameSignals _ ((w.endAttempt c.lease .uncaught).registry.row c.target.name)
    rw [World.endAttempt_registry]
    exact .refl _
  | true =>
    -- the failed read is accounted for as a transport error
    rw [Proxy.onDrained_transportError hcaught]
    refine transportError_iff.trans ⟨.inl, ?_⟩
    rintro (hb | hno)
    · exact hb
    · cases hno

/-- The row after a client error that is not retried, against the row with the slot
released alone. -/
theorem eligibleAt_left {w : World} {health : HealthConfig} {s' : BackendRuntimeState} {now : ℚ}
    {cls : RequestClass} (hb : b ∈ w.names) (hle : (w.row b).recentErrorRate ≤ 1)
    (h : s' = ((w.sampleFailure b).releaseDispatch b cls).row b) :
    Health.eligibleAt health now s' = true ↔
      Health.eligibleAt health now ((w.releaseDispatch b cls).row b) = true ∧
        1 - 3 / 4 * (1 - (w.row b).recentErrorRate) ≤ health.maxErrorRateForEligibility := by
  have hrate : ((w.releaseDispatch b cls).row b).recentErrorRate = (w.row b).recentErrorRate :=
    World.releaseDispatch_signals.recentErrorRate
  rw [h, releaseDispatch_sampleFailure hb, eligibleAt_sampled (by rw [hrate]; exact hle), hrate,
    ← one_sub_errorSample_true, sub_sub_cancel]

/-- The accounting of a client error writes a failed sample into the record of its
backend, and nothing into that of any other: in both the entries are still those of
client errors. -/
theorem inserted_accountErrorStatus {w : World} {past : List Incident} {status : ℤ}
    (h500 : status < 500) (h : Inserted past (w.history b)) :
    Inserted past ((Proxy.accountErrorStatus D w c status).history b) := by
  have hemit : (Proxy.accountErrorStatus D w c status).history b =
      (w.sampleFailure c.target.name).history b := by
    rw [Proxy.accountErrorStatus, World.recordErrorStatus, if_neg (not_le.mpr h500)]
    exact history_cons ..
  rw [hemit]
  -- the status is below 500, so that all it leaves in the record is a sample
  by_cases hmem : c.target.name ∈ w.names
  · have hcons : (w.sampleFailure c.target.name).history b =
        (Event.seenBy b (.sampled c.target.name true)).toList ++ w.history b := by
      rw [World.sampleFailure, if_pos hmem, World.modify, if_pos hmem]
      exact history_cons ..
    rw [hcons]
    by_cases hb : c.target.name = b
    · rw [Event.seenBy, if_pos hb]
      exact h.answered
    · rw [Event.seenBy, if_neg hb]
      exact h
  · rw [World.sampleFailure, if_neg hmem]
    exact h

/-- The end of an attempt with a client error is one more entry, if a slot was taken for
it. -/
theorem inserted_endAttempt {w : World} {past : List Incident} {lease : Lease}
    (h : Inserted past (w.history b)) :
    Inserted past ((w.endAttempt lease .clientError).history b) := by
  cases lease with
  | fallback t => exact h
  | granted grant =>
    rw [World.endAttempt, Fleet.emit_history_ended]
    split
    · exact h.ended _
    · exact h

theorem errorEnding_of_lt {status : ℤ} (h : status < 500) :
    Proxy.errorEnding status = .clientError := if_neg (not_le.mpr h)

/-- What a client error that is relayed writes into the record of any backend. -/
theorem inserted_relayed {w : World} {status : ℤ} (h500 : status < 500) :
    Inserted (w.history b) ((((Proxy.accountErrorStatus D w c status).releaseDispatch
      c.target.name c.reqClass).endAttempt c.lease (Proxy.errorEnding status)).history b) := by
  rw [errorEnding_of_lt h500]
  refine inserted_endAttempt ?_
  rw [World.releaseDispatch_history]
  exact inserted_accountErrorStatus h500 (.refl _)

/-- **The step that ends an attempt answered 400 to 499.** -/
structure AttemptLaw (D : Deployment) (g g' : Gateway) (c : ProxyCall) (a : Action) : Prop where
  /-- It leaves circuit, streak and error rate of the backend as they were if and only if the
  backend is not registered, or the body of a streamed answer is lost in an exception no
  clause names, or the answer is read and the rate is `1`. -/
  signals : Health.SameSignals (g.row c.target.name) (g'.row c.target.name) ↔
    c.target.name ∉ g.names ∨ (∃ e, UnreadBody a e ∧ e.caught = false) ∨
      ((∀ e, ¬ UnreadBody a e) ∧ (g.row c.target.name).recentErrorRate = 1)
  /-- When the answer is relayed and not retried, a registered backend is eligible afterwards
  if and only if it would be with the slot released alone, and the rate that closes a quarter
  of the gap to `1` is within the cap. -/
  eligible : c.target.name ∈ g.names → (g.row c.target.name).recentErrorRate ≤ 1 →
    g.retryOf D a = none → (∀ e, ¬ UnreadBody a e) → ∀ now,
    (Health.eligibleAt D.cfg.health now (g'.row c.target.name) = true ↔
      Health.eligibleAt D.cfg.health now
          ((g.world.releaseDispatch c.target.name c.reqClass).row c.target.name) = true ∧
        1 - 3 / 4 * (1 - (g.row c.target.name).recentErrorRate) ≤
          D.cfg.health.maxErrorRateForEligibility)
  /-- It writes nothing into the record of the backend but the entries of a client error. -/
  recorded : g.retryOf D a = none → (∀ e, ¬ UnreadBody a e) →
    Inserted (g.world.history c.target.name) (g'.world.history c.target.name)
  /-- No run brings a rate to `1`. -/
  rate_lt : Reachable D g → c.target.name ∈ g.names →
    (g.row c.target.name).recentErrorRate < 1

theorem attemptLaw (herr : ClientError g c a) (hstep : step D g a = some g') :
    AttemptLaw D g g' c a := by
  have hlt : Reachable D g → c.target.name ∈ g.names →
      (g.row c.target.name).recentErrorRate < 1 := by
    intro h hb
    rw [recentErrorRate_eq h hb]
    exact (errorRate_bounds _).2
  -- an answer that is read, in one step or in two, is one failed sample
  have hread : ∀ {P : Prop}, (∀ e, ¬ UnreadBody a e) → (P ↔ c.target.name ∉ g.names ∨
      (g.row c.target.name).recentErrorRate = 1) → (P ↔ c.target.name ∉ g.names ∨
        (∃ e, UnreadBody a e ∧ e.caught = false) ∨
        ((∀ e, ¬ UnreadBody a e) ∧ (g.row c.target.name).recentErrorRate = 1)) := by
    intro P hno hP
    rw [hP]
    simp [hno]
  cases herr with
  | @buffered r status relayable hc hs h400 h500 =>
    obtain rfl : g' = g.put r (Proxy.onUpstream D g.world c (.response status relayable)) := by
      simpa [step, hc] using hstep.symm
    rw [Proxy.onUpstream_buffered hs]
    obtain ⟨hsignals, hrow⟩ := onBufferedResponse_clientError (D := D) (c := c) (w := g.world)
      relayable h400 h500
    have hnot : g.retryOf D (.upstream r (.response status relayable)) = none →
        (Proxy.attemptsLeft D.cfg c && Proxy.retryableStatus D.cfg status) = false := by
      intro hretry
      simpa [retryOf, hc, Proxy.retryOnUpstream, hs, h400] using hretry
    refine ⟨hread ?_ (sampled_iff hsignals), ?_, ?_, hlt⟩
    · rintro e ⟨r', hno⟩
      cases hno
    · intro hb hle hretry _ now
      exact eligibleAt_left hb hle (hrow (hnot hretry))
    · intro hretry _
      show Inserted _ ((Proxy.onBufferedResponse D g.world c status relayable).1.history _)
      rw [Proxy.onBufferedResponse_of_le h400, hnot hretry]
      exact inserted_relayed (w := g.world.readClock) h500
  | @streamed r status relayable hc h400 h500 =>
    obtain rfl : g' = g.put r (Proxy.onDrained D g.world c status (.read relayable)) := by
      simpa [step, hc] using hstep.symm
    have hrow := onDrained_clientError (D := D) (c := c) (w := g.world) relayable h500
    have hsignals : Health.SameSignals ((g.world.sampleFailure c.target.name).row c.target.name)
        ((Proxy.onDrained D g.world c status (.read relayable)).1.row c.target.name) := by
      rw [hrow]
      exact World.releaseDispatch_signals
    refine ⟨hread ?_ (sampled_iff hsignals), ?_, ?_, hlt⟩
    · rintro e ⟨r', hno⟩
      cases hno
    · intro hb hle _ _ now
      exact eligibleAt_left hb hle hrow
    · intro _ _
      exact inserted_relayed (w := g.world) h500
  | @unread r status e hc h400 h500 =>
    obtain rfl : g' = g.put r (Proxy.onDrained D g.world c status (.failed e)) := by
      simpa [step, hc] using hstep.symm
    refine ⟨onDrained_failed_iff.trans ?_, fun _ _ _ hno => absurd ⟨r, rfl⟩ (hno e),
      fun _ hno => absurd ⟨r, rfl⟩ (hno e), hlt⟩
    constructor
    · rintro (hb | hcaught)
      · exact .inl hb
      · exact .inr (.inl ⟨e, ⟨r, rfl⟩, hcaught⟩)
    · rintro (hb | ⟨e', ⟨r', heq⟩, hcaught⟩ | ⟨hno, -⟩)
      · exact .inl hb
      · cases heq
        exact .inr hcaught
      · exact absurd ⟨r, rfl⟩ (hno e)

/-! ## Whole runs -/

/-- **A run with client errors against one without.** `past` is the record of `b` in `g` with
the entries of any number of client errors taken out, wherever they stood. -/
structure RunLaw (D : Deployment) (g : Gateway) (b : String) (past : List Incident) : Prop where
  /-- The backend is eligible with them if and only if it is without them, the same slots
  being taken; the error rate of all samples, theirs included, is within the cap; and a
  half-open circuit has a probe left after those they used up. -/
  eligible : ∀ now, (Health.eligibleAt D.cfg.health now (g.row b) = true ↔
    Health.eligibleAt D.cfg.health now ((g.row b).asLived past) = true ∧
      errorRate (samples (g.world.history b)) ≤ D.cfg.health.maxErrorRateForEligibility ∧
      (circuitOf past = .halfOpen →
        (probesIssued (g.world.history b) : ℤ) < D.cfg.health.halfOpenMaxInflight))
  /-- Any run in which the backend has lived through `past` leaves it just so. -/
  twin : ∀ g₀ : Gateway, Reachable D g₀ → b ∈ g₀.names → g₀.world.history b = past →
    ∀ now, (Health.eligibleAt D.cfg.health now ((g.row b).asLived past) = true ↔
      (g.row b).drained = false ∧ (g.row b).inflight < (g.row b).hardLimit ∧
        (g₀.row b).recentErrorRate ≤ D.cfg.health.maxErrorRateForEligibility ∧
        Health.LetsThrough D.cfg.health now (g₀.row b))
  /-- They only ever raise the rate, -/
  raised : errorRate (samples past) ≤ (g.row b).recentErrorRate
  /-- and `n` of them in a row close all but `(3/4)^n` of its gap to `1`. -/
  burst : ∀ n, samples (g.world.history b) = List.replicate n true ++ samples past →
    (g.row b).recentErrorRate = 1 - (3 / 4) ^ n * (1 - errorRate (samples past))

theorem runLaw {past : List Incident} (h : Reachable D g) (hb : b ∈ g.names)
    (hins : Inserted past (g.world.history b)) : RunLaw D g b past := by
  have hrate := recentErrorRate_eq h hb
  have hrecord : Recorded (g.world.history b) (g.row b) :=
    Fleet.recorded_of_reach (reaches_fleet_any h) hb
  refine ⟨fun now => ?_, fun g₀ h₀ hb₀ hpast now => ?_, ?_, fun n hn => ?_⟩
  · -- the row is what its own record makes of it
    have hself : Health.eligibleAt D.cfg.health now (g.row b) = true ↔
        Health.eligibleAt D.cfg.health now ((g.row b).asLived (g.world.history b)) = true := by
      rw [hrecord.eligibleAt_asLived, Health.eligibleAt_iff]
    rw [hself]
    exact hins.eligibleAt_iff
  -- and so is the row of any run with the shorter record
  · have hrecord₀ : Recorded past (g₀.row b) :=
      hpast ▸ Fleet.recorded_of_reach (reaches_fleet_any h₀) hb₀
    exact hrecord₀.eligibleAt_asLived
  · rw [hrate]
    exact hins.errorRate_le
  · have hgap := one_sub_errorRate_failures (samples past) n
    rw [hrate, hn]
    linarith

/-- **Client errors.** `AttemptLaw` holds of every step that ends an attempt answered 400 to
499, and `RunLaw` of every run and whatever client errors are taken out of a backend's record
in it. -/
theorem clientErrors_iff (D : Deployment) :
    (∀ g g' c a, ClientError g c a → step D g a = some g' → AttemptLaw D g g' c a) ∧
    ∀ g b past, Reachable D g → b ∈ g.names → Inserted past (g.world.history b) →
      RunLaw D g b past :=
  ⟨fun _ _ _ _ => attemptLaw, fun _ _ _ => runLaw⟩

/-- The buffered request `r` is on its way to `b`. -/
def sendsTo (g : Gateway) (r : ReqId) (b : String) : Bool :=
  match g.handler r with
  | .sending c => !c.pending.classify.stream && decide (c.target.name = b)
  | _ => false

theorem sending_of_sendsTo {r : ReqId} (h : g.sendsTo r b = true) :
    ∃ c, g.handler r = .sending c ∧ c.pending.classify.stream = false ∧ c.target.name = b := by
  unfold sendsTo at h
  split at h
  case h_1 c hc =>
    obtain ⟨hs, hb⟩ := Bool.and_eq_true_iff.mp h
    exact ⟨c, hc, by simpa using hs, of_decide_eq_true hb⟩
  case h_2 => cases h

/-- The next request is buffered, and answered with `status`. -/
def asked (r : ReqId) (status : ℤ) : List Action :=
  [.arrive (chat false), .tick, .resume r, .upstream r (.response status true)]

/-- What the history of a backend records of a request that it answers with a success. -/
def servedOnce : List Incident := [.ended none .success, .sampled false, .dispatched none 0]

/-- What the history of a backend records of a request that it answers with a client error. -/
def refusedOnce : List Incident := [.ended none .clientError, .sampled true, .dispatched none 0]

/-- A client error, an answer and another client error, beside a run with the answer alone:
under the default cap the backend is eligible without the two, and not with them. -/
theorem clientErrors_iff_twice : ∃ g₀ g : Gateway,
    g.handler 2 = .replied (.response 404) ∧
    (g₀.world.isHealthyForSchedule lone.cfg.health "gpu-node-1").2 = true ∧
    (g.world.isHealthyForSchedule lone.cfg.health "gpu-node-1").2 = false ∧
    RunLaw lone g "gpu-node-1" (g₀.world.history "gpu-node-1") ∧
    ∃ (g₁ : Gateway) (c : ProxyCall), c.target.name = "gpu-node-1" ∧
      AttemptLaw lone g₁ g c (.upstream 2 (.response 404 true)) := by
  -- the run without the two answers, then the run with them
  have hwithout : ∃ g₀, Reachable lone g₀ ∧ g₀.world.history "gpu-node-1" = servedOnce ∧
      (g₀.world.isHealthyForSchedule lone.cfg.health "gpu-node-1").2 = true := by
    refine exists_reachable still (asked 0 200) ?_
    decide +kernel
  have hwith : ∃ g₁, Reachable lone g₁ ∧ g₁.sendsTo 2 "gpu-node-1" = true ∧
      (∃ g ∈ step lone g₁ (.upstream 2 (.response 404 true)), "gpu-node-1" ∈ g.names ∧
        g.handler 2 = .replied (.response 404) ∧
        g.world.history "gpu-node-1" = refusedOnce ++ servedOnce ++ refusedOnce ∧
        (g.world.isHealthyForSchedule lone.cfg.health "gpu-node-1").2 = false) := by
    refine exists_reachable still (asked 0 404 ++ asked 1 200 ++
      [.arrive (chat false), .tick, .resume 2]) ?_
    decide +kernel
  obtain ⟨g₀, -, hpast, hin⟩ := hwithout
  obtain ⟨g₁, h₁, hsent, g, hg, hb, hreply, hrecord, hout⟩ := hwith
  have hins : Inserted (g₀.world.history "gpu-node-1") (g.world.history "gpu-node-1") := by
    rw [hpast, hrecord]
    exact ((((((Inserted.refl []).dispatched none 0).answered.ended none).keep _).keep _).keep
      _).dispatched none 0 |>.answered.ended none
  obtain ⟨c, hc, hs, htarget⟩ := sending_of_sendsTo hsent
  obtain ⟨hattempt, hrun⟩ := clientErrors_iff lone
  exact ⟨g₀, g, hreply, hin, hout, hrun g _ _ (h₁.step trivial hg) hb hins, g₁, c, htarget,
    hattempt g₁ g c _ (.buffered hc hs (by decide) (by decide)) hg⟩

/-- Two requests are answered 404, and nothing else happens: the circuit stays closed
and the backend is no longer eligible for anybody. -/
theorem clientErrors_exclude :
    ((init lone still).world.isHealthyForSchedule lone.cfg.health "gpu-node-1").2 = true ∧
    ∃ g, Reachable lone g ∧ g.arrived = 2 ∧ g.handler 0 = .replied (.response 404) ∧
      g.handler 1 = .replied (.response 404) ∧ g.fleet.heldOn "gpu-node-1" = 0 ∧
      (g.row "gpu-node-1").circuit = .closed ∧ (g.row "gpu-node-1").recentErrorRate = 7 / 16 ∧
      (g.world.isHealthyForSchedule lone.cfg.health "gpu-node-1").2 = false := by
  refine ⟨by decide +kernel, exists_reachable still
    [.arrive (chat false), .tick, .resume 0, .upstream 0 (.response 404 true),
      .arrive (chat false), .tick, .resume 1, .upstream 1 (.response 404 true)] ?_⟩
  decide +kernel

end Gateway

end InferenceGateway
