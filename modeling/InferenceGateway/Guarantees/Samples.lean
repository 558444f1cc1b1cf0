import InferenceGateway.Fleet.Samples
import InferenceGateway.Guarantees.ErrorRate

/-!
# One sample for each attempt

The gateway runs beside a ledger of the attempts that are over, each with its
backend and the latency of a success. An attempt begins when its request is sent
and is over when its response, the body of a stream included, is.

- `Accounted`: what a step did to the averages is what it put into the ledger,
  at most one attempt. A step that samples an attempt which is not over, or ends
  one without a sample, is not accounted for.
- `OneSampleEach`: the averages of every backend are what the ledger gives, one
  sample for each attempt and one latency for each success.
- `samples_iff`: the averages follow the ledger in every run of steps that count
  an attempt once, and part from it with the first step that does not
  (`Parted`).
- `samples_iff_fails_streamed`: a streamed success is sampled twice.
-/

namespace InferenceGateway

open Lib BackendRuntimeState

/-! ## The ledger -/

/-- An attempt that is over: where it was made, and the latency of a success. -/
structure Ended where
  backend : String
  result : Option ℚ
  deriving DecidableEq, Repr

/-- Which attempts on `b` failed, newest first. -/
def outcomes (b : String) (ledger : List Ended) : List Bool :=
  (ledger.filter (·.backend = b)).map (·.result.isNone)

/-- The latencies of the successes on `b`, newest first. -/
def latencies (b : String) (ledger : List Ended) : List ℚ :=
  (ledger.filter (·.backend = b)).filterMap (·.result)

/-- The latency average of a history of latencies, newest first, from a fresh row. -/
def e2eAverage : List ℚ → ℚ
  | [] => 200
  | e2eMs :: past => ewma (e2eAverage past) e2eMs (2 / 10)

/-- The averages move by what has ended between `w` and `w'`. -/
def Accounted : Option Ended → World → World → Prop
  | none => World.Unsampled
  | some e => World.SampledOnce e.backend e.result

section Ledger

variable {b : String} {e : Ended} {ended : Option Ended} {ledger : List Ended} {w w' : World}

/-- An attempt that is over is one more outcome of its backend. -/
theorem outcomes_cons_self : outcomes e.backend (e :: ledger) =
    e.result.isNone :: outcomes e.backend ledger := by
  simp [outcomes]

/-- An attempt that is over is no outcome of any other backend. -/
theorem outcomes_cons_of_ne (h : b ≠ e.backend) :
    outcomes b (e :: ledger) = outcomes b ledger := by
  simp [outcomes, h.symm]

theorem latencies_cons_of_ne (h : b ≠ e.backend) :
    latencies b (e :: ledger) = latencies b ledger := by
  simp [latencies, h.symm]

/-- The latency of a success is blended in, and a failure has none. -/
theorem e2eAverage_cons_self : e2eAverage (latencies e.backend (e :: ledger)) =
    e.result.elim (e2eAverage (latencies e.backend ledger))
      (ewma (e2eAverage (latencies e.backend ledger)) · (2 / 10)) := by
  cases h : e.result <;> simp [latencies, h, e2eAverage]

theorem Accounted.names (h : Accounted ended w w') : w'.names = w.names := by
  cases ended with
  | none => exact World.Unsampled.names h
  | some e => exact World.SampledOnce.names h

/-- What is accounted for is one more sample where it is one more outcome. -/
theorem Accounted.samples (h : Accounted ended w w') (hb : b ∈ w.names)
    (hw : samples (w.history b) = outcomes b ledger) :
    samples (w'.history b) = outcomes b (ended.toList ++ ledger) := by
  cases ended with
  | none => exact (World.Unsampled.samples_eq h).trans hw
  | some e =>
    by_cases hbe : b = e.backend
    · subst hbe
      exact (World.SampledOnce.samples_self h hb).trans
        ((congrArg _ hw).trans outcomes_cons_self.symm)
    · exact (World.SampledOnce.samples_of_ne h hbe).trans (hw.trans (outcomes_cons_of_ne hbe).symm)

/-- What is accounted for is one more latency where it is a success. -/
theorem Accounted.ewmaE2eMs (h : Accounted ended w w') (hb : b ∈ w.names)
    (hw : (w.row b).ewmaE2eMs = e2eAverage (latencies b ledger)) :
    (w'.row b).ewmaE2eMs = e2eAverage (latencies b (ended.toList ++ ledger)) := by
  cases ended with
  | none => exact (World.Unsampled.ewmaE2eMs h b).trans hw
  | some e =>
    by_cases hbe : b = e.backend
    · subst hbe
      rw [World.SampledOnce.ewmaE2eMs_self h hb, hw]
      exact e2eAverage_cons_self.symm
    · rw [World.SampledOnce.ewmaE2eMs_of_ne h hbe, hw]
      exact congrArg e2eAverage (latencies_cons_of_ne hbe).symm

/-- What is accounted for on an unregistered backend does not show. -/
theorem accounted_of_notMem (hb : e.backend ∉ w.names) (h : World.Unsampled w w') :
    Accounted (some e) w w' :=
  (World.sampledOnce_of_notMem hb).mpr h

end Ledger

/-! ## The ends of an attempt -/

/-- The call whose stream is being relayed. -/
def Handler.relays : Handler → Option ProxyCall
  | .relaying c _ => some c
  | _ => none

namespace Proxy

open World

variable {D : Deployment} {w : World} {c : ProxyCall} {status : ℤ} {relayable : Bool}
  {e : UpstreamError} {o : Upstream}

/-- The result of an attempt, if `o` is the end of it. -/
def resultOf (w : World) (c : ProxyCall) : Upstream → Option (Option ℚ)
  | .response status relayable =>
    if status < 400 then
      -- a stream has only begun
      if c.pending.classify.stream && relayable then none else some (some (latencyMs w c))
    else
      -- the body of a streamed error is still to be read
      if c.pending.classify.stream then none else some none
  | .failed _ => some none

/-- The result of an attempt whose stream is over. -/
def streamResult (w : World) (c : ProxyCall) : StreamEnd → Option ℚ
  | .upstreamRaised => none
  | .exhausted | .closedEarly => some (latencyMs w c)

/-- What came of `send` is neither the headers of a stream to relay nor an exception no
`except` clause names. -/
def countedOnce (c : ProxyCall) : Upstream → Bool
  | .response status relayable => !(c.pending.classify.stream && decide (status < 400) && relayable)
  | .failed e => e.caught

/-- An error status is sampled once, as a failure. -/
theorem sampledOnce_accountErrorStatus :
    SampledOnce c.target.name none w (accountErrorStatus D w c status) :=
  sampledOnce_recordErrorStatus.after (unsampled_emit rfl)

/-- A failed transport is sampled once, as a failure. -/
theorem sampledOnce_onTransportError :
    SampledOnce c.target.name none w (onTransportError D w c e).1 :=
  (sampledOnce_recordFailure.before (unsampled_emit rfl)).after unsampled_retryOrGiveUp

theorem sampledOnce_onStreamSendError :
    SampledOnce c.target.name none w (onStreamSendError D w c e).1 :=
  sampledOnce_recordFailure.after
    (((unsampled_emit rfl).trans unsampled_releaseDispatch).trans unsampled_endAttempt)

/-- An error that nobody catches is not sampled. -/
theorem unsampled_onUncaught : Unsampled w (onUncaught w c e).1 := unsampled_endAttempt

/-- The headers of a stream are sampled as a success. -/
theorem sampledOnce_relayedWorld :
    SampledOnce c.target.name (some (latencyMs w c)) w (relayedWorld w c) :=
  sampledOnce_recordSuccess.before unsampled_readClock

/-- What came of `send` is accounted for, on a registered backend if it counts once. -/
theorem accounted_onUpstream (h : c.target.name ∈ w.names → countedOnce c o = true) :
    Accounted ((resultOf w c o).map (⟨c.target.name, ·⟩)) w (onUpstream D w c o).1 := by
  generalize hnext : onUpstream D w c o = next
  cases upstreams_of_eq hnext with
  | answered hs hlt =>
    simp only [resultOf, hs, hlt, if_true, Bool.false_and]
    exact (sampledOnce_recordSuccess.before unsampled_readClock).after
      (unsampled_releaseDispatch.trans unsampled_endAttempt)
  | refused hs hge =>
    simp only [resultOf, hs, not_lt.mpr hge, if_false]
    exact (sampledOnce_accountErrorStatus.before unsampled_readClock).after unsampled_retryOrGiveUp
  | relayed hs hlt =>
    -- sampled before it is over, which only an unregistered backend can hide
    have hb : c.target.name ∉ w.names := fun hmem => by
      have hcount := h hmem
      simp [countedOnce, hs, hlt] at hcount
    simp only [resultOf, hs, hlt, if_true, Bool.true_and]
    exact (sampledOnce_of_notMem hb).mp sampledOnce_relayedWorld
  | unrelayable hs hlt =>
    simp only [resultOf, hs, hlt, if_true, Bool.true_and]
    exact sampledOnce_relayedWorld.after unsampled_endAttempt
  | drained hs hge =>
    simp only [resultOf, hs, not_lt.mpr hge, if_false, if_true]
    exact unsampled_readClock
  | uncaught he =>
    refine accounted_of_notMem (fun hmem => ?_) unsampled_onUncaught
    exact Bool.false_ne_true (he.symm.trans (h hmem))
  | streamError hs he => exact sampledOnce_onStreamSendError
  | transportError hs he => exact sampledOnce_onTransportError

/-- What came of reading the body of a streamed error is accounted for, unless the read
raised what nobody catches. -/
theorem accounted_onDrained {o : BodyRead}
    (h : ∀ e, o = .failed e → c.target.name ∈ w.names → e.caught = true) :
    Accounted (some ⟨c.target.name, none⟩) w (onDrained D w c status o).1 := by
  generalize hnext : onDrained D w c status o = next
  cases drains_of_eq hnext with
  | read =>
    exact sampledOnce_accountErrorStatus.after
      (unsampled_releaseDispatch.trans unsampled_endAttempt)
  | @uncaught e he =>
    refine accounted_of_notMem (fun hmem => ?_) unsampled_onUncaught
    exact Bool.false_ne_true (he.symm.trans (h e rfl hmem))
  | transportError he => exact sampledOnce_onTransportError

theorem unsampled_onStreamEnd {t : ℚ} {raises : Bool} (hb : c.target.name ∉ w.names) :
    Unsampled w (onStreamEnd w c t raises).1 := by
  cases raises with
  | true => exact unsampled_endAttempt
  | false =>
    have hsample : Unsampled w.readClock (w.readClock.sampleStream c.target.name
        ((w.readClock.clock.now - t) * 1000)) :=
      (sampledOnce_of_notMem (w := w.readClock) hb).mp sampledOnce_sampleStream
    exact ((unsampled_readClock.trans hsample).trans unsampled_releaseDispatch).trans
      unsampled_endAttempt

/-! ## Where streams begin -/

theorem beginAttempt_relays : (beginAttempt D w c).2.relays = none := by
  rcases beginAttempt_cases D w c with ⟨-, reply, -, h⟩ | ⟨v, -, h⟩ | ⟨reply, h⟩ <;> rw [h] <;> rfl

theorem retryOrGiveUp_relays {retry : Bool} {how : Ending} {final : Reply} :
    (retryOrGiveUp D w c retry how final).2.relays = none := by
  rcases retryOrGiveUp_cases D w c retry how final with
    ⟨-, h⟩ | ⟨-, -, h⟩ | ⟨-, grant, -, h⟩ <;> rw [h]
  · rfl
  · rfl
  · exact beginAttempt_relays

/-- After a failed transport nothing is relayed. -/
theorem onTransportError_relays : (onTransportError D w c e).2.relays = none :=
  retryOrGiveUp_relays

/-- A stream is relayed once its headers have been sampled. -/
theorem onUpstream_relays {c' : ProxyCall} (h : (onUpstream D w c o).2.relays = some c') :
    c' = c ∧ countedOnce c o = false := by
  generalize hnext : onUpstream D w c o = next at h
  cases upstreams_of_eq hnext with
  | refused hs hge => cases retryOrGiveUp_relays.symm.trans h
  | relayed hs hlt =>
    cases h
    exact ⟨rfl, by simp [countedOnce, hs, hlt]⟩
  | transportError hs he => cases onTransportError_relays.symm.trans h
  | _ => cases h

theorem onDrained_relays {o : BodyRead} : (onDrained D w c status o).2.relays = none := by
  generalize hnext : onDrained D w c status o = next
  cases drains_of_eq hnext with
  | transportError he => exact onTransportError_relays
  | _ => rfl

end Proxy

namespace Gateway

open World

variable {D : Deployment} {g g' : Gateway} {a : Action} {ledger : List Ended}

/-! ## The gateway and the ledger -/

/-- The attempt the step ends. -/
def endedBy (g : Gateway) : Action → Option Ended
  | .upstream r o =>
    match g.handler r with
    | .sending c => (Proxy.resultOf g.world c o).map (⟨c.target.name, ·⟩)
    | _ => none
  | .drained r _ =>
    match g.handler r with
    | .draining c _ => some ⟨c.target.name, none⟩
    | _ => none
  | .streamEnd r e _ =>
    match g.handler r with
    | .relaying c (some _) => some ⟨c.target.name, Proxy.streamResult g.world c e⟩
    | _ => none
  | .streamDropped r =>
    match g.handler r with
    | .relaying c none => some ⟨c.target.name, some (Proxy.latencyMs g.world c)⟩
    | _ => none
  | _ => none

/-- A step of the gateway, with what it ends put down in the ledger. -/
def audit (D : Deployment) (s : Gateway × List Ended) (a : Action) :
    Option (Gateway × List Ended) :=
  (step D s.1 a).map fun g => (g, (endedBy s.1 a).toList ++ s.2)

/-- The gateway beside its ledger. -/
def audited (D : Deployment) : Machine (Gateway × List Ended) Action :=
  .ofFn (fun s => ∃ clock, s = (init D clock, [])) (audit D)

/-- Every attempt that is over has been one sample of its backend, in the order they
ended, and the latency of a success one of its latencies. -/
structure OneSampleEach (s : Gateway × List Ended) : Prop where
  sampled : ∀ b ∈ s.1.names, samples (s.1.world.history b) = outcomes b s.2
  recentErrorRate : ∀ b ∈ s.1.names, (s.1.row b).recentErrorRate = errorRate (outcomes b s.2)
  ewmaE2eMs : ∀ b ∈ s.1.names, (s.1.row b).ewmaE2eMs = e2eAverage (latencies b s.2)

/-- The step does not begin to relay a stream of a registered backend, and none of its
attempts ends in an exception no `except` clause names. -/
def countsOnce (g : Gateway) : Action → Bool
  | .upstream r o =>
    match g.handler r with
    | .sending c => decide (c.target.name ∉ g.names) || Proxy.countedOnce c o
    | _ => true
  | .drained r (.failed e) =>
    match g.handler r with
    | .draining c _ => decide (c.target.name ∉ g.names) || e.caught
    | _ => true
  | _ => true

theorem reachable_of_audited {ok : Gateway × List Ended → Action → Prop}
    {s : Gateway × List Ended} (h : Reach (audited D) ok s) : Reachable D s.1 := by
  have hobserved : Reach (Machine.ofFn (audited D).start
      (observe (step D) fun g a _ ledger => (endedBy g a).toList ++ ledger)) ok s := h
  refine reach_of_observe (fun s hs => ?_) hobserved
  obtain ⟨clock, rfl⟩ := hs
  exact ⟨clock, rfl⟩

/-- The audit is of every run: it changes nothing about the gateway. -/
theorem reachable_iff_audited :
    Reachable D g ↔ ∃ ledger, Reach (audited D) anyStep (g, ledger) := by
  have hiff : Reachable D g ↔ ∃ ledger, Reach (Machine.ofFn (audited D).start
      (observe (step D) fun g a _ ledger => (endedBy g a).toList ++ ledger)) anyStep
        (g, ledger) := by
    refine reach_iff_observe (fun s hs => ?_) fun g hg => ?_
    · obtain ⟨clock, rfl⟩ := hs
      exact ⟨clock, rfl⟩
    · obtain ⟨clock, rfl⟩ := hg
      exact ⟨[], clock, rfl⟩
  exact hiff

/-! ## One step -/

/-- No stream of a registered backend is being relayed. -/
def Unrelayed (g : Gateway) : Prop :=
  ∀ r c, (g.handler r).relays = some c → c.target.name ∉ g.names

theorem unsampled_fallbackOrReject {w : World} {p : PendingRequest} {reason : RejectionReason}
    {message : Option String} : Unsampled w (fallbackOrReject D w p reason message).1 := by
  exact fallbackOrReject_rule (P := fun next => Unsampled w next.1)
    (fun _ _ => (unsampled_emit rfl).trans Proxy.unsampled_start)
    ((unsampled_emit rfl).trans (unsampled_emit rfl))

theorem fallbackOrReject_relays {w : World} {p : PendingRequest} {reason : RejectionReason}
    {message : Option String} : (fallbackOrReject D w p reason message).2.relays = none := by
  exact fallbackOrReject_rule (P := fun next => next.2.relays = none)
    (fun _ _ => Proxy.beginAttempt_relays) rfl

theorem unsampled_arrive {sub : Submission} : Unsampled g.world (g.arrive D sub).world := by
  have harrival : Unsampled g.world g.arrivalWorld := unsampled_readClock.trans (unsampled_emit rfl)
  exact arrive_rule harrival (harrival.trans unsampled_fallbackOrReject)

theorem unsampled_onTimeout {r : ReqId} {p : PendingRequest} :
    Unsampled g.world (g.onTimeout D r p).world := by
  have hwithdraw : Unsampled g.world (g.withdraw r) := by
    rcases g.withdraw_cases r with ⟨grant, -, heq⟩ | ⟨-, heq⟩ <;> rw [heq]
    · exact (unsampled_emit rfl).trans unsampled_endAttempt
    · exact unsampled_emit rfl
  exact hwithdraw.trans unsampled_fallbackOrReject

/-- **Step lemma.** A step that counts what it ends once accounts for it: the averages
take one sample of the attempt, and the ledger one entry. -/
theorem accounted_of_steps (hfree : Unrelayed g) (hs : Steps D g a g')
    (hcount : countsOnce g a = true) : Accounted (endedBy g a) g.world g'.world := by
  cases hs with
  | arrive sub => exact unsampled_arrive
  | tick => exact Admission.unsampled_schedulerTick
  | timer h => exact .refl _
  | granted h hf => exact Proxy.unsampled_start
  | rejected h hf => exact unsampled_fallbackOrReject
  | timedOut h => exact unsampled_onTimeout
  | @upstream r c o h =>
    simp only [countsOnce, h, Bool.or_eq_true, decide_eq_true_eq] at hcount
    simp only [endedBy, h]
    exact Proxy.accounted_onUpstream fun hb => hcount.resolve_left (not_not.mpr hb)
  | @drained r c status o h =>
    simp only [endedBy, h]
    refine Proxy.accounted_onDrained fun e he hb => ?_
    subst he
    simp only [countsOnce, h, Bool.or_eq_true, decide_eq_true_eq] at hcount
    exact hcount.resolve_left (not_not.mpr hb)
  | streamStart h => exact unsampled_readClock
  | @streamEnd r c t e raises h =>
    -- only a stream of the fallback provider can end in such a run
    have hb : c.target.name ∉ g.names := hfree r c (by rw [h]; rfl)
    simp only [endedBy, h]
    exact accounted_of_notMem hb (Proxy.unsampled_onStreamEnd hb)
  | @streamDropped r c h =>
    have hb : c.target.name ∉ g.names := hfree r c (by rw [h]; rfl)
    simp only [endedBy, h]
    exact accounted_of_notMem hb unsampled_endAttempt

/-- What is relayed after a handler ran was relayed before, or by that handler. -/
theorem relays_put {r r' : ReqId} {result : World × Handler} {c : ProxyCall}
    (h : ((g.put r result).handler r').relays = some c) :
    result.2.relays = some c ∨ (g.handler r').relays = some c := by
  by_cases hr : r' = r
  · subst hr
    rw [put_handler_self] at h
    exact .inl h
  · rw [put_handler_of_ne hr] at h
    exact .inr h

/-- A step that counts once begins no stream on a registered backend. -/
theorem relays_of_steps (hs : Steps D g a g') (hcount : countsOnce g a = true) {r' : ReqId}
    {c' : ProxyCall} (h : (g'.handler r').relays = some c') :
    c'.target.name ∉ g.names ∨ ∃ r₀, (g.handler r₀).relays = some c' := by
  -- a handler that relays nothing leaves the rest as it was
  have hold : ∀ (G : Gateway) (r : ReqId) (result : World × Handler), G.handler = g.handler →
      result.2.relays = none → ((G.put r result).handler r').relays = some c' →
      ∃ r₀, (g.handler r₀).relays = some c' := by
    intro G r result hG hnone hc
    rcases relays_put hc with hc | hc
    · rw [hnone] at hc
      cases hc
    · exact ⟨r', hG ▸ hc⟩
  cases hs with
  | arrive sub =>
    rcases lt_or_ge (g.adm.queue.length : ℤ) D.cfg.scheduler.queueMaxSize with hlt | hge
    · rw [arrive_accepted hlt] at h
      exact .inr (hold g g.arrived (g.world, .waiting (g.newRequest sub)) rfl rfl h)
    · rw [arrive_full hge] at h
      exact .inr (hold _ _ _ rfl fallbackOrReject_relays h)
  | tick => exact .inr ⟨r', h⟩
  | @timer r p hh => exact .inr (hold g r (g.world, .expired p) rfl rfl h)
  | granted hh hf => exact .inr (hold _ _ _ rfl Proxy.beginAttempt_relays h)
  | rejected hh hf => exact .inr (hold _ _ _ rfl fallbackOrReject_relays h)
  | timedOut hh => exact .inr (hold _ _ _ rfl fallbackOrReject_relays h)
  | @upstream r c o hh =>
    rcases relays_put h with hnew | hc
    · obtain ⟨rfl, hnot⟩ := Proxy.onUpstream_relays hnew
      refine .inl fun hb => ?_
      simp [countsOnce, hh, hnot, hb] at hcount
    · exact .inr ⟨r', hc⟩
  | drained o hh => exact .inr (hold _ _ _ rfl Proxy.onDrained_relays h)
  | @streamStart r c hh =>
    rcases relays_put h with hnew | hc
    · exact .inr ⟨r, by rw [hh]; exact hnew⟩
    · exact .inr ⟨r', hc⟩
  | streamEnd e raises hh => exact .inr (hold _ _ _ rfl (by cases raises <;> rfl) h)
  | streamDropped hh => exact .inr (hold _ _ _ rfl rfl h)

/-- In such a run no stream of a registered backend is ever relayed. -/
theorem Unrelayed.step (hfree : Unrelayed g) (hs : Steps D g a g')
    (hcount : countsOnce g a = true) : Unrelayed g' := by
  intro r' c' hc
  have hnames : g'.names = g.names := (accounted_of_steps hfree hs hcount).names
  rw [hnames]
  rcases relays_of_steps hs hcount hc with hb | ⟨r₀, hr₀⟩
  · exact hb
  · exact hfree r₀ c' hr₀

/-- What is accounted for goes into the averages as it goes into the ledger. -/
theorem OneSampleEach.step (h : OneSampleEach (g, ledger)) (hreach : Reachable D g')
    {ended : Option Ended} (hacc : Accounted ended g.world g'.world) :
    OneSampleEach (g', ended.toList ++ ledger) := by
  have hnames : g'.names = g.names := hacc.names
  have hmem : ∀ b ∈ g'.names, b ∈ g.names := fun b hb => hnames ▸ hb
  have hsamples : ∀ b ∈ g'.names,
      samples (g'.world.history b) = outcomes b (ended.toList ++ ledger) :=
    fun b hb => hacc.samples (hmem b hb) (h.sampled b (hmem b hb))
  refine ⟨hsamples, fun b hb => ?_, fun b hb => ?_⟩
  · show (g'.row b).recentErrorRate = errorRate (outcomes b (ended.toList ++ ledger))
    rw [← hsamples b hb]
    exact recentErrorRate_eq hreach hb
  · exact hacc.ewmaE2eMs (hmem b hb) (h.ewmaE2eMs b (hmem b hb))

/-- A failed attempt that leaves no sample behind is missed. -/
theorem OneSampleEach.missed (h : OneSampleEach (g, ledger)) {b : String} (hb : b ∈ g.names)
    (hw : Unsampled g.world g'.world) : ¬ OneSampleEach (g', ⟨b, none⟩ :: ledger) := by
  intro h'
  have hold : samples (g.world.history b) = outcomes b ledger := h.sampled b hb
  have hnames : g'.names = g.names := hw.names
  have hnew : samples (g'.world.history b) = outcomes b (⟨b, none⟩ :: ledger) :=
    h'.sampled b (hnames ▸ hb)
  rw [hw.samples_eq, hold, outcomes_cons_self (e := ⟨b, none⟩)] at hnew
  exact List.cons_ne_self _ _ hnew.symm

/-- A sample of an attempt that is not over is one too many. -/
theorem OneSampleEach.premature (h : OneSampleEach (g, ledger)) {b : String} {result : Option ℚ}
    (hb : b ∈ g.names) (hw : SampledOnce b result g.world g'.world) :
    ¬ OneSampleEach (g', ledger) := by
  intro h'
  have hold : samples (g.world.history b) = outcomes b ledger := h.sampled b hb
  have hnames : g'.names = g.names := hw.names
  have hnew : samples (g'.world.history b) = outcomes b ledger := h'.sampled b (hnames ▸ hb)
  rw [hw.samples_self hb, hold] at hnew
  exact List.cons_ne_self _ _ hnew

/-- A step that does not count an attempt once parts the averages from the ledger: it
samples a stream at its headers, or ends an attempt without a sample. -/
theorem parted_of_steps (h : OneSampleEach (g, ledger)) (hs : Steps D g a g')
    (hnot : countsOnce g a = false) : ¬ OneSampleEach (g', (endedBy g a).toList ++ ledger) := by
  cases hs with
  | @upstream r c o hh =>
    simp only [countsOnce, hh, Bool.or_eq_false_iff, decide_eq_false_iff_not, not_not] at hnot
    obtain ⟨hb, hnot⟩ := hnot
    simp only [endedBy, hh]
    cases o with
    | response status relayable =>
      simp only [Proxy.countedOnce, Bool.not_eq_false', Bool.and_eq_true, decide_eq_true_eq] at hnot
      -- the headers of a stream: a sample, and no attempt is over
      obtain ⟨⟨hstream, hlt⟩, rfl⟩ := hnot
      have hone : SampledOnce c.target.name (some (Proxy.latencyMs g.world c)) g.world
          (Proxy.onUpstream D g.world c (.response status true)).1 := by
        rw [Proxy.onUpstream_headers hstream, Proxy.onStreamHeaders_of_lt hlt]
        exact Proxy.sampledOnce_relayedWorld
      simpa [Proxy.resultOf, hstream, hlt] using h.premature hb hone
    | failed e =>
      refine h.missed hb ?_
      show Unsampled g.world (Proxy.onUpstream D g.world c (.failed e)).1
      rw [Proxy.onUpstream_uncaught hnot]
      exact Proxy.unsampled_onUncaught
  | @drained r c status o hh =>
    cases o with
    | read relayable => cases hnot
    | failed e =>
      simp only [countsOnce, hh, Bool.or_eq_false_iff, decide_eq_false_iff_not, not_not] at hnot
      obtain ⟨hb, hnot⟩ := hnot
      simp only [endedBy, hh]
      refine h.missed hb ?_
      show Unsampled g.world (Proxy.onDrained D g.world c status (.failed e)).1
      rw [Proxy.onDrained_uncaught hnot]
      exact Proxy.unsampled_onUncaught
  | _ => cases hnot

/-! ## Whole runs -/

/-- The guard of the runs that count once. -/
def CountsOnce (s : Gateway × List Ended) (a : Action) : Prop := countsOnce s.1 a = true

instance (s : Gateway × List Ended) (a : Action) : Decidable (CountsOnce s a) :=
  inferInstanceAs (Decidable (_ = _))

/-- **Run lemma.** Along steps that count once, no stream is under way on a registered
backend, and the averages are what the ledger gives. -/
theorem counted_of_reach {s : Gateway × List Ended} (h : Reach (audited D) CountsOnce s) :
    Unrelayed s.1 ∧ OneSampleEach s := by
  -- on the run, with both invariants, since the one about the rows needs the other
  induction h with
  | start hstart =>
    obtain ⟨clock, rfl⟩ := hstart
    refine ⟨fun r c hc => ?_, fun b hb => rfl, fun b hb => ?_, fun b hb => ?_⟩
    · cases hc
    · exact recentErrorRate_eq (.start ⟨clock, rfl⟩) hb
    · exact BackendRegistry.ofConfig_rule (P := fun s => s.ewmaE2eMs = 200) (fun _ => rfl) b hb
  | @step s s' a hreach hcount hstep ih =>
    obtain ⟨g', hg', rfl⟩ := Option.map_eq_some_iff.mp hstep
    obtain ⟨hfree, hone⟩ := ih
    have hs := steps_of_step hg'
    have hreach' : Reachable D g' := (reachable_of_audited hreach).step trivial hg'
    exact ⟨hfree.step hs hcount, hone.step hreach' (accounted_of_steps hfree hs hcount)⟩

/-- **One sample for each attempt.** In every run in which no attempt on a registered
backend ends in an exception no `except` clause names, and no stream of one is relayed,
each attempt that is over has been one sample of its backend, and each success one
latency. The first step that is not so parts the averages from the ledger. -/
theorem samples_iff {s : Gateway × List Ended} (h : Reach (audited D) CountsOnce s) :
    OneSampleEach s ∧
    ∀ a s', (audited D).step s a s' → (OneSampleEach s' ↔ CountsOnce s a) := by
  obtain ⟨-, hone⟩ := counted_of_reach h
  refine ⟨hone, fun a s' hstep => ?_⟩
  obtain ⟨g', hg', rfl⟩ := Option.map_eq_some_iff.mp hstep
  constructor
  · intro hone'
    by_contra hnot
    exact parted_of_steps hone (steps_of_step hg') (Bool.eq_false_iff.mpr hnot) hone'
  · intro hcount
    exact (counted_of_reach (h.step hcount hstep)).2

/-- A buffered request is answered after two seconds, and a second one times out. -/
def plain : Option (Gateway × List Ended) :=
  runGuarded (audit lone) CountsOnce (init lone (.ofGaps 0 (List.replicate 8 0 ++ [2])), [])
    [.arrive (chat false), .tick, .resume 0, .upstream 0 (.response 200 true),
      .arrive (chat false), .tick, .resume 1, .upstream 1 (.failed (.timeout "timed out"))]

theorem samples_iff_plain : ∃ s, plain = some s ∧
    s.2 = [⟨"gpu-node-1", none⟩, ⟨"gpu-node-1", some 2000⟩] ∧ OneSampleEach s ∧
    ∀ a s', (audited lone).step s a s' → (OneSampleEach s' ↔ CountsOnce s a) := by
  have hrun : plain.any
      (fun s => s.2 = [⟨"gpu-node-1", none⟩, ⟨"gpu-node-1", some 2000⟩]) = true := by
    decide +kernel
  obtain ⟨s, hs, hledger⟩ := (Option.any_eq_true _ _).mp hrun
  exact ⟨s, hs, of_decide_eq_true hledger, samples_iff (reach_runGuarded (.start ⟨_, rfl⟩) hs)⟩

/-- A buffered request times out, then a streamed one is answered and relayed to its end:
two attempts, three samples. -/
theorem samples_iff_fails_streamed : ∃ s, Reach (audited lone) anyStep s ∧
    outcomes "gpu-node-1" s.2 = [false, true] ∧
    samples (s.1.world.history "gpu-node-1") = [false, false, true] ∧
    (s.1.row "gpu-node-1").recentErrorRate ≠ errorRate (outcomes "gpu-node-1" s.2) ∧
    (s.1.row "gpu-node-1").ewmaE2eMs ≠ e2eAverage (latencies "gpu-node-1" s.2) ∧
    ¬ OneSampleEach s := by
  -- a buffered request that times out, then a streamed one that is relayed to its end
  let run := runList (audit lone) (init lone still, [])
    [.arrive (chat false), .tick, .resume 0, .upstream 0 (.failed (.timeout "timed out")),
      .arrive (chat true), .tick, .resume 1, .upstream 1 (.response 200 true), .streamStart 1,
      .streamEnd 1 .exhausted false]
  have hrun : run.any (fun s => "gpu-node-1" ∈ s.1.names ∧
      outcomes "gpu-node-1" s.2 = [false, true] ∧
      samples (s.1.world.history "gpu-node-1") = [false, false, true] ∧
      (s.1.row "gpu-node-1").recentErrorRate ≠ errorRate (outcomes "gpu-node-1" s.2) ∧
      (s.1.row "gpu-node-1").ewmaE2eMs ≠ e2eAverage (latencies "gpu-node-1" s.2)) = true := by
    decide +kernel
  obtain ⟨s, hs, hall⟩ := (Option.any_eq_true _ _).mp hrun
  obtain ⟨hb, hledger, hsamples, hrate, hlatency⟩ := of_decide_eq_true hall
  refine ⟨s, reach_runList (.start ⟨_, rfl⟩) (fun _ _ _ => trivial) hs, hledger, hsamples, hrate,
    hlatency, fun h => ?_⟩
  exact hrate (h.recentErrorRate _ hb)

end Gateway

end InferenceGateway
