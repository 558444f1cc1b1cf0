import InferenceGateway.Fleet.Model
import InferenceGateway.Proxy.Outcomes

/-!
# The gateway's code as chains of deeds

Every function of the proxy, and every helper it calls, is matched by a chain of
fleet deeds. The statements have one shape: from a fleet in which `r` holds what
the lease says, in the world the function starts in, there is a chain to the
fleet in which `r` holds what is left of it, in the world the function returns.

The chains are built under an arbitrary licence `ok` that admits every benign
deed; where the code does something undisciplined, the lemma asks for that deed
to be licensed, so the hypotheses say exactly when the code needs it.

- `hover` asks for a release that nobody owes: a fallback attempt, which took no
  slot, finds a backend of its name in the registry.
- `hstranded` asks for the second release of a retry that finds no alternate.
- `hleak` and `hprep` ask for an attempt that ends with its slot still taken.
- `hverdict` asks for the outcome itself to be recorded.

The chains follow the code from the bottom up: the helpers of the registry and
the checks first, then the accounting functions, then one lemma for each
function a task of the gateway runs, up to the five ways in which a handler
resumes (`deeds_start`, `deeds_onUpstream`, `deeds_onDrained`,
`deeds_onStreamEnd` and `deeds_onStreamDropped`). `Fleet.Refinement` puts them
together.
-/

namespace InferenceGateway

open Lib

/-- What a request holds under a lease. -/
def Lease.slot (cls : RequestClass) (judged : Bool) : Lease → Option Slot
  | .granted g => some ⟨g, cls, judged⟩
  | .fallback _ => none

/-- What a request holds, given its handler and its dispatch future. -/
def Handler.slot (fut : Future) : Handler → Option Slot
  | .waiting p | .expired p =>
    match fut with
    | .target g => some ⟨g, p.classify.reqClass, false⟩
    | _ => none
  | .sending c | .draining c _ => c.lease.slot c.reqClass false
  | .relaying c _ => c.lease.slot c.reqClass true
  | _ => none

namespace Fleet

/-- What the deeds below are built under: a licence that admits the benign ones. -/
structure Licence (ok : Fleet → Deed → Prop) : Prop where
  benign : ∀ F d, d.benign = true → ok F d

variable {health : HealthConfig} {ok : Fleet → Deed → Prop}

/-- Chains under the licence `ok`. -/
abbrev Deeds (health : HealthConfig) (ok : Fleet → Deed → Prop) (F F' : Fleet) : Prop :=
  Chain (Step health) ok F F'

/-! ## Deeds that leave the slots alone -/

section World

variable {F : Fleet} {r : ReqId} {x : Option Slot} {w w' : World} {b : String}

/-- What only lets time pass is a chain: of idling, or of nothing at all. -/
theorem deeds_sameButClock (hok : Licence ok) (h : Scoring.SameButClock w w') :
    Deeds health ok (F.put r x w) (F.put r x w') := by
  obtain ⟨hreg, htrace, hnow⟩ := h
  obtain ⟨c, reg, tr⟩ := w'
  obtain rfl : reg = w.registry := hreg
  obtain rfl : tr = w.trace := htrace
  exact .single (hok.benign _ .idle rfl) (.idle hnow)

theorem deeds_readClock (hok : Licence ok) :
    Deeds health ok (F.put r x w) (F.put r x w.readClock) :=
  deeds_sameButClock hok (Scoring.sameButClock_readClock w)

/-- Writing down an event that no counter is compared with is a benign deed. -/
theorem deeds_note (hok : Licence ok) {e : Event} (he : e.neutral = true) :
    Deeds health ok (F.put r x w) (F.put r x (w.emit e)) :=
  .single (hok.benign _ (.note e) rfl) (.note he)

/-- The cooldown check (`maybe_transition_from_open`) is a benign deed, made or not. -/
theorem deeds_cool (hok : Licence ok) :
    Deeds health ok (F.put r x w) (F.put r x (w.maybeTransitionFromOpen health b)) :=
  .single (hok.benign _ (.cool b) rfl) .cool

/-- Feeding the averages of one backend is a benign deed. -/
theorem deeds_sampled (hok : Licence ok) {failed : Bool}
    {f : BackendRuntimeState → BackendRuntimeState} (hf : Blends failed f) :
    Deeds health ok (F.put r x w) (F.put r x (sampled w b failed f)) :=
  .single (hok.benign _ (.sample b failed) rfl) (.sample hf)

theorem sampleFailure_eq : w.sampleFailure b = sampled w b true (·.updateFailure) := by
  unfold World.sampleFailure World.modify sampled
  split <;> rfl

theorem sampleStream_eq {e2eMs : ℚ} :
    w.sampleStream b e2eMs = sampled w b false (·.updateSuccess none e2eMs) := by
  unfold World.sampleStream World.modify sampled
  split <;> rfl

/-- A failed sample on its own, as a stream that breaks takes it, is a benign deed. -/
theorem deeds_sampleFailure (hok : Licence ok) :
    Deeds health ok (F.put r x w) (F.put r x (w.sampleFailure b)) := by
  rw [sampleFailure_eq]
  exact deeds_sampled hok .failure

theorem deeds_sampleStream (hok : Licence ok) {e2eMs : ℚ} :
    Deeds health ok (F.put r x w) (F.put r x (w.sampleStream b e2eMs)) := by
  rw [sampleStream_eq]
  exact deeds_sampled hok (.success none e2eMs)

/-- The eligibility checks of a whole fleet, by induction over the backends: each of
them may cool a circuit down, and nothing else happens. -/
theorem deeds_eligible (hok : Licence ok) {avoid : Option String} (bs : List String) (w : World) :
    Deeds health ok (F.put r x w) (F.put r x (World.eligible health avoid bs w).1) :=
  World.eligible_rule (I := fun v => Deeds health ok (F.put r x w) (F.put r x v))
    (fun _ _ _ _ hv => hv.trans (deeds_cool hok)) (.refl _)

/-- The pass over the circuits that every tick makes is a chain of cooldown checks. -/
theorem deeds_tickCircuits (hok : Licence ok) (w : World) :
    Deeds health ok (F.put r x w) (F.put r x (w.tickCircuits health)) :=
  World.tickCircuits_rule (I := fun v => Deeds health ok (F.put r x w) (F.put r x v))
    (fun _ _ hv => hv.trans (deeds_cool hok)) (.refl _)

end World

/-! ## Deeds under a lease -/

/-- The deed that records a verdict for the attempt of `r` under a lease. -/
def verdictDeed (r : ReqId) (v : Verdict) : Lease → Deed
  | .granted _ => .judge r v
  | .fallback t => .stray t.name v

/-- The rows and half-open periods of two worlds are the same. -/
def SameBreakers (w w' : World) : Prop :=
  w'.registry = w.registry ∧ ∀ b, w'.period b = w.period b

section Lease

variable {F : Fleet} {r : ReqId} {w : World} {lease : Lease} {cls : RequestClass} {judged : Bool}
  {how : Ending} {v : Verdict}

/-- Recording an outcome, for the request whose attempt it is: a slot that has not been
judged becomes one that has. Of a fallback attempt, which holds none, the outcome is a
stray. -/
theorem deeds_verdict (hr : r < F.population)
    (hv : ok (F.put r (lease.slot cls false) w) (verdictDeed r v lease)) :
    Deeds health ok (F.put r (lease.slot cls false) w)
      (F.put r (lease.slot cls true)
        (w.moveCircuit lease.target.name (v.handler health w.clock.now)
            (v.cause lease.probe))) := by
  cases lease with
  | granted g =>
    have h : Step health (F.put r (some ⟨g, cls, false⟩) w) (.judge r v) _ :=
      .judge hr (put_held_self ..) rfl
    rw [put_put] at h
    exact .single hv h
  | fallback t => exact .single hv .stray

theorem recordSuccess_eq {b : String} {probe : Option ℕ} {ttftMs : Option ℚ} {e2eMs : ℚ} :
    w.recordSuccess b probe ttftMs e2eMs =
      sampled (w.moveCircuit b Health.onSuccess (.success probe)) b false
        (·.updateSuccess ttftMs e2eMs) := by
  by_cases hb : b ∈ w.registry.names
  · simp [World.recordSuccess, World.modify, sampled, hb]
  · simp [World.recordSuccess, sampled, hb, World.moveCircuit]

/-- `record_success`: the outcome, then the samples. -/
theorem deeds_recordSuccess (hok : Licence ok) (hr : r < F.population)
    (hv : ok (F.put r (lease.slot cls false) w) (verdictDeed r .success lease))
    (ttftMs : Option ℚ) (e2eMs : ℚ) :
    Deeds health ok (F.put r (lease.slot cls false) w)
      (F.put r (lease.slot cls true)
        (w.recordSuccess lease.target.name lease.probe ttftMs e2eMs)) := by
  rw [recordSuccess_eq]
  exact (deeds_verdict hr hv).trans (deeds_sampled hok (.success ttftMs e2eMs))

/-- `record_failure`: the clock is read, the outcome is recorded, the rate is fed. -/
theorem deeds_recordFailure (hok : Licence ok) (hr : r < F.population)
    (hv : ok (F.put r (lease.slot cls false) w.readClock) (verdictDeed r .failure lease)) :
    Deeds health ok (F.put r (lease.slot cls false) w)
      (F.put r (lease.slot cls true)
        (w.recordFailure health lease.target.name lease.probe)) :=
  ((deeds_readClock hok).trans (deeds_verdict hr hv)).trans (deeds_sampleFailure hok)

/-- An error status records a failure from 500 on, and below it feeds the error rate
only. -/
theorem deeds_recordErrorStatus (hok : Licence ok) (hr : r < F.population) {status : ℤ}
    (hv : 500 ≤ status →
      ok (F.put r (lease.slot cls false) w.readClock) (verdictDeed r .failure lease)) :
    Deeds health ok (F.put r (lease.slot cls false) w)
      (F.put r (lease.slot cls (decide (500 ≤ status)))
        (w.recordErrorStatus health lease.target.name lease.probe status)) := by
  unfold World.recordErrorStatus
  by_cases hs : 500 ≤ status
  · rw [if_pos hs, decide_eq_true hs]
    exact deeds_recordFailure hok hr (hv hs)
  · rw [if_neg hs, decide_eq_false hs]
    exact deeds_sampleFailure hok

/-- The attempt is over and its slot given back; a fallback attempt, which has none, may
find its name in the registry all the same. -/
theorem deeds_finish (hok : Licence ok) (hr : r < F.population) (hhow : how.silent = !judged)
    (hover : ∀ t, lease = .fallback t → ∀ F', ok F' (.overRelease t.name cls)) :
    Deeds health ok (F.put r (lease.slot cls judged) w)
      (F.put r none ((w.releaseDispatch lease.target.name cls).endAttempt lease how)) := by
  cases lease with
  | granted g =>
    have h : Step health (F.put r (some ⟨g, cls, judged⟩) w) (.giveUp r how) _ :=
      .giveUp hr (put_held_self ..) hhow
    rw [put_put] at h
    exact .single (hok.benign _ (.giveUp r how) rfl) h
  | fallback t => exact .single (hover t rfl _) .overRelease

/-- The attempt is over and its slot stays taken. -/
theorem deeds_abandon (hr : r < F.population) (hhow : how.silent = !judged)
    (hab : lease.holds = true → ∀ F', ok F' (.abandon r how)) :
    Deeds health ok (F.put r (lease.slot cls judged) w)
      (F.put r none (w.endAttempt lease how)) := by
  cases lease with
  | granted g =>
    have h : Step health (F.put r (some ⟨g, cls, judged⟩) w) (.abandon r how) _ :=
      .abandon hr (put_held_self ..) hhow
    rw [put_put] at h
    exact .single (hab rfl _) h
  | fallback t => exact .refl _

/-- Taking a slot on a registered backend that passes the checks. -/
theorem deeds_takeSlot (hok : Licence ok) (hr : r < F.population) {b : String} (hb : b ∈ w.names)
    (hpass : Health.passes health (w.row b) = true) :
    Deeds health ok (F.put r none w)
      (F.put r (some ⟨(w.takeSlot b cls).2, cls, false⟩) (w.takeSlot b cls).1) := by
  have h : Step health (F.put r none w) (.acquire r b cls) _ :=
    .acquire hr (put_held_self ..) hb hpass
  rw [put_put] at h
  exact .single (hok.benign _ (.acquire r b cls) rfl) h

/-- The choice among candidates that pass is a candidate that passes. -/
theorem passes_of_pick {routing : RoutingConfig} {avoid : Option String} {chosen : String}
    {w : World} (h : (Scoring.pickBackend routing cls (World.eligible health avoid w.names w).2
      (World.eligible health avoid w.names w).1).2 = some chosen) :
    let v := (Scoring.pickBackend routing cls (World.eligible health avoid w.names w).2
      (World.eligible health avoid w.names w).1).1
    chosen ∈ v.names ∧ Health.passes health (v.row chosen) = true := by
  obtain ⟨hmem, -, hpass⟩ :=
    World.eligible_spec w.names w w.registry.nodup (Scoring.pickBackend_mem h)
  obtain ⟨hreg, -, -⟩ := Scoring.pickBackend_sameButClock routing cls
    (World.eligible health avoid w.names w).2 (World.eligible health avoid w.names w).1
  intro v
  show chosen ∈ v.registry.names ∧ Health.passes health (v.registry.row chosen) = true
  rw [hreg, World.eligible_names]
  exact ⟨hmem, hpass⟩

end Lease

/-! ## The proxy -/

section Proxy

variable {D : Deployment} {F : Fleet} {r : ReqId}

/-- The search both dispatch paths make: check the backends, pick one. -/
theorem deeds_search (hok : Licence ok) {x : Option Slot} (w : World) (routing : RoutingConfig)
    (cls : RequestClass) (avoid : Option String) :
    Deeds health ok (F.put r x w)
      (F.put r x (Scoring.pickBackend routing cls (World.eligible health avoid w.names w).2
        (World.eligible health avoid w.names w).1).1) :=
  (deeds_eligible hok w.names w).trans
    (deeds_sameButClock hok (Scoring.pickBackend_sameButClock ..))

/-- Looking for an alternate takes a slot exactly when one is returned. -/
theorem deeds_pickRetryTarget (hok : Licence ok) (hr : r < F.population) (w : World)
    (cls : RequestClass) (avoid : String) :
    Deeds D.cfg.health ok (F.put r none w)
      (F.put r ((Proxy.pickRetryTarget D.cfg w cls avoid).2.map (⟨·, cls, false⟩))
        (Proxy.pickRetryTarget D.cfg w cls avoid).1) := by
  have hsearch : Deeds D.cfg.health ok (F.put r none w)
      (F.put r none (Proxy.search D.cfg w cls avoid).1) :=
    deeds_search hok w D.cfg.routing cls (some avoid)
  rcases Proxy.pickRetryTarget_cases D.cfg w cls avoid with ⟨-, h⟩ | ⟨b, hchosen, h⟩ <;> rw [h]
  · exact hsearch
  · obtain ⟨hb, hpass⟩ := passes_of_pick hchosen
    exact hsearch.trans (deeds_takeSlot hok hr hb hpass)

/-- No alternate is found exactly when none is eligible. -/
theorem pickRetryTarget_eq_none_iff {w : World} {c : ProxyCall} :
    (Proxy.pickRetryTarget D.cfg w c.reqClass c.target.name).2 = none ↔
      ¬ Proxy.hasAlternate D c w := by
  have hiff := Scoring.pickBackend_eq_none_iff D.cfg.routing c.reqClass
    (World.eligible D.cfg.health (some c.target.name) w.names w).2
    (World.eligible D.cfg.health (some c.target.name) w.names w).1
  rw [Proxy.hasAlternate, not_not, ← hiff]
  rcases Proxy.pickRetryTarget_cases D.cfg w c.reqClass c.target.name with
    ⟨hnone, h⟩ | ⟨b, hb, h⟩ <;> rw [h]
  · exact iff_of_true rfl hnone
  · exact iff_of_false (Option.some_ne_none _) fun hnone => by cases hb.symm.trans hnone

/-- The licence a call needs at its releases: the fallback provider has no slot
to give back. -/
def FallbackLicence (ok : Fleet → Deed → Prop) (c : ProxyCall) : Prop :=
  ∀ t, c.lease = .fallback t → ∀ F, ok F (.overRelease t.name c.reqClass)

/-- The licence a call needs where it cannot prepare its request. -/
def PrepareLicence (D : Deployment) (ok : Fleet → Deed → Prop) (r : ReqId) (c : ProxyCall) : Prop :=
  c.lease.holds = true → (c.attempts : ℤ) < D.cfg.retry.maxAttempts →
    Proxy.prepareTargetRequest D c.target c.pending ≠ none → ∀ F, ok F (.abandon r .neverSent)

variable {w : World} {c : ProxyCall} {fut : Future}

/-- The attempt begins: what cannot be prepared ends there, with its slot still
taken. -/
theorem deeds_beginAttempt (hok : Licence ok) (hr : r < F.population)
    (hover : FallbackLicence ok c) (hprep : PrepareLicence D ok r c) :
    Deeds D.cfg.health ok (F.put r (c.lease.slot c.reqClass false) w)
      (F.put r ((Proxy.beginAttempt D w c).2.slot fut) (Proxy.beginAttempt D w c).1) := by
  rcases Proxy.beginAttempt_cases D w c with
    ⟨hleft, reply, hreply, h⟩ | ⟨v, hv, h⟩ | ⟨reply, h⟩ <;> rw [h]
  · exact deeds_abandon hr rfl fun hholds =>
      hprep hholds hleft (by rw [hreply]; exact Option.some_ne_none reply)
  · exact deeds_sameButClock hok hv
  · exact deeds_finish hok hr rfl hover

/-- A handler starts its call with the lease it was given. -/
theorem deeds_start (hok : Licence ok) (hr : r < F.population) {p : PendingRequest}
    (initial : Lease)
    (hover : ∀ t, initial = .fallback t → ∀ F, ok F (.overRelease t.name p.classify.reqClass))
    (hleak : Proxy.leaksOnStart D p initial → ∀ F, ok F (.abandon r .neverSent)) :
    Deeds D.cfg.health ok (F.put r (initial.slot p.classify.reqClass false) w)
      (F.put r ((Proxy.start D w p initial).2.slot fut) (Proxy.start D w p initial).1) :=
  (deeds_note hok rfl).trans (deeds_beginAttempt (c := ⟨p, initial, 0, none, [], w.clock.now⟩)
    hok hr hover fun hholds hleft hno => hleak ⟨hholds, hleft, hno⟩)

/-- The tail of a failed attempt. Its only deed that nothing entitles it to is
the second release, after a retry that found no alternate. -/
theorem deeds_retryOrGiveUp (hok : Licence ok) (hr : r < F.population) {retry judged : Bool}
    {how : Ending} {final : Reply} (hhow : how.silent = !judged) (hover : FallbackLicence ok c)
    (hstranded : retry = true → ¬ Proxy.hasAlternate D c (Proxy.giveBack w c how) →
      ∀ F, ok F (.overRelease c.target.name c.reqClass))
    (hprep : retry = true → Proxy.retryUnsendable D c (Proxy.giveBack w c how) →
      ∀ F, ok F (.abandon r .neverSent)) :
    Deeds D.cfg.health ok (F.put r (c.lease.slot c.reqClass judged) w)
      (F.put r ((Proxy.retryOrGiveUp D w c retry how final).2.slot fut)
        (Proxy.retryOrGiveUp D w c retry how final).1) := by
  have hback : Deeds D.cfg.health ok (F.put r (c.lease.slot c.reqClass judged) w)
      (F.put r none (Proxy.giveBack w c how)) :=
    (deeds_note hok rfl).trans (deeds_finish hok hr hhow hover)
  have hpick := hback.trans (deeds_pickRetryTarget (D := D) hok hr (Proxy.giveBack w c how)
    c.reqClass c.target.name)
  rcases Proxy.retryOrGiveUp_cases D w c retry how final with
    ⟨-, h⟩ | ⟨hretry, hnone, h⟩ | ⟨hretry, grant, hgrant, h⟩ <;> rw [h]
  · exact deeds_finish hok hr hhow hover
  · -- the slot is back already, so the release after the `if` is nobody's
    rw [hnone] at hpick
    have halone := pickRetryTarget_eq_none_iff.mp hnone
    exact hpick.trans (.single (hstranded hretry halone _) .overRelease)
  · rw [hgrant] at hpick
    exact hpick.trans (deeds_beginAttempt (c := { c with lease := .granted grant }) hok hr
      (by intro t ht; cases ht) (fun _ _ hno => hprep hretry ⟨grant, hgrant, hno⟩))

/-- The licence to record `v` for a call, in worlds with the breakers of `w`. -/
def VerdictLicence (ok : Fleet → Deed → Prop) (F : Fleet) (r : ReqId) (c : ProxyCall) (w : World)
    (v : Verdict) : Prop :=
  ∀ w', SameBreakers w w' →
    ok (F.put r (c.lease.slot c.reqClass false) w') (verdictDeed r v c.lease)

/-- A buffered answer has come: below 400 it is a success, and the reply ends the
attempt; from 400 on it is accounted for as an error status, and then retried or
relayed. -/
theorem deeds_onBufferedResponse (hok : Licence ok) (hr : r < F.population) {status : ℤ}
    {relayable : Bool} (hbuffered : c.pending.classify.stream = false)
    (hverdict : ∀ v, Proxy.verdictOnUpstream c (.response status relayable) = some v →
      VerdictLicence ok F r c w v)
    (hover : FallbackLicence ok c)
    (hstranded : ∀ w', Proxy.retryOnUpstream D w c (.response status relayable) = some w' →
      ¬ Proxy.hasAlternate D c w' → ∀ F, ok F (.overRelease c.target.name c.reqClass))
    (hprep : ∀ w', Proxy.retryOnUpstream D w c (.response status relayable) = some w' →
      Proxy.retryUnsendable D c w' → ∀ F, ok F (.abandon r .neverSent)) :
    Deeds D.cfg.health ok (F.put r (c.lease.slot c.reqClass false) w)
      (F.put r ((Proxy.onBufferedResponse D w c status relayable).2.slot fut)
        (Proxy.onBufferedResponse D w c status relayable).1) := by
  rcases lt_or_ge status 400 with hlt | hge
  -- below 400: read the clock, record the success, give the slot back
  · rw [Proxy.onBufferedResponse_of_lt hlt]
    have hv := hverdict .success (by simp [Proxy.verdictOnUpstream, hlt])
    exact ((deeds_readClock hok).trans
      (deeds_recordSuccess hok hr (hv w.readClock ⟨rfl, fun _ => rfl⟩) _ _)).trans
      (deeds_finish hok hr rfl hover)
  · rw [Proxy.onBufferedResponse_of_le hge]
    have haccount : Deeds D.cfg.health ok (F.put r (c.lease.slot c.reqClass false) w)
        (F.put r (c.lease.slot c.reqClass (decide (500 ≤ status)))
          (Proxy.accountErrorStatus D w.readClock c status)) := by
      refine ((deeds_readClock hok).trans (deeds_recordErrorStatus hok hr ?_)).trans
        (deeds_note hok rfl)
      intro h500
      exact hverdict .failure
        (by simp [Proxy.verdictOnUpstream, not_lt.mpr hge, hbuffered, h500])
        _ ⟨rfl, fun _ => rfl⟩
    -- the world the retry starts in is the one the licences speak of
    have hretry : (Proxy.attemptsLeft D.cfg c && Proxy.retryableStatus D.cfg status) = true →
        Proxy.retryOnUpstream D w c (.response status relayable) = some
          (Proxy.giveBack (Proxy.accountErrorStatus D w.readClock c status) c
            (Proxy.errorEnding status)) := by
      intro h
      obtain ⟨hleft, hstatus⟩ := Bool.and_eq_true_iff.mp h
      exact if_pos ⟨hbuffered, hge, hleft, hstatus⟩
    exact haccount.trans (deeds_retryOrGiveUp hok hr Proxy.errorEnding_silent hover
      (fun h => hstranded _ (hretry h)) (fun h => hprep _ (hretry h)))

/-- The transport failed while a retry was still possible: the failure is recorded and
the slot given back before the next attempt is looked for. -/
theorem deeds_onTransportError (hok : Licence ok) (hr : r < F.population) {e : UpstreamError}
    (hverdict : VerdictLicence ok F r c w .failure) (hover : FallbackLicence ok c)
    (hstranded : Proxy.attemptsLeft D.cfg c = true →
      ¬ Proxy.hasAlternate D c (Proxy.giveBack (Proxy.accountTransportError D w c) c .failure) →
      ∀ F, ok F (.overRelease c.target.name c.reqClass))
    (hprep : Proxy.attemptsLeft D.cfg c = true →
      Proxy.retryUnsendable D c (Proxy.giveBack (Proxy.accountTransportError D w c) c .failure) →
      ∀ F, ok F (.abandon r .neverSent)) :
    Deeds D.cfg.health ok (F.put r (c.lease.slot c.reqClass false) w)
      (F.put r ((Proxy.onTransportError D w c e).2.slot fut)
        (Proxy.onTransportError D w c e).1) := by
  have haccount : Deeds D.cfg.health ok (F.put r (c.lease.slot c.reqClass false) w)
      (F.put r (c.lease.slot c.reqClass true) (Proxy.accountTransportError D w c)) :=
    (deeds_note hok rfl).trans
      (deeds_recordFailure hok hr (hverdict _ ⟨rfl, fun _ => rfl⟩))
  -- the call retries with the failure noted, which changes neither its lease nor its class
  exact haccount.trans (deeds_retryOrGiveUp (c := { c with lastError := some e }.withFailure e)
    hok hr rfl hover hstranded hprep)

/-- A streamed request that could not be sent: the failure is recorded, the slot given
back, and nothing is tried again. -/
theorem deeds_onStreamSendError (hok : Licence ok) (hr : r < F.population) {e : UpstreamError}
    (hverdict : VerdictLicence ok F r c w .failure) (hover : FallbackLicence ok c) :
    Deeds D.cfg.health ok (F.put r (c.lease.slot c.reqClass false) w)
      (F.put r ((Proxy.onStreamSendError D w c e).2.slot fut)
        (Proxy.onStreamSendError D w c e).1) :=
  ((deeds_recordFailure hok hr (hverdict _ ⟨rfl, fun _ => rfl⟩)).trans (deeds_note hok rfl)).trans
    (deeds_finish hok hr rfl hover)

/-- The headers of a streamed answer. An error status is not judged before its body is
read; a success is judged here, and its slot stays taken until the stream ends. -/
theorem deeds_onStreamHeaders (hok : Licence ok) (hr : r < F.population) {status : ℤ}
    {relayable : Bool}
    (hverdict : status < 400 → VerdictLicence ok F r c w .success)
    (hleak : c.lease.holds = true → status < 400 → relayable = false →
      ∀ F, ok F (.abandon r .relayFailed)) :
    Deeds health ok (F.put r (c.lease.slot c.reqClass false) w)
      (F.put r ((Proxy.onStreamHeaders w c status relayable).2.slot fut)
        (Proxy.onStreamHeaders w c status relayable).1) := by
  rcases lt_or_ge status 400 with hlt | hge
  · rw [Proxy.onStreamHeaders_of_lt hlt]
    have hrecord : Deeds health ok (F.put r (c.lease.slot c.reqClass false) w)
        (F.put r (c.lease.slot c.reqClass true) (Proxy.relayedWorld w c)) :=
      (deeds_readClock hok).trans
        (deeds_recordSuccess hok hr (hverdict hlt w.readClock ⟨rfl, fun _ => rfl⟩) _ _)
    cases relayable with
    | true => exact hrecord
    | false => exact hrecord.trans (deeds_abandon hr rfl fun hholds => hleak hholds hlt rfl)
  · rw [Proxy.onStreamHeaders_of_le hge]
    exact deeds_readClock hok

/-- An error that no handler of the proxy catches keeps the slot, if the attempt holds
one. -/
theorem deeds_onUncaught (hr : r < F.population) {e : UpstreamError}
    (hleak : c.lease.holds = true → ∀ F, ok F (.abandon r .uncaught)) :
    Deeds health ok (F.put r (c.lease.slot c.reqClass false) w)
      (F.put r ((Proxy.onUncaught w c e).2.slot fut) (Proxy.onUncaught w c e).1) :=
  deeds_abandon hr rfl hleak

/-- **Resumption from `sending`.** The cases are those of `on_upstream`: a response or a
failure, of a buffered or of a streamed request, and among failures those that are
caught. -/
theorem deeds_onUpstream (hok : Licence ok) (hr : r < F.population) {o : Upstream}
    (hverdict : ∀ v, Proxy.verdictOnUpstream c o = some v → VerdictLicence ok F r c w v)
    (hover : FallbackLicence ok c)
    (hstranded : ∀ w', Proxy.retryOnUpstream D w c o = some w' → ¬ Proxy.hasAlternate D c w' →
      ∀ F, ok F (.overRelease c.target.name c.reqClass))
    (hleak : Proxy.leaksOnUpstream D w c o → ∀ F how, ok F (.abandon r how)) :
    Deeds D.cfg.health ok (F.put r (c.lease.slot c.reqClass false) w)
      (F.put r ((Proxy.onUpstream D w c o).2.slot fut) (Proxy.onUpstream D w c o).1) := by
  have hprep : ∀ w', Proxy.retryOnUpstream D w c o = some w' → Proxy.retryUnsendable D c w' →
      ∀ F, ok F (.abandon r .neverSent) :=
    fun w' hw' hno F => hleak (.inr ⟨w', hw', hno⟩) F _
  -- one lemma above for each branch; only the licences have to be matched
  cases o with
  | response status relayable =>
    cases hstream : c.pending.classify.stream with
    | false =>
      rw [Proxy.onUpstream_buffered hstream]
      exact deeds_onBufferedResponse hok hr hstream hverdict hover hstranded hprep
    | true =>
      rw [Proxy.onUpstream_headers hstream]
      refine deeds_onStreamHeaders hok hr (fun hlt => hverdict .success ?_) ?_
      · simp [Proxy.verdictOnUpstream, hlt]
      · exact fun hholds hlt hrel F => hleak (.inl ⟨hholds, hstream, hlt, hrel⟩) F _
  | failed e =>
    cases hcaught : e.caught with
    | false =>
      rw [Proxy.onUpstream_uncaught hcaught]
      exact deeds_onUncaught hr fun hholds F => hleak (.inl ⟨hholds, hcaught⟩) F _
    | true =>
      have hv := hverdict .failure (by simp [Proxy.verdictOnUpstream, hcaught])
      cases hstream : c.pending.classify.stream with
      | true =>
        rw [Proxy.onUpstream_streamError hcaught hstream]
        exact deeds_onStreamSendError hok hr hv hover
      | false =>
        rw [Proxy.onUpstream_transportError hcaught hstream]
        exact deeds_onTransportError hok hr hv hover
          (fun hleft => hstranded _ (if_pos ⟨hstream, hcaught, hleft⟩))
          (fun hleft => hprep _ (if_pos ⟨hstream, hcaught, hleft⟩))

/-- **Resumption from `draining`.** The body of a streamed error answer has been read,
or the read failed, which is a failed transport like any other. -/
theorem deeds_onDrained (hok : Licence ok) (hr : r < F.population) {status : ℤ} {o : BodyRead}
    (hverdict : ∀ v, Proxy.verdictOnDrained status o = some v → VerdictLicence ok F r c w v)
    (hover : FallbackLicence ok c)
    (hstranded : ∀ w', Proxy.retryOnDrained D w c o = some w' → ¬ Proxy.hasAlternate D c w' →
      ∀ F, ok F (.overRelease c.target.name c.reqClass))
    (hleak : Proxy.leaksOnDrained D w c o → ∀ F how, ok F (.abandon r how)) :
    Deeds D.cfg.health ok (F.put r (c.lease.slot c.reqClass false) w)
      (F.put r ((Proxy.onDrained D w c status o).2.slot fut)
        (Proxy.onDrained D w c status o).1) := by
  cases o with
  -- a body that is read is an error status, one that is not read a transport error
  | read relayable =>
    refine ((deeds_recordErrorStatus hok hr ?_).trans (deeds_note hok rfl)).trans
      (deeds_finish hok hr Proxy.errorEnding_silent hover)
    exact fun h500 => hverdict .failure (by simp [Proxy.verdictOnDrained, h500]) _
      ⟨rfl, fun _ => rfl⟩
  | failed e =>
    cases hcaught : e.caught with
    | false =>
      rw [Proxy.onDrained_uncaught hcaught]
      exact deeds_onUncaught hr fun hholds F => hleak (.inl ⟨hholds, hcaught⟩) F _
    | true =>
      have hv := hverdict .failure (by simp [Proxy.verdictOnDrained, hcaught])
      rw [Proxy.onDrained_transportError hcaught]
      exact deeds_onTransportError hok hr hv hover
        (fun hleft => hstranded _ (if_pos ⟨hcaught, hleft⟩))
        (fun hleft hno F => hleak (.inr ⟨_, if_pos ⟨hcaught, hleft⟩, hno⟩) F _)

/-- The first item of the body is asked for: the clock is read, and nothing moves. -/
theorem deeds_onStreamStart (hok : Licence ok) :
    Deeds health ok (F.put r (c.lease.slot c.reqClass true) w)
      (F.put r ((Proxy.onStreamStart w c).2.slot fut) (Proxy.onStreamStart w c).1) :=
  deeds_readClock hok

/-- The generator of a stream has ended, by itself or by an error, and its `finally`
gives the slot back unless closing the upstream response raises first. -/
theorem deeds_onStreamEnd (hok : Licence ok) (hr : r < F.population) {startedAt : ℚ}
    {acloseRaises : Bool} (hover : FallbackLicence ok c)
    (hleak : ∀ F, ok F (.abandon r .streamLost)) :
    Deeds health ok (F.put r (c.lease.slot c.reqClass true) w)
      (F.put r ((Proxy.onStreamEnd w c startedAt acloseRaises).2.slot fut)
        (Proxy.onStreamEnd w c startedAt acloseRaises).1) := by
  unfold Proxy.onStreamEnd
  cases acloseRaises with
  | true => exact deeds_abandon hr rfl fun _ => hleak
  | false =>
    exact ((deeds_readClock hok).trans (deeds_sampleStream hok)).trans
      (deeds_finish hok hr rfl hover)

/-- The generator of a stream never ran, so its `finally` does not run either. -/
theorem deeds_onStreamDropped (hr : r < F.population)
    (hleak : ∀ F, ok F (.abandon r .streamLost)) :
    Deeds health ok (F.put r (c.lease.slot c.reqClass true) w)
      (F.put r ((Proxy.onStreamDropped w c).2.slot fut) (Proxy.onStreamDropped w c).1) :=
  deeds_abandon hr rfl fun _ => hleak

end Proxy

end Fleet

end InferenceGateway
