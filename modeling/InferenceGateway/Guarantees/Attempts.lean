import InferenceGateway.Guarantees.Retries

/-!
# The attempts of a buffered call

`runLoop` keeps every attempt of a call: how it was sent, what came of it, and
what the retry loop did next. It is fed the answers of the upstreams one by one,
each with what other tasks did meanwhile, and goes on as long as `resume` sends
another request.

- `resume_step`: what the loop does with one answer. Either the call is over, or
  it has another attempt left, and goes on under a grant for another fit
  backend.
- `Resumed`, `attempts_runLoop`: every attempt of a run was such a step, and
  they are counted.
- `policy_iff`: the loop retries what the configuration lists, and nothing else,
  unless a status from 500 on is not listed or a listed status is a success.
- `retry_result`: how the loop ends. The last attempt alone decides the reply,
  and the code after the loop is never reached.

The configuration lists statuses (`retryable_statuses`) but the `elif` that
reads the list comes after one that retries everything from 500 on. `OnlyListed`
is the condition under which that makes no difference, and it is about one
attempt at a time.
-/

namespace InferenceGateway

open Lib

namespace Proxy

open Gateway (pair)

variable {D : Deployment} {w v : World} {c : ProxyCall} {o : Upstream} {answer : Answer}
  {answers : List Answer} {h : Handler}

/-- An attempt that was answered. -/
structure Attempt where
  /-- The call when the attempt was sent. -/
  call : ProxyCall
  /-- The world the answer is met in. -/
  world : World
  outcome : Upstream
  /-- Where the handler gets from there. -/
  next : Handler

/-- Run a call on, and keep its attempts. -/
def runLoop (D : Deployment) : List Answer → World × Handler → List Attempt × Handler
  | answer :: answers, (w, .sending c) =>
    let next := resume D w c answer
    let rest := runLoop D answers next
    (⟨c, answer.meanwhile w, answer.outcome, next.2⟩ :: rest.1, rest.2)
  | _, (_, h) => ([], h)

/-- The buffered call of `p` under `initial`. -/
def loopFrom (D : Deployment) (answers : List Answer) (w : World) (p : PendingRequest)
    (initial : Lease) : List Attempt × Handler :=
  runLoop D answers (start D w (withStream p false) initial)

theorem runLoop_cons : runLoop D (answer :: answers) (w, .sending c) =
    (⟨c, answer.meanwhile w, answer.outcome, (resume D w c answer).2⟩ ::
      (runLoop D answers (resume D w c answer)).1,
      (runLoop D answers (resume D w c answer)).2) := rfl

theorem runLoop_of_replied {next : World × Handler} {reply : Reply}
    (hreply : next.2 = .replied reply) : runLoop D answers next = ([], .replied reply) := by
  obtain ⟨v, handler⟩ := next
  cases hreply
  cases answers <;> rfl

/-! ## One attempt -/

/-- The call with the failure of an attempt written down. -/
def noted (c : ProxyCall) : Upstream → ProxyCall
  | .response _ _ => c
  | .failed e => if e.caught then { c with lastError := some e }.withFailure e else c

@[simp] theorem noted_pending : (noted c o).pending = c.pending := by
  cases o with
  | response status relayable => rfl
  | failed e => cases e <;> rfl

@[simp] theorem noted_attempts : (noted c o).attempts = c.attempts := by
  cases o with
  | response status relayable => rfl
  | failed e => cases e <;> rfl

/-- What is replied when there is no further attempt; `c` has the failures so far. -/
def lastReply (c : ProxyCall) : Upstream → Reply
  | .response status relayable => relay status relayable
  | .failed e =>
    if e.caught then
      .httpException 504 (upstreamUnreachableDetail c.pending.requestId c.transportAttempts)
    else .crashed e.text

/-- There is a further attempt: one is left, the outcome asks for it, and another backend
would pass. -/
def Again (D : Deployment) (w : World) (c : ProxyCall) (o : Upstream) : Prop :=
  attemptsLeft D.cfg c = true ∧ Retryable D.cfg o ∧ Spare D w c.target.name o

/-- A retry of the attempt is due, and the search for an alternate, made in the world its
accounting leaves, has picked the backend of `grant`, which is fit. -/
def Picked (D : Deployment) (w : World) (c : ProxyCall) (o : Upstream) (grant : Grant) : Prop :=
  ∃ v, retryOnUpstream D w c o = some v ∧
    (pickRetryTarget D.cfg v c.reqClass c.target.name).2 = some grant ∧
    Fit D w c.target.name o grant.target.name

/-- The head of the loop, with an attempt left. -/
theorem beginAttempt_left (hleft : attemptsLeft D.cfg c = true)
    (hs : c.pending.classify.stream = false) :
    (prepareTargetRequest D c.target c.pending = none ∧ ∃ v t, beginAttempt D w c =
      (v, .sending { c with attempts := c.attempts + 1, sentAt := t })) ∨
    ∃ reply, prepareTargetRequest D c.target c.pending = some reply ∧
      (beginAttempt D w c).2 = .replied reply := by
  unfold beginAttempt
  rw [if_pos (of_decide_eq_true hleft)]
  cases hreply : prepareTargetRequest D c.target c.pending with
  | some reply =>
    refine .inr ⟨reply, rfl, ?_⟩
    simp only [hreply]
  | none =>
    refine .inl ⟨rfl, w.readClock, w.readClock.clock.now, ?_⟩
    simp only [hreply, hs]
    rfl

theorem beginAttempt_none_left (h : attemptsLeft D.cfg c = false) :
    ∃ reply, (beginAttempt D w c).2 = .replied reply := by
  unfold beginAttempt
  rw [if_neg (of_decide_eq_false h)]
  exact ⟨_, rfl⟩

/-- The tail of a failed attempt: the call is over with the reply it was given, or there
is an attempt left and it goes on at the head of the loop with a fit backend of another
name. -/
theorem retryOrGiveUp_step {retry : Bool} {final : Reply} (how : Ending)
    (hbeside : World.Beside c.target.name (accountingReadings o) w v)
    (hretry : retry = true ↔ attemptsLeft D.cfg c = true ∧ Retryable D.cfg o) :
    ((retryOrGiveUp D v c retry how final).2 = .replied final ∧ ¬ Again D w c o) ∨
    (Again D w c o ∧ ∃ u grant, Fit D w c.target.name o grant.target.name ∧
      (pickRetryTarget D.cfg (giveBack v c how) c.reqClass c.target.name).2 = some grant ∧
      retryOrGiveUp D v c retry how final =
        beginAttempt D u { c with lease := .granted grant }) := by
  have hback : World.Beside c.target.name (accountingReadings o) w (giveBack v c how) := by
    have hall : World.Beside c.target.name (0 + accountingReadings o) w (giveBack v c how) :=
      hbeside.trans beside_giveBack
    rwa [Nat.zero_add] at hall
  have hspare : hasAlternate D c (giveBack v c how) ↔ Spare D w c.target.name o :=
    hasAlternate_iff_spare hback
  rcases retryOrGiveUp_cases D v c retry how final with
    ⟨hfalse, heq⟩ | ⟨-, hnone, heq⟩ | ⟨htrue, grant, hgrant, heq⟩
  · refine .inl ⟨by rw [heq], fun hagain => ?_⟩
    rw [hfalse] at hretry
    cases hretry.mpr ⟨hagain.1, hagain.2.1⟩
  · refine .inl ⟨by rw [heq], fun hagain => ?_⟩
    exact Fleet.pickRetryTarget_eq_none_iff.mp hnone (hspare.mpr hagain.2.2)
  · obtain ⟨hleft, ho⟩ := hretry.mp htrue
    have halternate : hasAlternate D c (giveBack v c how) := by
      by_contra hnot
      have hnone := Fleet.pickRetryTarget_eq_none_iff.mpr hnot
      cases hnone.symm.trans hgrant
    refine .inr ⟨⟨hleft, ho, hspare.mp halternate⟩, _, grant, ?_, hgrant, heq⟩
    -- the grant is for the backend that was picked among the candidates
    rcases pickRetryTarget_cases D.cfg (giveBack v c how) c.reqClass c.target.name with
      ⟨-, hpick⟩ | ⟨b, hb, hpick⟩
    · rw [hpick] at hgrant
      cases hgrant
    · rw [hpick] at hgrant
      cases hgrant
      exact (mem_eligible_iff_fit hback).mp (Scoring.pickBackend_mem hb)

/-- **One attempt.** It is replied to, or its failure is written down and the loop begins
anew with another target. -/
theorem resume_step (D : Deployment) (w : World) (answer : Answer)
    (hs : c.pending.classify.stream = false) :
    ((resume D w c answer).2 = .replied (lastReply (noted c answer.outcome) answer.outcome) ∧
      ¬ Again D (answer.meanwhile w) c answer.outcome) ∨
    (Again D (answer.meanwhile w) c answer.outcome ∧ ∃ u grant,
      Picked D (answer.meanwhile w) c answer.outcome grant ∧
      resume D w c answer =
        beginAttempt D u { noted c answer.outcome with lease := .granted grant }) := by
  obtain ⟨outcome, meanwhile, body, draining⟩ := answer
  cases outcome with
  | response status relayable =>
    have hnext : onUpstream D (meanwhile w) c (.response status relayable) =
        onBufferedResponse D (meanwhile w) c status relayable := onUpstream_buffered hs
    rcases lt_or_ge status 400 with hlt | hge
    · rw [onBufferedResponse_of_lt hlt] at hnext
      rw [resume_of_handled hnext (.inr ⟨_, rfl⟩)]
      exact .inl ⟨rfl, fun hagain => absurd hagain.2.1.1 (not_le.mpr hlt)⟩
    · rw [onBufferedResponse_of_le hge] at hnext
      rw [resume_of_handled hnext handled_retryOrGiveUp]
      have hretry : (attemptsLeft D.cfg c && retryableStatus D.cfg status) = true ↔
          attemptsLeft D.cfg c = true ∧ Retryable D.cfg (.response status relayable) := by
        rw [Bool.and_eq_true]
        exact and_congr_right fun _ => (and_iff_right hge).symm
      rcases retryOrGiveUp_step _ beside_accountErrorStatus hretry with
        hreply | ⟨hagain, u, grant, hfit, hpick, heq⟩
      · exact .inl hreply
      · refine .inr ⟨hagain, u, grant, ⟨_, ?_, hpick, hfit⟩, heq⟩
        exact if_pos ⟨hs, hge, hagain.1, hagain.2.1.2⟩
  | failed e =>
    cases he : e.caught with
    | false =>
      have hnext : onUpstream D (meanwhile w) c (.failed e) = onUncaught (meanwhile w) c e :=
        onUpstream_uncaught he
      rw [resume_of_handled hnext (.inr ⟨_, rfl⟩)]
      refine .inl ⟨?_, fun hagain => ?_⟩
      · simp [onUncaught, lastReply, he]
      · cases he.symm.trans hagain.2.1
    | true =>
      have hnext : onUpstream D (meanwhile w) c (.failed e) =
          onTransportError D (meanwhile w) c e :=
        onUpstream_transportError he hs
      unfold onTransportError at hnext
      rw [resume_of_handled hnext handled_retryOrGiveUp]
      have hnoted : noted c (.failed e) = { c with lastError := some e }.withFailure e := by
        simp only [noted, he, if_true]
      rw [hnoted]
      -- what is written down of the failure changes neither target nor attempts
      generalize hc' : ({ c with lastError := some e } : ProxyCall).withFailure e = c'
      have htarget : c.target.name = c'.target.name := hc' ▸ rfl
      have hagain : Again D (meanwhile w) c (.failed e) ↔ Again D (meanwhile w) c' (.failed e) := by
        rw [← hc']
        exact Iff.rfl
      have hreply : lastReply c' (.failed e) =
          .httpException 504 (upstreamUnreachableDetail c'.pending.requestId
            c'.transportAttempts) := by
        simp only [lastReply, he, if_true]
      have hback : giveBack (accountTransportError D (meanwhile w) c') c' .failure =
          giveBack (accountTransportError D (meanwhile w) c) c .failure := hc' ▸ rfl
      have hclass : c'.reqClass = c.reqClass := hc' ▸ rfl
      rw [hagain, hreply]
      rcases retryOrGiveUp_step (D := D) (c := c') .failure beside_accountTransportError
          (and_iff_left he).symm with hdone | ⟨hmore, u, grant, hfit, hpick, heq⟩
      · exact .inl hdone
      · refine .inr ⟨hmore, u, grant, ⟨_, if_pos ⟨hs, he, (hagain.mpr hmore).1⟩, ?_,
          htarget ▸ hfit⟩, heq⟩
        rwa [htarget, ← hclass, ← hback]

/-- Where an attempt leads: to the reply, to an attempt on another backend that is sent, or
to one whose request cannot be prepared. -/
theorem resume_cases (D : Deployment) (w : World) (answer : Answer)
    (hs : c.pending.classify.stream = false) :
    ((resume D w c answer).2 = .replied (lastReply (noted c answer.outcome) answer.outcome) ∧
      ¬ Again D (answer.meanwhile w) c answer.outcome) ∨
    (Again D (answer.meanwhile w) c answer.outcome ∧ ∃ grant,
      Picked D (answer.meanwhile w) c answer.outcome grant ∧
      ((prepareTargetRequest D grant.target c.pending = none ∧ ∃ v t, resume D w c answer =
          (v, .sending { noted c answer.outcome with
            lease := .granted grant, attempts := c.attempts + 1, sentAt := t })) ∨
        ∃ reply, prepareTargetRequest D grant.target c.pending = some reply ∧
          (resume D w c answer).2 = .replied reply)) := by
  rcases resume_step D w answer hs with
    hreply | ⟨hagain, u, grant, hfit, hnext⟩
  · exact .inl hreply
  refine .inr ⟨hagain, grant, hfit, ?_⟩
  -- noting the failure changes neither the request nor the number of attempts
  have hs' : ({ noted c answer.outcome with lease := .granted grant } :
      ProxyCall).pending.classify.stream = false := by
    rw [noted_pending]
    exact hs
  have hleft : attemptsLeft D.cfg { noted c answer.outcome with lease := .granted grant } =
      true := by
    unfold attemptsLeft
    rw [noted_attempts]
    exact hagain.1
  rw [hnext, ← noted_pending (o := answer.outcome), ← noted_attempts (o := answer.outcome)]
  exact beginAttempt_left hleft hs'

/-- Once the body has been prepared for an attempt, all that the preparation of another one
can raise is the 503 for the missing key. -/
theorem prepare_of_prepared {target : BackendTarget} {p : PendingRequest} {reply : Reply}
    (hbody : D.unprepared p.oid = none) (h : prepareTargetRequest D target p = some reply) :
    ∃ detail, reply = .httpException 503 detail := by
  rcases prepareTargetRequest_eq_some h with ⟨name, hname, -⟩ | ⟨-, -, -, detail, hreply, -⟩
  · cases hbody.symm.trans hname
  · exact ⟨detail, hreply⟩

/-- What is replied to an attempt is not what a request that cannot be prepared raises. -/
theorem lastReply_ne_prepare {target : BackendTarget} {p : PendingRequest} {reply : Reply}
    (hbody : D.unprepared p.oid = none) (h : prepareTargetRequest D target p = some reply) :
    lastReply c o ≠ reply := by
  obtain ⟨detail, rfl⟩ := prepare_of_prepared hbody h
  intro hkind
  cases o with
  | response status relayable => cases relayable <;> cases hkind
  | failed e =>
    cases he : e.caught
    · simp only [lastReply, he] at hkind
      cases hkind
    · simp only [lastReply, he, if_true] at hkind
      cases hkind

/-! ## The policy -/

/-- The loop has begun another attempt. It was sent, or its request could not be
prepared. -/
def Followed (D : Deployment) (c : ProxyCall) : Handler → Prop
  | .sending c' => c'.attempts = c.attempts + 1
  | .replied reply => ∃ target, prepareTargetRequest D target c.pending = some reply
  | _ => False

theorem followed_iff (hs : c.pending.classify.stream = false)
    (hbody : D.unprepared c.pending.oid = none) :
    Followed D c (resume D w c answer).2 ↔ Again D (answer.meanwhile w) c answer.outcome := by
  rcases resume_cases D w answer hs with
    ⟨hreply, hnot⟩ | ⟨hagain, grant, -, ⟨-, v, t, hsent⟩ | ⟨reply, hprepare, hreply⟩⟩
  · rw [hreply]
    refine iff_of_false ?_ hnot
    rintro ⟨target, htarget⟩
    exact lastReply_ne_prepare hbody htarget rfl
  · rw [hsent]
    exact iff_of_true rfl hagain
  · rw [hreply]
    exact iff_of_true ⟨_, hprepare⟩ hagain

/-- The outcome is one the configured policy retries. -/
def Named (cfg : GatewayConfig) : Upstream → Prop
  | .response status _ => status ∈ cfg.retry.retryableStatuses
  | .failed e => e.caught = true

/-- An attempt is left and another backend would pass. -/
def Chance (D : Deployment) (a : Attempt) : Prop :=
  (a.call.attempts : ℤ) < D.cfg.retry.maxAttempts ∧ Spare D a.world a.call.target.name a.outcome

/-- The loop goes on exactly if the policy says so, and an error that is not listed is
returned. -/
structure PolicyKept (D : Deployment) (a : Attempt) : Prop where
  retried : Followed D a.call a.next ↔
    (a.call.attempts : ℤ) < D.cfg.retry.maxAttempts ∧ Named D.cfg a.outcome ∧
      Spare D a.world a.call.target.name a.outcome
  returned : ∀ status relayable, a.outcome = .response status relayable → 400 ≤ status →
    status ∉ D.cfg.retry.retryableStatuses → a.next = .replied (.response status)

/-- An error that is not listed can be relayed, and is below 500 where there is a chance to
retry; a success is not listed where there is one. -/
structure OnlyListed (D : Deployment) (a : Attempt) : Prop where
  unlisted : ∀ status relayable, a.outcome = .response status relayable → 400 ≤ status →
    status ∉ D.cfg.retry.retryableStatuses →
      relayable = true ∧ (500 ≤ status → ¬ Chance D a)
  success : ∀ status relayable, a.outcome = .response status relayable → status < 400 →
    status ∈ D.cfg.retry.retryableStatuses → ¬ Chance D a

/-- The attempt is one that `resume` has made of a buffered call. -/
def Resumed (D : Deployment) (a : Attempt) : Prop :=
  ∃ w answer, a.call.pending.classify.stream = false ∧
    D.unprepared a.call.pending.oid = none ∧ a.world = answer.meanwhile w ∧
    a.outcome = answer.outcome ∧ a.next = (resume D w a.call answer).2

theorem Resumed.followed_iff {a : Attempt} (h : Resumed D a) :
    Followed D a.call a.next ↔ Again D a.world a.call a.outcome := by
  obtain ⟨w, answer, hs, hbody, hworld, houtcome, hnext⟩ := h
  rw [hworld, houtcome, hnext]
  exact Proxy.followed_iff hs hbody

theorem Resumed.reply {a : Attempt} (h : Resumed D a)
    (hnot : ¬ Again D a.world a.call a.outcome) :
    a.next = .replied (lastReply (noted a.call a.outcome) a.outcome) := by
  obtain ⟨w, answer, hs, -, hworld, houtcome, hnext⟩ := h
  rw [hworld, houtcome] at hnot
  rcases resume_step D w answer hs with ⟨hreply, -⟩ | ⟨hagain, -⟩
  · rw [hnext, houtcome, hreply]
  · exact absurd hagain hnot

/-- A response is followed by another attempt on a chance, if its status is an error from
500 on or a listed one. -/
theorem Resumed.followed_response_iff {a : Attempt} {status : ℤ} {relayable : Bool}
    (h : Resumed D a) (ho : a.outcome = .response status relayable) :
    Followed D a.call a.next ↔
      Chance D a ∧ 400 ≤ status ∧ (500 ≤ status ∨ status ∈ D.cfg.retry.retryableStatuses) := by
  have hretryable : Retryable D.cfg (.response status relayable) ↔
      400 ≤ status ∧ (500 ≤ status ∨ status ∈ D.cfg.retry.retryableStatuses) := by
    show 400 ≤ status ∧ retryableStatus D.cfg status = true ↔ _
    unfold retryableStatus shouldRetryStatus
    rw [Bool.or_eq_true, decide_eq_true_iff, decide_eq_true_iff]
  rw [h.followed_iff]
  unfold Again attemptsLeft Chance
  rw [decide_eq_true_iff, ho, hretryable]
  constructor
  · rintro ⟨hleft, hr, hspare⟩
    exact ⟨⟨hleft, hspare⟩, hr⟩
  · rintro ⟨⟨hleft, hspare⟩, hr⟩
    exact ⟨hleft, hr, hspare⟩

/-- A transport error is retried as the policy says. -/
theorem policyKept_of_failed {a : Attempt} {e : UpstreamError} (h : Resumed D a)
    (ho : a.outcome = .failed e) : PolicyKept D a := by
  refine ⟨?_, fun status relayable hr => ?_⟩
  · rw [h.followed_iff, ho]
    unfold Again attemptsLeft
    rw [decide_eq_true_iff]
    exact Iff.rfl
  · rw [ho] at hr
    cases hr

theorem policyKept_of_onlyListed {a : Attempt} {status : ℤ} {relayable : Bool} (h : Resumed D a)
    (ho : a.outcome = .response status relayable) (honly : OnlyListed D a) : PolicyKept D a := by
  have hfollowed := h.followed_response_iff ho
  have hnamed : Named D.cfg a.outcome ↔ status ∈ D.cfg.retry.retryableStatuses := by
    rw [ho]
    exact Iff.rfl
  -- first when the attempt is followed, then what the client gets if it is not listed
  refine ⟨?_, fun status' relayable' hr hge hout => ?_⟩
  · rw [hfollowed, hnamed]
    constructor
    · rintro ⟨hchance, hge, h5 | hin⟩
      · by_contra hnot
        have hout : status ∉ D.cfg.retry.retryableStatuses := fun hin =>
          hnot ⟨hchance.1, hin, hchance.2⟩
        exact (honly.unlisted status relayable ho hge hout).2 h5 hchance
      · exact ⟨hchance.1, hin, hchance.2⟩
    · rintro ⟨hleft, hin, hspare⟩
      refine ⟨⟨hleft, hspare⟩, ?_, .inr hin⟩
      by_contra hlt
      exact honly.success status relayable ho (not_le.mp hlt) hin ⟨hleft, hspare⟩
  · cases ho.symm.trans hr
    obtain ⟨hrelayable, hquiet⟩ := honly.unlisted status relayable ho hge hout
    have hnot : ¬ Again D a.world a.call a.outcome := by
      intro hagain
      obtain ⟨hchance, -, h5 | hin⟩ := hfollowed.mp (h.followed_iff.mpr hagain)
      · exact hquiet h5 hchance
      · exact hout hin
    rw [h.reply hnot, ho, hrelayable]
    rfl

theorem onlyListed_of_policyKept {a : Attempt} {status : ℤ} {relayable : Bool} (h : Resumed D a)
    (ho : a.outcome = .response status relayable) (hkept : PolicyKept D a) : OnlyListed D a := by
  have hfollowed := h.followed_response_iff ho
  have hnamed : Named D.cfg a.outcome ↔ status ∈ D.cfg.retry.retryableStatuses := by
    rw [ho]
    exact Iff.rfl
  -- an unlisted error that were retried, or a listed success, would break the policy
  refine ⟨fun status' relayable' hr hge hout => ?_, fun status' relayable' hr hlt hin hchance => ?_⟩
  · cases ho.symm.trans hr
    have hnot : ¬ Followed D a.call a.next := fun hf =>
      hout (hnamed.mp (hkept.retried.mp hf).2.1)
    refine ⟨?_, fun h5 hchance => hnot (hfollowed.mpr ⟨hchance, hge, .inl h5⟩)⟩
    have hreply := h.reply fun hagain => hnot (h.followed_iff.mpr hagain)
    rw [hkept.returned status relayable ho hge hout, ho] at hreply
    cases relayable with
    | true => rfl
    | false => cases hreply
  · cases ho.symm.trans hr
    have hf := hkept.retried.mpr ⟨hchance.1, hnamed.mpr hin, hchance.2⟩
    exact absurd (hfollowed.mp hf).2.1 (not_le.mpr hlt)

theorem policyKept_iff {a : Attempt} (h : Resumed D a) : PolicyKept D a ↔ OnlyListed D a := by
  cases ho : a.outcome with
  | response status relayable =>
    exact ⟨onlyListed_of_policyKept h ho, policyKept_of_onlyListed h ho⟩
  | failed e =>
    refine iff_of_true (policyKept_of_failed h ho) ⟨?_, ?_⟩ <;>
    · intro status relayable hr
      cases ho.symm.trans hr

/-! ## All attempts -/

/-- The entry of the loop: the first request is sent, or the call is over. With an
attempt to make the latter means that the request cannot be prepared. -/
theorem start_cases (D : Deployment) (w : World) (initial : Lease) {p : PendingRequest}
    (hs : p.classify.stream = false) :
    (∃ reply, (start D w p initial).2 = .replied reply ∧
      (0 < D.cfg.retry.maxAttempts → prepareTargetRequest D initial.target p ≠ none)) ∨
    ∃ v c, start D w p initial = (v, .sending c) ∧ c.pending = p ∧ c.target = initial.target ∧
      c.attempts = 1 ∧ c.transportAttempts = [] ∧ D.unprepared p.oid = none := by
  unfold start
  by_cases hmax : 0 < D.cfg.retry.maxAttempts
  · have hleft : attemptsLeft D.cfg ⟨p, initial, 0, none, [], w.clock.now⟩ = true :=
      decide_eq_true hmax
    rcases beginAttempt_left (w := w.emit (.proxied p.oid initial)) hleft hs with
      ⟨hprepare, v, t, hsent⟩ | ⟨reply, hprepare, hreply⟩
    · exact .inr ⟨v, _, hsent, rfl, rfl, rfl, rfl, (prepareTargetRequest_eq_none_iff.mp hprepare).1⟩
    · refine .inl ⟨reply, hreply, fun _ hnone => ?_⟩
      cases hprepare.symm.trans hnone
  · have hleft : attemptsLeft D.cfg ⟨p, initial, 0, none, [], w.clock.now⟩ = false :=
      decide_eq_false hmax
    obtain ⟨reply, hreply⟩ := beginAttempt_none_left (w := w.emit (.proxied p.oid initial)) hleft
    exact .inl ⟨reply, hreply, fun hpos => absurd hpos hmax⟩

/-- The next attempt of a buffered call is one for the same request, and counted. -/
theorem sending_of_resume {c' : ProxyCall} (hs : c.pending.classify.stream = false)
    (h : resume D w c answer = (v, .sending c')) :
    c'.pending = c.pending ∧ c'.attempts = c.attempts + 1 := by
  rcases resume_cases D w answer hs with
    ⟨hreply, -⟩ | ⟨-, grant, -, ⟨-, v', t, hsent⟩ | ⟨reply, -, hreply⟩⟩
  · rw [h] at hreply
    cases hreply
  · cases h.symm.trans hsent
    exact ⟨noted_pending, rfl⟩
  · rw [h] at hreply
    cases hreply

theorem attempts_runLoop (answers : List Answer) (hs : c.pending.classify.stream = false)
    (hbody : D.unprepared c.pending.oid = none) :
    (∀ a ∈ (runLoop D answers (w, .sending c)).1, Resumed D a) ∧
      (runLoop D answers (w, .sending c)).1.map (·.call.attempts) =
        List.range' c.attempts (runLoop D answers (w, .sending c)).1.length := by
  -- on the answers; the rest of the run starts from what this one left
  induction answers generalizing w c with
  | nil => exact ⟨List.forall_mem_nil _, rfl⟩
  | cons answer answers ih =>
    have hrest : (∀ a ∈ (runLoop D answers (resume D w c answer)).1, Resumed D a) ∧
        (runLoop D answers (resume D w c answer)).1.map (·.call.attempts) =
          List.range' (c.attempts + 1) (runLoop D answers (resume D w c answer)).1.length := by
      cases hnext : resume D w c answer with
      | mk v handler =>
        cases handler with
        | sending c' =>
          obtain ⟨hpending, hcount⟩ := sending_of_resume hs hnext
          rw [← hcount]
          exact ih (hpending ▸ hs) (hpending ▸ hbody)
        | _ => cases answers <;> exact ⟨List.forall_mem_nil _, rfl⟩
    refine ⟨fun a ha => ?_, ?_⟩
    · rcases List.mem_cons.mp ha with rfl | ha
      · exact ⟨w, answer, hs, hbody, rfl, rfl, rfl⟩
      · exact hrest.1 a ha
    · show c.attempts :: List.map _ _ = List.range' c.attempts (_ + 1)
      rw [List.range'_succ, hrest.2]

/-- **Policy.** Whatever the upstreams answer and other tasks do meanwhile, the attempts of
a buffered call are numbered from one, and the policy is kept at each of them if and only
if the errors that are not listed can be relayed, and those from 500 on, and the listed
successes, come where there is no chance to retry. -/
theorem policy_iff (D : Deployment) (answers : List Answer) (w : World) (p : PendingRequest)
    (initial : Lease) :
    (loopFrom D answers w p initial).1.map (·.call.attempts) =
        List.range' 1 (loopFrom D answers w p initial).1.length ∧
      ((∀ a ∈ (loopFrom D answers w p initial).1, PolicyKept D a) ↔
        ∀ a ∈ (loopFrom D answers w p initial).1, OnlyListed D a) := by
  unfold loopFrom
  rcases start_cases D w initial (p := withStream p false) rfl with
    ⟨reply, hreply, -⟩ | ⟨v, c, hstart, hpending, -, hone, -, hbody⟩
  · rw [runLoop_of_replied hreply]
    exact ⟨rfl, iff_of_true (List.forall_mem_nil _) (List.forall_mem_nil _)⟩
  · have hs : c.pending.classify.stream = false := by
      rw [hpending]
      rfl
    obtain ⟨hresumed, hnumbers⟩ := attempts_runLoop (D := D) (w := v) answers hs (hpending ▸ hbody)
    rw [hone] at hnumbers
    rw [hstart]
    exact ⟨hnumbers, forall₂_congr fun a ha => policyKept_iff (hresumed a ha)⟩

/-- The first attempt is answered with a status the default settings do not list. -/
def failing : List Turn :=
  [⟨.response 500 none true true true, id, id⟩, ⟨.response 200 none true true true, id, id⟩]

/-- The first request, granted the first backend. -/
def bufferedLoop (D : Deployment) (ts : List Turn) : List Attempt × Handler :=
  let (w, grant) := (Gateway.init D Gateway.still).world.takeSlot "gpu-node-1" .smallChat
  loopFrom D (ts.map Turn.buffered) w
    ((Gateway.init D Gateway.still).newRequest (Gateway.chat false)) (.granted grant)

/-- Status 500 is not listed, and yet it is retried on the other backend. -/
theorem policy_fails_failing :
    (500 : ℤ) ∉ pair.cfg.retry.retryableStatuses ∧
    (bufferedLoop pair failing).1.map (fun a => (a.call.target.name, a.outcome)) =
      [("gpu-node-1", .response 500 true), ("gpu-node-2", .response 200 true)] ∧
    ¬ ∀ a ∈ (bufferedLoop pair failing).1, PolicyKept pair a := by
  have hsent : (bufferedLoop pair failing).1.any (fun a =>
      decide (a.outcome = .response 500 true) && decide (a.next ≠ .replied (.response 500))) =
        true := by decide +kernel
  have hlist : (500 : ℤ) ∉ pair.cfg.retry.retryableStatuses := by decide
  refine ⟨hlist, by decide +kernel, fun hall => ?_⟩
  obtain ⟨a, ha, hboth⟩ := List.any_eq_true.mp hsent
  obtain ⟨houtcome, hnext⟩ := Bool.and_eq_true_iff.mp hboth
  have hreturned := (hall a ha).returned 500 true (of_decide_eq_true houtcome) (by decide) hlist
  exact of_decide_eq_true hnext hreturned

/-! ## The end of the loop -/

/-- The outcomes the loop is written for: a response, a timeout or a connect error. -/
def Caught : Upstream → Prop
  | .response _ _ => True
  | .failed e => e.caught = true

/-- The entry of `transport_attempts` the attempt has led to, if it failed. -/
def Attempt.failure? (a : Attempt) : Option TransportAttempt :=
  match a.outcome with
  | .response _ _ => none
  | .failed e => some ⟨a.call.target.name, a.call.url, transportErrorDetail e, e.text⟩

/-- The reply that the attempt alone decides: the status of a response the client can be
given, or a 504. -/
def Decides (a : Attempt) (reply : Reply) : Prop :=
  (∀ status, a.outcome = .response status true → reply = .response status) ∧
    ∀ e, a.outcome = .failed e → ∃ detail, reply = .httpException 504 detail

/-- A retry of the attempt is due, and the request cannot be prepared for the fit backend the
search has picked: it bears the name of the fallback provider, whose key is missing. -/
def Unprepared (D : Deployment) (a : Attempt) (reply : Reply) : Prop :=
  ∃ grant, Picked D a.world a.call a.outcome grant ∧
    isOpenaiFallback D.cfg grant.target = true ∧ missingApiKey D = true ∧
    prepareTargetRequest D grant.target a.call.pending = some reply

/-- How a loop ends that begins under `initial`. -/
structure RetryResult (D : Deployment) (p : PendingRequest) (initial : Lease)
    (attempts : List Attempt) (h : Handler) : Prop where
  first : ∃ a as, attempts = a :: as ∧ a.call.target = initial.target
  bound : (attempts.length : ℤ) ≤ D.cfg.retry.maxAttempts
  /-- Each target after the first was fit when it was picked, and bears another name than
  the one before. -/
  targets : attempts.IsChain fun a b =>
    Fit D a.world a.call.target.name a.outcome b.call.target.name
  /-- It ends with a reply. -/
  result : ∃ last reply, attempts.getLast? = some last ∧ h = .replied reply ∧
    (Decides last reply ∨ Unprepared D last reply)
  listed : ∀ detail, h = .replied (.httpException 504 detail) →
    detail = upstreamUnreachableDetail p.requestId (attempts.filterMap Attempt.failure?)
  unreached : ∀ detail, h ≠ .replied (.httpException 502 detail)

/-- How a loop ends that has come to send `c`. -/
structure Finished (D : Deployment) (c : ProxyCall) (attempts : List Attempt) (h : Handler) :
    Prop where
  first : ∃ a as, attempts = a :: as ∧ a.call = c
  bound : (c.attempts : ℤ) + attempts.length ≤ D.cfg.retry.maxAttempts + 1
  targets : attempts.IsChain fun a b =>
    Fit D a.world a.call.target.name a.outcome b.call.target.name
  result : ∃ last reply, attempts.getLast? = some last ∧ h = .replied reply ∧
    (Decides last reply ∨ Unprepared D last reply)
  listed : ∀ detail, h = .replied (.httpException 504 detail) →
    detail = upstreamUnreachableDetail c.pending.requestId
      (c.transportAttempts ++ attempts.filterMap Attempt.failure?)
  unreached : ∀ detail, h ≠ .replied (.httpException 502 detail)

theorem noted_transportAttempts {a : Attempt} (ho : Caught a.outcome) :
    (noted a.call a.outcome).transportAttempts =
      a.call.transportAttempts ++ [a].filterMap Attempt.failure? := by
  cases hout : a.outcome with
  | response status relayable => simp [noted, Attempt.failure?, hout]
  | failed e =>
    have he : e.caught = true := by
      rw [hout] at ho
      exact ho
    have hfailure : a.failure? =
        some ⟨a.call.target.name, a.call.url, transportErrorDetail e, e.text⟩ := by
      unfold Attempt.failure?
      rw [hout]
    rw [List.filterMap_cons_some hfailure, List.filterMap_nil]
    simp only [noted, he, if_true]
    rfl

/-- An attempt that is replied to is the last. Its outcome is the reply, and the
failures that a reply 504 lists are those noted before it and its own. -/
theorem finished_of_reply {a : Attempt} (ho : Caught a.outcome)
    (hle : (a.call.attempts : ℤ) ≤ D.cfg.retry.maxAttempts) :
    Finished D a.call [a] (.replied (lastReply (noted a.call a.outcome) a.outcome)) where
  first := ⟨a, [], rfl, rfl⟩
  bound := by simpa using hle
  targets := .singleton a
  -- the last attempt is this one, and its outcome is the reply
  result := by
    refine ⟨a, _, rfl, rfl, .inl ⟨fun status hout => ?_, fun e hout => ?_⟩⟩
    · rw [hout]
      rfl
    · rw [hout] at ho ⊢
      have he : e.caught = true := ho
      simp only [lastReply, he, if_true]
      exact ⟨_, rfl⟩
  listed detail h := by
    rw [← noted_transportAttempts ho]
    cases hout : a.outcome with
    | response status relayable =>
      rw [hout] at h
      cases relayable <;> cases h
    | failed e =>
      rw [hout] at h ho
      have he : e.caught = true := ho
      simp only [lastReply, he, if_true] at h
      cases h
      rw [noted_pending]
  unreached detail h := by
    cases hout : a.outcome with
    | response status relayable =>
      rw [hout] at h
      cases relayable <;> cases h
    | failed e =>
      rw [hout] at h ho
      have he : e.caught = true := ho
      simp only [lastReply, he, if_true] at h
      cases h

/-- A loop is finished with an attempt after which the request to the next backend
cannot be prepared. -/
theorem finished_of_unprepared {a : Attempt} {reply : Reply} (hun : Unprepared D a reply)
    (hbody : D.unprepared a.call.pending.oid = none)
    (hle : (a.call.attempts : ℤ) ≤ D.cfg.retry.maxAttempts) :
    Finished D a.call [a] (.replied reply) := by
  have hkind : ∃ detail, reply = .httpException 503 detail := by
    obtain ⟨grant, -, -, -, hprepare⟩ := hun
    exact prepare_of_prepared hbody hprepare
  obtain ⟨d, rfl⟩ := hkind
  exact
    { first := ⟨a, [], rfl, rfl⟩
      bound := by simpa using hle
      targets := .singleton a
      result := ⟨a, _, rfl, rfl, .inr hun⟩
      listed := nofun
      unreached := nofun }

/-- An attempt that is followed by a loop that ends. The count goes up by one, the two
targets differ in name, and the failures listed at the end begin with its own. -/
theorem Finished.cons {a : Attempt} {c' : ProxyCall} {as : List Attempt} {h : Handler}
    (hrest : Finished D c' as h) (ho : Caught a.outcome)
    (hfit : Fit D a.world a.call.target.name a.outcome c'.target.name)
    (hcount : c'.attempts = a.call.attempts + 1) (hpending : c'.pending = a.call.pending)
    (hnoted : c'.transportAttempts = (noted a.call a.outcome).transportAttempts) :
    Finished D a.call (a :: as) h where
  first := ⟨a, as, rfl, rfl⟩
  -- the rest of the run counts on from this attempt
  bound := by
    have hbound := hrest.bound
    rw [hcount] at hbound
    push_cast [List.length_cons] at hbound ⊢
    omega
  targets := by
    obtain ⟨b, bs, rfl, rfl⟩ := hrest.first
    exact .cons_cons hfit hrest.targets
  result := by
    obtain ⟨b, bs, rfl, -⟩ := hrest.first
    exact hrest.result
  listed detail h := by
    rw [hrest.listed detail h, hpending, hnoted, noted_transportAttempts ho, List.append_assoc,
      ← List.filterMap_append]
    rfl
  unreached := hrest.unreached

/-- **The loop ends.** Each answer uses up an attempt, so with as many answers as there
are attempts left, and one more, the call is over before the answers are. -/
theorem finished_runLoop (hs : c.pending.classify.stream = false)
    (hbody : D.unprepared c.pending.oid = none)
    (hle : (c.attempts : ℤ) ≤ D.cfg.retry.maxAttempts)
    (hlong : D.cfg.retry.maxAttempts < c.attempts + answers.length)
    (hcaught : ∀ answer ∈ answers, Caught answer.outcome) :
    Finished D c (runLoop D answers (w, .sending c)).1 (runLoop D answers (w, .sending c)).2 := by
  -- on the answers, of which there are more than attempts left, so that the loop ends in one
  induction answers generalizing w c with
  | nil =>
    simp only [List.length_nil, Nat.cast_zero, add_zero] at hlong
    exact absurd hle (not_le.mpr hlong)
  | cons answer answers ih =>
    have ho : Caught answer.outcome := hcaught answer List.mem_cons_self
    rw [runLoop_cons]
    rcases resume_cases D w answer hs with
      ⟨hreply, -⟩ | ⟨hagain, grant, hpicked, ⟨-, v, t, hsent⟩ | ⟨reply, hprepare, hreply⟩⟩
    · rw [runLoop_of_replied hreply]
      exact finished_of_reply (a := ⟨c, answer.meanwhile w, answer.outcome, _⟩) ho hle
    · rw [hsent]
      have hleft : (c.attempts : ℤ) < D.cfg.retry.maxAttempts := of_decide_eq_true hagain.1
      obtain ⟨u, -, -, hfit⟩ := hpicked
      refine Finished.cons (a := ⟨c, answer.meanwhile w, answer.outcome, _⟩) (ih ?_ ?_ ?_ ?_ ?_) ho
        hfit rfl noted_pending rfl
      · show (noted c answer.outcome).pending.classify.stream = false
        rw [noted_pending]
        exact hs
      · show D.unprepared (noted c answer.outcome).pending.oid = none
        rw [noted_pending]
        exact hbody
      · show ((c.attempts + 1 : ℕ) : ℤ) ≤ _
        push_cast
        exact hleft
      · show _ < ((c.attempts + 1 : ℕ) : ℤ) + _
        push_cast [List.length_cons] at hlong ⊢
        omega
      · exact fun answer' hin => hcaught answer' (List.mem_cons_of_mem _ hin)
    · rw [runLoop_of_replied hreply]
      rcases prepareTargetRequest_eq_some hprepare with ⟨name, hname, -⟩ | ⟨-, hfallback, hkey, -⟩
      · cases hbody.symm.trans hname
      · exact finished_of_unprepared (a := ⟨c, answer.meanwhile w, answer.outcome, _⟩)
          ⟨grant, hpicked, hfallback, hkey, hprepare⟩ hbody hle

/-- **Result.** The body of the request being one that can be prepared, and the key of the
fallback provider being there if the loop begins with it: the loop ends after at least one and
at most `max_attempts` attempts. Each is on another backend than the one before, and on one
that was eligible when it was picked. The last attempt alone decides the reply, unless a retry
of it is due and the backend that is picked bears the name of the fallback provider, whose key
is missing; a 504 lists the transport failures in order, and the code after the loop is not
reached. -/
theorem retry_result {p : PendingRequest} {initial : Lease} (hmax : 1 ≤ D.cfg.retry.maxAttempts)
    (hbody : D.unprepared p.oid = none)
    (hkey : isOpenaiFallback D.cfg initial.target = true → missingApiKey D = false)
    (hcaught : ∀ answer ∈ answers, Caught answer.outcome)
    (hlong : D.cfg.retry.maxAttempts ≤ answers.length) :
    RetryResult D p initial (loopFrom D answers w p initial).1
      (loopFrom D answers w p initial).2 := by
  -- the first request can be prepared, so there is a first attempt
  have hprepare : prepareTargetRequest D initial.target (withStream p false) = none := by
    refine prepareTargetRequest_eq_none_iff.mpr ⟨hbody, ?_⟩
    by_contra hne
    obtain ⟨hfallback, hmissing⟩ := (Bool.and_eq_true _ _).mp (Bool.eq_true_of_not_eq_false hne)
    cases hmissing.symm.trans (hkey hfallback)
  unfold loopFrom
  rcases start_cases D w initial (p := withStream p false) rfl with
    ⟨reply, -, hunprepared⟩ | ⟨v, c, hstart, hpending, htarget, hone, hnone, -⟩
  · exact absurd hprepare (hunprepared hmax)
  rw [hstart]
  have hfinished := finished_runLoop (D := D) (w := v) (c := c) (by rw [hpending]; rfl)
    (by rw [hpending]; exact hbody) (by rw [hone]; exact hmax) (by rw [hone]; push_cast; omega)
      hcaught
  obtain ⟨a, as, hattempts, hcall⟩ := hfinished.first
  refine ⟨⟨a, as, hattempts, by rw [hcall, htarget]⟩, ?_, hfinished.targets, hfinished.result,
    fun detail h => ?_, hfinished.unreached⟩
  · have hbound := hfinished.bound
    rw [hone] at hbound
    push_cast at hbound
    omega
  · rw [hfinished.listed detail h, hnone, hpending]
    rfl

theorem caught_stumbling : ∀ answer ∈ stumbling.map Turn.buffered, Caught answer.outcome := by
  unfold stumbling
  simp only [List.map_cons, List.map_nil, List.forall_mem_cons, List.not_mem_nil, false_implies,
    implies_true, and_true]
  exact ⟨rfl, trivial⟩

/-- A slot on the first backend. -/
def firstLease : Lease := .granted ⟨⟨"gpu-node-1", "http://10.0.0.1:8000"⟩, none⟩

theorem retry_result_stumbling :
    RetryResult pair ((Gateway.init pair Gateway.still).newRequest (Gateway.chat false)) firstLease
      (loopFrom pair (stumbling.map Turn.buffered) (Gateway.init pair Gateway.still).world
        ((Gateway.init pair Gateway.still).newRequest (Gateway.chat false)) firstLease).1
      (loopFrom pair (stumbling.map Turn.buffered) (Gateway.init pair Gateway.still).world
        ((Gateway.init pair Gateway.still).newRequest (Gateway.chat false)) firstLease).2 :=
  retry_result (by decide) rfl (by decide) caught_stumbling (by decide)

/-- The second backend bears the name of the fallback provider, whose key is missing. -/
def namesake : Deployment where
  cfg := { pair.cfg with openaiFallback := { enabled := true, backendName := "gpu-node-2" } }
  environ := fun _ => none

/-- The loop does not begin with the fallback provider. Its only attempt times out, and the
reply is not a 504. -/
theorem retry_result_fails_namesake :
    isOpenaiFallback namesake.cfg ⟨"gpu-node-1", "http://10.0.0.1:8000"⟩ = false ∧
    (bufferedLoop namesake stumbling).1.map (fun a => (a.call.target.name, a.outcome)) =
      [("gpu-node-1", .failed (.timeout "read timed out"))] ∧
    (∃ detail, (bufferedLoop namesake stumbling).2 = .replied (.httpException 503 detail)) ∧
    ¬ ∃ last reply, (bufferedLoop namesake stumbling).1.getLast? = some last ∧
      (bufferedLoop namesake stumbling).2 = .replied reply ∧ Decides last reply := by
  have hattempts : (bufferedLoop namesake stumbling).1.map
      (fun a => (a.call.target.name, a.outcome)) =
        [("gpu-node-1", .failed (.timeout "read timed out"))] := by decide +kernel
  have hreply : (bufferedLoop namesake stumbling).2 = .replied (.httpException 503
      { reason := some "fallback_unavailable"
        message := some "missing env var OPENAI_API_KEY"
        requestId := "req-1" }) := by decide +kernel
  refine ⟨by decide, hattempts, ⟨_, hreply⟩, ?_⟩
  -- the last attempt failed in transport, yet the reply is none of a transport failure
  rintro ⟨last, reply, hlast, hend, -, hfailed⟩
  have hout : last.outcome = .failed (.timeout "read timed out") := by
    have hmap := congrArg List.getLast? hattempts
    rw [List.getLast?_map, hlast] at hmap
    exact congrArg Prod.snd (Option.some.inj hmap)
  obtain ⟨detail, hdetail⟩ := hfailed _ hout
  rw [hdetail] at hend
  cases hreply.symm.trans hend

end Proxy

end InferenceGateway
