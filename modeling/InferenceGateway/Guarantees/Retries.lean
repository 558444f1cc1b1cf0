import InferenceGateway.Api.Routes
import InferenceGateway.Fleet.Deeds

/-!
# Retries: streamed against buffered

`serve` runs one call of `proxy_chat_completion` from its entry to its reply, against
what the upstreams answer and whatever other tasks do meanwhile. `Served` says what an
upstream does with an attempt in terms of the upstream alone; the buffered `post` and the
streaming `send` see different parts of it. A `post` has read the body when it returns, and a
`send` the headers only, so that a body that cannot be read is an exception of the attempt
for the one and of `aread`, after the status is known, for the other.

- `serve_streamed`, `serve_buffered_iff`: what one attempt of either kind comes to.
- `retries_agree_iff`: the streamed and the buffered call contact the same backends and end
  alike if and only if they stay `Alike`: where both retry, both find the same backend, and
  where the streamed call does not, the buffered one does not either.

The streamed call retries in one case only, that of an error status whose body cannot be
read: what `aread` raises there reaches the `except` clause of `proxy_chat_completion`.
-/

namespace InferenceGateway

open Lib

/-! ## What accounting leaves alone -/

namespace World

variable {w v u : World} {t b : String} {k k' : ℕ} {e : Event} {cls : RequestClass}
  {lease : Lease} {how : Ending} {health : HealthConfig}

/-- Nothing but the row of `t` has changed, and the clock has been read `k` times. -/
structure Beside (t : String) (k : ℕ) (w v : World) : Prop where
  names : v.names = w.names
  row : ∀ b, b ≠ t → v.row b = w.row b
  clock : v.clock = Clock.read^[k] w.clock

theorem Beside.trans (h : Beside t k w v) (h' : Beside t k' v u) : Beside t (k' + k) w u where
  names := h'.names.trans h.names
  row b hb := (h'.row b hb).trans (h.row b hb)
  clock := by rw [h'.clock, h.clock, Function.iterate_add_apply]

theorem beside_readClock : Beside t 1 w w.readClock := ⟨rfl, fun _ _ => rfl, rfl⟩

theorem beside_emit : Beside t 0 w (w.emit e) := ⟨rfl, fun _ _ => rfl, rfl⟩

theorem beside_releaseDispatch : Beside t 0 w (w.releaseDispatch t cls) :=
  ⟨releaseDispatch_names, fun _ hb => releaseDispatch_row_of_ne hb, releaseDispatch_clock⟩

theorem beside_endAttempt : Beside t 0 w (w.endAttempt lease how) := by
  cases lease
  · exact beside_emit
  · exact ⟨rfl, fun _ _ => rfl, rfl⟩

theorem beside_sampleFailure : Beside t 0 w (w.sampleFailure t) := by
  unfold sampleFailure
  split
  · exact ⟨modify_names, fun _ hb => modify_row_of_ne hb, modify_clock⟩
  · exact ⟨rfl, fun _ _ => rfl, rfl⟩

theorem beside_recordFailure {probe : Option ℕ} :
    Beside t 1 w (w.recordFailure health t probe) := by
  have hmoved : Beside t 0 w.readClock (w.readClock.moveCircuit t
      (Health.onFailure health w.readClock.clock.now) (.failure probe)) :=
    ⟨moveCircuit_names, fun _ hb => moveCircuit_row_of_ne hb, moveCircuit_clock⟩
  exact (beside_readClock.trans hmoved).trans beside_sampleFailure

end World

namespace Proxy

open Gateway (pair)

variable {D : Deployment} {w v : World} {c : ProxyCall} {status : ℤ} {relayable : Bool}
  {e : UpstreamError}

theorem beside_giveBack {how : Ending} :
    World.Beside c.target.name 0 w (giveBack w c how) :=
  (World.beside_emit.trans World.beside_releaseDispatch).trans World.beside_endAttempt

/-- The readings a failed attempt takes before it looks for an alternate. -/
def accountingReadings : Upstream → ℕ
  | .response status _ => if 500 ≤ status then 2 else 1
  | .failed _ => 1

theorem beside_accountErrorStatus : World.Beside c.target.name
    (accountingReadings (.response status relayable)) w
    (accountErrorStatus D w.readClock c status) := by
  have hrecord : World.Beside c.target.name (if 500 ≤ status then 1 else 0) w.readClock
      (w.readClock.recordErrorStatus D.cfg.health c.target.name c.lease.probe status) := by
    unfold World.recordErrorStatus
    split
    · exact World.beside_recordFailure
    · exact World.beside_sampleFailure
  have hreadings : accountingReadings (.response status relayable) =
      0 + ((if 500 ≤ status then 1 else 0) + 1) := by
    by_cases h : 500 ≤ status <;> simp [accountingReadings, h]
  rw [hreadings]
  exact (World.beside_readClock.trans hrecord).trans World.beside_emit

theorem beside_accountTransportError :
    World.Beside c.target.name (accountingReadings (.failed e)) w (accountTransportError D w c) :=
  World.beside_emit.trans World.beside_recordFailure

/-- `b` is another registered backend and would pass the checks, at the reading a search
made after the accounting of `o` takes for it. -/
def Fit (D : Deployment) (w : World) (t : String) (o : Upstream) (b : String) : Prop :=
  b ∈ w.names ∧ b ≠ t ∧ Health.passes D.cfg.health
    (Health.maybeTransitionFromOpen D.cfg.health
      ({ w with clock := Clock.read^[accountingReadings o] w.clock }.readingFor (some t) w.names b)
      (w.row b)) = true

/-- Some other registered backend is fit: a search made after the accounting of `o` finds a
candidate. -/
def Spare (D : Deployment) (w : World) (t : String) (o : Upstream) : Prop :=
  ∃ b, Fit D w t o b

/-- The candidates of a search are the backends that are fit: those but the excluded one
that pass the checks at the reading made for each. -/
theorem mem_eligible_iff_fit {t b : String} {o : Upstream}
    (h : World.Beside t (accountingReadings o) w v) :
    b ∈ (World.eligible D.cfg.health (some t) v.names v).2 ↔ Fit D w t o b := by
  have hreading : v.readingFor (some t) v.names b = World.readingFor (some t) w.names b
      { w with clock := Clock.read^[accountingReadings o] w.clock } := by
    unfold World.readingFor
    rw [h.names, h.clock]
  have hcheck : b ∈ v.names → b ≠ t →
      (b ∈ (World.eligible D.cfg.health (some t) v.names v).2 ↔ _) :=
    fun hb hne => (World.eligible_check v.names v v.registry.nodup hb
      (fun heq => hne (Option.some.inj heq)) hb).2
  -- the filter of the eligible ones and the exclusion of the one that failed
  constructor
  · intro hb
    obtain ⟨hname, havoid, -⟩ := World.eligible_spec v.names v v.registry.nodup hb
    have hbt : b ≠ t := fun heq => havoid (congrArg some heq)
    have hpass := (hcheck hname hbt).mp hb
    rw [hreading, show v.registry.row b = w.row b from h.row b hbt] at hpass
    exact ⟨h.names ▸ hname, hbt, hpass⟩
  · rintro ⟨hb, hbt, hpass⟩
    refine (hcheck (h.names ▸ hb) hbt).mpr ?_
    rw [hreading, show v.registry.row b = w.row b from h.row b hbt]
    exact hpass

theorem hasAlternate_iff_spare {o : Upstream}
    (h : World.Beside c.target.name (accountingReadings o) w v) :
    hasAlternate D c v ↔ Spare D w c.target.name o := by
  constructor
  · intro hne
    obtain ⟨b, hb⟩ := List.exists_mem_of_ne_nil _ hne
    exact ⟨b, (mem_eligible_iff_fit h).mp hb⟩
  · rintro ⟨b, hfit⟩
    exact List.ne_nil_of_mem ((mem_eligible_iff_fit h).mpr hfit)

/-! ## One call -/

/-- What an attempt meets: the outcome of sending it, how the body of a streamed error is
read, and what other tasks do before the call resumes, with the headers and then with that
body. -/
structure Answer where
  outcome : Upstream
  meanwhile : World → World
  body : BodyRead
  draining : World → World

/-- What the client gets, by kind. -/
inductive Result where
  | relayed (status : ℤ)
  | httpException (status : ℤ)
  | crashed
  /-- The answers are used up. -/
  | waiting
  deriving DecidableEq, Repr

def Result.ofReply : Reply → Result
  | .response status => .relayed status
  | .httpException status _ => .httpException status
  | .crashed _ => .crashed

/-- From the answer to what the client gets, or to the next attempt: an error body is
read, a stream is relayed under its status. -/
def resume (D : Deployment) (w : World) (c : ProxyCall) (answer : Answer) : World × Handler :=
  match onUpstream D (answer.meanwhile w) c answer.outcome, answer.outcome with
  | (v, .draining c status), _ => onDrained D (answer.draining v) c status answer.body
  | (v, .relaying _ _), .response status _ => (v, .replied (.response status))
  | next, _ => next

/-- Run a call on: the backends contacted, and the result. -/
def serve (D : Deployment) : List Answer → World × Handler → List String × Result
  | [], (_, .sending c) => ([c.target.name], .waiting)
  | answer :: answers, (w, .sending c) =>
    let rest := serve D answers (resume D w c answer)
    (c.target.name :: rest.1, rest.2)
  | _, (_, .replied reply) => ([], .ofReply reply)
  | _, _ => ([], .waiting)

/-- The call of `p` under `initial`. -/
def serveFrom (D : Deployment) (answers : List Answer) (w : World) (p : PendingRequest)
    (initial : Lease) : List String × Result :=
  serve D answers (start D w p initial)

/-- What becomes of an attempt that is not retried. -/
def Result.ofOutcome : Upstream → Result
  | .response status relayable => if relayable then .relayed status else .crashed
  | .failed e => if e.caught then .httpException 504 else .crashed

theorem Result.ofReply_relay : Result.ofReply (relay status relayable) =
    Result.ofOutcome (.response status relayable) := by
  cases relayable <;> rfl

/-- No outcome of an attempt leads to a 503 of the gateway's own. -/
theorem Result.ofOutcome_ne {o : Upstream} : Result.ofOutcome o ≠ .httpException 503 := by
  cases o with
  | response status relayable => cases relayable <;> simp [ofOutcome]
  | failed e => cases he : e.caught <;> simp [ofOutcome, he]

@[simp] theorem serve_replied {answers : List Answer} {reply : Reply} :
    serve D answers (w, .replied reply) = ([], .ofReply reply) := by
  cases answers <;> rfl

/-- The outcome asks for a retry, if there is an alternate. -/
def Retryable (cfg : GatewayConfig) : Upstream → Prop
  | .response status _ => 400 ≤ status ∧ retryableStatus cfg status = true
  | .failed e => e.caught = true

/-- A failed attempt that is not retried, or finds no alternate, is replied to. -/
theorem retryOrGiveUp_reply {retry : Bool} {how : Ending} {final : Reply}
    (h : retry = false ∨ ¬ hasAlternate D c (giveBack w c how)) :
    (retryOrGiveUp D w c retry how final).2 = .replied final := by
  rcases retryOrGiveUp_cases D w c retry how final with
    ⟨-, heq⟩ | ⟨-, -, heq⟩ | ⟨hretry, grant, hgrant, -⟩
  · rw [heq]
  · rw [heq]
  · rcases h with h | h
    · cases h.symm.trans hretry
    · have hnone := Fleet.pickRetryTarget_eq_none_iff.mpr h
      cases hnone.symm.trans hgrant

/-- **An attempt that is retried** goes on under another grant. -/
theorem retryOrGiveUp_retried {how : Ending} {final : Reply}
    (h : hasAlternate D c (giveBack w c how)) :
    ∃ v grant, retryOrGiveUp D w c true how final =
      beginAttempt D v { c with lease := .granted grant } := by
  rcases retryOrGiveUp_cases D w c true how final with
    ⟨hfalse, -⟩ | ⟨-, hnone, -⟩ | ⟨-, grant, -, heq⟩
  · cases hfalse
  · exact absurd h (Fleet.pickRetryTarget_eq_none_iff.mp hnone)
  · exact ⟨_, grant, heq⟩

/-- The head of the loop with an attempt left, for a body that can be prepared: the attempt is
sent to the target, or the 503 for the missing key is raised. Which of the two happens depends
on the name of the target only. -/
theorem beginAttempt_prepared (hleft : attemptsLeft D.cfg c = true)
    (hbody : D.unprepared c.pending.oid = none) :
    ((isOpenaiFallback D.cfg c.target && missingApiKey D) = false ∧
      ∃ v t, beginAttempt D w c =
        (v, .sending { c with attempts := c.attempts + 1, sentAt := t })) ∨
    ((isOpenaiFallback D.cfg c.target && missingApiKey D) = true ∧
      ∃ detail, (beginAttempt D w c).2 = .replied (.httpException 503 detail)) := by
  unfold beginAttempt
  rw [if_pos (of_decide_eq_true hleft)]
  cases hreply : prepareTargetRequest D c.target c.pending with
  | some reply =>
    -- raised while the request is prepared
    rcases prepareTargetRequest_eq_some hreply with
      ⟨name, hname, -⟩ | ⟨-, hfallback, hkey, detail, rfl, -⟩
    · cases hbody.symm.trans hname
    · refine .inr ⟨by rw [hfallback, hkey]; rfl, detail, ?_⟩
      simp only [hreply]
  | none =>
    refine .inl ⟨(prepareTargetRequest_eq_none_iff.mp hreply).2, ?_⟩
    simp only [hreply]
    exact ⟨_, _, rfl⟩

/-- What a retry leads to is not what one attempt alone can lead to: another backend is
contacted, or the gateway answers 503. -/
theorem serve_beginAttempt_ne {answers : List Answer} {R : Result}
    (hleft : attemptsLeft D.cfg c = true) (hbody : D.unprepared c.pending.oid = none)
    (hR : R ≠ .httpException 503) : serve D answers (beginAttempt D w c) ≠ ([], R) := by
  rcases beginAttempt_prepared (w := w) hleft hbody with
    ⟨-, v, t, hsent⟩ | ⟨-, detail, hreply⟩
  · rw [hsent]
    intro heq
    have hcontacts := congrArg Prod.fst heq
    cases answers <;> cases hcontacts
  · rw [show beginAttempt D w c = ((beginAttempt D w c).1, .replied (.httpException 503 detail))
      from Prod.ext rfl hreply, serve_replied]
    intro heq
    exact hR (Prod.mk.inj heq).2.symm

/-- The handler has replied or sends another attempt. -/
def Handled (h : Handler) : Prop := (∃ c, h = .sending c) ∨ ∃ reply, h = .replied reply

theorem handled_beginAttempt : Handled (beginAttempt D w c).2 := by
  rcases beginAttempt_cases D w c with ⟨-, reply, -, h⟩ | ⟨v, -, h⟩ | ⟨reply, h⟩ <;> rw [h]
  · exact .inr ⟨reply, rfl⟩
  · exact .inl ⟨_, rfl⟩
  · exact .inr ⟨reply, rfl⟩

theorem handled_retryOrGiveUp {retry : Bool} {how : Ending} {final : Reply} :
    Handled (retryOrGiveUp D w c retry how final).2 := by
  rcases retryOrGiveUp_cases D w c retry how final with
    ⟨-, h⟩ | ⟨-, -, h⟩ | ⟨-, grant, -, h⟩ <;> rw [h]
  · exact .inr ⟨final, rfl⟩
  · exact .inr ⟨final, rfl⟩
  · exact handled_beginAttempt

/-- A handled answer needs no further reading. -/
theorem resume_of_handled {answer : Answer} {next : World × Handler}
    (hnext : onUpstream D (answer.meanwhile w) c answer.outcome = next) (h : Handled next.2) :
    resume D w c answer = next := by
  obtain ⟨v, handler⟩ := next
  unfold resume
  rw [hnext]
  rcases h with ⟨c', hh⟩ | ⟨reply, hh⟩ <;> cases hh <;> rfl

/-! ## The buffered attempt -/

/-- The tail of a failed buffered attempt, seen from the client: it comes to the result that
the attempt alone leads to if and only if it is not retried. -/
theorem serve_retryOrGiveUp_iff {o : Upstream} {answers : List Answer} {retry : Bool}
    {how : Ending} {final : Reply} {R : Result}
    (hbeside : World.Beside c.target.name (accountingReadings o) w v)
    (hretry : retry = true ↔ attemptsLeft D.cfg c = true ∧ Retryable D.cfg o)
    (hbody : D.unprepared c.pending.oid = none) (hR : R ≠ .httpException 503) :
    serve D answers (retryOrGiveUp D v c retry how final) = ([], R) ↔
      ¬ (attemptsLeft D.cfg c = true ∧ Retryable D.cfg o ∧ Spare D w c.target.name o) ∧
        Result.ofReply final = R := by
  have hspare : hasAlternate D c (giveBack v c how) ↔ Spare D w c.target.name o := by
    refine hasAlternate_iff_spare ?_
    have hback : World.Beside c.target.name 0 v (giveBack v c how) := beside_giveBack
    have hall := hbeside.trans hback
    rwa [Nat.zero_add] at hall
  -- a retry sends something, so the call does not end here; without one the reply is all
  -- there is
  by_cases hagain : retry = true ∧ hasAlternate D c (giveBack v c how)
  · obtain ⟨rfl, halternate⟩ := hagain
    obtain ⟨hleft, ho⟩ := hretry.mp rfl
    obtain ⟨u, grant, hretried⟩ : ∃ u grant, retryOrGiveUp D v c true how final =
        beginAttempt D u { c with lease := .granted grant } := retryOrGiveUp_retried halternate
    rw [hretried]
    exact iff_of_false (serve_beginAttempt_ne hleft hbody hR)
      fun h => h.1 ⟨hleft, ho, hspare.mp halternate⟩
  · have hreply : (retryOrGiveUp D v c retry how final).2 = .replied final := by
      refine retryOrGiveUp_reply ?_
      by_cases hr : retry = true
      · exact .inr fun halternate => hagain ⟨hr, halternate⟩
      · exact .inl (Bool.eq_false_iff.mpr hr)
    have hnot : ¬ (attemptsLeft D.cfg c = true ∧ Retryable D.cfg o ∧
        Spare D w c.target.name o) := fun ⟨hleft, ho, hsp⟩ =>
      hagain ⟨hretry.mpr ⟨hleft, ho⟩, hspare.mpr hsp⟩
    rw [show retryOrGiveUp D v c retry how final =
      ((retryOrGiveUp D v c retry how final).1, .replied final) from Prod.ext rfl hreply,
      serve_replied, and_iff_right hnot, Prod.mk.injEq]
    exact and_iff_right rfl

/-- **The buffered attempt** is the only one, and has a result, if and only if it is not
retried and its outcome alone has that result. -/
theorem serve_buffered_iff {answer : Answer} {answers : List Answer} {R : Result}
    (hs : c.pending.classify.stream = false) (hbody : D.unprepared c.pending.oid = none)
    (hR : R ≠ .httpException 503) :
    serve D (answer :: answers) (w, .sending c) = ([c.target.name], R) ↔
      ¬ (attemptsLeft D.cfg c = true ∧ Retryable D.cfg answer.outcome ∧
        Spare D (answer.meanwhile w) c.target.name answer.outcome) ∧
      Result.ofOutcome answer.outcome = R := by
  have hcons : serve D (answer :: answers) (w, .sending c) = ([c.target.name], R) ↔
      serve D answers (resume D w c answer) = ([], R) := by
    rw [serve, Prod.ext_iff, Prod.ext_iff]
    simp
  rw [hcons]
  obtain ⟨outcome, meanwhile, body, draining⟩ := answer
  cases outcome with
  | response status relayable =>
    have hnext : onUpstream D (meanwhile w) c (.response status relayable) =
        onBufferedResponse D (meanwhile w) c status relayable := onUpstream_buffered hs
    rcases lt_or_ge status 400 with hlt | hge
    · -- a success is relayed at once
      rw [onBufferedResponse_of_lt hlt] at hnext
      rw [resume_of_handled hnext (.inr ⟨_, rfl⟩), serve_replied, Result.ofReply_relay,
        and_iff_right fun hall => absurd hall.2.1.1 (not_le.mpr hlt), Prod.mk.injEq]
      exact and_iff_right rfl
    · rw [onBufferedResponse_of_le hge] at hnext
      rw [resume_of_handled hnext handled_retryOrGiveUp, ← Result.ofReply_relay]
      refine serve_retryOrGiveUp_iff beside_accountErrorStatus ?_ hbody hR
      rw [Bool.and_eq_true]
      exact and_congr_right fun _ => (and_iff_right hge).symm
  | failed e =>
    cases he : e.caught with
    | false =>
      have hnext : onUpstream D (meanwhile w) c (.failed e) = onUncaught (meanwhile w) c e :=
        onUpstream_uncaught he
      have hcrashed : Result.ofOutcome (.failed e) = .crashed := by simp [Result.ofOutcome, he]
      have hquiet : ¬ (attemptsLeft D.cfg c = true ∧ Retryable D.cfg (.failed e) ∧
          Spare D (meanwhile w) c.target.name (.failed e)) := fun hall => by
        cases he.symm.trans hall.2.1
      rw [resume_of_handled hnext (.inr ⟨_, rfl⟩), onUncaught, serve_replied, hcrashed,
        and_iff_right hquiet, Prod.mk.injEq]
      exact and_iff_right rfl
    | true =>
      have hnext : onUpstream D (meanwhile w) c (.failed e) =
          onTransportError D (meanwhile w) c e :=
        onUpstream_transportError he hs
      unfold onTransportError at hnext
      rw [resume_of_handled hnext handled_retryOrGiveUp]
      -- what is written down of the failure changes neither target, attempts nor request
      generalize hc' : ({ c with lastError := some e } : ProxyCall).withFailure e = c'
      have htarget : c.target.name = c'.target.name := hc' ▸ rfl
      have hleft : attemptsLeft D.cfg c = attemptsLeft D.cfg c' := hc' ▸ rfl
      have hpending : c.pending = c'.pending := hc' ▸ rfl
      have hfinal : Result.ofReply (.httpException 504 (upstreamUnreachableDetail
          c'.pending.requestId c'.transportAttempts)) = .ofOutcome (.failed e) := by
        simp [Result.ofReply, Result.ofOutcome, he]
      rw [htarget, hleft, ← hfinal]
      exact serve_retryOrGiveUp_iff beside_accountTransportError (and_iff_left he).symm
        (hpending ▸ hbody) hR

/-! ## What an upstream does -/

/-- What the upstream does with an attempt, whichever way it is sent. -/
inductive Served where
  /-- It answers with a status. `body` is the exception that reading the body ends in, if
  any. The three flags tell which texts of a client response encode: the headers of the
  upstream and of the thread, the body with the thread merged in, the event before a stream. -/
  | response (status : ℤ) (body : Option UpstreamError) (headers merged prefixed : Bool)
  /-- Sending the request fails. -/
  | failed (e : UpstreamError)
  deriving DecidableEq, Repr

namespace Served

/-- What the awaited `post` ends with. It reads the whole body. -/
def buffered : Served → Upstream
  | .response _ (some e) _ _ _ => .failed e
  | .response status none headers merged _ =>
    -- nothing is merged into the body of an error
    .response status (if status < 400 then headers && merged else headers)
  | .failed e => .failed e

/-- What the streaming `send` ends with. It reads the headers. -/
def streamed : Served → Upstream
  | .response status _ headers _ prefixed =>
    .response status (if status < 400 then headers && prefixed else headers)
  | .failed e => .failed e

/-- How `aread` ends, if the status is an error. -/
def drained : Served → BodyRead
  | .response _ (some e) _ _ _ => .failed e
  | .response _ none headers _ _ => .read headers
  | .failed e => .failed e

/-- The timeout or connect error that reading the body of an error status ends in. -/
def unread : Served → Option UpstreamError
  | .response status (some e) _ _ _ => if 400 ≤ status ∧ e.caught = true then some e else none
  | _ => none

/-- A success is of the same kind either way: its body can be read, and unless its headers do
not encode, either both the merged body and the event do or neither does. (Where the body
cannot be read for an exception that is not caught, both calls crash if the streamed response
cannot be built.) -/
def SameKind : Served → Prop
  | .response status none headers merged prefixed =>
    status < 400 → headers = true → merged = prefixed
  | .response status (some e) headers _ prefixed =>
    status < 400 → (headers && prefixed) = false ∧ e.caught = false
  | .failed _ => True

end Served

/-- One attempt: what the upstream does with it, and what other tasks do until the headers
are there, and from then until the body is. -/
structure Turn where
  served : Served
  meanwhile : World → World
  draining : World → World

namespace Turn

/-- The turn as a buffered call meets it. -/
def buffered (t : Turn) : Answer where
  outcome := t.served.buffered
  meanwhile w := t.draining (t.meanwhile w)
  body := t.served.drained
  draining := id

/-- The turn as a streamed call meets it. -/
def streamed (t : Turn) : Answer where
  outcome := t.served.streamed
  meanwhile := t.meanwhile
  body := t.served.drained
  draining := t.draining

end Turn

/-! ## The streamed attempt -/

/-- What becomes of a streamed attempt that is not retried. -/
def Result.ofStreamed : Served → Result
  | .response status (some e) headers _ prefixed =>
    if status < 400 then .ofOutcome (.response status (headers && prefixed))
    else .ofOutcome (.failed e)
  | served => .ofOutcome served.streamed

/-- What becomes of it is what becomes of the buffered attempt, if and only if the answer is
of the same kind either way. -/
theorem ofStreamed_eq_iff {served : Served} (h : served.unread = none) :
    Result.ofOutcome served.buffered = .ofStreamed served ↔ served.SameKind := by
  cases served with
  | failed e => exact iff_of_true rfl trivial
  | response status body headers merged prefixed =>
    -- the two kinds part over a success; an error status is relayed by both
    rcases lt_or_ge status 400 with hlt | hge
    · cases body with
      | none =>
        simp only [Served.buffered, Result.ofStreamed, Served.streamed, Served.SameKind, if_pos hlt]
        cases headers <;> cases merged <;> cases prefixed <;> simp [Result.ofOutcome, hlt]
      | some e =>
        simp only [Served.buffered, Result.ofStreamed, Served.SameKind, if_pos hlt]
        cases headers <;> cases prefixed <;> cases he : e.caught <;>
          simp [Result.ofOutcome, he, hlt]
    · refine iff_of_true ?_ ?_
      · cases body with
        | none =>
          simp only [Served.buffered, Result.ofStreamed, Served.streamed,
            if_neg (not_lt.mpr hge)]
        | some e =>
          simp only [Served.buffered, Result.ofStreamed, if_neg (not_lt.mpr hge)]
      · cases body with
        | none => exact fun hlt => absurd hlt (not_lt.mpr hge)
        | some e => exact fun hlt => absurd hlt (not_lt.mpr hge)

theorem ofStreamed_ne {served : Served} : Result.ofStreamed served ≠ .httpException 503 := by
  unfold Result.ofStreamed
  split
  · split
    · exact Result.ofOutcome_ne
    · exact Result.ofOutcome_ne
  · exact Result.ofOutcome_ne

/-- **The streamed attempt** is the only one, unless the body of an error status cannot be
read for a timeout or connect error. -/
theorem serve_streamed {t : Turn} {answers : List Answer}
    (hs : c.pending.classify.stream = true) (hread : t.served.unread = none) :
    serve D (t.streamed :: answers) (w, .sending c) = ([c.target.name], .ofStreamed t.served) := by
  obtain ⟨served, meanwhile, draining⟩ := t
  -- what the streamed call sees first is the headers, or that there are none
  cases served with
  | response status body headers merged prefixed =>
    simp only [serve, resume, Turn.streamed, Served.streamed, onUpstream_headers hs]
    rcases lt_or_ge status 400 with hlt | hge
    · have hresult : Result.ofStreamed (.response status body headers merged prefixed) =
          .ofOutcome (.response status (headers && prefixed)) := by
        cases body <;> simp [Result.ofStreamed, Served.streamed, hlt]
      simp only [onStreamHeaders_of_lt hlt, if_pos hlt, hresult]
      cases headers && prefixed with
      | true => simp [Result.ofReply, Result.ofOutcome]
      | false => simp [Result.ofReply, relay, Result.ofOutcome]
    · simp only [onStreamHeaders_of_le hge]
      cases body with
      | none =>
        simp only [Served.drained, onDrained, serve_replied, Result.ofReply_relay]
        simp [Result.ofStreamed, Served.streamed, not_lt.mpr hge]
      | some e =>
        -- a body that is lost to a transport error would count as unread
        have he : e.caught = false := by
          by_contra hne
          have hcaught : e.caught = true := Bool.eq_true_of_not_eq_false hne
          simp [Served.unread, hge, hcaught] at hread
        simp only [Served.drained, onDrained_uncaught he, onUncaught, serve_replied]
        simp [Result.ofReply, Result.ofStreamed, Result.ofOutcome, he, not_lt.mpr hge]
  | failed e =>
    cases he : e.caught with
    | false =>
      simp only [serve, resume, Turn.streamed, Served.streamed, onUpstream_uncaught he, onUncaught,
        serve_replied]
      simp [Result.ofReply, Result.ofStreamed, Served.streamed, Result.ofOutcome, he]
    | true =>
      simp only [serve, resume, Turn.streamed, Served.streamed, onUpstream_streamError he hs,
        onStreamSendError, serve_replied]
      simp [Result.ofReply, Result.ofStreamed, Served.streamed, Result.ofOutcome, he]

/-! ## A body that cannot be read -/

/-- The backend an attempt is retried on that failed for a timeout or connect error, if
attempts are left and the search made after the accounting of the failure finds one. -/
def alternate (D : Deployment) (w : World) (c : ProxyCall) : Option String :=
  if attemptsLeft D.cfg c then
    (search D.cfg (giveBack (accountTransportError D w c) c .failure) c.reqClass
      c.target.name).2
  else none

/-- The `except` clause replies 504 where there is no alternate, and otherwise begins the next
attempt on it. -/
theorem onTransportError_cases (D : Deployment) (w : World) (c : ProxyCall) (e : UpstreamError) :
    (alternate D w c = none ∧
      ∃ detail, (onTransportError D w c e).2 = .replied (.httpException 504 detail)) ∨
    ∃ grant v c', alternate D w c = some grant.target.name ∧ attemptsLeft D.cfg c = true ∧
      c'.pending = c.pending ∧ c'.attempts = c.attempts ∧ c'.lease = .granted grant ∧
      onTransportError D w c e = beginAttempt D v c' := by
  unfold onTransportError
  -- what is written down of the failure changes neither target, attempts nor request
  generalize hc' : ({ c with lastError := some e } : ProxyCall).withFailure e = c'
  obtain ⟨hpending, hattempts, hlease⟩ :
      c'.pending = c.pending ∧ c'.attempts = c.attempts ∧ c'.lease = c.lease :=
    hc' ▸ ⟨rfl, rfl, rfl⟩
  have hleft : attemptsLeft D.cfg c = attemptsLeft D.cfg c' := by
    unfold attemptsLeft
    rw [hattempts]
  have hfound : alternate D w c = alternate D w c' := hc' ▸ rfl
  dsimp only
  rw [hfound, hleft]
  unfold alternate
  rcases retryOrGiveUp_cases D (accountTransportError D w c') c' (attemptsLeft D.cfg c') .failure
      (.httpException 504 (upstreamUnreachableDetail c'.pending.requestId c'.transportAttempts))
    with ⟨hnone, heq⟩ | ⟨hmore, hpick, heq⟩ | ⟨hmore, grant, hpick, heq⟩
  · rw [heq, hnone]
    exact .inl ⟨rfl, _, rfl⟩
  · refine .inl ⟨?_, _, by rw [heq]⟩
    rw [if_pos hmore]
    rcases pickRetryTarget_cases D.cfg (giveBack (accountTransportError D w c') c' .failure)
        c'.reqClass c'.target.name with ⟨hfound, -⟩ | ⟨b, -, hsome⟩
    · exact hfound
    · rw [hsome] at hpick
      cases hpick
  · refine .inr ⟨grant, _, { c' with lease := .granted grant }, ?_, hmore, hpending, hattempts, rfl,
      heq⟩
    rw [if_pos hmore]
    rcases pickRetryTarget_cases D.cfg (giveBack (accountTransportError D w c') c' .failure)
        c'.reqClass c'.target.name with ⟨-, hnone⟩ | ⟨b, hfound, hsome⟩
    · rw [hnone] at hpick
      cases hpick
    · rw [hsome] at hpick
      cases hpick
      exact hfound

/-! ## Both calls -/

/-- The request as it would be, had its body asked for a stream or not. -/
def withStream (p : PendingRequest) (stream : Bool) : PendingRequest :=
  { p with classify := { p.classify with stream := stream } }

/-- The two calls stay alike, the streamed one first. An attempt whose error body cannot be
read is a transport error of both, and both find the same alternate, or none. Any other
attempt is the last of the streamed call; then it is not retried by the buffered one, and its
answer is of the same kind either way. -/
def Alike (D : Deployment) : List Turn → World × Handler → World × Handler → Prop
  | t :: ts, (w, .sending c), (w', .sending c') =>
    match t.served.unread with
    | some e =>
      alternate D (t.draining (t.meanwhile w).readClock) c =
          alternate D (t.draining (t.meanwhile w')) c' ∧
        Alike D ts (onTransportError D (t.draining (t.meanwhile w).readClock) c e)
          (onTransportError D (t.draining (t.meanwhile w')) c' e)
    | none =>
      t.served.SameKind ∧ ¬ (attemptsLeft D.cfg c' = true ∧ Retryable D.cfg t.served.buffered ∧
        Spare D (t.draining (t.meanwhile w')) c'.target.name t.served.buffered)
  | _, _, _ => True

/-- The answer of either kind to an attempt whose error body cannot be read leads to the
`except` clause of `proxy_chat_completion`. -/
theorem resume_unread {t : Turn} {e : UpstreamError} (hread : t.served.unread = some e) :
    (c.pending.classify.stream = true → resume D w c t.streamed =
      onTransportError D (t.draining (t.meanwhile w).readClock) c e) ∧
    (c.pending.classify.stream = false → resume D w c t.buffered =
      onTransportError D (t.draining (t.meanwhile w)) c e) := by
  obtain ⟨served, meanwhile, draining⟩ := t
  cases served with
  | failed e' => cases hread
  | response status body headers merged prefixed =>
    cases body with
    | none => cases hread
    | some e' =>
      simp only [Served.unread] at hread
      split at hread
      · next hboth =>
        obtain rfl : e' = e := Option.some.inj hread
        -- the streamed call hears of it while it drains the body, the buffered one from the
        -- `post`
        refine ⟨fun hs => ?_, fun hs => ?_⟩
        · simp only [resume, Turn.streamed, Served.streamed, onUpstream_headers hs,
            onStreamHeaders_of_le hboth.1, Served.drained, onDrained_transportError hboth.2]
        · have hnext : onUpstream D (draining (meanwhile w)) c (.failed e') =
              onTransportError D (draining (meanwhile w)) c e' :=
            onUpstream_transportError hboth.2 hs
          refine resume_of_handled hnext ?_
          unfold onTransportError
          exact handled_retryOrGiveUp
      · cases hread

/-- A streamed and a buffered call of one request, at the same attempt. -/
structure SameCall (D : Deployment) (c c' : ProxyCall) : Prop where
  streamed : c.pending.classify.stream = true
  buffered : c'.pending.classify.stream = false
  oid : c.pending.oid = c'.pending.oid
  attempts : c.attempts = c'.attempts
  prepared : D.unprepared c.pending.oid = none

/-- A call that has replied is served. -/
theorem serve_of_replied {answers : List Answer} {next : World × Handler} {reply : Reply}
    (h : next.2 = .replied reply) : serve D answers next = ([], .ofReply reply) := by
  obtain ⟨v, handler⟩ := next
  cases h
  exact serve_replied

theorem alike_of_replied {ts : List Turn} {next next' : World × Handler} {reply : Reply}
    (h : next.2 = .replied reply) : Alike D ts next next' := by
  obtain ⟨v, handler⟩ := next
  cases h
  cases ts <;> trivial

/-- The backend an attempt is sent to is contacted first. -/
theorem head_serve {answers : List Answer} :
    (serve D answers (w, .sending c)).1.head? = some c.target.name := by
  cases answers <;> rfl

/-- A target is taken for the fallback provider by its name. -/
theorem isOpenaiFallback_congr {t t' : BackendTarget} (h : t.name = t'.name) :
    isOpenaiFallback D.cfg t = isOpenaiFallback D.cfg t' := by
  unfold isOpenaiFallback
  rw [h]

/-- Both calls begin their next attempt. Whether it is sent depends on the name of its target,
and so they go on alike if the names agree and what follows is alike. -/
theorem serve_beginAttempt_iff {ts : List Turn} {c' : ProxyCall} {w' : World}
    (h : SameCall D c c') (hleft : attemptsLeft D.cfg c = true)
    (ih : ∀ {v v' : World} {c₁ c₁' : ProxyCall}, SameCall D c₁ c₁' →
      c₁.target.name = c₁'.target.name →
      (serve D (ts.map Turn.streamed) (v, .sending c₁) =
          serve D (ts.map Turn.buffered) (v', .sending c₁') ↔
        Alike D ts (v, .sending c₁) (v', .sending c₁'))) :
    serve D (ts.map Turn.streamed) (beginAttempt D w c) =
        serve D (ts.map Turn.buffered) (beginAttempt D w' c') ↔
      c.target.name = c'.target.name ∧ Alike D ts (beginAttempt D w c) (beginAttempt D w' c') := by
  have hleft' : attemptsLeft D.cfg c' = true := by
    unfold attemptsLeft at hleft ⊢
    rwa [← h.attempts]
  have hbody' : D.unprepared c'.pending.oid = none := h.oid ▸ h.prepared
  rcases beginAttempt_prepared (w := w) hleft h.prepared with
    ⟨hkey, u, τ, hsent⟩ | ⟨hkey, detail, hraised⟩
  · rcases beginAttempt_prepared (w := w') hleft' hbody' with
      ⟨-, u', τ', hsent'⟩ | ⟨hkey', detail', hraised'⟩
    · -- both are sent
      rw [hsent, hsent']
      by_cases hname : c.target.name = c'.target.name
      · rw [and_iff_right hname]
        exact ih ⟨h.streamed, h.buffered, h.oid, congrArg (· + 1) h.attempts, h.prepared⟩ hname
      · refine iff_of_false (fun heq => hname ?_) fun hall => hname hall.1
        have hheads := congrArg (fun r => r.1.head?) heq
        simp only [head_serve, Option.some.injEq] at hheads
        exact hheads
    · refine iff_of_false ?_ fun hall => ?_
      -- one call sends and the other replies, so what they contact differs
      · rw [hsent, serve_of_replied hraised']
        intro heq
        have hheads := congrArg (fun r => r.1.head?) heq
        simp only [head_serve] at hheads
        cases hheads
      · rw [isOpenaiFallback_congr hall.1] at hkey
        cases hkey.symm.trans hkey'
  · rcases beginAttempt_prepared (w := w') hleft' hbody' with
      ⟨hkey', u', τ', hsent'⟩ | ⟨hkey', detail', hraised'⟩
    · refine iff_of_false ?_ fun hall => ?_
      -- and the other way round
      · rw [hsent', serve_of_replied hraised]
        intro heq
        have hheads := congrArg (fun r => r.1.head?) heq
        simp only [head_serve] at hheads
        cases hheads
      · rw [isOpenaiFallback_congr hall.1] at hkey
        cases hkey.symm.trans hkey'
    · -- both targets bear the name of the fallback provider
      have hname : ∀ {t : BackendTarget}, (isOpenaiFallback D.cfg t && missingApiKey D) = true →
          t.name = D.cfg.openaiFallback.backendName := fun ht => by
        rw [Bool.and_eq_true, isOpenaiFallback, Bool.and_eq_true] at ht
        exact of_decide_eq_true ht.1.2
      refine iff_of_true ?_ ⟨(hname hkey).trans (hname hkey').symm, alike_of_replied hraised⟩
      rw [serve_of_replied hraised, serve_of_replied hraised']
      rfl

/-- What the `except` clause leads to is alike if and only if both searches find the same
backend, or none, and what follows is alike. -/
theorem serve_onTransportError_iff {ts : List Turn} {c' : ProxyCall} {w' : World}
    {e : UpstreamError} (h : SameCall D c c')
    (ih : ∀ {v v' : World} {c₁ c₁' : ProxyCall}, SameCall D c₁ c₁' →
      c₁.target.name = c₁'.target.name →
      (serve D (ts.map Turn.streamed) (v, .sending c₁) =
          serve D (ts.map Turn.buffered) (v', .sending c₁') ↔
        Alike D ts (v, .sending c₁) (v', .sending c₁'))) :
    serve D (ts.map Turn.streamed) (onTransportError D w c e) =
        serve D (ts.map Turn.buffered) (onTransportError D w' c' e) ↔
      alternate D w c = alternate D w' c' ∧
        Alike D ts (onTransportError D w c e) (onTransportError D w' c' e) := by
  have hleft_of : ∀ {x y : ProxyCall}, y.attempts = x.attempts → attemptsLeft D.cfg x = true →
      attemptsLeft D.cfg y = true := fun hn hx => by
    unfold attemptsLeft at hx ⊢
    rwa [hn]
  rcases onTransportError_cases D w c e with
    ⟨hnone, d, hreply⟩ | ⟨grant, v, c₁, hsome, hleft, hp, hn, hl, hnext⟩
  · rcases onTransportError_cases D w' c' e with
      ⟨hnone', d', hreply'⟩ | ⟨grant', v', c₁', hsome', hleft', hp', hn', hl', hnext'⟩
    · -- neither call finds an alternate, and both reply 504
      refine iff_of_true ?_ ⟨hnone.trans hnone'.symm, alike_of_replied hreply⟩
      rw [serve_of_replied hreply, serve_of_replied hreply']
      rfl
    -- only the second call finds one, and contacts it
    · refine iff_of_false (fun heq => ?_) fun hall => by
        cases hnone.symm.trans (hall.1.trans hsome')
      rw [serve_of_replied hreply, hnext'] at heq
      refine serve_beginAttempt_ne (hleft_of hn' hleft') ?_ ?_ heq.symm
      · rw [hp', ← h.oid]
        exact h.prepared
      · simp [Result.ofReply]
  · have hbody : D.unprepared c₁.pending.oid = none := by
      rw [hp]
      exact h.prepared
    rcases onTransportError_cases D w' c' e with
      ⟨hnone', d', hreply'⟩ | ⟨grant', v', c₁', hsome', hleft', hp', hn', hl', hnext'⟩
    · refine iff_of_false (fun heq => ?_) fun hall => by
        cases hnone'.symm.trans (hall.1.symm.trans hsome)
      rw [serve_of_replied hreply', hnext] at heq
      exact serve_beginAttempt_ne (hleft_of hn hleft) hbody (by simp [Result.ofReply]) heq
    -- both go on, to the same backend if they go on alike
    · have hsame : SameCall D c₁ c₁' :=
        { streamed := by rw [hp]; exact h.streamed
          buffered := by rw [hp']; exact h.buffered
          oid := by rw [hp, hp']; exact h.oid
          attempts := by rw [hn, hn', h.attempts]
          prepared := hbody }
      have htarget : c₁.target.name = grant.target.name := by
        rw [ProxyCall.target, hl]
        rfl
      have htarget' : c₁'.target.name = grant'.target.name := by
        rw [ProxyCall.target, hl']
        rfl
      rw [hnext, hnext', hsome, hsome', Option.some.injEq, ← htarget, ← htarget']
      exact serve_beginAttempt_iff hsame (hleft_of hn hleft) ih

/-- **Two calls.** On the same turns, the streamed and the buffered call contact the same
backends and end alike if and only if they stay alike. -/
theorem serve_eq_iff {c' : ProxyCall} {w' : World} {ts : List Turn} (h : SameCall D c c')
    (hname : c.target.name = c'.target.name) :
    serve D (ts.map Turn.streamed) (w, .sending c) =
        serve D (ts.map Turn.buffered) (w', .sending c') ↔
      Alike D ts (w, .sending c) (w', .sending c') := by
  induction ts generalizing w w' c c' with
  | nil =>
    refine iff_of_true ?_ trivial
    rw [List.map_nil, List.map_nil, serve, serve, hname]
  | cons t ts ih =>
    rw [List.map_cons, List.map_cons]
    cases hread : t.served.unread with
    | none =>
      -- the last attempt of the streamed call
      have halike : Alike D (t :: ts) (w, .sending c) (w', .sending c') ↔ t.served.SameKind ∧
          ¬ (attemptsLeft D.cfg c' = true ∧ Retryable D.cfg t.served.buffered ∧
            Spare D (t.draining (t.meanwhile w')) c'.target.name t.served.buffered) := by
        simp only [Alike, hread]
      rw [serve_streamed h.streamed hread, hname, eq_comm,
        serve_buffered_iff h.buffered (h.oid ▸ h.prepared) ofStreamed_ne, halike, and_comm]
      exact and_congr_left fun _ => ofStreamed_eq_iff hread
    | some e =>
      have halike : Alike D (t :: ts) (w, .sending c) (w', .sending c') ↔
          alternate D (t.draining (t.meanwhile w).readClock) c =
              alternate D (t.draining (t.meanwhile w')) c' ∧
            Alike D ts (onTransportError D (t.draining (t.meanwhile w).readClock) c e)
              (onTransportError D (t.draining (t.meanwhile w')) c' e) := by
        simp only [Alike, hread]
      have hcons : serve D (t.streamed :: ts.map Turn.streamed) (w, .sending c) =
          serve D (t.buffered :: ts.map Turn.buffered) (w', .sending c') ↔
          serve D (ts.map Turn.streamed)
              (onTransportError D (t.draining (t.meanwhile w).readClock) c e) =
            serve D (ts.map Turn.buffered)
              (onTransportError D (t.draining (t.meanwhile w')) c' e) := by
        rw [serve, serve, (resume_unread hread).1 h.streamed, (resume_unread hread).2 h.buffered,
          hname, Prod.ext_iff, Prod.ext_iff]
        simp
      rw [hcons, halike]
      exact serve_onTransportError_iff h ih

/-- How a call begins: it is answered before anything is sent, the same way whether it is
streamed or not, or both send their first attempt to the same target. -/
theorem start_sameCall (D : Deployment) (w : World) (p : PendingRequest) (initial : Lease) :
    (∃ reply, (start D w (withStream p true) initial).2 = .replied reply ∧
      (start D w (withStream p false) initial).2 = .replied reply) ∨
    ∃ v c v' c', start D w (withStream p true) initial = (v, .sending c) ∧
      start D w (withStream p false) initial = (v', .sending c') ∧ SameCall D c c' ∧
      c.target.name = c'.target.name := by
  unfold start beginAttempt
  by_cases hmax : 0 < D.cfg.retry.maxAttempts
  · simp only [Nat.cast_zero, hmax, if_true, ProxyCall.target]
    -- preparing a request looks at the body, which is the same for both
    have hsame : prepareTargetRequest D initial.target (withStream p true) =
        prepareTargetRequest D initial.target (withStream p false) := rfl
    cases hreply : prepareTargetRequest D initial.target (withStream p false) with
    | some reply =>
      simp only [hsame, hreply]
      exact .inl ⟨reply, rfl, rfl⟩
    | none =>
      have hprepared := (prepareTargetRequest_eq_none_iff.mp hreply).1
      simp only [hsame, hreply]
      exact .inr ⟨_, _, _, _, rfl, rfl, ⟨rfl, rfl, rfl, rfl, hprepared⟩, rfl⟩
  · simp only [Nat.cast_zero, hmax, if_false]
    exact .inl ⟨_, rfl, rfl⟩

/-- **Retry agreement.** Whatever the upstreams answer and other tasks do meanwhile, the
streamed and the buffered call of one request contact the same backends in the same order and
end in the same kind of result if and only if they stay alike. -/
theorem retries_agree_iff (D : Deployment) (ts : List Turn) (w : World) (p : PendingRequest)
    (initial : Lease) :
    serveFrom D (ts.map Turn.streamed) w (withStream p true) initial =
        serveFrom D (ts.map Turn.buffered) w (withStream p false) initial ↔
      Alike D ts (start D w (withStream p true) initial)
        (start D w (withStream p false) initial) := by
  unfold serveFrom
  rcases start_sameCall D w p initial with
    ⟨reply, hreply, hreply'⟩ | ⟨v, c, v', c', hstart, hstart', hsame, hname⟩
  · refine iff_of_true ?_ (alike_of_replied hreply)
    rw [serve_of_replied hreply, serve_of_replied hreply']
  · rw [hstart, hstart']
    exact serve_eq_iff hsame hname

/-- The first attempt times out, the next one would be answered. -/
def stumbling : List Turn :=
  [⟨.failed (.timeout "read timed out"), id, id⟩, ⟨.response 200 none true true true, id, id⟩]

/-- The first request, granted the first backend. -/
def firstCall (answers : List Answer) (stream : Bool) : List String × Result :=
  let (w, grant) := (Gateway.init pair Gateway.still).world.takeSlot "gpu-node-1" .smallChat
  let p := (Gateway.init pair Gateway.still).newRequest (Gateway.chat false)
  serveFrom pair answers w (withStream p stream) (.granted grant)

/-- Buffered, the request is served by the other backend; streamed, it fails. -/
theorem retries_disagree :
    firstCall (stumbling.map Turn.buffered) false = (["gpu-node-1", "gpu-node-2"], .relayed 200) ∧
    firstCall (stumbling.map Turn.streamed) true = (["gpu-node-1"], .httpException 504) := by
  decide +kernel

/-- An error status whose body cannot be read is retried by both calls. -/
example :
    firstCall ([⟨.response 503 (some (.timeout "read timed out")) true true true, id, id⟩,
      ⟨.response 200 none true true true, id, id⟩].map Turn.streamed) true =
        (["gpu-node-1", "gpu-node-2"], .relayed 200) := by
  decide +kernel

end Proxy

end InferenceGateway
