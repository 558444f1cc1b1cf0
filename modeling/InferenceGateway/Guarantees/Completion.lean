import InferenceGateway.Guarantees.Resends
import InferenceGateway.Lib.Ranking

/-!
# Completion

A request takes finitely many steps. Its handler has a rank, which counts the
steps the handler can still take: every step of its own lowers it, and no step
of another task touches it. The one loop of a handler is that of its attempts,
and an attempt that fails leaves fewer of them.

- `rank_of_steps`, `handler_of_steps`: the two halves of that, for every step.
  With them the ranks are a `Ranking` of the machine, and the rules for ranked
  tasks apply.
- `own_steps_le`: in every run a request has taken at most `2 * max_attempts +
  4` steps, whatever the scheduler, the other requests and the upstreams did in
  between.
- `sends_le`: at most `max_attempts` of them sent it upstream. The handler
  counts its attempts and the log its sends; a step keeps the two together
  (`counted_of_steps`).
- `runs_dry`: every reachable state leads, without further arrivals, to one in
  which every request is answered.
- `every_request_ends`: in an infinite run in which no task starves, every
  request that arrives is answered in the end.
-/

namespace InferenceGateway

open Lib

namespace Handler

/-- The request has been answered, or its stream is over. -/
def finished : Handler → Bool
  | .streamed _ | .replied _ => true
  | _ => false

/-- How many steps the handler can still take, if at most `m` attempts are made. -/
def rank (m : ℕ) : Handler → ℕ
  | .absent => 2 * m + 4
  | .waiting _ => 2 * m + 3
  | .expired _ => 2 * m + 2
  -- an attempt whose error body fails to arrive can be followed by another one
  | .sending c => 2 * (m - c.attempts) + 3
  | .draining c _ => 2 * (m - c.attempts) + 2
  | .relaying _ none => 2
  | .relaying _ (some _) => 1
  | .streamed _ | .replied _ => 0

/-- No handler has more steps to take than the first one of a request. -/
theorem rank_le (h : Handler) (m : ℕ) : h.rank m ≤ 2 * m + 4 := by
  cases h with
  | relaying c startedAt => cases startedAt <;> simp only [rank] <;> omega
  | absent => exact le_refl _
  | _ => simp only [rank]; omega

/-- What is kept of a request that has been sent `n` times, if at most `m` attempts are made. -/
def Counted (m n : ℕ) : Handler → Prop
  | .absent | .waiting _ | .expired _ => n = 0
  | .sending c | .draining c _ => n = c.attempts ∧ n ≤ m
  | _ => n ≤ m

theorem Counted.le {m n : ℕ} {h : Handler} (hc : h.Counted m n) : n ≤ m := by
  cases h with
  | absent | waiting p | expired p =>
    have hzero : n = 0 := hc
    rw [hzero]
    exact Nat.zero_le m
  | sending c | draining c status => exact hc.2
  | _ => exact hc

end Handler

/-- The most attempts a call makes. -/
def GatewayConfig.attemptBound (cfg : GatewayConfig) : ℕ := cfg.retry.maxAttempts.toNat

namespace Proxy

variable {D : Deployment} {w : World} {c : ProxyCall} {status : ℤ}

/-- The next attempt of a call is sent only if one is left, so that the rank of the
handler goes down with every attempt. -/
theorem rank_beginAttempt :
    (beginAttempt D w c).2.rank D.cfg.attemptBound ≤ 2 * (D.cfg.attemptBound - c.attempts) + 1 := by
  unfold beginAttempt
  -- another attempt costs one of the bound, and a reply ends it all
  by_cases hleft : (c.attempts : ℤ) < D.cfg.retry.maxAttempts
  · rw [if_pos hleft]
    have hlt : c.attempts < D.cfg.attemptBound := by
      unfold GatewayConfig.attemptBound
      omega
    cases hreply : prepareTargetRequest D c.target c.pending with
    | some reply =>
      simp only [hreply]
      exact Nat.zero_le _
    | none =>
      simp only [hreply, Handler.rank]
      omega
  · rw [if_neg hleft]
    exact Nat.zero_le _

/-- A call that begins has all its attempts left. -/
theorem rank_start {p : PendingRequest} {initial : Lease} :
    (start D w p initial).2.rank D.cfg.attemptBound ≤ 2 * D.cfg.attemptBound + 1 :=
  rank_beginAttempt

/-- A failed attempt leaves the steps of the other attempts. -/
theorem rank_retryOrGiveUp {retry : Bool} {how : Ending} {final : Reply} :
    (retryOrGiveUp D w c retry how final).2.rank D.cfg.attemptBound ≤
      2 * (D.cfg.attemptBound - c.attempts) + 1 := by
  rcases retryOrGiveUp_cases D w c retry how final with
    ⟨-, h⟩ | ⟨-, -, h⟩ | ⟨-, grant, -, h⟩ <;> rw [h]
  · exact Nat.zero_le _
  · exact Nat.zero_le _
  · exact rank_beginAttempt

theorem rank_onTransportError {e : UpstreamError} :
    (onTransportError D w c e).2.rank D.cfg.attemptBound ≤
      2 * (D.cfg.attemptBound - c.attempts) + 1 := by
  unfold onTransportError
  -- what is written down of the failure does not change the attempts made
  generalize hc' : ({ c with lastError := some e } : ProxyCall).withFailure e = c'
  have hattempts : c.attempts = c'.attempts := hc' ▸ rfl
  rw [hattempts]
  exact rank_retryOrGiveUp

/-- Whatever came of `send`, the handler has fewer steps left. -/
theorem rank_onUpstream {o : Upstream} :
    (onUpstream D w c o).2.rank D.cfg.attemptBound <
      (Handler.sending c).rank D.cfg.attemptBound := by
  generalize hnext : onUpstream D w c o = next
  cases upstreams_of_eq hnext with
  | answered hs hlt => exact Nat.succ_pos _
  | refused hs hge => exact Nat.lt_of_le_of_lt rank_retryOrGiveUp (by simp [Handler.rank])
  | relayed hs hlt => simp [Handler.rank]
  | unrelayable hs hlt => exact Nat.succ_pos _
  | drained hs hge => simp [Handler.rank]
  | uncaught he => exact Nat.succ_pos _
  | streamError hs he => exact Nat.succ_pos _
  | transportError hs he => exact Nat.lt_of_le_of_lt rank_onTransportError (by simp [Handler.rank])

/-- Whatever came of reading the body, the handler has fewer steps left. -/
theorem rank_onDrained {o : BodyRead} :
    (onDrained D w c status o).2.rank D.cfg.attemptBound <
      (Handler.draining c status).rank D.cfg.attemptBound := by
  generalize hnext : onDrained D w c status o = next
  cases drains_of_eq hnext with
  | read => exact Nat.succ_pos _
  | uncaught he => exact Nat.succ_pos _
  | transportError he => exact Nat.lt_of_le_of_lt rank_onTransportError (by simp [Handler.rank])

/-! ## What an attempt adds to the sends -/

section Counted

variable {n : ℕ} {m : ℕ}

/-- The handler that the proxy arrives at keeps the count, the send it makes included. -/
def KeepsCount (m n : ℕ) (next : World × Handler) : Prop :=
  next.2.Counted m (n + next.2.sends.toNat)

theorem keepsCount_of_replied {next : World × Handler} {reply : Reply} (hn : n ≤ m)
    (h : next.2 = .replied reply) : KeepsCount m n next := by
  unfold KeepsCount
  rw [h]
  exact hn

/-- An attempt that begins is counted, and sent unless it cannot be prepared. -/
theorem keepsCount_beginAttempt (hn : n = c.attempts) (hle : n ≤ D.cfg.attemptBound) :
    KeepsCount D.cfg.attemptBound n (beginAttempt D w c) := by
  by_cases hleft : (c.attempts : ℤ) < D.cfg.retry.maxAttempts
  · have hlt : c.attempts < D.cfg.attemptBound := by
      unfold GatewayConfig.attemptBound
      omega
    -- a request that cannot be prepared is a reply, and the attempt was never counted
    cases hreply : prepareTargetRequest D c.target c.pending with
    | some reply =>
      have hnext : (beginAttempt D w c).2 = .replied reply := by
        simp only [beginAttempt, if_pos hleft, hreply]
      exact keepsCount_of_replied hle hnext
    | none =>
      simp only [KeepsCount, beginAttempt, if_pos hleft, hreply]
      exact ⟨congrArg Nat.succ hn, hn ▸ hlt⟩
  · unfold beginAttempt
    rw [if_neg hleft]
    exact hle

/-- A call begins with nothing sent. -/
theorem keepsCount_start {p : PendingRequest} {initial : Lease} :
    KeepsCount D.cfg.attemptBound 0 (start D w p initial) :=
  keepsCount_beginAttempt rfl (Nat.zero_le _)

theorem keepsCount_retryOrGiveUp {retry : Bool} {how : Ending} {final : Reply}
    (hn : n = c.attempts) (hle : n ≤ D.cfg.attemptBound) :
    KeepsCount D.cfg.attemptBound n (retryOrGiveUp D w c retry how final) := by
  rcases retryOrGiveUp_cases D w c retry how final with
    ⟨-, h⟩ | ⟨-, -, h⟩ | ⟨-, grant, -, h⟩ <;> rw [h]
  · exact hle
  · exact hle
  · exact keepsCount_beginAttempt (c := { c with lease := .granted grant }) hn hle

theorem keepsCount_onTransportError {e : UpstreamError} (hn : n = c.attempts)
    (hle : n ≤ D.cfg.attemptBound) :
    KeepsCount D.cfg.attemptBound n (onTransportError D w c e) := by
  -- what is written down of the failure is not counted
  have hn' : n = (({ c with lastError := some e } : ProxyCall).withFailure e).attempts := hn
  unfold onTransportError
  exact keepsCount_retryOrGiveUp hn' hle

theorem keepsCount_onUpstream {o : Upstream}
    (h : (Handler.sending c).Counted D.cfg.attemptBound n) :
    KeepsCount D.cfg.attemptBound n (onUpstream D w c o) := by
  obtain ⟨hn, hle⟩ := h
  generalize hnext : onUpstream D w c o = next
  cases upstreams_of_eq hnext with
  | refused hs hge => exact keepsCount_retryOrGiveUp hn hle
  | drained hs hge => exact ⟨hn, hle⟩
  | transportError hs he => exact keepsCount_onTransportError hn hle
  | _ => exact hle

theorem keepsCount_onDrained {o : BodyRead}
    (h : (Handler.draining c status).Counted D.cfg.attemptBound n) :
    KeepsCount D.cfg.attemptBound n (onDrained D w c status o) := by
  obtain ⟨hn, hle⟩ := h
  generalize hnext : onDrained D w c status o = next
  cases drains_of_eq hnext with
  | transportError he => exact keepsCount_onTransportError hn hle
  | _ => exact hle

theorem keepsCount_onStreamEnd {startedAt : ℚ} {acloseRaises : Bool} (hn : n ≤ m) :
    KeepsCount m n (onStreamEnd w c startedAt acloseRaises) := by
  cases acloseRaises <;> exact hn

end Counted

end Proxy

namespace Gateway

variable {D : Deployment} {g g' : Gateway} {a : Action} {r : ReqId}

/-- The request has arrived and is not answered yet. -/
def Busy (g : Gateway) (r : ReqId) : Prop := r < g.arrived ∧ (g.handler r).finished = false

/-- A request that is turned away may still be served by the fallback provider. -/
theorem rank_fallbackOrReject {w : World} {p : PendingRequest} {reason : RejectionReason}
    {message : Option String} :
    (fallbackOrReject D w p reason message).2.rank D.cfg.attemptBound ≤
      2 * D.cfg.attemptBound + 1 :=
  fallbackOrReject_rule (P := fun next => next.2.rank D.cfg.attemptBound ≤
      2 * D.cfg.attemptBound + 1)
    (fun _ _ => Proxy.rank_start) (Nat.zero_le _)

/-- A request that arrives waits, or is turned away at once. -/
theorem arrive_handler (g : Gateway) (sub : Submission) :
    (g.arrive D sub).handler g.arrived = .waiting (g.newRequest sub) ∨
    (g.arrive D sub).handler g.arrived =
      (fallbackOrReject D g.arrivalWorld (g.newRequest sub) .queueFull none).2 := by
  rcases lt_or_ge (g.adm.queue.length : ℤ) D.cfg.scheduler.queueMaxSize with hlt | hge
  · rw [arrive_accepted hlt]
    exact .inl (Function.update_self ..)
  · rw [arrive_full hge]
    exact .inr put_handler_self

theorem arrive_handler_of_ne {sub : Submission} (hne : r ≠ g.arrived) :
    (g.arrive D sub).handler r = g.handler r := by
  rcases lt_or_ge (g.adm.queue.length : ℤ) D.cfg.scheduler.queueMaxSize with hlt | hge
  · rw [arrive_accepted hlt]
    exact Function.update_of_ne hne ..
  · rw [arrive_full hge]
    exact put_handler_of_ne hne

/-- **No request moves the handler of another.** Whatever tasks share, it is the world,
the queue and the futures. -/
theorem handler_of_steps (h : Steps D g a g') (hne : g.requestOf a ≠ some r) :
    g'.handler r = g.handler r := by
  cases h with
  | arrive sub =>
    exact arrive_handler_of_ne fun heq => hne (congrArg some heq.symm)
  | tick => rfl
  | timer _ => exact fireTimer_handler_of_ne fun heq => hne (congrArg some heq.symm)
  | timedOut _ => exact put_handler_of_ne fun heq => hne (congrArg some heq.symm)
  | _ => exact put_handler_of_ne fun heq => hne (congrArg some heq.symm)

/-- **Every step of a request lowers its rank**: there is less left for it to do,
whatever was answered and whatever other tasks have done in between. -/
theorem rank_of_steps (h : Steps D g a g') (hinv : g.Inv) (hown : g.requestOf a = some r) :
    (g'.handler r).rank D.cfg.attemptBound < (g.handler r).rank D.cfg.attemptBound := by
  cases h with
  | arrive sub =>
    obtain rfl := Option.some.inj hown
    rw [(hinv.fresh g.arrived (le_refl _)).1]
    -- an arrival is the first step of a request
    rcases arrive_handler (D := D) g sub with hwait | hturned
    · rw [hwait]
      exact Nat.lt_succ_self _
    · rw [hturned]
      exact Nat.lt_of_le_of_lt rank_fallbackOrReject (by simp [Handler.rank])
  | tick => cases hown
  | @timer _ p hh =>
    obtain rfl := Option.some.inj hown
    rw [fireTimer_handler_self, hh]
    exact Nat.lt_succ_self _
  | @granted _ p grant hh _ =>
    obtain rfl := Option.some.inj hown
    rw [put_handler_self, hh]
    exact Nat.lt_of_le_of_lt Proxy.rank_start (by simp [Handler.rank])
  | rejected hh _ =>
    obtain rfl := Option.some.inj hown
    rw [put_handler_self, hh]
    exact Nat.lt_of_le_of_lt rank_fallbackOrReject (by simp [Handler.rank])
  | timedOut hh =>
    obtain rfl := Option.some.inj hown
    rw [onTimeout, put_handler_self, hh]
    exact Nat.lt_of_le_of_lt rank_fallbackOrReject (by simp [Handler.rank])
  | upstream o hh =>
    obtain rfl := Option.some.inj hown
    rw [put_handler_self, hh]
    exact Proxy.rank_onUpstream
  | drained o hh =>
    obtain rfl := Option.some.inj hown
    rw [put_handler_self, hh]
    exact Proxy.rank_onDrained
  | streamStart hh =>
    obtain rfl := Option.some.inj hown
    rw [put_handler_self, hh]
    exact Nat.lt_succ_self _
  | streamEnd e acloseRaises hh =>
    obtain rfl := Option.some.inj hown
    rw [put_handler_self, hh]
    cases acloseRaises <;> exact Nat.succ_pos _
  | streamDropped hh =>
    obtain rfl := Option.some.inj hown
    rw [put_handler_self, hh]
    exact Nat.succ_pos _

/-- The handlers' ranks are a ranking of the machine. -/
theorem ranking (D : Deployment) :
    Ranking (machine D) requestOf fun g r => (g.handler r).rank D.cfg.attemptBound where
  own _ _ _ _ hreach hstep hown := rank_of_steps (steps_of_step hstep) (inv_of_reach hreach) hown
  other _ _ _ _ _ hstep hne := by rw [handler_of_steps (steps_of_step hstep) hne]

/-! ## Finite runs -/

/-- The gateway, and how many steps each request has taken. -/
def steppedMachine (D : Deployment) : Machine (Gateway × (ReqId → ℕ)) Action :=
  .ofFn (fun s => (∃ clock, s.1 = init D clock) ∧ s.2 = fun _ => 0)
    (observe (step D) (noteOwner requestOf))

/-- **A request takes boundedly many steps**, in any interleaving: what it has taken and
what it can still take are at most its arrival, its timer, its resumption, two steps for an
attempt, and one more for a stream. -/
theorem own_steps_le {s : Gateway × (ReqId → ℕ)} (h : Reach (steppedMachine D) anyStep s)
    (r : ReqId) :
    s.2 r + (s.1.handler r).rank D.cfg.attemptBound ≤ 2 * D.cfg.retry.maxAttempts.toNat + 4 := by
  refine (ranking D).taken_add_rank_le ?_ h r
  rintro g r ⟨clock, rfl⟩
  exact le_refl _

/-- A streamed request, answered, and relayed to its end. -/
def streamedRun : List Action :=
  [.arrive (chat true), .tick, .resume 0, .upstream 0 (.response 200 true), .streamStart 0,
    .streamEnd 0 .exhausted false]

theorem own_steps_le_streamed : ∃ s, Reach (steppedMachine lone) anyStep s ∧ s.2 0 = 5 ∧
    s.2 0 + (s.1.handler 0).rank lone.cfg.attemptBound ≤
      2 * lone.cfg.retry.maxAttempts.toNat + 4 := by
  obtain ⟨s, hs, htaken⟩ : ∃ s, Reach (steppedMachine lone) anyStep s ∧ s.2 0 = 5 :=
    exists_reach_runList (s := (init lone still, fun _ => 0)) ⟨⟨still, rfl⟩, rfl⟩ streamedRun
      (by decide +kernel)
  exact ⟨s, hs, htaken, own_steps_le hs 0⟩

/-! ## Running dry -/

/-- Only an arrival adds a request, which is its own step. -/
theorem arrived_of_steps (h : Steps D g a g') :
    g'.arrived = g.arrived ∨ (∃ sub, a = .arrive sub) ∧ g'.arrived = g.arrived + 1 := by
  cases h with
  | arrive sub =>
    refine .inr ⟨⟨sub, rfl⟩, ?_⟩
    rcases lt_or_ge (g.adm.queue.length : ℤ) D.cfg.scheduler.queueMaxSize with hlt | hge
    · rw [arrive_accepted hlt]
    · rw [arrive_full hge]
      rfl
  | _ => exact .inl rfl

/-- A request that has arrived has a handler. -/
theorem present_of_reach (h : Reachable D g) (hr : r < g.arrived) : g.handler r ≠ .absent := by
  induction h with
  | start h₀ =>
    obtain ⟨clock, rfl⟩ := h₀
    cases hr
  | @step g g' a hreach _ hstep ih =>
    have hsteps := steps_of_step hstep
    -- its own step leaves a handler with a rank below the greatest, which an absent one has
    by_cases hown : g.requestOf a = some r
    · intro habsent
      have hlt := rank_of_steps hsteps (inv_of_reach hreach) hown
      have hle := (g.handler r).rank_le D.cfg.attemptBound
      rw [habsent] at hlt
      exact absurd (lt_of_lt_of_le hlt hle) (lt_irrefl _)
    · rw [handler_of_steps hsteps hown]
      refine ih ?_
      rcases arrived_of_steps hsteps with heq | ⟨⟨sub, rfl⟩, heq⟩
      · exact lt_of_lt_of_eq hr heq
      · have hne : r ≠ g.arrived := fun h => hown (congrArg some h.symm)
        have hle : r ≤ g.arrived := Nat.le_of_lt_succ (lt_of_lt_of_eq hr heq)
        exact lt_of_le_of_ne hle hne

/-- A request that is under way has a step to take: the outside can always answer, end a
stream or let a timer fire. -/
theorem exists_own_step (h : Reachable D g) (hbusy : g.Busy r) :
    ∃ a g', (∀ sub, a ≠ .arrive sub) ∧ step D g a = some g' ∧ g.requestOf a = some r := by
  have hone : ∀ a : Action, (step D g a).isSome = true → (∀ sub, a ≠ .arrive sub) →
      g.requestOf a = some r →
      ∃ a g', (∀ sub, a ≠ .arrive sub) ∧ step D g a = some g' ∧ g.requestOf a = some r := by
    intro a hsome hnew hown
    obtain ⟨g', hg'⟩ := Option.isSome_iff_exists.mp hsome
    exact ⟨a, g', hnew, hg', hown⟩
  -- every place a handler can be at has an action that moves it on
  cases hh : g.handler r with
  | absent => exact absurd hh (present_of_reach h hbusy.1)
  | waiting p => exact hone (.timer r) (by simp [step, hh]) (by simp) rfl
  | expired p => exact hone (.resume r) (by simp [step, hh]) (by simp) rfl
  | sending c => exact hone (.upstream r (.response 200 true)) (by simp [step, hh]) (by simp) rfl
  | draining c status => exact hone (.drained r (.read true)) (by simp [step, hh]) (by simp) rfl
  | relaying c startedAt =>
    cases startedAt with
    | none => exact hone (.streamStart r) (by simp [step, hh]) (by simp) rfl
    | some t => exact hone (.streamEnd r .exhausted false) (by simp [step, hh]) (by simp) rfl
  | streamed closed => simp [Busy, hh, Handler.finished] at hbusy
  | replied reply => simp [Busy, hh, Handler.finished] at hbusy

/-- A request that has been answered does nothing any more: the only step it could take
would lower a rank that is zero. -/
theorem finished_of_steps (h : Steps D g a g') (hinv : g.Inv)
    (hfin : (g.handler r).finished = true) : (g'.handler r).finished = true := by
  by_cases hown : g.requestOf a = some r
  · have hlt := rank_of_steps h hinv hown
    cases hh : g.handler r with
    | streamed closed => simp [hh, Handler.rank] at hlt
    | replied reply => simp [hh, Handler.rank] at hlt
    | _ => simp [hh, Handler.finished] at hfin
  · rw [handler_of_steps h hown]
    exact hfin

/-- No request arrives in the step. -/
def Closed (_ : Gateway) (a : Action) : Prop := ∀ sub, a ≠ .arrive sub

/-- Without arrivals the requests are those that have arrived. -/
theorem arrived_of_closed (h : Steps D g a g') (hclosed : Closed g a) :
    g'.arrived = g.arrived := by
  rcases arrived_of_steps h with heq | ⟨⟨sub, hsub⟩, -⟩
  · exact heq
  · exact absurd hsub (hclosed sub)

/-- **The gateway never wedges.** From every state it can reach, it can go on without
further arrivals until every request that has arrived is answered. -/
theorem runs_dry (h : Reachable D g) : ∃ g', Chain (machine D).step Closed g g' ∧
    g'.arrived = g.arrived ∧ ∀ r < g.arrived, (g'.handler r).finished = true := by
  have hrest : ∀ (g : Gateway) (a : Action) (g' : Gateway) (r : ReqId), Reachable D g → Closed g a →
      (machine D).step g a g' → ¬ g.Busy r → ¬ g'.Busy r := by
    intro g a g' r hreach hclosed hstep hidle hbusy
    have hsteps := steps_of_step hstep
    have hfin : (g.handler r).finished = true := by
      by_contra hnot
      exact hidle ⟨arrived_of_closed hsteps hclosed ▸ hbusy.1, Bool.eq_false_iff.mpr hnot⟩
    have hstill := finished_of_steps hsteps (inv_of_reach hreach) hfin
    exact Bool.false_ne_true (hbusy.2.symm.trans hstill)
  -- the drain rule, for the requests that have arrived so far
  obtain ⟨g', hchain, hidle⟩ := (ranking D).exists_chain_idle (fun g r hreach hbusy => by
    obtain ⟨a, g', hnew, hstep, hown⟩ := exists_own_step hreach hbusy
    exact ⟨a, g', hnew, hstep, hown⟩) hrest h (List.range g.arrived)
  have harrived : g'.arrived = g.arrived := by
    refine hchain.preserves (I := fun v => v.arrived = g.arrived) ?_ rfl
    intro v a v' hv hclosed hstep
    exact (arrived_of_closed (steps_of_step hstep) hclosed).trans hv
  refine ⟨g', hchain, harrived, fun r hr => ?_⟩
  by_contra hnot
  exact hidle r (List.mem_range.mpr hr) ⟨harrived ▸ hr, Bool.eq_false_iff.mpr hnot⟩

theorem runs_dry_waiting : ∃ g g', Reachable lone g ∧ (∃ p, g.handler 0 = .waiting p) ∧
    Chain (machine lone).step Closed g g' ∧ (g'.handler 0).finished = true := by
  have hstart : Reachable lone (init lone still) := .start ⟨still, rfl⟩
  have hreach : Reachable lone ((init lone still).arrive lone (chat true)) :=
    hstart.step trivial (a := .arrive (chat true)) rfl
  obtain ⟨g', hchain, -, hfin⟩ := runs_dry hreach
  exact ⟨_, g', hreach, ⟨_, rfl⟩, hchain, hfin 0 (by decide)⟩

/-! ## Sends -/

/-- A request that is turned away has not been sent before. -/
theorem keepsCount_fallbackOrReject {w : World} {p : PendingRequest} {reason : RejectionReason}
    {message : Option String} :
    Proxy.KeepsCount D.cfg.attemptBound 0 (fallbackOrReject D w p reason message) :=
  fallbackOrReject_rule (fun _ _ => Proxy.keepsCount_start)
    (Proxy.keepsCount_of_replied (Nat.zero_le _) rfl)

theorem counted_of_put {m n : ℕ} {result : World × Handler} (h : Proxy.KeepsCount m n result) :
    ((g.put r result).handler r).Counted m (n + ((g.put r result).handler r).sends.toNat) := by
  rw [put_handler_self]
  exact h

/-- **A step of a request keeps the count of its sends.** The attempt counter of a
handler is the number of requests it has sent upstream, and stays within the bound. -/
theorem counted_of_steps {n : ℕ} (h : Steps D g a g') (hinv : g.Inv) (hr : g.requestOf a = some r)
    (hn : (g.handler r).Counted D.cfg.attemptBound n) :
    (g'.handler r).Counted D.cfg.attemptBound (n + (g'.handler r).sends.toNat) := by
  -- by the step: an arrival counts one more, and every other step moves one handler along
  cases h with
  | arrive sub =>
    obtain rfl := Option.some.inj hr
    rw [(hinv.fresh g.arrived (le_refl _)).1] at hn
    obtain rfl : n = 0 := hn
    rcases arrive_handler (D := D) g sub with hwait | hturned
    · rw [hwait]
      exact rfl
    · rw [hturned]
      exact keepsCount_fallbackOrReject
  | tick => cases hr
  | timer hh =>
    obtain rfl := Option.some.inj hr
    rw [hh] at hn
    rw [fireTimer_handler_self]
    exact hn
  | granted hh _ =>
    obtain rfl := Option.some.inj hr
    rw [hh] at hn
    obtain rfl : n = 0 := hn
    exact counted_of_put Proxy.keepsCount_start
  | rejected hh _ =>
    obtain rfl := Option.some.inj hr
    rw [hh] at hn
    obtain rfl : n = 0 := hn
    exact counted_of_put keepsCount_fallbackOrReject
  | timedOut hh =>
    obtain rfl := Option.some.inj hr
    rw [hh] at hn
    obtain rfl : n = 0 := hn
    exact counted_of_put keepsCount_fallbackOrReject
  | upstream o hh =>
    obtain rfl := Option.some.inj hr
    exact counted_of_put (Proxy.keepsCount_onUpstream (hh ▸ hn))
  | drained o hh =>
    obtain rfl := Option.some.inj hr
    exact counted_of_put (Proxy.keepsCount_onDrained (hh ▸ hn))
  | streamStart hh =>
    obtain rfl := Option.some.inj hr
    rw [hh] at hn
    exact counted_of_put hn
  | streamEnd e acloseRaises hh =>
    obtain rfl := Option.some.inj hr
    rw [hh] at hn
    exact counted_of_put (Proxy.keepsCount_onStreamEnd hn)
  | streamDropped hh =>
    obtain rfl := Option.some.inj hr
    rw [hh] at hn
    exact counted_of_put hn

/-- The log counts a step of the request as a send exactly if the handler sends after
it. -/
theorem count_logStep {log : SendLog} (hr : g.requestOf a = some r) :
    (logStep D g a g' log).sent.count r = log.sent.count r + (g'.handler r).sends.toNat := by
  cases hs : (g'.handler r).sends with
  | false => rw [logStep_of_not_sends hr hs]; rfl
  | true => rw [logStep_of_sends hr hs]; exact List.count_cons_self

theorem count_logStep_of_ne {log : SendLog} (hr : g.requestOf a ≠ some r) :
    (logStep D g a g' log).sent.count r = log.sent.count r := by
  have hother : r ∉ (g.sentBy a g').toList := by
    intro hmem
    exact hr (Option.mem_filter_iff.mp (Option.mem_toList.mp hmem)).1
  show ((g.sentBy a g').toList ++ log.sent).count r = _
  rw [List.count_append, List.count_eq_zero_of_not_mem hother, Nat.zero_add]

/-- **Run lemma.** The log of the sends of `r` counts what its handler counts, in every
run that is logged. -/
theorem sentCounted_of_reach {s : Gateway × SendLog} (h : Reach (logged D) anyStep s) (r : ReqId) :
    (s.1.handler r).Counted D.cfg.attemptBound (s.2.sent.count r) := by
  induction h with
  | start h₀ =>
    obtain ⟨clock, rfl⟩ := h₀
    exact rfl
  | @step s s' a hreach _ hstep ih =>
    obtain ⟨g', hg', rfl⟩ := Option.map_eq_some_iff.mp hstep
    have hsteps := steps_of_step hg'
    -- a step is about this request or leaves it as it is
    by_cases hr : s.1.requestOf a = some r
    · have hinv : s.1.Inv := inv_of_reach (reach_of_observe (fun _ => logged_start) hreach)
      rw [count_logStep hr]
      exact counted_of_steps hsteps hinv hr ih
    · rw [count_logStep_of_ne hr, handler_of_steps hsteps hr]
      exact ih

/-- **No request is sent upstream more often than the configuration allows**, streamed or
buffered, whoever else is served meanwhile. -/
theorem sends_le {s : Gateway × SendLog} (h : Reach (logged D) anyStep s) (r : ReqId) :
    (s.2.sent.count r : ℤ) ≤ max 0 D.cfg.retry.maxAttempts := by
  have hle : s.2.sent.count r ≤ D.cfg.retry.maxAttempts.toNat := (sentCounted_of_reach h r).le
  omega

theorem sends_le_pair : ∃ s, Reach (logged pair) anyStep s ∧ s.2.sent.count 0 = 2 ∧
    (s.2.sent.count 0 : ℤ) ≤ max 0 pair.cfg.retry.maxAttempts := by
  obtain ⟨s, hs, htwice⟩ : ∃ s, Reach (logged pair) anyStep s ∧ s.2.sent.count 0 = 2 :=
    exists_reach_runList (s := (init pair still, ⟨[], 0⟩)) ⟨still, rfl⟩
      [.arrive (chat false), .tick, .resume 0, .upstream 0 (.failed (.timeout "timed out")),
        .upstream 0 (.response 200 true)] (by decide +kernel)
  exact ⟨s, hs, htwice, sends_le hs 0⟩

/-! ## Infinite runs -/

theorem arrived_mono (run : Run (machine D)) {n m : ℕ} (hle : n ≤ m) :
    (run.state n).arrived ≤ (run.state m).arrived := by
  induction m, hle using Nat.le_induction with
  | base => exact le_refl _
  | succ m _ ih =>
    rcases arrived_of_steps (steps_of_step (run.step m)) with heq | ⟨-, heq⟩
    · exact ih.trans heq.ge
    · exact ih.trans ((Nat.le_succ _).trans heq.ge)

/-- **Every request ends**, in an infinite run in which every request that is under way
gets to its next step at some time: its timer fires, its upstream call ends, its task is
resumed or its stream is pulled, closed or dropped. -/
theorem every_request_ends (run : Run (machine D)) (hfair : run.Fair requestOf Busy) {n : ℕ}
    {r : ReqId} (hr : r < (run.state n).arrived) :
    ∃ m, n ≤ m ∧ ∀ k, m ≤ k → ((run.state k).handler r).finished = true := by
  -- a request that has ended once does not begin again
  have hrest : ∀ m, n ≤ m → ¬ Busy (run.state m) r → ¬ Busy (run.state (m + 1)) r := by
    intro m hnm hidle hbusy
    have harrived : r < (run.state m).arrived := lt_of_lt_of_le hr (arrived_mono run hnm)
    have hfin : ((run.state m).handler r).finished = true := by
      by_contra hnot
      exact hidle ⟨harrived, Bool.eq_false_iff.mpr hnot⟩
    have hstill := finished_of_steps (steps_of_step (run.step m)) (inv_of_reach (run.reach m))
      hfin
    exact Bool.false_ne_true (hbusy.2.symm.trans hstill)
  obtain ⟨m, hnm, hidle⟩ := (ranking D).eventually_idle run hfair hrest
  refine ⟨m, hnm, fun k hmk => ?_⟩
  by_contra hnot
  exact hidle k hmk ⟨lt_of_lt_of_le hr (arrived_mono run (hnm.trans hmk)),
    Bool.eq_false_iff.mpr hnot⟩

/-- One streamed request is answered, and then the scheduler ticks for ever. -/
def streamedSchedule (n : ℕ) : Action := streamedRun.getD n .tick

theorem streamedSchedule_tick (n : ℕ) : streamedSchedule (n + 6) = .tick := by
  simp [streamedSchedule, streamedRun]

/-- The request takes its six steps, and the last one ends it. -/
theorem streamedSchedule_run :
    (∀ n < 6, (step lone (Run.follow (step lone) (init lone still) streamedSchedule n)
      (streamedSchedule n)).isSome = true) ∧
    (Run.follow (step lone) (init lone still) streamedSchedule 6).arrived = 1 ∧
    ((Run.follow (step lone) (init lone still) streamedSchedule 6).handler 0).finished = true := by
  decide +kernel

/-- The state of that run after its request has been answered. -/
theorem streamedSchedule_done (n : ℕ) :
    (Run.follow (step lone) (init lone still) streamedSchedule (n + 6)).arrived = 1 ∧
      ((Run.follow (step lone) (init lone still) streamedSchedule (n + 6)).handler 0).finished =
        true := by
  induction n with
  | zero => exact streamedSchedule_run.2
  | succ n ih =>
    rw [Run.follow, streamedSchedule_tick]
    exact ih

theorem streamedSchedule_enabled (n : ℕ) :
    (step lone (Run.follow (step lone) (init lone still) streamedSchedule n)
      (streamedSchedule n)).isSome = true := by
  rcases lt_or_ge n 6 with hlt | hge
  · exact streamedSchedule_run.1 n hlt
  · obtain ⟨k, rfl⟩ := Nat.exists_eq_add_of_le' hge
    rw [streamedSchedule_tick]
    rfl

/-- A schedule that streams one request and then ticks for good is fair, and the request
ends. -/
theorem every_request_ends_streamed :
    ∃ run : Run (machine lone), run.Fair requestOf Busy ∧ (run.state 1).arrived = 1 ∧
      ∃ m, 1 ≤ m ∧ ∀ k, m ≤ k → ((run.state k).handler 0).finished = true := by
  let run : Run (machine lone) :=
    Run.ofSchedule streamedSchedule ⟨still, rfl⟩ streamedSchedule_enabled
  have hfair : run.Fair requestOf Busy := by
    intro n r hbusy
    rcases lt_or_ge n 6 with hlt | hge
    · -- the sixth step is the last one of the only request
      have harrived : (run.state 6).arrived = 1 := (streamedSchedule_done 0).1
      have hr : r < 1 := lt_of_lt_of_le hbusy.1 ((arrived_mono run hlt.le).trans harrived.le)
      obtain rfl : r = 0 := Nat.lt_one_iff.mp hr
      exact ⟨5, Nat.le_of_lt_succ hlt, rfl⟩
    · obtain ⟨k, rfl⟩ := Nat.exists_eq_add_of_le' hge
      obtain ⟨harrived, hfin⟩ := streamedSchedule_done k
      obtain rfl : r = 0 := Nat.lt_one_iff.mp (lt_of_lt_of_eq hbusy.1 harrived)
      exact absurd (hbusy.2.symm.trans hfin) Bool.false_ne_true
  have hone : (run.state 1).arrived = 1 := rfl
  exact ⟨run, hfair, hone, every_request_ends run hfair (hone ▸ Nat.zero_lt_one)⟩

end Gateway

end InferenceGateway
