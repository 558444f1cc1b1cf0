import InferenceGateway.Guarantees.Breaker
import InferenceGateway.Proxy.Signals
import InferenceGateway.Proxy.Stream

/-!
# Streams: the slot, the response, the verdict

A relayed stream is released, closed and sampled by the `finally` of its
generator, which is run by whoever reads the response. `Relay` is that generator
with its life: it is created, pulled item by item, closed, or dropped before
anybody has pulled.

- `Ledger`: what has been called on the row and on the response so far, by the
  state of the generator.
- `GivenBack`: how often the generator itself has taken a slot off the row of
  its backend, whatever other tasks do to the row in between.
- `onRow_finish`: the `finally` gives back one slot, on the row and not only in
  the log.
- `stream_released_iff`: over the life of a relayed stream that is once, and the
  upstream response is closed, if and only if an item was pulled and closing the
  response did not raise.
- `broken_stream`: an attempt whose upstream breaks off after the headers is
  never recorded as a failure, and always as a success.
-/

namespace InferenceGateway

open Lib

namespace Proxy

namespace Relay

variable {c : ProxyCall} {ssePrefix : Bytes} {w : World} {s s' : Relay} {a : Act} {as : List Act}

/-! ## The calls of a life -/

theorem opened_names : (opened c w).world.names = w.names := World.recordSuccess_names

theorem finish_names {t : ℚ} : (s.finish c t).world.names = s.world.names := by
  show (World.endAttempt _ c.lease .streamDone).registry.names = _
  rw [World.endAttempt_registry, World.releaseDispatch_names, World.sampleStream_names]
  rfl

theorem opened_calls : (opened c w).calls =
    if registered c w then [.updateSuccess, .onSuccess] else [] := rfl

/-- What has been called, by where the generator is. -/
structure Ledger (c : ProxyCall) (w : World) (as : List Act) (s : Relay) : Prop where
  names : s.world.names = w.names
  /-- The generator is started by the first pull. -/
  started : s.gen ≠ .over → (.next ∈ as ↔ s.gen ≠ .created)
  pending : s.gen ≠ .over → .aclosed true ∉ as ∧ s.calls = (opened c w).calls
  ended : s.gen = .over →
    (.next ∈ as ∧ .aclosed true ∉ as ∧ s.calls = .releaseDispatch ::
      ((if registered c w then [.updateSuccess] else []) ++ .aclose :: (opened c w).calls)) ∨
    (¬ (.next ∈ as ∧ .aclosed true ∉ as) ∧ s.calls = (opened c w).calls)

theorem ledger_opened : Ledger c w [] (opened c w) :=
  ⟨opened_names, fun _ => iff_of_false (by simp) (not_not.mpr rfl), fun _ => ⟨by simp, rfl⟩,
    fun h => by cases h⟩

/-- Resumptions that stay short of the end. -/
theorem Ledger.inside (h : Ledger c w as s) (hgen : s.gen ≠ .over) (hgen' : s'.gen ≠ .over)
    (hnames : s'.world.names = s.world.names) (hcalls : s'.calls = s.calls)
    (ha : a ≠ .aclosed true) (hstart : .next ∈ a :: as ↔ s'.gen ≠ .created) :
    Ledger c w (a :: as) s' := by
  obtain ⟨hcut, hsame⟩ := h.pending hgen
  refine ⟨hnames.trans h.names, fun _ => hstart, fun _ => ⟨?_, hcalls.trans hsame⟩,
    fun hover => absurd hover hgen'⟩
  exact fun hmem => (List.mem_cons.mp hmem).elim (fun heq => ha heq.symm) hcut

/-- The generator ends without its `finally` block, or in the middle of it. -/
theorem Ledger.lose (h : Ledger c w as s) (hgen : s.gen ≠ .over)
    (hnot : ¬ (.next ∈ a :: as ∧ .aclosed true ∉ a :: as)) : Ledger c w (a :: as) (s.lose c) := by
  refine ⟨?_, fun hover => absurd rfl hover, fun hover => absurd rfl hover,
    fun _ => .inr ⟨hnot, (h.pending hgen).2⟩⟩
  show (World.endAttempt _ c.lease .streamLost).registry.names = _
  rw [World.endAttempt_registry]
  exact h.names

theorem Ledger.step (h : Ledger c w as s) (hs : Steps c ssePrefix s a s') :
    Ledger c w (a :: as) s' := by
  cases hs with
  | @elsewhere w hnames =>
    refine ⟨hnames.trans h.names, fun hgen => ?_, fun hgen => ?_, fun hover => ?_⟩
    · simpa using h.started hgen
    · simpa using h.pending hgen
    · simpa using h.ended hover
  | start hg => exact h.inside (by simp [hg]) (by simp) rfl rfl (by simp) (by simp)
  | resume hg => exact h.inside (by simp [hg]) (by simp) rfl rfl (by simp) (by simp)
  | empty hg =>
    refine h.inside (by simp [hg]) (by simp [hg]) rfl rfl (by simp) ?_
    simpa using h.started (by simp [hg])
  | chunk hg hb hw =>
    refine h.inside (by simp [hg]) (by simp) (congrArg BackendRegistry.names hw.1) rfl (by simp) ?_
    simpa [hg] using h.started (by simp [hg])
  | leave ha hg =>
    have hnext : .next ∈ as := (h.started (by simp [hg])).mpr (by simp [hg])
    refine h.inside (by simp [hg]) (by simp [Relay.leave]) rfl rfl (by rintro rfl; cases ha) ?_
    simp [Relay.leave, hnext]
  | close hg =>
    have hnext : .next ∈ as := (h.started (by simp [hg])).mpr (by simp [hg])
    refine h.inside (by simp [hg]) (by simp [Relay.leave]) rfl rfl (by simp) ?_
    simp [Relay.leave, hnext]
  | lose ha hg =>
    -- never started: there is no `finally` to run
    have hnext : .next ∉ as := fun hmem => (h.started (by simp [hg])).mp hmem hg
    refine h.lose (by simp [hg]) ?_
    rintro ⟨hmem, -⟩
    rcases ha with rfl | rfl <;> simp [hnext] at hmem
  | cut hg => exact h.lose (by simp [hg]) (by simp)
  | @finish t hg =>
    have hnext : .next ∈ as := (h.started (by simp [hg])).mpr (by simp [hg])
    obtain ⟨hcut, hsame⟩ := h.pending (by simp [hg])
    have hreg : registered c s.world = registered c w := by
      unfold registered
      rw [h.names]
    refine ⟨finish_names.trans h.names, fun hover => absurd rfl hover,
      fun hover => absurd rfl hover, fun _ => .inl ⟨List.mem_cons_of_mem _ hnext, ?_, ?_⟩⟩
    · simpa using hcut
    · rw [finish_calls, hreg, hsame]

/-- **Run lemma.** At every point of a life the calls on the row and the response are
those that the state of the generator tells. -/
theorem ledger_of_life (h : Life c ssePrefix w as s) : Ledger c w as s := by
  induction h with
  | opened => exact ledger_opened
  | step _ hs ih => exact ih.step (steps_of_step hs)

/-- The upstream is read only once an item has been pulled. -/
theorem next_of_raised (h : Life c ssePrefix w as s) {e : UpstreamError} (he : .raised e ∈ as) :
    .next ∈ as := by
  induction h with
  | opened => cases he
  | step hlife hs ih =>
    rcases List.mem_cons.mp he with rfl | he
    · cases steps_of_step hs with
      | leave ha hg =>
        have hstarted := (ledger_of_life hlife).started (by simp [hg])
        exact List.mem_cons_of_mem _ (hstarted.mpr (by simp [hg]))
      | lose ha hg => rcases ha with ha | ha <;> cases ha
    · exact List.mem_cons_of_mem _ (ih he)

/-! ## The slot on the row -/

/-- A release of `b` has been written. -/
def isRelease (b : String) : Event → Bool
  | .released b' _ => decide (b' = b)
  | _ => false

/-- Releases of the backend of the attempt, by anybody. -/
def releases (c : ProxyCall) (s : Relay) : ℕ := s.world.trace.countP (isRelease c.target.name)

/-- What one resumption of the generator does to the slots that the row counts: `n` times it
gives one back. -/
inductive OnRow (c : ProxyCall) (s s' : Relay) : ℕ → Prop where
  | kept (written : releases c s' = releases c s)
      (inflight : (s'.world.row c.target.name).inflight = (s.world.row c.target.name).inflight)
      (large : (s'.world.row c.target.name).largeInflight =
        (s.world.row c.target.name).largeInflight) : OnRow c s s' 0
  | givenBack (written : releases c s' = releases c s + 1)
      (inflight : (s'.world.row c.target.name).inflight =
        max 0 ((s.world.row c.target.name).inflight - 1))
      (large : (s'.world.row c.target.name).largeInflight =
        if c.reqClass.isLarge then max 0 ((s.world.row c.target.name).largeInflight - 1)
        else (s.world.row c.target.name).largeInflight) : OnRow c s s' 1

/-- Over the life so far the generator itself has given back `n` slots on the row. What other
tasks do to the row in between is not counted. -/
inductive GivenBack (c : ProxyCall) (ssePrefix : Bytes) (w : World) :
    List Act → Relay → ℕ → Prop where
  | opened : GivenBack c ssePrefix w [] (opened c w) 0
  | elsewhere {as : List Act} {s : Relay} {n : ℕ} {v : World} (h : GivenBack c ssePrefix w as s n)
      (hnames : v.names = s.world.names) :
      GivenBack c ssePrefix w (.elsewhere v :: as) { s with world := v } n
  | resumed {as : List Act} {a : Act} {s s' : Relay} {n m : ℕ}
      (h : GivenBack c ssePrefix w as s n) (hself : ∀ v, a ≠ .elsewhere v)
      (hs : Relay.step c ssePrefix s a = some s') (hrow : OnRow c s s' m) :
      GivenBack c ssePrefix w (a :: as) s' (n + m)

/-- Time passes for the row, or the generator ends without its `finally` block. -/
theorem OnRow.ofSameButClock (h : Scoring.SameButClock s.world s'.world) : OnRow c s s' 0 := by
  obtain ⟨hreg, htrace, -⟩ := h
  refine .kept (by rw [releases, releases, htrace]) ?_ ?_ <;> simp only [World.row, hreg]

theorem onRow_lose : OnRow c s (s.lose c) 0 := by
  have hreg : (s.lose c).world.registry = s.world.registry := World.endAttempt_registry
  refine .kept ?_ ?_ ?_
  · show (s.world.endAttempt c.lease .streamLost).trace.countP _ = s.world.trace.countP _
    cases c.lease with
    | granted grant => exact List.countP_cons_of_neg (by simp [isRelease])
    | fallback t => rfl
  · simp only [World.row, hreg]
  · simp only [World.row, hreg]

/-- The `finally` block takes one off the load counters of the row, each clamped at
zero, and leaves them alone otherwise: the sample that comes before is none of their
business. -/
theorem onRow_finish {t : ℚ} (hb : c.target.name ∈ s.world.names) : OnRow c s (s.finish c t) 1 := by
  -- the sample comes first and touches neither counter; then the release takes one off
  have hsampled : ∃ u : World, c.target.name ∈ u.names ∧
      u.trace.countP (isRelease c.target.name) = releases c s ∧
      (u.row c.target.name).inflight = (s.world.row c.target.name).inflight ∧
      (u.row c.target.name).largeInflight = (s.world.row c.target.name).largeInflight ∧
      (s.finish c t).world =
        (u.releaseDispatch c.target.name c.reqClass).endAttempt c.lease .streamDone := by
    refine ⟨s.world.readClock.sampleStream c.target.name
      ((s.world.readClock.clock.now - t) * 1000), ?_, ?_, ?_, ?_, rfl⟩ <;>
      have hb' : c.target.name ∈ s.world.registry.names := hb
    · simpa using hb'
    · rw [World.sampleStream, if_pos (by simpa using hb')]
      refine (List.countP_cons_of_neg (by simp [isRelease])).trans ?_
      simp [releases, World.modify, hb']
    · simp [World.sampleStream, World.modify, hb', BackendRuntimeState.updateSuccess]
    · simp [World.sampleStream, World.modify, hb', BackendRuntimeState.updateSuccess]
  obtain ⟨u, hu, hcount, hinflight, hlarge, hfinish⟩ := hsampled
  have hrow : (s.finish c t).world.row c.target.name = { u.row c.target.name with
      inflight := max 0 ((u.row c.target.name).inflight - 1)
      largeInflight := if c.reqClass.isLarge then max 0 ((u.row c.target.name).largeInflight - 1)
        else (u.row c.target.name).largeInflight } := by
    rw [hfinish, World.row, World.endAttempt_registry, World.releaseDispatch_of_mem hu]
    simp
  have hwritten : (s.finish c t).world.trace.countP (isRelease c.target.name) =
      (u.releaseDispatch c.target.name c.reqClass).trace.countP (isRelease c.target.name) := by
    rw [hfinish]
    cases c.lease with
    | granted grant => exact List.countP_cons_of_neg (by simp [isRelease])
    | fallback t => rfl
  refine .givenBack ?_ ?_ ?_
  · rw [releases, hwritten, ← hcount, World.releaseDispatch_of_mem hu]
    exact List.countP_cons_of_pos (by simp [isRelease])
  · rw [hrow, ← hinflight]
  · rw [hrow, ← hlarge]

/-- **Run lemma.** The slots given back on the row are as many as the calls of
`_release_dispatch`. -/
theorem givenBack_of_life (h : Life c ssePrefix w as s) (hb : c.target.name ∈ w.names) :
    GivenBack c ssePrefix w as s (s.calls.count .releaseDispatch) := by
  induction h with
  | opened =>
    have hzero : (opened c w).calls.count .releaseDispatch = 0 := by
      rw [opened_calls]
      split <;> simp
    rw [hzero]
    exact .opened
  | @step as a s s' hlife hs ih =>
    have hb' : c.target.name ∈ s.world.names := (ledger_of_life hlife).names ▸ hb
    -- a resumption that calls nothing, and leaves the row alone
    have hquiet : (∀ v, a ≠ .elsewhere v) → s'.calls = s.calls → OnRow c s s' 0 →
        GivenBack c ssePrefix w (a :: as) s' (s'.calls.count .releaseDispatch) := by
      intro hself hcalls hrow
      rw [hcalls]
      exact ih.resumed hself hs hrow
    cases steps_of_step hs with
    | elsewhere hnames => exact ih.elsewhere hnames
    | start hg =>
      exact hquiet (by simp) rfl (.ofSameButClock (Scoring.sameButClock_readClock s.world))
    | resume hg => exact hquiet (by simp) rfl (.ofSameButClock (.refl _))
    | empty hg => exact hquiet (by simp) rfl (.ofSameButClock (.refl _))
    | chunk hg hne hw => exact hquiet (by simp) rfl (.ofSameButClock hw)
    | leave ha hg => exact hquiet (by rintro v rfl; cases ha) rfl (.ofSameButClock (.refl _))
    | close hg => exact hquiet (by simp) rfl (.ofSameButClock (.refl _))
    | lose ha hg =>
      refine hquiet ?_ rfl onRow_lose
      rintro v rfl
      rcases ha with ha | ha <;> cases ha
    | cut hg => exact hquiet (by simp) rfl onRow_lose
    | @finish t hg =>
      have hone : (s.finish c t).calls.count .releaseDispatch =
          s.calls.count .releaseDispatch + 1 := by
        rw [finish_calls]
        split <;> simp
      rw [hone]
      exact ih.resumed (by simp) hs (onRow_finish hb')

/-! ## The slot and the response -/

/-- At the end of the life of a relayed stream its slot has been released at most once, and
released and the response closed if and only if an item was pulled and `resp.aclose()` did
not raise. -/
theorem released_iff (h : Life c ssePrefix w as s) (hover : s.gen = .over) :
    s.calls.count .releaseDispatch ≤ 1 ∧
    (s.calls.count .releaseDispatch = 1 ∧ .aclose ∈ s.calls ↔
      .next ∈ as ∧ .aclosed true ∉ as) := by
  have hopened : (opened c w).calls.count .releaseDispatch = 0 ∧ .aclose ∉ (opened c w).calls := by
    rw [opened_calls]
    split <;> simp
  -- the generator was started and not cut short, or it has called nothing
  rcases (ledger_of_life h).ended hover with ⟨hnext, hcut, hcalls⟩ | ⟨hnot, hcalls⟩
  · have hcount : s.calls.count .releaseDispatch = 1 := by
      rw [hcalls]
      split <;> simp [hopened.1]
    have hclosed : .aclose ∈ s.calls := by
      rw [hcalls]
      simp
    exact ⟨hcount.le, iff_of_true ⟨hcount, hclosed⟩ ⟨hnext, hcut⟩⟩
  · rw [hcalls]
    exact ⟨hopened.1.le.trans zero_le_one, iff_of_false (fun hboth => hopened.2 hboth.2) hnot⟩

/-- **The slot of a stream.** At the end of the life of a relayed stream, `n` being the number
of slots its generator has given back on the row of the backend, `n` is at most one, and it is
one and the response closed if and only if an item was pulled and `resp.aclose()` did not
raise. `_release_dispatch` is called as often, also for a backend that has no row. -/
theorem stream_released_iff (h : Life c ssePrefix w as s) (hover : s.gen = .over) :
    ∃ n, s.calls.count .releaseDispatch = n ∧
      (c.target.name ∈ w.names → GivenBack c ssePrefix w as s n) ∧
      n ≤ 1 ∧ (n = 1 ∧ .aclose ∈ s.calls ↔ .next ∈ as ∧ .aclosed true ∉ as) := by
  obtain ⟨hle, hiff⟩ := released_iff h hover
  exact ⟨_, rfl, givenBack_of_life h, hle, hiff⟩

/-! ## The verdict -/

/-- The attempt is recorded as a failure and not as a success. -/
def RecordedAsFailure (calls : List Call) : Prop :=
  .onFailure ∈ calls ∧ .updateFailure ∈ calls ∧ .onSuccess ∉ calls ∧ .updateSuccess ∉ calls

/-- What the arrival of the headers does to the row of the backend. -/
theorem opened_row (hb : c.target.name ∈ w.names) :
    ((opened c w).world.row c.target.name).consecutiveFailures = 0 ∧
    ((w.row c.target.name).circuit = .halfOpen →
      ((opened c w).world.row c.target.name).circuit = .closed) ∧
    ((opened c w).world.row c.target.name).recentErrorRate =
      BackendRuntimeState.errorSample false (w.row c.target.name).recentErrorRate := by
  obtain ⟨ttft, e2e, hrow⟩ : ∃ ttft e2e, (opened c w).world.row c.target.name =
      (Health.onSuccess (w.row c.target.name)).updateSuccess ttft e2e :=
    ⟨_, _, World.recordSuccess_row_self (w := w.readClock) hb⟩
  rw [hrow]
  refine ⟨?_, fun hho => ?_, ?_⟩
  -- `on_success` resets the streak, and closes a half-open circuit
  · unfold Health.onSuccess
    dsimp only
    split <;> rfl
  · rw [Health.onSuccess_of_halfOpen hho]
    rfl
  · rw [BackendRuntimeState.updateSuccess_recentErrorRate]
    by_cases hho : (w.row c.target.name).circuit = .halfOpen
    · rw [Health.onSuccess_of_halfOpen hho]
    · rw [Health.onSuccess_of_not_halfOpen hho]

/-- **Broken streams.** Whatever the life of a relayed stream whose upstream breaks off,
the attempt is not recorded as a failure. On a registered backend it is recorded as a
success when the headers arrive, which ends the failure streak, closes a half-open
circuit and lowers the error rate, and once more when the `finally` block runs to its
end. -/
theorem broken_stream (h : Life c ssePrefix w as s) (hbroken : ∃ e, .raised e ∈ as) :
    ¬ RecordedAsFailure s.calls ∧
    (c.target.name ∈ w.names →
      ((opened c w).world.row c.target.name).consecutiveFailures = 0 ∧
      ((w.row c.target.name).circuit = .halfOpen →
        ((opened c w).world.row c.target.name).circuit = .closed) ∧
      ((opened c w).world.row c.target.name).recentErrorRate =
        BackendRuntimeState.errorSample false (w.row c.target.name).recentErrorRate ∧
      .onSuccess ∈ s.calls ∧ .updateSuccess ∈ s.calls ∧
      (s.gen = .over → .aclosed true ∉ as → s.calls.count .updateSuccess = 2)) := by
  have hledger := ledger_of_life h
  -- the generator has only what the header time called, or its `finally` on top
  have hcalls : s.calls = (opened c w).calls ∨ s.calls = .releaseDispatch ::
      ((if registered c w then [.updateSuccess] else []) ++ .aclose :: (opened c w).calls) := by
    by_cases hover : s.gen = .over
    · exact (hledger.ended hover).elim (fun hend => .inr hend.2.2) fun hend => .inl hend.2
    · exact .inl (hledger.pending hover).2
  constructor
  · rintro ⟨hfailure, -⟩
    rw [opened_calls] at hcalls
    rcases hcalls with heq | heq <;> rw [heq] at hfailure <;> revert hfailure <;> split <;> simp
  · intro hb
    obtain ⟨hstreak, hcircuit, hrate⟩ := opened_row hb
    have hreg : registered c w = true := decide_eq_true hb
    rw [opened_calls, hreg, if_pos rfl] at hcalls
    refine ⟨hstreak, hcircuit, hrate, ?_, ?_, fun hover hcut => ?_⟩
    · rcases hcalls with heq | heq <;> rw [heq] <;> simp
    · rcases hcalls with heq | heq <;> rw [heq] <;> simp
    · -- the upstream broke off, so the generator had been started
      obtain ⟨e, he⟩ := hbroken
      rcases hledger.ended hover with ⟨-, -, hend⟩ | ⟨hnot, -⟩
      · rw [hend, opened_calls, hreg]
        simp
      · exact absurd ⟨next_of_raised h he, hcut⟩ hnot

end Relay

end Proxy

/-! ## Two lives -/

namespace Gateway

open Proxy Proxy.Relay

/-- The call of a streamed completion that has been sent to the only backend. -/
def streamedCall : ProxyCall where
  pending := (init lone still).newRequest (chat true)
  lease := .granted ⟨⟨"gpu-node-1", "http://10.0.0.1:8000"⟩, none⟩
  attempts := 1
  lastError := none
  transportAttempts := []
  sentAt := 0

/-- The world it was sent in: it has the only slot that is taken. -/
def streamedWorld : World := ((init lone still).world.takeSlot "gpu-node-1" .smallChat).1

/-- The prefix is pulled, the upstream sends a chunk and breaks off. -/
def brokenLife : List Relay.Act :=
  [.aclosed false, .raised (.other "RemoteProtocolError"), .next, .chunk [100], .next, .next]

theorem brokenLife_lived : ∃ s, Life streamedCall [] streamedWorld brokenLife s ∧
    s.gen = .over ∧ (s.world.row "gpu-node-1").inflight = 0 := by
  have hrun : (runList (Relay.step streamedCall []) (opened streamedCall streamedWorld)
      brokenLife.reverse).any (fun s =>
        decide (s.gen = .over ∧ (s.world.row "gpu-node-1").inflight = 0)) = true := by
    decide +kernel
  obtain ⟨s, hs, hover⟩ := (Option.any_eq_true ..).mp hrun
  exact ⟨s, life_of_run hs, of_decide_eq_true hover⟩

theorem stream_released_iff_broken : ∃ s : Relay,
    ((streamedWorld.row "gpu-node-1").inflight = 1 ∧
      (s.world.row "gpu-node-1").inflight = 0 ∧ s.gen = .over) ∧
    ∃ n, s.calls.count .releaseDispatch = n ∧
      (streamedCall.target.name ∈ streamedWorld.names →
        GivenBack streamedCall [] streamedWorld brokenLife s n) ∧
      n ≤ 1 ∧ (n = 1 ∧ .aclose ∈ s.calls ↔ .next ∈ brokenLife ∧ .aclosed true ∉ brokenLife) := by
  have htaken : (streamedWorld.row "gpu-node-1").inflight = 1 := by decide +kernel
  obtain ⟨s, hlife, hover, hidle⟩ := brokenLife_lived
  exact ⟨s, ⟨htaken, hidle, hover⟩, stream_released_iff hlife hover⟩

/-- The client is gone before the body starts: nobody holds the slot any more and it
stays taken. -/
theorem stream_slot_lost : ∃ g, Reachable lone g ∧ g.handler 0 = .streamed false ∧
    g.fleet.heldOn "gpu-node-1" = 0 ∧ (g.row "gpu-node-1").inflight = 1 := by
  refine exists_reachable still [.arrive (chat true), .tick, .resume 0,
    .upstream 0 (.response 200 true), .streamDropped 0] ?_
  decide +kernel

theorem broken_stream_broken : ∃ s : Relay, s.gen = .over ∧
    ¬ RecordedAsFailure s.calls ∧
    (streamedCall.target.name ∈ streamedWorld.names →
      ((opened streamedCall streamedWorld).world.row
        streamedCall.target.name).consecutiveFailures = 0 ∧
      ((streamedWorld.row streamedCall.target.name).circuit = .halfOpen →
        ((opened streamedCall streamedWorld).world.row
          streamedCall.target.name).circuit = .closed) ∧
      ((opened streamedCall streamedWorld).world.row streamedCall.target.name).recentErrorRate =
        BackendRuntimeState.errorSample false
          (streamedWorld.row streamedCall.target.name).recentErrorRate ∧
      .onSuccess ∈ s.calls ∧ .updateSuccess ∈ s.calls ∧
      (s.gen = .over → .aclosed true ∉ brokenLife → s.calls.count .updateSuccess = 2)) := by
  obtain ⟨s, hlife, hover, -⟩ := brokenLife_lived
  exact ⟨s, hover, broken_stream hlife ⟨.other "RemoteProtocolError", by simp [brokenLife]⟩⟩

/-- A half-open backend answers its probe with headers and breaks off: its circuit is
closed, its failure streak is over and its error rate has fallen twice. -/
theorem broken_probe_recovers : ∃ g, Reachable brittle g ∧
    g.handler 1 = .streamed true ∧ (g.row "gpu-node-1").circuit = .closed ∧
    (g.row "gpu-node-1").consecutiveFailures = 0 ∧
    (g.row "gpu-node-1").recentErrorRate = 1 / 4 * (85 / 100) ^ 2 := by
  refine exists_reachable (cooling [9]) (tripped ++ [.arrive (chat true), .tick, .resume 1,
    .upstream 1 (.response 200 true), .streamStart 1, .streamEnd 1 .upstreamRaised false]) ?_
  decide +kernel

end Gateway

end InferenceGateway
