import InferenceGateway.Fleet.Model

/-!
# Slots and counters

`inflight` and `large_inflight` of a backend against the slots requests really
hold on it. `Load` says once what a deed can do to either: take a slot, give one
back, decrement for nobody, lose one, or none of these. The two invariants are
proved by cases on it, and bound the counters from below and from above.

- `Covered`: the counters count at least the slots held, so the hard limit binds
  and no release is clamped. It survives every deed except a release of a slot
  nobody holds.
- `Returned`: the counters count at most the slots held and those lost with a
  stream. It survives every deed except an attempt that ends in another way
  without giving its slot back.

The run lemmas `covered_of_reach` and `returned_of_reach` have those exceptions
as their licence, so what a guarantee assumes about a run of the gateway is no
more than that the run does not make the one kind of deed.
-/

namespace InferenceGateway

open Lib

/-- A stream the proxy had returned ended without giving its slot back. -/
def Event.losesStream (b : String) : Event → Bool
  | ended b' _ .streamLost => decide (b' = b)
  | _ => false

namespace Fleet

/-- Slots of `b` lost with a returned stream so far. -/
def lostStreams (F : Fleet) (b : String) : ℕ := F.trace.countP (Event.losesStream b)

variable {health : HealthConfig} {F F' : Fleet} {d : Deed} {b : String}

/-- What a deed can do to the counters of `b` and the slots held on it. -/
inductive Load (b : String) (F F' : Fleet) : Deed → Prop where
  /-- The deed is about something else. -/
  | quiet {d : Deed} (new : List Event)
      (inflight : (F'.row b).inflight = (F.row b).inflight)
      (large : (F'.row b).largeInflight = (F.row b).largeInflight)
      (limit : (F'.row b).hardLimit = (F.row b).hardLimit)
      (held : F'.heldOn b = F.heldOn b) (largeHeld : F'.largeHeldOn b = F.largeHeldOn b)
      (trace : F'.trace = new ++ F.trace) (silent : ∀ c, .released b c ∉ new) : Load b F F' d
  /-- A slot is taken, below the hard limit. -/
  | taken {r : ReqId} {cls : RequestClass} {p : Option ℕ} {t : ℚ}
      (room : (F.row b).inflight < (F.row b).hardLimit)
      (inflight : (F'.row b).inflight = (F.row b).inflight + 1)
      (large : (F'.row b).largeInflight = (F.row b).largeInflight + if cls.isLarge then 1 else 0)
      (limit : (F'.row b).hardLimit = (F.row b).hardLimit)
      (held : F'.heldOn b = F.heldOn b + 1)
      (largeHeld : F'.largeHeldOn b = F.largeHeldOn b + if cls.isLarge then 1 else 0)
      (trace : F'.trace = .dispatched b p t :: F.trace) : Load b F F' (.acquire r b cls)
  /-- A slot is given back. -/
  | returned {r : ReqId} {cls : RequestClass} {p : Option ℕ} {how : Ending}
      (inflight : (F'.row b).inflight = max 0 ((F.row b).inflight - 1))
      (large : (F'.row b).largeInflight =
        if cls.isLarge then max 0 ((F.row b).largeInflight - 1) else (F.row b).largeInflight)
      (limit : (F'.row b).hardLimit = (F.row b).hardLimit)
      (held : F'.heldOn b + 1 = F.heldOn b)
      (largeHeld : F'.largeHeldOn b + (if cls.isLarge then 1 else 0) = F.largeHeldOn b)
      (trace : F'.trace = .ended b p how :: .released b (decide ((F.row b).inflight < 1) ||
        (cls.isLarge && decide ((F.row b).largeInflight < 1))) :: F.trace) :
      Load b F F' (.giveUp r how)
  /-- The counters are decremented for nobody. -/
  | struck {cls : RequestClass} {clamped : Bool}
      (inflight : (F'.row b).inflight = max 0 ((F.row b).inflight - 1))
      (large : (F'.row b).largeInflight =
        if cls.isLarge then max 0 ((F.row b).largeInflight - 1) else (F.row b).largeInflight)
      (held : F'.heldOn b = F.heldOn b) (largeHeld : F'.largeHeldOn b = F.largeHeldOn b)
      (trace : F'.trace = .released b clamped :: F.trace) : Load b F F' (.overRelease b cls)
  /-- A slot is left behind. -/
  | lost {r : ReqId} {cls : RequestClass} {p : Option ℕ} {how : Ending}
      (inflight : (F'.row b).inflight = (F.row b).inflight)
      (large : (F'.row b).largeInflight = (F.row b).largeInflight)
      (limit : (F'.row b).hardLimit = (F.row b).hardLimit)
      (held : F'.heldOn b + 1 = F.heldOn b)
      (largeHeld : F'.largeHeldOn b + (if cls.isLarge then 1 else 0) = F.largeHeldOn b)
      (trace : F'.trace = .ended b p how :: F.trace) : Load b F F' (.abandon r how)

/-- Recording an outcome, or a cooldown, is quiet. -/
theorem Load.ofMoveCircuit {b₀ : String} {f : BackendRuntimeState → BackendRuntimeState}
    {cause : Cause} {w : World} (hf : ∀ s, Health.SameLoad s (f s))
    (hreg : w.registry = F.world.registry) (htrace : w.trace = F.trace)
    (hworld : F'.world = w.moveCircuit b₀ f cause)
    (hheld : F'.heldOn b = F.heldOn b) (hlarge : F'.largeHeldOn b = F.largeHeldOn b) :
    Load b F F' d := by
  have hload := w.moveCircuit_sameLoad b₀ b cause hf
  rw [← hworld, hreg] at hload
  rcases w.moveCircuit_trace b₀ f cause with h | ⟨src, dst, h⟩
  · rw [← hworld, htrace] at h
    exact .quiet [] hload.inflight hload.largeInflight hload.hardLimit hheld hlarge h
      (by simp)
  · rw [← hworld, htrace] at h
    exact .quiet [_] hload.inflight hload.largeInflight hload.hardLimit hheld hlarge h
      (by simp)

/-- A deed that leaves the row of `b` and the slots on it alone is quiet. -/
theorem Load.ofRow (new : List Event) (hrow : F'.row b = F.row b)
    (hheld : F'.heldOn b = F.heldOn b) (hlarge : F'.largeHeldOn b = F.largeHeldOn b)
    (htrace : F'.trace = new ++ F.trace) (hsilent : ∀ c, .released b c ∉ new) : Load b F F' d :=
  .quiet new (congrArg _ hrow) (congrArg _ hrow) (congrArg _ hrow) hheld hlarge htrace hsilent

/-- A release on another backend is quiet, whatever is recorded after it. -/
theorem Load.ofReleaseElsewhere {b₀ : String} {cls : RequestClass} (hne : b ≠ b₀)
    (new : List Event) (hsilent : ∀ c, .released b c ∉ new)
    (hreg : F'.world.registry = (F.world.releaseDispatch b₀ cls).registry)
    (htrace : F'.trace = new ++ (F.world.releaseDispatch b₀ cls).trace)
    (hheld : F'.heldOn b = F.heldOn b) (hlarge : F'.largeHeldOn b = F.largeHeldOn b) :
    Load b F F' d := by
  have hrow : F'.row b = F.row b :=
    (congrArg (·.row b) hreg).trans (World.releaseDispatch_row_of_ne hne)
  rcases F.world.releaseDispatch_trace b₀ cls with htr | ⟨c, htr⟩
  · exact .ofRow new hrow hheld hlarge (by rw [htrace, htr]) hsilent
  · refine .ofRow (new ++ [.released b₀ c]) hrow hheld hlarge
      (by rw [htrace, htr, List.append_assoc]; rfl) fun c' hmem => ?_
    rcases List.mem_append.mp hmem with hmem | hmem
    · exact hsilent c' hmem
    · cases List.mem_singleton.mp hmem
      exact hne rfl

theorem on_taken {w : World} {b₀ : String} {cls : RequestClass} :
    Slot.on b ⟨(w.takeSlot b₀ cls).2, cls, false⟩ = decide (b₀ = b) := rfl

theorem largeOn_taken {w : World} {b₀ : String} {cls : RequestClass} :
    Slot.largeOn b ⟨(w.takeSlot b₀ cls).2, cls, false⟩ = (decide (b₀ = b) && cls.isLarge) := rfl

/-- A slot is taken: there is one more on its backend, in the table of the slots held
and in the counters of the row. -/
theorem load_acquire {r : ReqId} {b₀ : String} {cls : RequestClass} (hr : r < F.population)
    (hheld : F.held r = none) (hpass : Health.passes health (F.row b₀) = true) :
    Load b F (F.put r (some ⟨(F.world.takeSlot b₀ cls).2, cls, false⟩) (F.world.takeSlot b₀ cls).1)
      (.acquire r b₀ cls) := by
  -- on another backend the deed is quiet
  by_cases hbb : b = b₀
  · subst hbb
    have hrow := F.world.takeSlot_row_self b cls
    refine .taken (Health.passes_iff.mp hpass).2.2.1 ?_ ?_ ?_ ?_ ?_ World.takeSlot_trace
    · exact congrArg BackendRuntimeState.inflight hrow
    · exact congrArg BackendRuntimeState.largeInflight hrow
    · exact (congrArg BackendRuntimeState.hardLimit hrow).trans rfl
    · rw [heldOn, count_acquire hr hheld]
      simp [on_taken]
    · rw [largeHeldOn, count_acquire hr hheld]
      simp [largeOn_taken]
  · have hne : ¬ b₀ = b := fun h => hbb h.symm
    refine .ofRow [.dispatched b₀ (F.world.probeNow b₀) F.world.clock.read.now]
      (World.takeSlot_row_of_ne hbb) ?_ ?_ World.takeSlot_trace (by simp)
    · rw [heldOn, count_acquire hr hheld]
      simp [on_taken, hne]
    · rw [largeHeldOn, count_acquire hr hheld]
      simp [largeOn_taken, hne]

/-- Samples move neither counter nor limit. -/
theorem load_sample {b₀ : String} {failed : Bool} {f : BackendRuntimeState → BackendRuntimeState}
    (hf : Blends failed f) :
    Load b F { F with world := sampled F.world b₀ failed f } (.sample b₀ failed) := by
  by_cases hb₀ : b₀ ∈ F.names
  · rw [sampled, if_pos hb₀]
    have hsilent : ∀ c, Event.released b c ∉ [Event.sampled b₀ failed] := by simp
    by_cases hbb : b = b₀
    · subst hbb
      have hrow : (F.world.setRow b (f (F.row b))).registry.row b = f (F.row b) :=
        World.setRow_row_self
      obtain ⟨hin, hlarge, hlimit⟩ := hf.counters (F.row b)
      exact .quiet _ ((congrArg _ hrow).trans hin) ((congrArg _ hrow).trans hlarge)
        ((congrArg _ hrow).trans hlimit) rfl rfl rfl hsilent
    · exact .ofRow _ (World.setRow_row_of_ne hbb) rfl rfl rfl hsilent
  · rw [sampled, if_neg hb₀]
    exact .ofRow [] rfl rfl rfl rfl (by simp)

/-- A slot is given back: one less on its backend, in the table and, unless a counter is
at zero already, in the counters. -/
theorem load_giveUp {r : ReqId} {s : Slot} {how : Ending} (hb : b ∈ F.names)
    (hr : r < F.population) (hheld : F.held r = some s) :
    Load b F (F.put r none ((F.world.releaseDispatch s.backend s.cls).emit
      (.ended s.backend s.grant.probe how))) (.giveUp r how) := by
  have hcount := count_end (F := F) (p := Slot.on b) (w := (F.world.releaseDispatch s.backend
    s.cls).emit (.ended s.backend s.grant.probe how)) hr hheld
  have hlarge := count_end (F := F) (p := Slot.largeOn b) (w := (F.world.releaseDispatch s.backend
    s.cls).emit (.ended s.backend s.grant.probe how)) hr hheld
  -- the slot is on `b`, or the release is elsewhere
  by_cases hbb : s.backend = b
  · have hrelease : F.world.releaseDispatch b s.cls = _ := World.releaseDispatch_of_mem hb
    have hrow : (F.world.releaseDispatch b s.cls).registry.row b = _ :=
      (congrArg (·.registry.row b) hrelease).trans World.setRow_row_self
    rw [hbb] at hcount hlarge ⊢
    refine .returned (p := s.grant.probe) (congrArg _ hrow) (congrArg _ hrow)
      (congrArg BackendRuntimeState.hardLimit hrow :) ?_ ?_ ?_
    · simpa [Slot.on, hbb] using hcount
    · simpa [Slot.largeOn, Slot.on, hbb] using hlarge
    · exact congrArg (Event.ended b s.grant.probe how :: ·.trace) hrelease
  · refine .ofReleaseElsewhere (Ne.symm hbb) [.ended s.backend s.grant.probe how] (by simp)
      rfl rfl ?_ ?_
    · simpa [Slot.on, hbb] using hcount
    · simpa [Slot.largeOn, Slot.on, hbb] using hlarge

/-- A release for nobody: the counters go down and the table stays. -/
theorem load_overRelease {b₀ : String} {cls : RequestClass} (hb : b ∈ F.names) :
    Load b F { F with world := F.world.releaseDispatch b₀ cls } (.overRelease b₀ cls) := by
  by_cases hbb : b₀ = b
  · subst hbb
    have hrelease : F.world.releaseDispatch b₀ cls = _ := World.releaseDispatch_of_mem hb
    have hrow : (F.world.releaseDispatch b₀ cls).registry.row b₀ = _ :=
      (congrArg (·.registry.row b₀) hrelease).trans World.setRow_row_self
    exact .struck (congrArg _ hrow) (congrArg _ hrow) rfl rfl (congrArg World.trace hrelease)
  · exact .ofReleaseElsewhere (Ne.symm hbb) [] (by simp) rfl rfl rfl rfl

/-- An attempt ends with its slot still taken: the table goes down and the counters
stay. -/
theorem load_abandon {r : ReqId} {s : Slot} {how : Ending} (hr : r < F.population)
    (hheld : F.held r = some s) :
    Load b F (F.put r none (F.world.emit (.ended s.backend s.grant.probe how)))
      (.abandon r how) := by
  have hcount := count_end (F := F) (p := Slot.on b)
    (w := F.world.emit (.ended s.backend s.grant.probe how)) hr hheld
  have hlarge := count_end (F := F) (p := Slot.largeOn b)
    (w := F.world.emit (.ended s.backend s.grant.probe how)) hr hheld
  by_cases hbb : s.backend = b
  · rw [hbb] at hcount hlarge ⊢
    exact .lost (p := s.grant.probe) rfl rfl rfl (by simpa [Slot.on, hbb] using hcount)
      (by simpa [Slot.largeOn, Slot.on, hbb] using hlarge) rfl
  · refine .ofRow [_] rfl ?_ ?_ rfl (by simp)
    · simpa [Slot.on, hbb] using hcount
    · simpa [Slot.largeOn, Slot.on, hbb] using hlarge

/-- **Every deed, seen from one backend's counters.** The invariants below are proved by
cases on what this lemma returns, and do not look at the deeds themselves. -/
theorem load_of_step (hb : b ∈ F.names) (h : Step health F d F') : Load b F F' d := by
  cases h with
  | enrol hvacant =>
    exact .ofRow [] rfl (count_enrol hvacant) (count_enrol hvacant) rfl (by simp)
  | idle => exact .ofRow [] rfl rfl rfl rfl (by simp)
  | @note e he =>
    refine .ofRow [e] rfl rfl rfl rfl fun c hc => ?_
    rw [List.mem_singleton] at hc
    subst hc
    cases he
  | cool =>
    -- the clock is read first, which the row does not see
    exact .ofMoveCircuit (w := F.world.readClock)
      (Health.maybeTransitionFromOpen_sameLoad health _) rfl rfl rfl rfl rfl
  | acquire hr hheld _ hpass => exact load_acquire hr hheld hpass
  | @judge r s v hr hheld hnew =>
    exact .ofMoveCircuit (Verdict.handler_sameLoad v health _) rfl rfl rfl
      (count_judge hr hheld rfl) (count_judge hr hheld rfl)
  | stray =>
    exact .ofMoveCircuit (Verdict.handler_sameLoad _ health _) rfl rfl rfl rfl rfl
  | sample hf => exact load_sample hf
  | giveUp hr hheld _ => exact load_giveUp hb hr hheld
  | overRelease => exact load_overRelease hb
  | abandon hr hheld _ => exact load_abandon hr hheld

/-! ## The counters count at least the slots held -/

structure Covered (F : Fleet) (b : String) : Prop where
  inflight : (F.heldOn b : ℤ) ≤ (F.row b).inflight
  large : (F.largeHeldOn b : ℤ) ≤ (F.row b).largeInflight
  limit : (F.heldOn b : ℤ) ≤ max 0 (F.row b).hardLimit
  unclamped : .released b true ∉ F.trace

/-- At start-up nothing is held and nothing is counted. -/
theorem covered_start (h : F.Start) (hb : b ∈ F.names) : Covered F b where
  inflight := by rw [heldOn, count_start h, (h.fresh b hb).inflight]; rfl
  large := by rw [largeHeldOn, count_start h, (h.fresh b hb).largeInflight]; rfl
  limit := by
    rw [heldOn, count_start h]
    exact le_max_left _ _
  unclamped := by rw [h.trace]; simp

/-- A slot held for a large class is a slot held. -/
theorem largeHeldOn_le : F.largeHeldOn b ≤ F.heldOn b :=
  count_le_of_imp fun _ _ _ h => (Bool.and_eq_true_iff.mp h).1

/-- **Step lemma.** The counters cover the slots held after every deed but one: a
release on `b` by somebody who holds no slot on it. -/
theorem covered_step (hcov : Covered F b) (hb : b ∈ F.names) (h : Step health F d F')
    (hfair : ∀ cls, d ≠ .overRelease b cls) : Covered F' b := by
  obtain ⟨hin, hlg, hlim, hclamp⟩ := hcov
  cases load_of_step hb h with
  | quiet _ inflight large limit held largeHeld trace silent =>
    refine ⟨by rw [held, inflight]; exact hin, by rw [largeHeld, large]; exact hlg,
      by rw [held, limit]; exact hlim, ?_⟩
    rw [trace, List.mem_append, not_or]
    exact ⟨silent true, hclamp⟩
  | taken room inflight large limit held largeHeld trace =>
    -- the eligibility check compared the counter, hence the slots held, with the limit
    refine ⟨by rw [held, inflight]; push_cast; omega, ?_, ?_, by rw [trace]; simpa using hclamp⟩
    · rw [largeHeld, large]
      push_cast
      split <;> omega
    · rw [held, limit]
      push_cast
      have hroom : (F.heldOn b : ℤ) + 1 ≤ (F.row b).hardLimit := by omega
      exact hroom.trans (le_max_right _ _)
  | @returned r cls p how inflight large limit held largeHeld trace =>
    have hheld : (1 : ℤ) ≤ (F.row b).inflight := by omega
    have hlarge : cls.isLarge = true → (1 : ℤ) ≤ (F.row b).largeInflight := by
      intro hc
      rw [if_pos hc] at largeHeld
      omega
    refine ⟨by rw [inflight]; omega, ?_, by rw [limit]; omega, ?_⟩
    · rw [large]
      by_cases hc : cls.isLarge = true
      · rw [if_pos hc] at largeHeld ⊢
        omega
      · rw [if_neg hc] at largeHeld ⊢
        omega
    · -- the releasing request was counted, so neither clamp can have bitten
      rw [trace]
      have hno : (decide ((F.row b).inflight < 1) ||
          (cls.isLarge && decide ((F.row b).largeInflight < 1))) = false := by
        cases hc : cls.isLarge with
        | true => simp [not_lt.mpr hheld, not_lt.mpr (hlarge hc)]
        | false => simp [not_lt.mpr hheld]
      rw [hno]
      simpa using hclamp
  | struck => exact absurd rfl (hfair _)
  | lost inflight large limit held largeHeld trace =>
    refine ⟨by rw [inflight]; omega, ?_, by rw [limit]; omega, by rw [trace]; simpa using hclamp⟩
    rw [large]
    split at largeHeld <;> omega

/-- **Run lemma.** In a run without releases for nobody on `b`, its counters cover the
slots held on it, large ones included. -/
theorem covered_of_reach
    (h : Reach (machine health) (fun _ d => ∀ cls, d ≠ .overRelease b cls) F)
    (hb : b ∈ F.names) : Covered F b :=
  invariantOn (fun _ hF => covered_start hF)
    (fun _ _ _ hF hb hfair hd => covered_step hF hb hd hfair) h hb

/-! ## The counters count at most the slots held and those lost with a stream -/

structure Returned (F : Fleet) (b : String) : Prop where
  inflight_nonneg : 0 ≤ (F.row b).inflight
  large_nonneg : 0 ≤ (F.row b).largeInflight
  inflight : (F.row b).inflight ≤ F.heldOn b + F.lostStreams b
  large : (F.row b).largeInflight ≤ F.largeHeldOn b + F.lostStreams b

/-- At start-up nothing is counted. -/
theorem returned_start (h : F.Start) (hb : b ∈ F.names) : Returned F b := by
  have hin := (h.fresh b hb).inflight
  have hlg := (h.fresh b hb).largeInflight
  exact ⟨hin.ge, hlg.ge, by omega, by omega⟩

/-- **Step lemma.** The counters exceed the slots held by at most the lost streams. An
attempt that keeps its slot has to be such a stream; any other way to keep one is
excluded. -/
theorem returned_step (hret : Returned F b) (hb : b ∈ F.names) (h : Step health F d F')
    (hfair : ∀ r how, d = .abandon r how → how = .streamLost) : Returned F' b := by
  obtain ⟨hin₀, hlg₀, hin, hlg⟩ := hret
  have hlost : ∀ new, F'.trace = new ++ F.trace → F.lostStreams b ≤ F'.lostStreams b := by
    intro new htrace
    rw [lostStreams, lostStreams, htrace, List.countP_append]
    exact Nat.le_add_left _ _
  -- a counter moves with the slots, or a returned stream is lost
  cases load_of_step hb h with
  | quiet _ inflight large limit held largeHeld trace silent =>
    have hmono := hlost _ trace
    exact ⟨inflight ▸ hin₀, large ▸ hlg₀, by omega, by omega⟩
  | taken room inflight large limit held largeHeld trace =>
    have hmono := hlost [_] trace
    refine ⟨by omega, ?_, by omega, ?_⟩ <;> split at large <;> simp_all <;> omega
  | @returned r cls p how inflight large limit held largeHeld trace =>
    have hmono := hlost [_, _] trace
    refine ⟨by omega, ?_, by omega, ?_⟩ <;> split at large <;> simp_all <;> omega
  | struck inflight large held largeHeld trace =>
    have hmono := hlost [_] trace
    refine ⟨by omega, ?_, by omega, ?_⟩ <;> split at large <;> omega
  | @lost r cls p how inflight large limit held largeHeld trace =>
    have hone : F'.lostStreams b = F.lostStreams b + 1 := by
      rw [lostStreams, lostStreams, trace, List.countP_cons]
      obtain rfl := hfair r how rfl
      simp [Event.losesStream]
    refine ⟨by omega, by omega, by omega, ?_⟩
    split at largeHeld <;> omega

/-- **Run lemma.** When only lost streams abandon slots, the counters of every
backend are accounted for. -/
theorem returned_of_reach
    (h : Reach (machine health)
      (fun _ d => ∀ r how, d = .abandon r how → how = .streamLost) F)
    (hb : b ∈ F.names) : Returned F b :=
  invariantOn (fun _ hF => returned_start hF)
    (fun _ _ _ hF hb hfair hd => returned_step hF hb hd hfair) h hb

/-- With no slot held and none lost with a stream, both counters are zero. -/
theorem Returned.idle (h : Returned F b) (hheld : F.heldOn b = 0) (hlost : F.lostStreams b = 0) :
    (F.row b).inflight = 0 ∧ (F.row b).largeInflight = 0 := by
  have hle := largeHeldOn_le (F := F) (b := b)
  obtain ⟨hin₀, hlg₀, hin, hlg⟩ := h
  constructor <;> omega

end Fleet

end InferenceGateway
