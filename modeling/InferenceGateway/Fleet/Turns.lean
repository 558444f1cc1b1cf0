import InferenceGateway.Fleet.Model

/-!
# A deed, seen from one backend

`Turn` is the inversion of `Fleet.Step` for the breaker of one backend `b`: what
a deed can do to its circuit, its probe counter, its error rate, its history and
the slots held on it. The invariants of the breaker are proved by cases on it,
so none of them unfolds the world's operations.

- `elsewhere`: the deed is about something else, or only about counters of `b`.
- `cooled`, `dispatched`, `judged`, `strayed`, `sampled`, `ended`: one for each
  thing that can happen to the backend, with the entry it leaves in the history.

Each constructor carries what the operation checked before it wrote (the
cooldown, the eligibility of the backend) as well as what it wrote, since the
laws of the breaker are about the former. `turn_of_step` is the inversion; the
lemmas before it treat the deeds that write a row, each by the question whether
the row is the one of `b`.
-/

namespace InferenceGateway

open Lib

namespace Fleet

variable {health : HealthConfig} {F F' : Fleet} {d : Deed} {b : String}

/-- A breaker handler's entry in the history: one if the circuit moved. -/
def movedEntry (s s' : BackendRuntimeState) (cause : Cause) (t : ℚ) : List Incident :=
  if s.circuit = s'.circuit then [] else [.moved s.circuit s'.circuit cause t]

inductive Turn (health : HealthConfig) (b : String) (F : Fleet) : Fleet → Deed → Prop where
  /-- Nothing about the breaker of `b`, and no slot on it, changes. -/
  | elsewhere {F' : Fleet} {d : Deed}
      (breaker : SameBreaker (F.row b) (F'.row b))
      (rate : (F'.row b).recentErrorRate = (F.row b).recentErrorRate)
      (history : F'.history b = F.history b) (now : F.now ≤ F'.now)
      (held : ∀ r s, s.backend = b → (F'.held r = some s ↔ F.held r = some s))
      (count : ∀ p : Slot → Bool, (∀ s, p s = true → s.backend = b) → F'.count p = F.count p) :
      Turn health b F F' d
  /-- The cooldown has passed. -/
  | cooled {d : Deed} {w : World} {t : ℚ}
      (circuit : (F.row b).circuit = .opened)
      (openedAt : (F.row b).circuitOpenedAtMonotonic = some t)
      (cool : Health.cooledDown health t w.clock.now)
      (row : w.row b = { F.row b with
        circuit := .halfOpen, halfOpenProbes := 0, consecutiveFailures := 0 })
      (history : w.history b =
        .moved .opened .halfOpen .cooldown w.clock.now :: F.history b)
      (now : F.now ≤ w.clock.now) : Turn health b F { F with world := w } d
  /-- A slot is taken, the checks having passed. -/
  | dispatched {r : ReqId} {cls : RequestClass} {w : World} {s : Slot} {t : ℚ}
      (hr : r < F.population) (held : F.held r = none)
      (backend : s.backend = b) (probe : s.grant.probe = F.world.probeNow b)
      (judged : s.judged = false)
      (pass : Health.passes health (F.row b) = true)
      (circuit : (w.row b).circuit = (F.row b).circuit)
      (probes : (w.row b).halfOpenProbes =
        (F.row b).halfOpenProbes + if (F.row b).circuit = .halfOpen then 1 else 0)
      (openedAt : (w.row b).circuitOpenedAtMonotonic = (F.row b).circuitOpenedAtMonotonic)
      (rate : (w.row b).recentErrorRate = (F.row b).recentErrorRate)
      (history : w.history b = .dispatched s.grant.probe t :: F.history b)
      (before : F.now ≤ t) (now : t ≤ w.clock.now) :
      Turn health b F (F.put r (some s) w) (.acquire r b cls)
  /-- The outcome of a request that holds a slot on `b` is recorded. -/
  | judged {r : ReqId} {s : Slot} {v : Verdict} {w : World}
      (hr : r < F.population) (held : F.held r = some s) (backend : s.backend = b)
      (new : s.judged = false) (row : w.row b = v.handler health F.now (F.row b))
      (history : w.history b =
        movedEntry (F.row b) (w.row b) (v.cause s.grant.probe) F.now ++ F.history b)
      (now : w.clock.now = F.now) :
      Turn health b F (F.put r (some { s with judged := true }) w) (.judge r v)
  /-- An outcome is recorded on `b` for a request that holds no slot on it. -/
  | strayed {v : Verdict} {w : World} (row : w.row b = v.handler health F.now (F.row b))
      (history : w.history b = movedEntry (F.row b) (w.row b) (v.cause none) F.now ++ F.history b)
      (now : w.clock.now = F.now) : Turn health b F { F with world := w } (.stray b v)
  /-- The error rate is sampled. -/
  | sampled {failed : Bool} {w : World} (breaker : SameBreaker (F.row b) (w.row b))
      (rate : (w.row b).recentErrorRate =
        BackendRuntimeState.errorSample failed (F.row b).recentErrorRate)
      (history : w.history b = .sampled failed :: F.history b) (now : w.clock.now = F.now) :
      Turn health b F { F with world := w } (.sample b failed)
  /-- An attempt that held a slot on `b` is over. -/
  | ended {r : ReqId} {s : Slot} {how : Ending} {w : World} {d : Deed}
      (hr : r < F.population) (held : F.held r = some s) (backend : s.backend = b)
      (hhow : how.silent = !s.judged) (breaker : SameBreaker (F.row b) (w.row b))
      (rate : (w.row b).recentErrorRate = (F.row b).recentErrorRate)
      (history : w.history b = .ended s.grant.probe how :: F.history b)
      (now : w.clock.now = F.now) : Turn health b F (F.put r none w) d

/-! ## The inversion -/

/-- Deeds that only set the world, and show `b` nothing. -/
theorem Turn.ofWorld {w : World} (row : w.registry.row b = F.world.registry.row b)
    (history : w.history b = F.history b) (now : F.now ≤ w.clock.now) :
    Turn health b F { F with world := w } d := by
  have hbreaker : SameBreaker (F.row b) (w.registry.row b) := row ▸ .refl _
  exact .elsewhere hbreaker (congrArg _ row) history now (fun _ _ _ => Iff.rfl) (fun _ _ => rfl)

/-- Deeds that move the slot of one request, on other backends only. -/
theorem Turn.ofSlot {w : World} {r : ReqId} {x : Option Slot} (hr : r < F.population)
    (hold : ∀ s, F.held r = some s → s.backend ≠ b) (hx : ∀ s, x = some s → s.backend ≠ b)
    (row : w.registry.row b = F.world.registry.row b)
    (history : w.history b = F.history b) (now : F.now ≤ w.clock.now) :
    Turn health b F (F.put r x w) d := by
  have hbreaker : SameBreaker (F.row b) (w.registry.row b) := row ▸ .refl _
  refine .elsewhere hbreaker (congrArg _ row) history now ?_ ?_
  · intro r' s hs
    by_cases hrr : r' = r
    · subst hrr
      exact iff_of_false (fun h => hx s (by simpa [put] using h) hs) (fun h => hold s h hs)
    · simp [put, hrr]
  · intro p hp
    -- neither the old slot nor the new one is counted by what looks at `b`
    have hno : ∀ y : Option Slot, (∀ s, y = some s → s.backend ≠ b) → y.any p = false := by
      intro y hy
      cases y with
      | none => rfl
      | some s => exact Bool.eq_false_iff.mpr fun h => hy s rfl (hp s h)
    have h := count_put (F := F) (p := p) (x := x) (w := w) hr
    rw [hno _ hold, hno _ hx] at h
    exact Nat.add_right_cancel h

end Fleet

namespace World

variable {w : World} {b b₀ : String} {f : BackendRuntimeState → BackendRuntimeState}
  {cause : Cause}

/-- A handler on another backend leaves no entry. -/
theorem moveCircuit_history_of_ne (h : b ≠ b₀) :
    (w.moveCircuit b₀ f cause).history b = w.history b := by
  rcases moveCircuit_trace w b₀ f cause with htr | ⟨src, dst, htr⟩
  · exact congrArg (InferenceGateway.history b) htr
  · refine (congrArg (InferenceGateway.history b) htr).trans ?_
    rw [history_cons]
    simp [Event.seenBy, h.symm, history]

/-- A handler on a registered backend leaves an entry if it moves the circuit. -/
theorem moveCircuit_history (hb : b ∈ w.names) :
    (w.moveCircuit b f cause).history b =
      Fleet.movedEntry (w.row b) ((w.moveCircuit b f cause).row b) cause w.clock.now ++
        w.history b := by
  show InferenceGateway.history b (w.moveCircuit b f cause).trace = _
  simp only [Fleet.movedEntry, row, moveCircuit_row_self hb]
  rw [moveCircuit_of_mem hb]
  by_cases h : (w.row b).circuit = (f (w.row b)).circuit
  · rw [if_pos h, if_pos h]
    rfl
  · rw [if_neg h, if_neg h, emit_trace, history_cons]
    simp [Event.seenBy, history]

/-- A release is no entry in anybody's history. -/
theorem releaseDispatch_history {cls : RequestClass} :
    (w.releaseDispatch b₀ cls).history b = w.history b := by
  rcases releaseDispatch_trace w b₀ cls with h | ⟨c, h⟩
  · exact congrArg (InferenceGateway.history b) h
  · exact (congrArg (InferenceGateway.history b) h).trans (history_cons ..)

/-- A release touches counters only. -/
theorem releaseDispatch_breaker {cls : RequestClass} :
    Fleet.SameBreaker (w.registry.row b) ((w.releaseDispatch b₀ cls).registry.row b) ∧
      ((w.releaseDispatch b₀ cls).registry.row b).recentErrorRate =
        (w.registry.row b).recentErrorRate := by
  by_cases hbb : b = b₀
  · subst hbb
    by_cases hb : b ∈ w.names
    · rw [releaseDispatch_of_mem hb]
      simp only [emit_registry, setRow_row_self]
      exact ⟨⟨rfl, rfl, rfl⟩, trivial⟩
    · rw [releaseDispatch_of_notMem hb]
      exact ⟨.refl _, rfl⟩
  · rw [releaseDispatch_row_of_ne hbb]
    exact ⟨.refl _, rfl⟩

end World

namespace Fleet

variable {health : HealthConfig} {F F' : Fleet} {d : Deed} {b : String}

theorem takeSlot_history_of_ne {w : World} {b₀ : String} {cls : RequestClass} (h : b ≠ b₀) :
    (w.takeSlot b₀ cls).1.history b = w.history b := by
  refine (congrArg (InferenceGateway.history b) World.takeSlot_trace).trans ?_
  rw [history_cons]
  simp [Event.seenBy, h.symm, World.history]

/-- A slot taken on `b` is entered as a dispatch, with the probe it uses up. -/
theorem takeSlot_history {w : World} {cls : RequestClass} :
    (w.takeSlot b cls).1.history b =
      .dispatched (w.probeNow b) w.clock.read.now :: w.history b := by
  refine (congrArg (InferenceGateway.history b) World.takeSlot_trace).trans ?_
  rw [history_cons]
  simp [Event.seenBy, World.history]

theorem emit_history_ended {w : World} {b₀ : String} {probe : Option ℕ} {how : Ending} :
    (w.emit (.ended b₀ probe how)).history b =
      if b₀ = b then .ended probe how :: w.history b else w.history b := by
  refine (history_cons ..).trans ?_
  by_cases h : b₀ = b <;> simp [Event.seenBy, h, World.history]

/-- The cooldown check on some backend: on `b` it may move the circuit, and elsewhere
only time passes. -/
theorem turn_cool {b₀ : String} (hb : b ∈ F.names) :
    Turn health b F { F with world := F.world.maybeTransitionFromOpen health b₀ } d := by
  have hnow := F.world.clock.now_le_read
  by_cases hbb : b = b₀
  · subst hbb
    have hrow : (F.world.maybeTransitionFromOpen health b).registry.row b =
        Health.maybeTransitionFromOpen health F.world.clock.read.now (F.row b) :=
      World.moveCircuit_row_self (w := F.world.readClock) hb
    have hhist : (F.world.maybeTransitionFromOpen health b).history b =
        movedEntry (F.row b) ((F.world.maybeTransitionFromOpen health b).registry.row b) .cooldown
          F.world.clock.read.now ++ F.history b :=
      World.moveCircuit_history (w := F.world.readClock) hb
    have hclock : (F.world.maybeTransitionFromOpen health b).clock = F.world.clock.read :=
      World.moveCircuit_clock
    -- cooled down and moved, or nothing happened
    rcases Health.maybeTransitionFromOpen_cases health F.world.clock.read.now (F.row b) with
      ⟨t, hopen, hat, hcool, hcases⟩ | hcases
    · rw [hrow, hcases, movedEntry, if_neg (by simp [hopen]), hopen] at hhist
      refine .cooled hopen hat ?_ (hrow.trans hcases) ?_ ?_
      · rw [hclock]
        exact hcool
      · rw [hclock]
        exact hhist
      · rw [hclock]
        exact hnow
    · rw [hrow, hcases, movedEntry, if_pos rfl] at hhist
      exact .ofWorld (hrow.trans hcases) hhist (hclock ▸ hnow)
  · refine .ofWorld (World.maybeTransitionFromOpen_row_of_ne hbb)
      (World.moveCircuit_history_of_ne hbb) ?_
    show F.world.clock.now ≤ (World.moveCircuit _ _ _ _).clock.now
    rw [World.moveCircuit_clock]
    exact hnow

/-- A slot is taken: on `b`, or on another backend. -/
theorem turn_acquire {r : ReqId} {b₀ : String} {cls : RequestClass} (hr : r < F.population)
    (hheld : F.held r = none) (hpass : Health.passes health (F.row b₀) = true) :
    Turn health b F (F.put r (some ⟨(F.world.takeSlot b₀ cls).2, cls, false⟩)
      (F.world.takeSlot b₀ cls).1) (.acquire r b₀ cls) := by
  have hnow := F.world.clock.now_le_read
  -- the slot is taken on this backend or on another
  by_cases hbb : b = b₀
  · subst hbb
    have hrow := F.world.takeSlot_row_self b cls
    refine .dispatched hr hheld rfl rfl rfl hpass ?_ ?_ ?_ ?_ takeSlot_history hnow ?_
    · exact (congrArg BackendRuntimeState.circuit hrow).trans rfl
    · exact (congrArg BackendRuntimeState.halfOpenProbes hrow).trans rfl
    · exact (congrArg BackendRuntimeState.circuitOpenedAtMonotonic hrow).trans rfl
    · exact (congrArg BackendRuntimeState.recentErrorRate hrow).trans rfl
    · rw [World.takeSlot_clock]
  · refine .ofSlot hr (fun s hs => ?_) (fun s hs => ?_) (World.takeSlot_row_of_ne hbb)
      (takeSlot_history_of_ne hbb) (by rw [World.takeSlot_clock]; exact hnow)
    · rw [hheld] at hs
      cases hs
    · obtain rfl := Option.some.inj hs
      exact fun h => hbb h.symm

/-- An outcome is recorded: on `b`, or on another backend. -/
theorem turn_judge {r : ReqId} {s : Slot} {v : Verdict} (hb : b ∈ F.names) (hr : r < F.population)
    (hheld : F.held r = some s) (hnew : s.judged = false) :
    Turn health b F (F.put r (some { s with judged := true })
      (F.world.moveCircuit s.backend (v.handler health F.now) (v.cause s.grant.probe)))
      (.judge r v) := by
  by_cases hbb : s.backend = b
  · rw [hbb]
    exact .judged hr hheld hbb hnew (World.moveCircuit_row_self hb)
      (World.moveCircuit_history hb) (by rw [World.moveCircuit_clock])
  · refine .ofSlot hr (fun s' hs' => ?_) (fun s' hs' => ?_)
      (World.moveCircuit_row_of_ne (Ne.symm hbb)) (World.moveCircuit_history_of_ne (Ne.symm hbb))
      (by rw [World.moveCircuit_clock])
    · rw [hheld] at hs'
      exact Option.some.inj hs' ▸ hbb
    · exact Option.some.inj hs' ▸ hbb

/-- The averages of some backend are fed. A name that is not registered is ignored. -/
theorem turn_sample {b₀ : String} {failed : Bool} {f : BackendRuntimeState → BackendRuntimeState}
    (hf : Blends failed f) :
    Turn health b F { F with world := sampled F.world b₀ failed f } (.sample b₀ failed) := by
  by_cases hb₀ : b₀ ∈ F.names
  · have hworld : sampled F.world b₀ failed f =
        (F.world.setRow b₀ (f (F.row b₀))).emit (.sampled b₀ failed) := if_pos hb₀
    have hhist : (sampled F.world b₀ failed f).history b =
        (Event.seenBy b (.sampled b₀ failed)).toList ++ F.history b := by
      rw [hworld]
      exact history_cons ..
    rw [hworld] at hhist ⊢
    -- a sample on another backend is in its history, not in that of `b`
    by_cases hbb : b = b₀
    · subst hbb
      have hrow : ((F.world.setRow b (f (F.row b))).emit (.sampled b failed)).row b =
          f (F.row b) := World.setRow_row_self
      refine .sampled ?_ ?_ ?_ rfl
      · rw [hrow]
        exact hf.sameBreaker _
      · rw [hrow]
        exact hf.recentErrorRate _
      · simpa [Event.seenBy] using hhist
    · exact .ofWorld (World.setRow_row_of_ne hbb) (by simpa [Event.seenBy, Ne.symm hbb] using hhist)
        (le_refl _)
  · have hworld : sampled F.world b₀ failed f = F.world := if_neg hb₀
    rw [hworld]
    exact .ofWorld rfl rfl (le_refl _)

/-- An attempt ends in a world whose breakers are those before it. -/
theorem turn_end {r : ReqId} {s : Slot} {how : Ending} {w : World} (hr : r < F.population)
    (hheld : F.held r = some s) (hhow : how.silent = !s.judged)
    (hbreaker : SameBreaker (F.row b) (w.registry.row b))
    (hrate : (w.registry.row b).recentErrorRate = (F.row b).recentErrorRate)
    (hrow : b ≠ s.backend → w.registry.row b = F.world.registry.row b)
    (hhist : w.history b = F.history b) (hnow : w.clock = F.world.clock) :
    Turn health b F (F.put r none (w.emit (.ended s.backend s.grant.probe how))) d := by
  by_cases hbb : s.backend = b
  · refine .ended hr hheld hbb hhow hbreaker hrate ?_ (congrArg _ hnow)
    rw [emit_history_ended, if_pos hbb, hhist]
  · refine .ofSlot hr (fun s' hs' => ?_) (fun s' hs' => by cases hs') (hrow (Ne.symm hbb)) ?_
      (congrArg _ hnow).ge
    · rw [hheld] at hs'
      exact Option.some.inj hs' ▸ hbb
    · rw [emit_history_ended, if_neg hbb, hhist]

/-- **Every deed, seen from one backend's breaker.** The invariants of the breaker and
of the probes are proved by cases on what this lemma returns. -/
theorem turn_of_step (hb : b ∈ F.names) (h : Step health F d F') : Turn health b F F' d := by
  -- by the deed; whatever is about another backend passes this one by
  cases h with
  | enrol hvacant =>
    exact .elsewhere (.refl _) rfl rfl (le_refl _) (fun _ _ _ => Iff.rfl)
      fun _ _ => count_enrol hvacant
  | idle hc => exact .ofWorld rfl rfl hc
  | @note e he =>
    refine .ofWorld rfl ?_ (le_refl _)
    refine (history_cons ..).trans ?_
    cases e <;> first | rfl | cases he
  | cool => exact turn_cool hb
  | acquire hr hheld _ hpass => exact turn_acquire hr hheld hpass
  | judge hr hheld hnew => exact turn_judge hb hr hheld hnew
  | @stray b₀ v =>
    by_cases hbb : b = b₀
    · subst hbb
      exact .strayed (World.moveCircuit_row_self hb) (World.moveCircuit_history hb)
        (by rw [World.moveCircuit_clock])
    · exact .ofWorld (World.moveCircuit_row_of_ne hbb) (World.moveCircuit_history_of_ne hbb)
        (by rw [World.moveCircuit_clock])
  | sample hf => exact turn_sample hf
  | giveUp hr hheld hhow =>
    exact turn_end hr hheld hhow World.releaseDispatch_breaker.1 World.releaseDispatch_breaker.2
      World.releaseDispatch_row_of_ne World.releaseDispatch_history World.releaseDispatch_clock
  | overRelease =>
    exact .elsewhere World.releaseDispatch_breaker.1 World.releaseDispatch_breaker.2
      World.releaseDispatch_history (congrArg _ World.releaseDispatch_clock).ge
      (fun _ _ _ => Iff.rfl) (fun _ _ => rfl)
  | abandon hr hheld hhow =>
    exact turn_end hr hheld hhow (.refl _) rfl (fun _ => rfl) rfl rfl

end Fleet

end InferenceGateway
