import InferenceGateway.Fleet.Breaker

/-!
# Probes: the half-open counter against what is outstanding

`half_open_probes` is compared with the slots that requests hold on a half-open
backend. The code only ever increments it, and resets it when the circuit moves,
so there is nothing in the code that ties it to the probes in flight; these
invariants do.

- `Probes`: in half-open the counter is the number of probes of this period that
  are outstanding, plus the number of them that have ended without recording an
  outcome. Only recording an outcome, which ends the period, resets it.
- `Outstanding`: when no probe was outstanding on any entry into half-open,
  every probe outstanding in half-open is one of this period, so
  `probesHeldOn_le` bounds them by the allowance.

A period is numbered by the entries into half-open so far, and each probe
carries the number it was dispatched under. Both invariants are proved by cases
on `Turn`, with one lemma for each turn that can move a probe or the circuit,
and hold in every run.
-/

namespace InferenceGateway

open Lib

/-! ## Readings of a history -/

/-- A probe of period `k` ended without recording an outcome. -/
def Incident.endsSilently (k : ℕ) : Incident → Bool
  | ended (some k') how => decide (k' = k) && how.silent
  | _ => false

/-- Probes of the current period that ended without recording an outcome. -/
def silentEnds (past : List Incident) : ℕ := past.countP (Incident.endsSilently (period past))

/-- A probe was dispatched. -/
def Incident.sendsProbe : Incident → Bool
  | dispatched (some _) _ => true
  | _ => false

/-- An attempt that was a probe ended. -/
def Incident.endsProbe : Incident → Bool
  | ended (some _) _ => true
  | _ => false

/-- No probe is outstanding, going by the history: all that were sent have ended. -/
def ProbesDone (past : List Incident) : Prop :=
  past.countP Incident.sendsProbe = past.countP Incident.endsProbe

/-- When half-open is entered, no probe of an earlier period is outstanding. -/
def EntersClean : Incident → List Incident → Prop
  | .moved _ .halfOpen _ _, past => ProbesDone past
  | _, _ => True

instance (past : List Incident) : Decidable (ProbesDone past) := Nat.decEq _ _

instance : ∀ (e : Incident) (past : List Incident), Decidable (EntersClean e past)
  | .moved _ .halfOpen _ _, past => inferInstanceAs (Decidable (ProbesDone past))
  | .moved _ .closed _ _, _ | .moved _ .opened _ _, _ | .dispatched .., _ | .sampled _, _
  | .ended .., _ => .isTrue trivial

namespace Fleet

variable {health : HealthConfig} {F F' : Fleet} {d : Deed} {b : String}

/-! ## The counter -/

structure Probes (F : Fleet) (b : String) : Prop where
  held_le : ∀ r s, F.held r = some s → s.backend = b → ∀ k, s.grant.probe = some k →
    k ≤ F.period b
  ended_le : ∀ k how, .ended (some k) how ∈ F.history b → k ≤ F.period b
  /-- In half-open no probe of the period has had an outcome recorded. -/
  unjudged : (F.row b).circuit = .halfOpen → ∀ r s, F.held r = some s → s.backend = b →
    s.grant.probe = some (F.period b) → s.judged = false
  count : (F.row b).circuit = .halfOpen → (F.row b).halfOpenProbes =
    F.count (Slot.probeOf b (F.period b)) + silentEnds (F.history b)

/-- At start-up there is no probe, and the circuit is not half-open. -/
theorem probes_start (h : F.Start) (hb : b ∈ F.names) : Probes F b := by
  have hclosed : (F.row b).circuit ≠ .halfOpen := by
    rw [(h.fresh b hb).circuit]
    simp
  refine ⟨?_, ?_, fun hho => absurd hho hclosed, fun hho => absurd hho hclosed⟩
  · intro r s hs
    rw [h.held] at hs
    cases hs
  · intro k how hmem
    rw [history_start h] at hmem
    cases hmem

/-- Entries that are not moves leave the period alone. -/
theorem period_cons {e : Incident} {past : List Incident} (he : e.entersHalfOpen = false) :
    InferenceGateway.period (e :: past) = InferenceGateway.period past := by
  simp [InferenceGateway.period, he]

/-- One more entry, and the period is the same unless the entry is a move into
half-open. -/
theorem period_of_history {w : World} {e : Incident} (history : w.history b = e :: F.history b)
    (he : e.entersHalfOpen = false) : w.period b = F.period b := by
  show InferenceGateway.period (w.history b) = _
  rw [history]
  exact period_cons he

/-- An entry of the history now is the new one or was there before. -/
theorem mem_of_history {w : World} {e x : Incident} (history : w.history b = e :: F.history b)
    (hx : x ∈ w.history b) : x = e ∨ x ∈ F.history b := by
  rw [history] at hx
  exact List.mem_cons.mp hx

/-- A move that does not lead into half-open leaves the period alone. -/
theorem period_movedEntry {s s' : BackendRuntimeState} {cause : Cause} {t : ℚ}
    {past : List Incident} (h : s'.circuit ≠ .halfOpen) :
    InferenceGateway.period (movedEntry s s' cause t ++ past) = InferenceGateway.period past := by
  unfold movedEntry
  split
  · rfl
  · refine period_cons ?_
    cases hc : s'.circuit with
    | halfOpen => exact absurd hc h
    | _ => rfl

/-- Silent ends are counted per period, and most entries are none. -/
theorem silentEnds_cons {e : Incident} {past : List Incident} (he : e.entersHalfOpen = false)
    (hs : ∀ k, e.endsSilently k = false) : silentEnds (e :: past) = silentEnds past := by
  unfold silentEnds
  rw [period_cons he, List.countP_cons, hs]
  rfl

theorem mem_movedEntry {s s' : BackendRuntimeState} {cause : Cause} {t : ℚ}
    {past : List Incident} {k : ℕ} {how : Ending}
    (h : .ended (some k) how ∈ movedEntry s s' cause t ++ past) : .ended (some k) how ∈ past := by
  refine (List.mem_append.mp h).resolve_left ?_
  unfold movedEntry
  split <;> simp

/-- An outcome has been recorded, so the circuit is not half-open: a success closes it
and a failure opens it. The counter stands for nothing then. -/
theorem Probes.recorded (hp : Probes F b) {v : Verdict} {w : World} {probe : Option ℕ}
    {held : ReqId → Option Slot} {n : ℕ}
    (row : w.row b = v.handler health F.now (F.row b))
    (history : w.history b = movedEntry (F.row b) (w.row b) (v.cause probe) F.now ++ F.history b)
    (hheld : ∀ r s, held r = some s → ∃ s', F.held r = some s' ∧ s'.grant = s.grant) :
    Probes ⟨w, held, n⟩ b := by
  -- half-open is over, so only the bounds on periods are left to prove
  have hhalf : (w.row b).circuit ≠ .halfOpen := by
    rw [row]
    exact v.handler_circuit_ne
  have hperiod : w.period b = F.period b := by
    show InferenceGateway.period (w.history b) = _
    rw [history, period_movedEntry hhalf]
    rfl
  refine ⟨?_, ?_, fun hho => absurd hho hhalf, fun hho => absurd hho hhalf⟩
  · intro r s hs hsb k hk
    obtain ⟨s', hs', hgrant⟩ := hheld r s hs
    show k ≤ w.period b
    rw [hperiod]
    exact hp.held_le r s' hs' (by rw [Slot.backend, hgrant]; exact hsb) k (by rw [hgrant]; exact hk)
  · intro k how hmem
    show k ≤ w.period b
    rw [hperiod]
    have hmem : .ended (some k) how ∈ w.history b := hmem
    rw [history] at hmem
    exact hp.ended_le k how (mem_movedEntry hmem)

/-- The breaker of `b` stays as it is, and so do the probes outstanding on it. -/
theorem Probes.sameBreaker (hp : Probes F b) (breaker : SameBreaker (F.row b) (F'.row b))
    (period : F'.period b = F.period b)
    (silent : silentEnds (F'.history b) = silentEnds (F.history b))
    (ended : ∀ k how, .ended (some k) how ∈ F'.history b → .ended (some k) how ∈ F.history b)
    (held : ∀ r s, s.backend = b → F'.held r = some s → F.held r = some s)
    (count : ∀ k, F'.count (Slot.probeOf b k) = F.count (Slot.probeOf b k)) : Probes F' b := by
  refine ⟨?_, ?_, ?_, ?_⟩
  · intro r s hs hsb
    rw [period]
    exact hp.held_le r s (held r s hsb hs) hsb
  · intro k how hmem
    rw [period]
    exact hp.ended_le k how (ended k how hmem)
  · intro hho r s hs hsb
    rw [period]
    exact hp.unjudged (breaker.circuit.symm.trans hho) r s (held r s hsb hs) hsb
  · intro hho
    rw [period, silent, count, breaker.halfOpenProbes]
    exact hp.count (breaker.circuit.symm.trans hho)

/-- Half-open is entered with a new period. No slot that is held and no attempt that has
ended belongs to it, so the counter starts from nothing. -/
theorem Probes.cooled (hp : Probes F b) {w : World}
    (row : w.row b = { F.row b with
      circuit := .halfOpen, halfOpenProbes := 0, consecutiveFailures := 0 })
    (history : w.history b = .moved .opened .halfOpen .cooldown w.clock.now :: F.history b) :
    Probes { F with world := w } b := by
  have hperiod : w.period b = F.period b + 1 := by
    show InferenceGateway.period (w.history b) = _
    rw [history]
    exact List.countP_cons_of_pos rfl
  have hended : ∀ k how, .ended (some k) how ∈ w.history b → k ≤ F.period b := by
    intro k how hmem
    exact hp.ended_le k how ((mem_of_history history hmem).resolve_left (by simp))
  -- the period is a fresh number: every probe so far is older
  have hnew : ∀ k, k ≤ F.period b → k ≠ w.period b := by
    intro k hk
    omega
  refine ⟨?_, ?_, ?_, ?_⟩
  · intro r s hs hsb k hk
    have hle := hp.held_le r s hs hsb k hk
    show k ≤ w.period b
    omega
  · intro k how hmem
    have hle := hended k how hmem
    show k ≤ w.period b
    omega
  · intro _ r s hs hsb hk
    exact absurd rfl (hnew _ (hp.held_le r s hs hsb _ hk))
  · intro _
    have hzero : (w.row b).halfOpenProbes = 0 := by rw [row]
    have hheld : F.count (Slot.probeOf b (w.period b)) = 0 := by
      refine tally_eq_zero.mpr fun r _ => ?_
      cases hs : F.held r with
      | none => rfl
      | some s =>
        refine Bool.eq_false_iff.mpr fun hon => ?_
        obtain ⟨hsb, hk⟩ := Bool.and_eq_true_iff.mp hon
        exact hnew _ (hp.held_le r s hs (of_decide_eq_true hsb) _ (of_decide_eq_true hk)) rfl
    -- a silent end of the new period would be of a probe that is not older
    have hsilent : silentEnds (w.history b) = 0 := by
      refine List.countP_eq_zero.mpr fun e he hends => ?_
      cases e with
      | ended probe how =>
        cases probe with
        | none => cases hends
        | some k =>
          obtain ⟨hk, -⟩ := Bool.and_eq_true_iff.mp hends
          exact hnew k (hended k how he) (of_decide_eq_true hk)
      | _ => cases hends
    show (w.row b).halfOpenProbes = F.count (Slot.probeOf b (w.period b)) + silentEnds (w.history b)
    rw [hzero, hheld, hsilent]
    rfl

/-- A slot is taken. In half-open it is a probe of the current period, and the counter
goes up with the number of those held. -/
theorem Probes.dispatched (hp : Probes F b) {r : ReqId} {s : Slot} {w : World} {t : ℚ}
    (hr : r < F.population) (held : F.held r = none) (backend : s.backend = b)
    (probe : s.grant.probe = F.world.probeNow b) (judged : s.judged = false)
    (circuit : (w.row b).circuit = (F.row b).circuit)
    (probes : (w.row b).halfOpenProbes =
      (F.row b).halfOpenProbes + if (F.row b).circuit = .halfOpen then 1 else 0)
    (history : w.history b = .dispatched s.grant.probe t :: F.history b) :
    Probes (F.put r (some s) w) b := by
  have hperiod : w.period b = F.period b := period_of_history history rfl
  -- a probe is labelled with the period it is dispatched in
  have hprobe : ∀ k, s.grant.probe = some k → k = F.period b := by
    intro k hk
    rw [probe, World.probeNow] at hk
    split at hk
    · exact (Option.some.inj hk).symm
    · cases hk
  refine ⟨?_, ?_, ?_, ?_⟩
  · intro r' s' hs' hsb k hk
    show k ≤ w.period b
    rw [hperiod]
    rcases held_of_put hs' with ⟨-, heq⟩ | hs'
    · obtain rfl := Option.some.inj heq
      exact (hprobe k hk).le
    · exact hp.held_le r' s' hs' hsb k hk
  · intro k how hmem
    show k ≤ w.period b
    rw [hperiod]
    exact hp.ended_le k how ((mem_of_history history hmem).resolve_left (by simp))
  · intro hho r' s' hs' hsb hk
    have hk' : s'.grant.probe = some (w.period b) := hk
    rw [hperiod] at hk'
    rcases held_of_put hs' with ⟨-, heq⟩ | hs'
    · obtain rfl := Option.some.inj heq
      exact judged
    · exact hp.unjudged (circuit.symm.trans hho) r' s' hs' hsb hk'
  · intro hho
    have hho' : (F.row b).circuit = .halfOpen := circuit.symm.trans hho
    have hon : Slot.probeOf b (w.period b) s = true := by
      rw [hperiod, Slot.probeOf, Slot.on, probe, World.probeNow, if_pos hho']
      simp [backend]
    -- the counter and the number of probes outstanding both grow by one
    have hadd := count_acquire (F := F) (p := Slot.probeOf b (w.period b)) (w := w) (s := s)
      hr held
    rw [if_pos hon] at hadd
    show (w.row b).halfOpenProbes =
      (F.put r (some s) w).count (Slot.probeOf b (w.period b)) + silentEnds (w.history b)
    rw [hadd, probes, if_pos hho', hp.count hho', hperiod, history,
      silentEnds_cons rfl fun _ => rfl]
    push_cast
    ring

/-- The end of an attempt counts as silent exactly if it was a probe of the period:
such a probe has had no outcome recorded, or half-open would be over. -/
theorem Probes.silentEnds_ended (hp : Probes F b) {r : ReqId} {s : Slot} {how : Ending}
    (held : F.held r = some s) (backend : s.backend = b) (hhow : how.silent = !s.judged)
    (hho : (F.row b).circuit = .halfOpen) :
    silentEnds (.ended s.grant.probe how :: F.history b) = silentEnds (F.history b) +
      if Slot.probeOf b (F.period b) s = true then 1 else 0 := by
  unfold silentEnds
  rw [period_cons rfl, List.countP_cons]
  congr 1
  by_cases hon : Slot.probeOf b (F.period b) s = true
  · have hk := of_decide_eq_true (Bool.and_eq_true_iff.mp hon).2
    have hquiet := hp.unjudged hho r s held backend hk
    rw [if_pos hon, hk]
    simp [Incident.endsSilently, hhow, hquiet, Fleet.period, World.period]
  -- a probe of another period, or no probe, is not counted in this one
  · rw [if_neg hon, if_neg]
    cases hpr : s.grant.probe with
    | none => simp [Incident.endsSilently]
    | some k =>
      have hne : k ≠ InferenceGateway.period (F.history b) := by
        rintro rfl
        exact hon (by simp [Slot.probeOf, Slot.on, backend, hpr, World.period])
      simp [Incident.endsSilently, hne]

/-- An attempt that held a slot on `b` is over. If it ended without an outcome its probe
stays counted, and is one of the silent ends from now on. -/
theorem Probes.ended (hp : Probes F b) {r : ReqId} {s : Slot} {how : Ending} {w : World}
    (hr : r < F.population) (held : F.held r = some s) (backend : s.backend = b)
    (hhow : how.silent = !s.judged) (breaker : SameBreaker (F.row b) (w.row b))
    (history : w.history b = .ended s.grant.probe how :: F.history b) :
    Probes (F.put r none w) b := by
  have hperiod : w.period b = F.period b := period_of_history history rfl
  have hslots : ∀ r' s', (F.put r none w).held r' = some s' → F.held r' = some s' :=
    fun r' s' hs' => (held_of_put hs').resolve_left fun h => by cases h.2
  refine ⟨?_, ?_, ?_, ?_⟩
  · intro r' s' hs' hsb
    show ∀ k, _ → k ≤ w.period b
    rw [hperiod]
    exact hp.held_le r' s' (hslots r' s' hs') hsb
  · intro k how' hmem
    show k ≤ w.period b
    rw [hperiod]
    rcases mem_of_history history hmem with heq | hmem
    · exact hp.held_le r s held backend k (Incident.ended.inj heq).1.symm
    · exact hp.ended_le k how' hmem
  · intro hho r' s' hs' hsb hk
    have hk' : s'.grant.probe = some (w.period b) := hk
    rw [hperiod] at hk'
    exact hp.unjudged (breaker.circuit.symm.trans hho) r' s' (hslots r' s' hs') hsb hk'
  · intro hho
    have hho' := breaker.circuit.symm.trans hho
    -- one probe less is outstanding, and one more has ended silently
    have hsub := count_end (F := F) (p := Slot.probeOf b (F.period b)) (w := w) hr held
    have hsilent := hp.silentEnds_ended held backend hhow hho'
    show (w.row b).halfOpenProbes =
      (F.put r none w).count (Slot.probeOf b (w.period b)) + silentEnds (w.history b)
    rw [hperiod, history, hsilent, breaker.halfOpenProbes, hp.count hho', ← hsub]
    push_cast
    ring

/-- **Step lemma.** What the probe counter of `b` counts is kept by every deed, by the
lemma above for the turn that the deed is for `b`. -/
theorem probes_step (hp : Probes F b) (hb : b ∈ F.names) (h : Step health F d F') :
    Probes F' b := by
  -- by what one deed does to the row of `b`
  cases turn_of_step hb h with
  | elsewhere breaker rate history now held count =>
    have hperiod : F'.period b = F.period b := congrArg InferenceGateway.period history
    refine hp.sameBreaker breaker hperiod (congrArg silentEnds history) (fun k how => ?_)
      (fun r s hsb => (held r s hsb).mp) (fun k => count _ fun s hs => ?_)
    · rw [history]
      exact id
    · exact of_decide_eq_true (Bool.and_eq_true_iff.mp hs).1
  | cooled circuit openedAt cool row history now => exact hp.cooled row history
  | dispatched hr held backend probe judged pass circuit probes openedAt rate history =>
    exact hp.dispatched hr held backend probe judged circuit probes history
  | @judged r s v w hr held backend new row history now =>
    refine hp.recorded row history fun r' s' hs' => ?_
    rcases held_of_put (w := w) hs' with ⟨rfl, heq⟩ | hs'
    · obtain rfl := Option.some.inj heq
      exact ⟨s, held, rfl⟩
    · exact ⟨s', hs', rfl⟩
  | strayed row history now => exact hp.recorded row history fun r s hs => ⟨s, hs, rfl⟩
  | @sampled failed w breaker rate history now =>
    refine hp.sameBreaker breaker (period_of_history history rfl) ?_ ?_ (fun _ _ _ hs => hs)
      (fun _ => rfl)
    · exact (congrArg silentEnds history).trans (silentEnds_cons rfl fun _ => rfl)
    · exact fun k how hmem => (mem_of_history history hmem).resolve_left (by simp)
  | ended hr held backend hhow breaker rate history now =>
    exact hp.ended hr held backend hhow breaker history

/-- **Run lemma.** In every run, whatever its steps are, the probe counter of `b` is
accounted for by the probes that are held and those that have ended silently. -/
theorem probes_of_reach {licence : Fleet → Deed → Prop} (h : Reach (machine health) licence F)
    (hb : b ∈ F.names) : Probes F b :=
  invariantOn (fun _ hF => probes_start hF) (fun _ _ _ hF hb _ hd => probes_step hF hb hd) h hb

/-- With nothing outstanding, the half-open counter is made of silent ends only. -/
theorem Probes.idle (hp : Probes F b) (hidle : F.heldOn b = 0)
    (hho : (F.row b).circuit = .halfOpen) :
    (F.row b).halfOpenProbes = silentEnds (F.history b) := by
  have hle : F.count (Slot.probeOf b (F.period b)) ≤ F.heldOn b :=
    count_le_of_imp fun _ _ _ h => (Bool.and_eq_true_iff.mp h).1
  have hzero : F.count (Slot.probeOf b (F.period b)) = 0 := by omega
  rw [hp.count hho, hzero]
  simp

/-! ## Probes of earlier periods -/

/-- Probes outstanding, against those sent and ended; and when every entry into
half-open was clean, all of them are of the current period. -/
structure Outstanding (F : Fleet) (b : String) : Prop where
  balance : F.probesHeldOn b + (F.history b).countP Incident.endsProbe =
    (F.history b).countP Incident.sendsProbe
  own : Lawful EntersClean (F.history b) → (F.row b).circuit = .halfOpen →
    F.probesHeldOn b = F.count (Slot.probeOf b (F.period b))

/-- A probe of one period is a probe. -/
theorem probeOn_of_probeOf {k : ℕ} {s : Slot} (h : s.probeOf b k = true) : s.probeOn b = true := by
  obtain ⟨hon, hk⟩ := Bool.and_eq_true_iff.mp h
  rw [Slot.probeOn, hon, of_decide_eq_true hk]
  rfl

/-- The probes of one period are among all probes outstanding. -/
theorem count_probeOf_le {k : ℕ} : F.count (Slot.probeOf b k) ≤ F.probesHeldOn b :=
  count_le_of_imp fun _ _ _ => probeOn_of_probeOf

/-- A dispatch sends a probe exactly when the slot it takes is one. -/
theorem sendsProbe_dispatched {s : Slot} {t : ℚ} (hb : s.backend = b) :
    Incident.sendsProbe (.dispatched s.grant.probe t) = s.probeOn b := by
  cases hp : s.grant.probe <;> simp [Incident.sendsProbe, Slot.probeOn, Slot.on, hb, hp]

/-- The end of an attempt ends a probe exactly when the slot it had was one. -/
theorem endsProbe_ended {s : Slot} {how : Ending} (hb : s.backend = b) :
    Incident.endsProbe (.ended s.grant.probe how) = s.probeOn b := by
  cases hp : s.grant.probe <;> simp [Incident.endsProbe, Slot.probeOn, Slot.on, hb, hp]

/-- At start-up no probe has been sent. -/
theorem outstanding_start (h : F.Start) : Outstanding F b := by
  refine ⟨?_, fun _ _ => ?_⟩
  · rw [probesHeldOn, count_start h, history_start h]
    rfl
  · rw [probesHeldOn, count_start h, count_start h]

/-- A move of the circuit is counted by nothing that counts other entries. -/
theorem countP_movedEntry {s s' : BackendRuntimeState} {cause : Cause} {t : ℚ}
    {past : List Incident} {p : Incident → Bool}
    (hp : ∀ src dst c t, p (.moved src dst c t) = false) :
    (movedEntry s s' cause t ++ past).countP p = past.countP p := by
  unfold movedEntry
  split
  · rfl
  · exact List.countP_cons_of_neg (by simp [hp])

/-- An outcome has been recorded, and no slot has moved. -/
theorem Outstanding.recorded (hout : Outstanding F b) {v : Verdict} {w : World}
    {probe : Option ℕ} (row : w.row b = v.handler health F.now (F.row b))
    (history : w.history b = movedEntry (F.row b) (w.row b) (v.cause probe) F.now ++ F.history b)
    {held : ReqId → Option Slot} {n : ℕ}
    (hheld : (⟨w, held, n⟩ : Fleet).probesHeldOn b = F.probesHeldOn b) :
    Outstanding ⟨w, held, n⟩ b := by
  refine ⟨?_, fun _ hho => ?_⟩
  · show _ + (w.history b).countP _ = (w.history b).countP _
    rw [hheld, history, countP_movedEntry fun _ _ _ _ => rfl,
      countP_movedEntry fun _ _ _ _ => rfl]
    exact hout.balance
  · have hho' : (w.row b).circuit = .halfOpen := hho
    rw [row] at hho'
    exact absurd hho' v.handler_circuit_ne

/-- The breaker of `b` stays as it is, and so do the probes sent, ended and
outstanding. -/
theorem Outstanding.sameBreaker (hout : Outstanding F b)
    (breaker : SameBreaker (F.row b) (F'.row b)) (period : F'.period b = F.period b)
    (sent : (F'.history b).countP Incident.sendsProbe = (F.history b).countP Incident.sendsProbe)
    (ended : (F'.history b).countP Incident.endsProbe = (F.history b).countP Incident.endsProbe)
    (lawful : Lawful EntersClean (F'.history b) → Lawful EntersClean (F.history b))
    (count : ∀ p : Slot → Bool, (∀ s, p s = true → s.backend = b) → F'.count p = F.count p) :
    Outstanding F' b := by
  have hon : ∀ s, Slot.probeOn b s = true → s.backend = b := fun s hs =>
    of_decide_eq_true (Bool.and_eq_true_iff.mp hs).1
  refine ⟨?_, fun hclean hho => ?_⟩
  · rw [probesHeldOn, count _ hon, sent, ended]
    exact hout.balance
  · rw [probesHeldOn, period, count _ hon, count _ fun s hs => hon s (probeOn_of_probeOf hs)]
    exact hout.own (lawful hclean) (breaker.circuit.symm.trans hho)

/-- Half-open is entered. If cleanly, all probes that were sent have ended, so that none
of those outstanding is of an earlier period. -/
theorem Outstanding.cooled (hout : Outstanding F b) {w : World}
    (history : w.history b = .moved .opened .halfOpen .cooldown w.clock.now :: F.history b) :
    Outstanding { F with world := w } b := by
  refine ⟨?_, fun hclean _ => ?_⟩
  · show F.probesHeldOn b + (w.history b).countP _ = (w.history b).countP _
    rw [history]
    exact hout.balance
  · have hclean' : Lawful EntersClean (w.history b) := hclean
    rw [history] at hclean'
    -- as many ended as sent, so the balance leaves none outstanding
    have hdone : ProbesDone (F.history b) := hclean'.1
    have hbal := hout.balance
    have hle := count_probeOf_le (F := F) (b := b) (k := w.period b)
    rw [ProbesDone] at hdone
    show F.probesHeldOn b = F.count (Slot.probeOf b (w.period b))
    omega

/-- A slot is taken. In half-open it is on a probe of the current period, which is sent
and outstanding from now on. -/
theorem Outstanding.dispatched (hout : Outstanding F b) {r : ReqId} {s : Slot} {w : World} {t : ℚ}
    (hr : r < F.population) (held : F.held r = none) (backend : s.backend = b)
    (probe : s.grant.probe = F.world.probeNow b)
    (circuit : (w.row b).circuit = (F.row b).circuit)
    (history : w.history b = .dispatched s.grant.probe t :: F.history b) :
    Outstanding (F.put r (some s) w) b := by
  have hon : (F.put r (some s) w).probesHeldOn b =
      F.probesHeldOn b + if Slot.probeOn b s then 1 else 0 := count_acquire hr held
  refine ⟨?_, fun hclean hho => ?_⟩
  · have hbal := hout.balance
    show (F.put r (some s) w).probesHeldOn b + (w.history b).countP _ = (w.history b).countP _
    rw [hon, history, List.countP_cons, List.countP_cons, sendsProbe_dispatched backend, ← hbal]
    show _ + ((F.history b).countP _ + 0) = _
    omega
  · have hho' : (F.row b).circuit = .halfOpen := circuit.symm.trans hho
    have hclean' : Lawful EntersClean (w.history b) := hclean
    rw [history] at hclean'
    -- the new probe is one of this period, as the others are
    have hnow : s.grant.probe = some (F.period b) := by
      rw [probe, World.probeNow, if_pos hho']
    have hof := count_acquire (F := F) (p := Slot.probeOf b (F.period b)) (w := w) (s := s) hr held
    show (F.put r (some s) w).probesHeldOn b =
      (F.put r (some s) w).count (Slot.probeOf b (w.period b))
    rw [period_of_history history rfl, hof, hon, hout.own hclean'.2 hho']
    simp [Slot.probeOn, Slot.probeOf, Slot.on, backend, hnow]

/-- An attempt that held a slot on `b` is over. -/
theorem Outstanding.ended (hout : Outstanding F b) {r : ReqId} {s : Slot} {how : Ending} {w : World}
    (hr : r < F.population) (held : F.held r = some s) (backend : s.backend = b)
    (breaker : SameBreaker (F.row b) (w.row b))
    (history : w.history b = .ended s.grant.probe how :: F.history b) :
    Outstanding (F.put r none w) b := by
  have hon : (F.put r none w).probesHeldOn b + (if Slot.probeOn b s then 1 else 0) =
      F.probesHeldOn b := count_end hr held
  refine ⟨?_, fun hclean hho => ?_⟩
  · have hbal := hout.balance
    show (F.put r none w).probesHeldOn b + (w.history b).countP _ = (w.history b).countP _
    rw [history, List.countP_cons, List.countP_cons, endsProbe_ended backend, ← hbal, ← hon]
    show _ = _ + 0
    omega
  · have hclean' : Lawful EntersClean (w.history b) := hclean
    rw [history] at hclean'
    have hof : (F.put r none w).count (Slot.probeOf b (F.period b)) +
        (if Slot.probeOf b (F.period b) s then 1 else 0) = F.count (Slot.probeOf b (F.period b)) :=
      count_end hr held
    have hall := hout.own hclean'.2 (breaker.circuit.symm.trans hho)
    have hle := count_probeOf_le (F := F.put r none w) (b := b) (k := F.period b)
    show (F.put r none w).probesHeldOn b = (F.put r none w).count (Slot.probeOf b (w.period b))
    rw [period_of_history history rfl]
    -- were this a probe of another period, the two counts would not have agreed
    by_cases hthis : Slot.probeOf b (F.period b) s = true
    · rw [if_pos hthis] at hof
      rw [if_pos (probeOn_of_probeOf hthis)] at hon
      omega
    · rw [if_neg hthis] at hof
      split at hon <;> omega

/-- **Step lemma.** The probes sent on `b` stay those outstanding and those ended,
whatever a deed does; and those outstanding in half-open stay the current period's, if
it was entered cleanly. -/
theorem outstanding_step (hout : Outstanding F b) (hb : b ∈ F.names) (h : Step health F d F') :
    Outstanding F' b := by
  -- only a dispatch, an outcome and an end change how many are outstanding
  cases turn_of_step hb h with
  | elsewhere breaker rate history now held count =>
    refine hout.sameBreaker breaker (congrArg InferenceGateway.period history) ?_ ?_ ?_ count
    all_goals rw [history]
    exact id
  | cooled circuit openedAt cool row history now => exact hout.cooled history
  | dispatched hr held backend probe judged pass circuit probes openedAt rate history =>
    exact hout.dispatched hr held backend probe circuit history
  | judged hr held backend new row history now =>
    exact hout.recorded row history (count_judge hr held rfl)
  | strayed row history now => exact hout.recorded row history rfl
  | @sampled failed w breaker rate history now =>
    have hhist : ({ F with world := w } : Fleet).history b = .sampled failed :: F.history b :=
      history
    refine hout.sameBreaker breaker (period_of_history history rfl) ?_ ?_ ?_ (fun _ _ => rfl)
    all_goals rw [hhist]
    · rfl
    · rfl
    · exact And.right
  | ended hr held backend hhow breaker rate history now =>
    exact hout.ended hr held backend breaker history

/-- **Run lemma.** Sent, ended and outstanding balance in every run. What clean entries
add is part of the invariant, so no condition on the run is needed here. -/
theorem outstanding_of_reach {licence : Fleet → Deed → Prop} (h : Reach (machine health) licence F)
    (hb : b ∈ F.names) : Outstanding F b :=
  invariantOn (fun _ hF _ => outstanding_start hF)
    (fun _ _ _ hF hb _ hd => outstanding_step hF hb hd) h hb

/-- **Concurrent probes.** After clean entries only, the probes outstanding in
half-open are among those the counter counts, so the allowance bounds them. -/
theorem probesHeldOn_le (hbr : Breaker health F.world b) (hp : Probes F b) (hout : Outstanding F b)
    (hclean : Lawful EntersClean (F.history b)) (hho : (F.row b).circuit = .halfOpen) :
    (F.probesHeldOn b : ℤ) ≤ max 0 health.halfOpenMaxInflight := by
  have hbound := hbr.bound hho
  have hcount := hp.count hho
  rw [show F.world.row b = F.row b from rfl, hcount, ← hout.own hclean hho] at hbound
  omega

end Fleet

end InferenceGateway
