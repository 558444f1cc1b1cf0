import InferenceGateway.Fleet.Breaker

/-!
# A row from its record

What `is_healthy_for_schedule` reads of a row, apart from the slots taken on it,
is a function of what the backend has lived through. Two runs can therefore be
compared by their records of one backend alone, however different the rest of
them is.

- `Recorded`: circuit, opening time, probe counter and error rate are the ones
  the record gives. It holds of every registered backend in every run
  (`recorded_of_reach`), by the invariants of the breaker, and by one more about
  the opening time.
- `asLived`: a row with the slots it has, but with the record of another life.
- `Inserted`: one record is another with the entries of client errors put in
  anywhere. A client error leaves a sample and the end of its attempt, and its
  dispatch before them.
- `Inserted.eligibleAt_iff`: what such entries can do to eligibility, and what
  they cannot. The circuit and its opening time stay (`circuitOf`,
  `lastOpening`); a probe may have been used up (`probesIssued_le`); the error
  rate can only have gone up (`errorRate_le`).
-/

namespace InferenceGateway

open Lib BackendRuntimeState

/-! ## What the checks read -/

namespace Health

variable {health : HealthConfig} {now : ℚ} {s : BackendRuntimeState}

/-- The answer of `is_healthy_for_schedule` for a row, with `now` as its reading. -/
def eligibleAt (health : HealthConfig) (now : ℚ) (s : BackendRuntimeState) : Bool :=
  passes health (maybeTransitionFromOpen health now s)

/-- The circuit lets a request through at `now`: it is closed, has probes left, or has cooled
down and will have one. -/
inductive LetsThrough (health : HealthConfig) (now : ℚ) (s : BackendRuntimeState) : Prop where
  | closed (hc : s.circuit = .closed)
  | probing (hc : s.circuit = .halfOpen) (hroom : s.halfOpenProbes < health.halfOpenMaxInflight)
  | cooled {t : ℚ} (hc : s.circuit = .opened) (hat : s.circuitOpenedAtMonotonic = some t)
      (hcool : cooledDown health t now) (hroom : 0 < health.halfOpenMaxInflight)

theorem eligibleAt_iff : eligibleAt health now s = true ↔
    s.drained = false ∧ s.inflight < s.hardLimit ∧
      s.recentErrorRate ≤ health.maxErrorRateForEligibility ∧ LetsThrough health now s := by
  rw [eligibleAt, passes_iff]
  rcases maybeTransitionFromOpen_cases health now s with ⟨t, hopen, hat, hcool, h⟩ | h
  · -- the check itself moves the circuit to half-open, with a fresh counter
    rw [h]
    constructor
    · rintro ⟨hdrained, -, hlimit, hrate, hroom⟩
      exact ⟨hdrained, hlimit, hrate, .cooled hopen hat hcool (hroom rfl)⟩
    · rintro ⟨hdrained, hlimit, hrate, hlets⟩
      refine ⟨hdrained, by simp, hlimit, hrate, fun _ => ?_⟩
      cases hlets with
      | closed hc => cases hopen.symm.trans hc
      | probing hc hroom => cases hopen.symm.trans hc
      | cooled hc hat hcool hroom => exact hroom
  · rw [h]
    constructor
    · rintro ⟨hdrained, hopen, hlimit, hrate, hroom⟩
      refine ⟨hdrained, hlimit, hrate, ?_⟩
      cases hc : s.circuit with
      | closed => exact .closed hc
      | opened => exact absurd hc hopen
      | halfOpen => exact .probing hc (hroom hc)
    · rintro ⟨hdrained, hlimit, hrate, hlets⟩
      cases hlets with
      | closed hc => exact ⟨hdrained, by simp [hc], hlimit, hrate, by simp [hc]⟩
      | probing hc hroom => exact ⟨hdrained, by simp [hc], hlimit, hrate, fun _ => hroom⟩
      | cooled hc hat hcool hroom =>
        -- the check would have moved a cooled-down circuit
        have hmoved : (maybeTransitionFromOpen health now s).circuit = .halfOpen := by
          simp [maybeTransitionFromOpen, hc, hat, hcool]
        rw [h, hc] at hmoved
        cases hmoved

end Health

/-! ## Rows and records -/

/-- When the circuit was last opened. -/
def lastOpening : List Incident → Option ℚ
  | [] => none
  | .moved _ .opened _ t :: _ => some t
  | _ :: past => lastOpening past

/-- What the checks read of the row is what the record gives. An opening time matters in an
open circuit, and a probe counter in a half-open one. -/
structure Recorded (past : List Incident) (s : BackendRuntimeState) : Prop where
  circuit : circuitOf past = s.circuit
  openedAt : s.circuit = .opened → s.circuitOpenedAtMonotonic = lastOpening past
  probes : s.circuit = .halfOpen → s.halfOpenProbes = probesIssued past
  rate : s.recentErrorRate = errorRate (samples past)

/-- The row, with the slots taken on it as they are, had its backend lived through `past`. -/
def BackendRuntimeState.asLived (s : BackendRuntimeState) (past : List Incident) :
    BackendRuntimeState :=
  { s with
    circuit := circuitOf past
    circuitOpenedAtMonotonic := lastOpening past
    halfOpenProbes := probesIssued past
    recentErrorRate := errorRate (samples past) }

section Recorded

variable {health : HealthConfig} {now : ℚ} {past past' : List Incident}
  {s s' : BackendRuntimeState}

/-- What the circuit lets through depends on circuit, opening time and probes issued,
which the record gives. -/
theorem Recorded.letsThrough_iff (h : Recorded past s) :
    Health.LetsThrough health now (s'.asLived past) ↔ Health.LetsThrough health now s := by
  have hcircuit : (s'.asLived past).circuit = s.circuit := h.circuit
  -- circuit, opening time and probe counter of the row are those its record gives
  constructor
  · intro hlets
    cases hlets with
    | closed hc => exact .closed (hcircuit.symm.trans hc)
    | probing hc hroom =>
      have hc' := hcircuit.symm.trans hc
      exact .probing hc' ((h.probes hc').trans_lt hroom)
    | cooled hc hat hcool hroom =>
      have hc' := hcircuit.symm.trans hc
      exact .cooled hc' ((h.openedAt hc').trans hat) hcool hroom
  · intro hlets
    cases hlets with
    | closed hc => exact .closed (hcircuit.trans hc)
    | probing hc hroom => exact .probing (hcircuit.trans hc) ((h.probes hc).symm.trans_lt hroom)
    | cooled hc hat hcool hroom =>
      exact .cooled (hcircuit.trans hc) ((h.openedAt hc).symm.trans hat) hcool hroom

/-- Two rows with the same record are told apart by their slots only: one is as eligible
as the other would be with its own slots. -/
theorem Recorded.eligibleAt_asLived (h : Recorded past s) :
    Health.eligibleAt health now (s'.asLived past) = true ↔
      s'.drained = false ∧ s'.inflight < s'.hardLimit ∧
        s.recentErrorRate ≤ health.maxErrorRateForEligibility ∧
        Health.LetsThrough health now s := by
  rw [Health.eligibleAt_iff, h.letsThrough_iff, h.rate]
  rfl

end Recorded

namespace Fleet

variable {health : HealthConfig} {F F' : Fleet} {d : Deed} {b : String} {w : World}

/-- An inert entry opens nothing. -/
theorem Inert.lastOpening {e : Incident} (he : Inert e) (past : List Incident) :
    lastOpening (e :: past) = lastOpening past := by
  cases e <;> first | rfl | cases he

/-- The opening time of an open circuit is that of the last opening. -/
def OpeningKept (w : World) (b : String) : Prop :=
  (w.row b).circuit = .opened →
    (w.row b).circuitOpenedAtMonotonic = InferenceGateway.lastOpening (w.history b)

/-- An outcome is recorded: an opening is noted with the time it is given. -/
theorem OpeningKept.recorded (h : OpeningKept F.world b) {v : Verdict} {probe : Option ℕ}
    (row : w.row b = v.handler health F.now (F.row b))
    (history : w.history b =
      movedEntry (F.row b) (w.row b) (v.cause probe) F.now ++ F.history b) :
    OpeningKept w b := by
  intro hopen
  rcases v.handler_cases health F.now (F.row b) with
    ⟨-, -, hdst⟩ | ⟨-, hsrc, hdst, hat⟩ | ⟨-, hsame, hat⟩
  · rw [← row] at hdst
    cases hopen.symm.trans hdst
  · rw [← row] at hdst hat
    rw [hat, history, movedEntry, if_neg (by rw [hdst]; exact hsrc), hdst]
    rfl
  · rw [← row] at hsame hat
    have hold : (F.row b).circuit = .opened := hsame.symm.trans hopen
    rw [history, movedEntry, if_pos hsame.symm, hat]
    exact h hold

/-- **Step lemma.** The opening time is written with the move that opens the circuit,
and with no other entry. -/
theorem opening_step (h : OpeningKept F.world b) (hb : b ∈ F.names) (hd : Step health F d F') :
    OpeningKept F'.world b := by
  -- an open circuit stays open through the deed, or was opened by it
  cases turn_of_step hb hd with
  | elsewhere breaker rate history now held count =>
    intro hopen
    rw [show F'.world.history b = F.world.history b from history]
    exact breaker.circuitOpenedAtMonotonic.trans (h (breaker.circuit.symm.trans hopen))
  | cooled circuit openedAt cool row history now =>
    intro hopen
    cases (congrArg BackendRuntimeState.circuit row).symm.trans hopen
  | dispatched hr held backend probe judged pass circuit probes openedAt rate history =>
    intro hopen
    exact (openedAt.trans (h (circuit.symm.trans hopen))).trans
      (congrArg InferenceGateway.lastOpening history).symm
  | judged hr held backend new row history now => exact h.recorded row history
  | strayed row history now => exact h.recorded row history
  | sampled breaker rate history now =>
    intro hopen
    exact (breaker.circuitOpenedAtMonotonic.trans (h (breaker.circuit.symm.trans hopen))).trans
      (congrArg InferenceGateway.lastOpening history).symm
  | ended hr held backend hhow breaker rate history now =>
    intro hopen
    exact (breaker.circuitOpenedAtMonotonic.trans (h (breaker.circuit.symm.trans hopen))).trans
      (congrArg InferenceGateway.lastOpening history).symm

/-- **Run lemma.** The opening time of an open circuit is the time of its last
opening. -/
theorem opening_of_reach {licence : Fleet → Deed → Prop} (h : Reach (machine health) licence F)
    (hb : b ∈ F.names) : OpeningKept F.world b := by
  refine invariantOn (I := fun F => OpeningKept F.world b) ?_
    (fun _ _ _ hF hb _ hd => opening_step hF hb hd) h hb
  intro F hF hb hopen
  cases (hF.fresh b hb).circuit.symm.trans hopen

/-- A row is what its record makes of it, slots apart. -/
theorem recorded_of_reach {licence : Fleet → Deed → Prop} (h : Reach (machine health) licence F)
    (hb : b ∈ F.names) : Recorded (F.history b) (F.row b) where
  circuit := (breaker_of_reach h hb).circuit
  openedAt := opening_of_reach h hb
  probes := (breaker_of_reach h hb).issued
  rate := rated_of_reach h hb

end Fleet

/-! ## Client errors put into a record -/

/-- A sample keeps the order of two rates. -/
theorem BackendRuntimeState.errorSample_mono {rate rate' : ℚ} (failed : Bool)
    (h : rate ≤ rate') : errorSample failed rate ≤ errorSample failed rate' := by
  cases failed <;> simp only [errorSample, ewma] <;> norm_num <;> linarith

/-- The second record is the first with the entries of client errors put in, any number of
them and anywhere: a request is dispatched, its answer is one more failed sample, and its end
is that of a client error. -/
inductive Inserted : List Incident → List Incident → Prop where
  | refl (past : List Incident) : Inserted past past
  | keep {past past' : List Incident} (e : Incident) (h : Inserted past past') :
      Inserted (e :: past) (e :: past')
  | dispatched {past past' : List Incident} (probe : Option ℕ) (t : ℚ)
      (h : Inserted past past') : Inserted past (.dispatched probe t :: past')
  | answered {past past' : List Incident} (h : Inserted past past') :
      Inserted past (.sampled true :: past')
  | ended {past past' : List Incident} (probe : Option ℕ) (h : Inserted past past') :
      Inserted past (.ended probe .clientError :: past')

namespace Inserted

variable {past past' : List Incident}

/-- The circuit of a record is that of the same record without the client errors. -/
theorem circuitOf (h : Inserted past past') :
    InferenceGateway.circuitOf past' = InferenceGateway.circuitOf past := by
  induction h with
  | refl past => rfl
  | keep e _ ih =>
    cases e with
    | moved => rfl
    | _ => exact ih
  | dispatched probe t _ ih => exact ih
  | answered _ ih => exact ih
  | ended probe _ ih => exact ih

/-- The time of the last opening is the same with and without the client errors. -/
theorem lastOpening (h : Inserted past past') :
    InferenceGateway.lastOpening past' = InferenceGateway.lastOpening past := by
  induction h with
  | refl past => rfl
  | keep e _ ih =>
    cases e with
    | moved src dst cause t =>
      cases dst with
      | opened => rfl
      | _ => exact ih
    | _ => exact ih
  | dispatched probe t _ ih => exact ih
  | answered _ ih => exact ih
  | ended probe _ ih => exact ih

/-- A record with client errors has issued at least the probes of the record without
them: each of them that was a probe has used one up. -/
theorem probesIssued_le (h : Inserted past past') : probesIssued past ≤ probesIssued past' := by
  have hother : ∀ (e : Incident) (past : List Incident), e.entersHalfOpen = false →
      probesIssued (e :: past) = (if e.isDispatch then 1 else 0) + probesIssued past :=
    fun e past he => countSince_cons_other he past
  induction h with
  | refl past => exact le_refl _
  | @keep past past' e _ ih =>
    cases he : e.entersHalfOpen with
    | true =>
      rw [probesIssued, probesIssued, countSince_cons_reset he, countSince_cons_reset he]
    | false =>
      rw [hother e past he, hother e past' he]
      exact Nat.add_le_add_left ih _
  -- the dispatch of a client error counts, its sample and its end do not
  | @dispatched past past' probe t _ ih =>
    rw [hother _ past' rfl]
    exact ih.trans (Nat.le_add_left _ _)
  | @answered past past' _ ih =>
    rw [hother _ past' rfl]
    exact ih.trans (Nat.le_add_left _ _)
  | @ended past past' probe _ ih =>
    rw [hother _ past' rfl]
    exact ih.trans (Nat.le_add_left _ _)

/-- A record with client errors has at least the error rate of the record without them:
each of them has pulled it up, and later samples keep the order of the two. -/
theorem errorRate_le (h : Inserted past past') :
    errorRate (samples past) ≤ errorRate (samples past') := by
  induction h with
  | refl past => exact le_refl _
  | keep e _ ih =>
    cases e with
    | sampled failed => exact errorSample_mono failed ih
    | _ => exact ih
  | dispatched probe t _ ih => exact ih
  | @answered past past' _ ih =>
    -- a failed sample lies between the rate it is blended into and 1
    have hgap := one_sub_errorSample_true (errorRate (samples past'))
    obtain ⟨-, hlt⟩ := errorRate_bounds (samples past')
    show errorRate (samples past) ≤ errorSample true (errorRate (samples past'))
    linarith
  | ended probe _ ih => exact ih

/-- **Client errors against eligibility.** With the same slots taken, a backend is eligible
after the record with the client errors if and only if it is after the record without them,
the error rate with all of them is within the cap, and a half-open circuit has a probe left
after the ones they used up. -/
theorem eligibleAt_iff {health : HealthConfig} {now : ℚ} {s : BackendRuntimeState}
    (h : Inserted past past') :
    Health.eligibleAt health now (s.asLived past') = true ↔
      Health.eligibleAt health now (s.asLived past) = true ∧
        errorRate (samples past') ≤ health.maxErrorRateForEligibility ∧
        (InferenceGateway.circuitOf past = .halfOpen →
          (probesIssued past' : ℤ) < health.halfOpenMaxInflight) := by
  have hcircuit : (s.asLived past').circuit = (s.asLived past).circuit := h.circuitOf
  have hopening : (s.asLived past').circuitOpenedAtMonotonic =
      (s.asLived past).circuitOpenedAtMonotonic := h.lastOpening
  have hprobes : (s.asLived past).halfOpenProbes ≤ (s.asLived past').halfOpenProbes :=
    Int.ofNat_le.mpr h.probesIssued_le
  -- what is left is to carry each way of letting through from one record to the other
  rw [Health.eligibleAt_iff, Health.eligibleAt_iff]
  constructor
  · rintro ⟨hdrained, hlimit, hrate, hlets⟩
    refine ⟨⟨hdrained, hlimit, h.errorRate_le.trans hrate, ?_⟩, hrate, fun hhalf => ?_⟩
    · cases hlets with
      | closed hc => exact .closed (hcircuit.symm.trans hc)
      | probing hc hroom => exact .probing (hcircuit.symm.trans hc) (hprobes.trans_lt hroom)
      | cooled hc hat hcool hroom =>
        exact .cooled (hcircuit.symm.trans hc) (hopening.symm.trans hat) hcool hroom
    · have hhalf' : (s.asLived past').circuit = .halfOpen := hcircuit.trans hhalf
      cases hlets with
      | closed hc => cases hhalf'.symm.trans hc
      | probing hc hroom => exact hroom
      | cooled hc => cases hhalf'.symm.trans hc
  · rintro ⟨⟨hdrained, hlimit, -, hlets⟩, hrate, hroom'⟩
    refine ⟨hdrained, hlimit, hrate, ?_⟩
    cases hlets with
    | closed hc => exact .closed (hcircuit.trans hc)
    | probing hc hroom => exact .probing (hcircuit.trans hc) (hroom' hc)
    | cooled hc hat hcool hroom =>
      exact .cooled (hcircuit.trans hc) (hopening.trans hat) hcool hroom

end Inserted

end InferenceGateway
