import InferenceGateway.Fleet.Turns
import InferenceGateway.Lib.History

/-!
# The breaker over whole runs

The history of a backend determines its circuit, and every entry of it was legal
when it was made. The legality of a dispatch is what the breaker is for:

- no dispatch while the circuit is open, and none before the cooldown of every
  earlier opening has passed;
- in half-open, only while fewer than `half_open_max_inflight` requests have
  been dispatched since half-open was entered.

The invariant `Breaker` says this of one backend, together with what ties the
row to the history: circuit, opening time and probe counter are those the
history ends in, and no entry lies in the future. It is proved by cases on
`Turn`, with one lemma for each thing that can happen to a backend (`recorded`,
`cooled`, `dispatched`, `sameBreaker`), and it needs no licence: it holds of
every run of the fleet.

The two laws are then read off a history of any length, in `cooldown_respected`
and `allowance_respected`. Next to them stand two more readings of the history:
who moved a half-open circuit (`decided_of_reach`), and the error rate as a
function of the samples (`rated_of_reach`).
-/

namespace InferenceGateway

open Lib

/-! ## Readings of a history -/

/-- The circuit a history ends in. -/
def circuitOf : List Incident → CircuitState
  | [] => .closed
  | .moved _ dst _ _ :: _ => dst
  | _ :: past => circuitOf past

/-- Requests dispatched since half-open was last entered. -/
def probesIssued (past : List Incident) : ℕ :=
  countSince Incident.entersHalfOpen Incident.isDispatch past

/-- The samples of the error rate, newest first. -/
def samples (past : List Incident) : List Bool :=
  past.filterMap fun
    | .sampled failed => some failed
    | _ => none

/-- The cooldown that follows an opening at `t` ends here. -/
def cooldownEnd (health : HealthConfig) (t : ℚ) : ℚ := t + (health.openCooldownMs : ℚ) / 1000

/-- When an entry is legal after `past`. -/
def BreakerLaw (health : HealthConfig) : Incident → List Incident → Prop
  | .moved src _ _ _, past => src = circuitOf past
  | .dispatched _ t, past =>
    circuitOf past ≠ .opened ∧
      (∀ src c t₀, .moved src .opened c t₀ ∈ past → cooldownEnd health t₀ ≤ t) ∧
      (circuitOf past = .halfOpen → (probesIssued past : ℤ) < health.halfOpenMaxInflight)
  | _, _ => True

/-- A half-open circuit is moved only by the outcome of a request dispatched in
the half-open period that ends: closed by a success, opened by a failure. -/
def VerdictLaw : Incident → List Incident → Prop
  | .moved .halfOpen dst cause _, past =>
    (dst = .closed ∧ cause = .success (some (period past))) ∨
      (dst = .opened ∧ cause = .failure (some (period past)))
  | _, _ => True

instance (e : Incident) (past : List Incident) : Decidable (VerdictLaw e past) := by
  unfold VerdictLaw
  split <;> infer_instance

/-- The end of a cooldown has come exactly when the check says that it has cooled
down. -/
theorem cooldownEnd_le_iff {health : HealthConfig} {t now : ℚ} :
    cooldownEnd health t ≤ now ↔ Health.cooledDown health t now := by
  unfold cooldownEnd Health.cooledDown
  constructor <;> intro h <;> linarith

namespace Fleet

variable {health : HealthConfig} {F F' : Fleet} {d : Deed} {b : String}

/-! ## The breaker invariant -/

structure Breaker (health : HealthConfig) (w : World) (b : String) : Prop where
  circuit : circuitOf (w.history b) = (w.row b).circuit
  /-- An opening in the past is the one still in force or an older one, or it has
  cooled down. -/
  opened : ∀ src c t, .moved src .opened c t ∈ w.history b →
    ((w.row b).circuit = .opened ∧ ∃ t', (w.row b).circuitOpenedAtMonotonic = some t' ∧ t ≤ t') ∨
      cooldownEnd health t ≤ w.clock.now
  issued : (w.row b).circuit = .halfOpen →
    (w.row b).halfOpenProbes = probesIssued (w.history b)
  bound : (w.row b).circuit = .halfOpen →
    (w.row b).halfOpenProbes ≤ max 0 health.halfOpenMaxInflight
  lawful : Lawful (BreakerLaw health) (w.history b)

theorem history_start (h : F.Start) : F.history b = [] := by
  show InferenceGateway.history b F.trace = []
  rw [h.trace]
  rfl

/-- At start-up the history is empty and the circuit closed. -/
theorem breaker_start (h : F.Start) (hb : b ∈ F.names) : Breaker health F.world b := by
  have hnil : F.world.history b = [] := history_start h
  have hclosed : (F.world.row b).circuit ≠ .halfOpen := by
    rw [show (F.world.row b).circuit = .closed from (h.fresh b hb).circuit]
    simp
  refine ⟨?_, ?_, fun h => absurd h hclosed, fun h => absurd h hclosed, by rw [hnil]; trivial⟩
  · rw [hnil]
    exact (h.fresh b hb).circuit.symm
  · intro src c t hmem
    rw [hnil] at hmem
    cases hmem

variable {w w' : World}

/-- An outcome is recorded: the breaker invariant holds afterwards, whoever's outcome it
is. The circuit may have moved, and a move is noted in the history with its time. -/
theorem Breaker.recorded (hbr : Breaker health w b) {v : Verdict} {probe : Option ℕ}
    (row : w'.row b = v.handler health w.clock.now (w.row b))
    (history : w'.history b =
      movedEntry (w.row b) (w'.row b) (v.cause probe) w.clock.now ++ w.history b)
    (now : w'.clock.now = w.clock.now) : Breaker health w' b := by
  obtain ⟨hcircuit, hopened, -, -, hlawful⟩ := hbr
  have hhalf : (w'.row b).circuit ≠ .halfOpen := by
    rw [row]
    exact v.handler_circuit_ne
  -- the entry, if there is one, starts from the circuit the history ends in
  have hmoved : ∀ dst, (w.row b).circuit ≠ dst → (w'.row b).circuit = dst →
      w'.history b = .moved (w.row b).circuit dst (v.cause probe) w.clock.now :: w.history b := by
    intro dst hne hdst
    rw [history, movedEntry, if_neg (by rw [hdst]; exact hne), hdst]
    rfl
  -- an earlier opening is no longer in force once the circuit is not open
  have hpast : (w.row b).circuit ≠ .opened → ∀ src c t,
      .moved src .opened c t ∈ w.history b → cooldownEnd health t ≤ w'.clock.now := by
    intro hne src c t hmem
    rcases hopened src c t hmem with ⟨ho, -⟩ | hcool
    · exact absurd ho hne
    · exact now ▸ hcool
  rcases v.handler_cases health w.clock.now (w.row b) with
    ⟨-, hsrc, hdst⟩ | ⟨-, hsrc, hdst, hat⟩ | ⟨-, hsame, hat⟩
  · -- half-open closes
    rw [← row] at hdst
    have hhist := hmoved .closed (by rw [hsrc]; simp) hdst
    refine ⟨by rw [hhist, hdst]; rfl, ?_, fun h => absurd h hhalf, fun h => absurd h hhalf, ?_⟩
    · intro src c t hmem
      rw [hhist] at hmem
      rcases List.mem_cons.mp hmem with heq | hmem
      · cases heq
      · exact .inr (hpast (by rw [hsrc]; simp) src c t hmem)
    · rw [hhist]
      exact ⟨hcircuit.symm, hlawful⟩
  · -- opens now, which is the latest opening
    rw [← row] at hdst hat
    have hhist := hmoved .opened hsrc hdst
    refine ⟨by rw [hhist, hdst]; rfl, ?_, fun h => absurd h hhalf, fun h => absurd h hhalf, ?_⟩
    · intro src c t hmem
      rw [hhist] at hmem
      rcases List.mem_cons.mp hmem with heq | hmem
      · obtain ⟨-, -, -, rfl⟩ := Incident.moved.inj heq
        exact .inl ⟨hdst, _, hat, le_refl _⟩
      · exact .inr (hpast hsrc src c t hmem)
    · rw [hhist]
      exact ⟨hcircuit.symm, hlawful⟩
  · -- only the streak moves
    rw [← row] at hsame hat
    have hhist : w'.history b = w.history b := by
      rw [history, movedEntry, if_pos hsame.symm]
      rfl
    refine ⟨by rw [hhist, hsame]; exact hcircuit, ?_, fun h => absurd h hhalf,
      fun h => absurd h hhalf, by rw [hhist]; exact hlawful⟩
    intro src c t hmem
    rw [hhist] at hmem
    rw [hsame, hat, now]
    exact hopened src c t hmem

/-- An entry that is neither a move nor a dispatch. -/
def Inert : Incident → Prop
  | .sampled _ | .ended .. => True
  | _ => False

/-- A dispatch, a sample or the end of an attempt is no move, so the circuit stays. -/
theorem Inert.circuitOf {e : Incident} (he : Inert e) (past : List Incident) :
    circuitOf (e :: past) = circuitOf past := by
  cases e <;> first | rfl | cases he

theorem Inert.probesIssued {e : Incident} (he : Inert e) (past : List Incident) :
    probesIssued (e :: past) = probesIssued past := by
  cases e with
  | moved => cases he
  | dispatched => cases he
  | _ => exact (countSince_cons_other rfl past).trans (Nat.zero_add _)

/-- The breaker's law has nothing to say about an inert entry. -/
theorem Inert.lawful {e : Incident} (he : Inert e) (past : List Incident) :
    BreakerLaw health e past := by
  cases e <;> trivial

/-- Circuit, opening time and probe counter stay, and so does the history but for
inert entries. -/
theorem Breaker.sameBreaker (hbr : Breaker health w b) (new : List Incident)
    (hrow : SameBreaker (w.row b) (w'.row b)) (hhist : w'.history b = new ++ w.history b)
    (hnew : ∀ e ∈ new, Inert e) (hnow : w.clock.now ≤ w'.clock.now) : Breaker health w' b := by
  obtain ⟨hcircuit, hopened, hissued, hbound, hlawful⟩ := hbr
  have hreadings : circuitOf (new ++ w.history b) = circuitOf (w.history b) ∧
      probesIssued (new ++ w.history b) = probesIssued (w.history b) ∧
      Lawful (BreakerLaw health) (new ++ w.history b) := by
    clear hhist
    -- on the entries, newest first: none of them is read by circuit, count or law
    induction new with
    | nil => exact ⟨rfl, rfl, hlawful⟩
    | cons e new ih =>
      obtain ⟨h₁, h₂, h₃⟩ := ih fun x hx => hnew x (List.mem_cons_of_mem _ hx)
      have he := hnew e (List.mem_cons_self ..)
      exact ⟨(he.circuitOf _).trans h₁, (he.probesIssued _).trans h₂, he.lawful _, h₃⟩
  refine ⟨?_, ?_, ?_, ?_, by rw [hhist]; exact hreadings.2.2⟩
  · rw [hhist, hreadings.1, hrow.circuit, hcircuit]
  · intro src c t hmem
    rw [hhist] at hmem
    rw [hrow.circuit, hrow.circuitOpenedAtMonotonic]
    rcases List.mem_append.mp hmem with hin | hmem
    · exact (hnew _ hin).elim
    · exact (hopened src c t hmem).imp id fun h => h.trans hnow
  · intro hho
    rw [hrow.circuit] at hho
    rw [hrow.halfOpenProbes, hhist, hreadings.2.1]
    exact hissued hho
  · intro hho
    rw [hrow.circuit] at hho
    rw [hrow.halfOpenProbes]
    exact hbound hho

/-- The cooldown has passed and half-open is entered. Every earlier opening was no later
than the one noted on the row, so all of them have cooled down. -/
theorem Breaker.cooled (hbr : Breaker health w b) {t : ℚ}
    (circuit : (w.row b).circuit = .opened)
    (openedAt : (w.row b).circuitOpenedAtMonotonic = some t)
    (cool : Health.cooledDown health t w'.clock.now)
    (row : w'.row b = { w.row b with
      circuit := .halfOpen, halfOpenProbes := 0, consecutiveFailures := 0 })
    (history : w'.history b = .moved .opened .halfOpen .cooldown w'.clock.now :: w.history b)
    (now : w.clock.now ≤ w'.clock.now) : Breaker health w' b := by
  obtain ⟨hcircuit, hopened, -, -, hlawful⟩ := hbr
  have hhalf : (w'.row b).circuit = .halfOpen := by rw [row]
  have hzero : (w'.row b).halfOpenProbes = 0 := by rw [row]
  refine ⟨by rw [history, hhalf]; rfl, ?_, ?_, ?_, ?_⟩
  · intro src c t₀ hmem
    rw [history] at hmem
    have hmem := (List.mem_cons.mp hmem).resolve_left (by simp)
    refine .inr ?_
    -- the opening in force is the one that has cooled down
    rcases hopened src c t₀ hmem with ⟨-, t', hat, hle⟩ | hcool
    · rw [openedAt] at hat
      obtain rfl := Option.some.inj hat
      refine le_trans ?_ (cooldownEnd_le_iff.mpr cool)
      exact add_le_add_left hle _
    · exact hcool.trans now
  · intro _
    rw [hzero, history]
    rfl
  · intro _
    rw [hzero]
    exact le_max_left _ _
  · rw [history]
    exact ⟨circuit.symm.trans hcircuit.symm, hlawful⟩

/-- A slot is taken: what the eligibility checks saw is what the law asks for. In
half-open the probe that is handed out is one of those the period has left. -/
theorem Breaker.dispatched (hbr : Breaker health w b) {probe : Option ℕ} {t : ℚ}
    (pass : Health.passes health (w.row b) = true)
    (circuit : (w'.row b).circuit = (w.row b).circuit)
    (probes : (w'.row b).halfOpenProbes =
      (w.row b).halfOpenProbes + if (w.row b).circuit = .halfOpen then 1 else 0)
    (history : w'.history b = .dispatched probe t :: w.history b)
    (before : w.clock.now ≤ t) (now : t ≤ w'.clock.now) : Breaker health w' b := by
  obtain ⟨hcircuit, hopened, hissued, hbound, hlawful⟩ := hbr
  obtain ⟨-, hnotopen, -, -, hallow⟩ := Health.passes_iff.mp pass
  have hpast : ∀ src c t₀, .moved src .opened c t₀ ∈ w.history b → cooldownEnd health t₀ ≤ t := by
    intro src c t₀ hmem
    rcases hopened src c t₀ hmem with ⟨ho, -⟩ | hcool
    · exact absurd ho hnotopen
    · exact hcool.trans before
  -- counter and count grow together, and only in half-open
  refine ⟨by rw [history, circuit]; exact hcircuit, ?_, ?_, ?_, ?_⟩
  · intro src c t₀ hmem
    rw [history] at hmem
    have hmem := (List.mem_cons.mp hmem).resolve_left (by simp)
    exact .inr ((hpast src c t₀ hmem).trans now)
  · intro hho
    have hho' := circuit ▸ hho
    have hone : probesIssued (.dispatched probe t :: w.history b) =
        1 + probesIssued (w.history b) := countSince_cons_other rfl _
    rw [history, probes, if_pos hho', hissued hho', hone]
    omega
  · intro hho
    have hho' := circuit ▸ hho
    have hlt := hallow hho'
    rw [probes, if_pos hho']
    exact le_trans (by omega) (le_max_right _ _)
  · rw [history]
    refine ⟨⟨hcircuit ▸ hnotopen, hpast, fun hho => ?_⟩, hlawful⟩
    have hho' : (w.row b).circuit = .halfOpen := hcircuit ▸ hho
    exact hissued hho' ▸ hallow hho'

/-- **Step lemma.** One of the lemmas above for each turn; a sample and the end of an
attempt leave the breaker alone. -/
theorem breaker_step (hbr : Breaker health F.world b) (hb : b ∈ F.names)
    (h : Step health F d F') : Breaker health F'.world b := by
  cases turn_of_step hb h with
  | elsewhere breaker rate history now held count =>
    exact hbr.sameBreaker [] breaker history (by simp) now
  | cooled circuit openedAt cool row history now =>
    exact hbr.cooled circuit openedAt cool row history now
  | dispatched hr held backend probe judged pass circuit probes openedAt rate history before now =>
    exact hbr.dispatched pass circuit probes history before now
  | judged hr held backend new row history now => exact hbr.recorded row history now
  | strayed row history now => exact hbr.recorded row history now
  | sampled breaker rate history now =>
    exact hbr.sameBreaker [_] breaker history (by simp [Inert]) now.ge
  | ended hr held backend hhow breaker rate history now =>
    exact hbr.sameBreaker [_] breaker history (by simp [Inert]) now.ge

/-- **Run lemma.** The breaker's law holds of every backend in every run, with no
condition on the steps of it. -/
theorem breaker_of_reach {licence : Fleet → Deed → Prop} (h : Reach (machine health) licence F)
    (hb : b ∈ F.names) : Breaker health F.world b :=
  invariantOn (I := fun F => Breaker health F.world b) (fun _ hF => breaker_start hF)
    (fun _ _ _ hF hb _ hd => breaker_step hF hb hd) h hb

/-! ## What the law says of runs -/

/-- No dispatch within the cooldown of an earlier opening, however long ago that was and
whatever has happened to the circuit in between. -/
theorem Breaker.cooldown_respected (hbr : Breaker health w b) {recent past : List Incident}
    {src : CircuitState} {cause : Cause} {t : ℚ}
    (hsplit : w.history b = recent ++ .moved src .opened cause t :: past)
    {probe : Option ℕ} {t' : ℚ} (hmem : .dispatched probe t' ∈ recent) :
    cooldownEnd health t ≤ t' := by
  obtain ⟨later, earlier, rfl⟩ := List.append_of_mem hmem
  have hlawful := hbr.lawful
  rw [hsplit, List.append_assoc, List.cons_append] at hlawful
  obtain ⟨-, hcool, -⟩ := hlawful.at_split
  exact hcool src cause t (List.mem_append_right _ (List.mem_cons_self ..))

/-- Since half-open was entered and while it has not been left, the circuit is
half-open, and the dispatches counted since are all there are and within the
allowance. -/
theorem issued_in_halfOpen {past : List Incident} {src : CircuitState} {cause : Cause} {t : ℚ} :
    ∀ {mid : List Incident},
      Lawful (BreakerLaw health) (mid ++ .moved src .halfOpen cause t :: past) →
      (∀ e ∈ mid, e.leavesHalfOpen = false) →
      circuitOf (mid ++ .moved src .halfOpen cause t :: past) = .halfOpen ∧
        probesIssued (mid ++ .moved src .halfOpen cause t :: past) =
          mid.countP Incident.isDispatch ∧
        (mid.countP Incident.isDispatch : ℤ) ≤ max 0 health.halfOpenMaxInflight
  | [], _, _ => ⟨rfl, countSince_cons_reset rfl past, le_max_left _ _⟩
  | e :: mid, hlawful, hstay => by
    obtain ⟨hlaw, hlawful⟩ := hlawful
    obtain ⟨hcirc, hissued, hcount⟩ := issued_in_halfOpen hlawful fun x hx =>
      hstay x (List.mem_cons_of_mem _ hx)
    rw [List.countP_cons]
    cases e with
    | moved src' dst cause' t' =>
      -- a move would start from half-open, that is, leave it
      have hleave := hstay _ (List.mem_cons_self ..)
      obtain rfl : src' = .halfOpen := hlaw.trans hcirc
      cases hleave
    | dispatched probe t' =>
      obtain ⟨-, -, hallow⟩ := hlaw
      have hlt : (probesIssued (mid ++ .moved src .halfOpen cause t :: past) : ℤ) <
          health.halfOpenMaxInflight := hallow hcirc
      rw [hissued] at hlt
      refine ⟨hcirc, ?_, ?_⟩
      · refine (countSince_cons_other rfl _).trans ?_
        show 1 + probesIssued (mid ++ .moved src .halfOpen cause t :: past) = _
        rw [hissued, add_comm]
        rfl
      · rw [if_pos (show Incident.isDispatch (.dispatched probe t') = true from rfl)]
        push_cast
        exact le_trans (by omega) (le_max_right _ _)
    | sampled failed =>
      exact ⟨hcirc, ((Inert.probesIssued (e := .sampled failed) trivial _).trans hissued), hcount⟩
    | ended probe how =>
      exact ⟨hcirc, ((Inert.probesIssued (e := .ended probe how) trivial _).trans hissued), hcount⟩

/-- **Probe allowance.** Between an entry into half-open and the next leaving of it
no more requests are dispatched than the allowance. -/
theorem Breaker.allowance_respected (hbr : Breaker health w b) {recent mid past : List Incident}
    {src : CircuitState} {cause : Cause} {t : ℚ}
    (hsplit : w.history b = recent ++ (mid ++ .moved src .halfOpen cause t :: past))
    (hstay : ∀ e ∈ mid, e.leavesHalfOpen = false) :
    (mid.countP Incident.isDispatch : ℤ) ≤ max 0 health.halfOpenMaxInflight := by
  have hlawful := hbr.lawful
  rw [hsplit] at hlawful
  exact (issued_in_halfOpen hlawful.of_append hstay).2.2

/-! ## Who decides a half-open circuit -/

/-- The deed records on half-open `b` only the outcome of one of its own probes. -/
def OwnVerdicts (b : String) (F : Fleet) : Deed → Prop
  | .judge r _ => ∀ s, F.held r = some s → s.backend = b → (F.row b).circuit = .halfOpen →
      s.grant.probe = some (F.period b)
  | .stray b' _ => b' = b → (F.row b).circuit ≠ .halfOpen
  | _ => True

/-- A recorded outcome keeps the law of the verdicts if, on a half-open circuit, it is
that of a probe of the period; on a closed or open circuit the law asks nothing of
it. -/
theorem lawful_recorded (hlaw : Lawful VerdictLaw (w.history b)) {v : Verdict}
    {probe : Option ℕ} (row : w'.row b = v.handler health w.clock.now (w.row b))
    (history : w'.history b =
      movedEntry (w.row b) (w'.row b) (v.cause probe) w.clock.now ++ w.history b)
    (hown : (w.row b).circuit = .halfOpen → probe = some (w.period b)) :
    Lawful VerdictLaw (w'.history b) := by
  rw [history, movedEntry]
  split
  · exact hlaw
  · refine ⟨?_, hlaw⟩
    cases hsrc : (w.row b).circuit with
    | closed => trivial
    | opened => trivial
    | halfOpen =>
      -- closed by a success or opened again by a failure, and by a probe of this period
      obtain rfl := hown hsrc
      rcases v.handler_cases health w.clock.now (w.row b) with
        ⟨rfl, -, hdst⟩ | ⟨rfl, -, hdst, -⟩ | ⟨hne, -, -⟩
      · exact .inl ⟨(congrArg BackendRuntimeState.circuit row).trans hdst, rfl⟩
      · exact .inr ⟨(congrArg BackendRuntimeState.circuit row).trans hdst, rfl⟩
      · exact absurd hsrc hne

/-- **Step lemma.** Only an outcome that is recorded can move a half-open circuit, and
the licence says whose outcome that is. -/
theorem decided_step (hlaw : Lawful VerdictLaw (F.history b)) (hb : b ∈ F.names)
    (h : Step health F d F') (hown : OwnVerdicts b F d) : Lawful VerdictLaw (F'.history b) := by
  cases turn_of_step hb h with
  | elsewhere breaker rate history now held count => exact history ▸ hlaw
  | @cooled d w t circuit openedAt cool row history now =>
    show Lawful VerdictLaw (w.history b)
    rw [history]
    exact ⟨trivial, hlaw⟩
  | @dispatched r cls w s t hr held backend probe judged pass circuit probes openedAt rate
    history =>
    show Lawful VerdictLaw (w.history b)
    rw [history]
    exact ⟨trivial, hlaw⟩
  -- the two turns that record an outcome
  | judged hr held backend new row history now =>
    exact lawful_recorded hlaw row history (hown _ held backend)
  | strayed row history now =>
    exact lawful_recorded hlaw row history fun hho => absurd hho (hown rfl)
  | @sampled failed w breaker rate history now =>
    show Lawful VerdictLaw (w.history b)
    rw [history]
    exact ⟨trivial, hlaw⟩
  | @ended r s how w d hr held backend hhow breaker rate history now =>
    show Lawful VerdictLaw (w.history b)
    rw [history]
    exact ⟨trivial, hlaw⟩

/-- **Run lemma.** In a run that records on a half-open backend only the outcomes of its
own probes, those are what decides. -/
theorem decided_of_reach (h : Reach (machine health) (OwnVerdicts b) F) (hb : b ∈ F.names) :
    Lawful VerdictLaw (F.history b) := by
  refine invariantOn (I := fun F => Lawful VerdictLaw (F.history b)) ?_ ?_ h hb
  · intro F hF _
    rw [history_start hF]
    trivial
  · intro F d F' hF hb hown hd
    exact decided_step hF hb hd hown

/-! ## The error rate is a function of the samples -/

/-- Entries that are no samples leave the list of samples as it is. -/
theorem samples_append_of_none {new past : List Incident}
    (h : ∀ e ∈ new, ∀ failed, e ≠ .sampled failed) : samples (new ++ past) = samples past := by
  unfold samples
  rw [List.filterMap_append]
  have hnil : new.filterMap (fun
      | .sampled failed => some failed
      | _ => none) = [] := by
    refine List.filterMap_eq_nil_iff.mpr fun e he => ?_
    cases e with
    | sampled failed => exact absurd rfl (h _ he failed)
    | _ => rfl
  rw [hnil, List.nil_append]

theorem samples_movedEntry {s s' : BackendRuntimeState} {cause : Cause} {t : ℚ}
    {past : List Incident} : samples (movedEntry s s' cause t ++ past) = samples past := by
  refine samples_append_of_none ?_
  unfold movedEntry
  split <;> simp

/-- **Step lemma.** The error rate is written by samples alone, and each leaves its
entry. -/
theorem rated_step (hrate : (F.row b).recentErrorRate =
      BackendRuntimeState.errorRate (samples (F.history b)))
    (hb : b ∈ F.names) (h : Step health F d F') :
    (F'.row b).recentErrorRate = BackendRuntimeState.errorRate (samples (F'.history b)) := by
  cases turn_of_step hb h with
  | elsewhere breaker rate history now held count => rw [rate, history, hrate]
  | @cooled d w t circuit openedAt cool row history now =>
    show (w.row b).recentErrorRate = BackendRuntimeState.errorRate (samples (w.history b))
    rw [row, history]
    exact hrate
  | @dispatched r cls w s t hr held backend probe judged pass circuit probes openedAt rate
    history =>
    show (w.row b).recentErrorRate = BackendRuntimeState.errorRate (samples (w.history b))
    rw [rate, history]
    exact hrate
  -- recording an outcome may move the circuit, and that is no sample
  | @judged r s v w hr held backend new row history now =>
    show (w.row b).recentErrorRate = BackendRuntimeState.errorRate (samples (w.history b))
    rw [history, samples_movedEntry, row,
      (v.handler_sameLoad health F.now (F.row b)).recentErrorRate]
    exact hrate
  | @strayed v w row history now =>
    show (w.row b).recentErrorRate = BackendRuntimeState.errorRate (samples (w.history b))
    rw [history, samples_movedEntry, row,
      (v.handler_sameLoad health F.now (F.row b)).recentErrorRate]
    exact hrate
  | @sampled failed w breaker rate history now =>
    show (w.row b).recentErrorRate = BackendRuntimeState.errorRate (samples (w.history b))
    rw [rate, history, hrate]
    rfl
  | @ended r s how w d hr held backend hhow breaker rate history now =>
    show (w.row b).recentErrorRate = BackendRuntimeState.errorRate (samples (w.history b))
    rw [rate, history]
    exact hrate

/-- **Run lemma.** The error rate on the row is that of the samples the history lists,
in the order in which they were taken. -/
theorem rated_of_reach {licence : Fleet → Deed → Prop} (h : Reach (machine health) licence F)
    (hb : b ∈ F.names) :
    (F.row b).recentErrorRate = BackendRuntimeState.errorRate (samples (F.history b)) := by
  refine invariantOn (I := fun F => (F.row b).recentErrorRate =
    BackendRuntimeState.errorRate (samples (F.history b))) ?_ ?_ h hb
  · intro F hF hb
    rw [history_start hF, (hF.fresh b hb).recentErrorRate]
    rfl
  · intro F d F' hF hb _ hd
    exact rated_step hF hb hd

end Fleet

end InferenceGateway
