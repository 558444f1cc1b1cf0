import InferenceGateway.Lib.Transition
import Mathlib.Data.Nat.Init
import Mathlib.Order.Nat
import Mathlib.Logic.Function.Basic
import Mathlib.Tactic.TypeStar

/-!
# Ranked tasks

Termination arguments for a machine that many tasks share. Every step is taken by one
task, its `owner`, or by the environment. A *ranking* gives each task a number in each
state: the task's own steps lower it, and no other step changes it.

- `Ranking.taken_add_rank_le`: however the tasks interleave, a task takes at most as many
  steps as its first rank.
- `Ranking.eventually_idle`: in an infinite run in which no busy task starves, every task
  comes to rest, and stays there.
- `Ranking.exists_chain_idle`: if a busy task always has a step to take, every reached
  state can be run dry.
-/

namespace InferenceGateway

namespace Lib

variable {σ α ι : Type*}

/-- The steps each task has taken, as a note on a run. -/
def noteOwner [DecidableEq ι] (owner : σ → α → Option ι) (s : σ) (a : α) (_ : σ) (taken : ι → ℕ) :
    ι → ℕ :=
  match owner s a with
  | some i => Function.update taken i (taken i + 1)
  | none => taken

/-- Own steps lower the rank of a task, and no other step changes it. -/
structure Ranking (M : Machine σ α) (owner : σ → α → Option ι) (rank : σ → ι → ℕ) : Prop where
  own : ∀ s a s' i, Reach M anyStep s → M.step s a s' → owner s a = some i → rank s' i < rank s i
  other : ∀ s a s' i, Reach M anyStep s → M.step s a s' → owner s a ≠ some i →
    rank s' i = rank s i

section Note

variable [DecidableEq ι] {owner : σ → α → Option ι} {s s' : σ} {a : α} {i : ι} {taken : ι → ℕ}

/-- The owner of a step has taken one more. -/
theorem noteOwner_own (h : owner s a = some i) : noteOwner owner s a s' taken i = taken i + 1 := by
  simp [noteOwner, h]

theorem noteOwner_other (h : owner s a ≠ some i) : noteOwner owner s a s' taken i = taken i := by
  unfold noteOwner
  cases ho : owner s a with
  | none => rfl
  | some j =>
    have hne : i ≠ j := by
      rintro rfl
      exact h ho
    exact Function.update_of_ne hne ..

end Note

namespace Ranking

section Finite

variable [DecidableEq ι] {start : σ → Prop} {next : σ → α → Option σ} {owner : σ → α → Option ι}
  {rank : σ → ι → ℕ} {bound : ℕ}

/-- **The finite rule.** What a task has done and what it can still do add up to no more
than its first rank. -/
theorem taken_add_rank_le (h : Ranking (Machine.ofFn start next) owner rank)
    (hstart : ∀ s i, start s → rank s i ≤ bound) {s : σ × (ι → ℕ)}
    (hs : Reach (Machine.ofFn (fun s => start s.1 ∧ s.2 = fun _ => 0)
      (observe next (noteOwner owner))) anyStep s) (i : ι) :
    s.2 i + rank s.1 i ≤ bound := by
  induction hs with
  | start h₀ =>
    obtain ⟨h₁, h₂⟩ := h₀
    rw [h₂, Nat.zero_add]
    exact hstart _ i h₁
  | @step s s' a hs _ hstep ih =>
    obtain ⟨t, ht, rfl⟩ := Option.map_eq_some_iff.mp hstep
    have hreach : Reach (Machine.ofFn start next) anyStep s.1 :=
      reach_of_observe (fun _ h₀ => h₀.1) hs
    -- its own step is counted and lowers the rank; any other leaves both alone
    by_cases ho : owner s.1 a = some i
    · have hlt := h.own _ _ _ _ hreach ht ho
      show noteOwner owner s.1 a t s.2 i + rank t i ≤ bound
      rw [noteOwner_own ho]
      omega
    · show noteOwner owner s.1 a t s.2 i + rank t i ≤ bound
      rw [noteOwner_other ho, h.other _ _ _ _ hreach ht ho]
      exact ih

end Finite

end Ranking

/-! ## Infinite runs -/

/-- An infinite run of a machine. -/
structure Run (M : Machine σ α) where
  state : ℕ → σ
  label : ℕ → α
  start : M.start (state 0)
  step : ∀ n, M.step (state n) (label n) (state (n + 1))

namespace Run

variable {M : Machine σ α}

/-- Every state of an infinite run is reached. -/
theorem reach (run : Run M) (n : ℕ) : Reach M anyStep (run.state n) := by
  induction n with
  | zero => exact .start run.start
  | succ n ih => exact ih.step trivial (run.step n)

/-- Follow a schedule; a label that is not enabled is skipped. -/
def follow (next : σ → α → Option σ) (s : σ) (label : ℕ → α) : ℕ → σ
  | 0 => s
  | n + 1 => (next (follow next s label n) (label n)).getD (follow next s label n)

/-- A schedule all of whose labels are enabled is a run. -/
def ofSchedule {start : σ → Prop} {next : σ → α → Option σ} {s : σ} (label : ℕ → α)
    (hs : start s) (henabled : ∀ n, (next (follow next s label n) (label n)).isSome = true) :
    Run (Machine.ofFn start next) where
  state := follow next s label
  label := label
  start := hs
  step n := by
    obtain ⟨t, ht⟩ := Option.isSome_iff_exists.mp (henabled n)
    show next (follow next s label n) (label n) = some (follow next s label (n + 1))
    simp only [follow, ht, Option.getD_some]

/-- No task that is busy waits for ever for its next step. -/
def Fair (run : Run M) (owner : σ → α → Option ι) (busy : σ → ι → Prop) : Prop :=
  ∀ n i, busy (run.state n) i → ∃ m, n ≤ m ∧ owner (run.state m) (run.label m) = some i

end Run

namespace Ranking

variable {M : Machine σ α} {owner : σ → α → Option ι} {rank : σ → ι → ℕ}
  {busy : σ → ι → Prop}

/-- The rank of a task never rises. -/
theorem antitone (h : Ranking M owner rank) (run : Run M) (i : ι) {n m : ℕ} (hle : n ≤ m) :
    rank (run.state m) i ≤ rank (run.state n) i := by
  induction m, hle using Nat.le_induction with
  | base => exact le_refl _
  | succ m _ ih =>
    by_cases ho : owner (run.state m) (run.label m) = some i
    · have hlt := h.own _ _ _ _ (run.reach m) (run.step m) ho
      exact hlt.le.trans ih
    · have heq := h.other _ _ _ _ (run.reach m) (run.step m) ho
      exact heq.le.trans ih

/-- **The infinite rule.** Where no busy task starves, every task comes to rest: a task
that went on being busy would lower its rank again and again. -/
theorem exists_idle (h : Ranking M owner rank) (run : Run M) (hfair : run.Fair owner busy)
    (i : ι) (n : ℕ) : ∃ m, n ≤ m ∧ ¬ busy (run.state m) i := by
  induction hr : rank (run.state n) i using Nat.strong_induction_on generalizing n with
  | _ r ih =>
    by_cases hbusy : busy (run.state n) i
    · obtain ⟨m, hnm, howner⟩ := hfair n i hbusy
      have hlt : rank (run.state (m + 1)) i < r := by
        have hfalls := h.own _ _ _ _ (run.reach m) (run.step m) howner
        have hle := h.antitone run i hnm
        omega
      obtain ⟨m', hm', hidle⟩ := ih _ hlt (m + 1) rfl
      exact ⟨m', by omega, hidle⟩
    · exact ⟨n, le_refl _, hbusy⟩

/-- A task that comes to rest stays at rest, if rest is for good. -/
theorem eventually_idle (h : Ranking M owner rank) (run : Run M) (hfair : run.Fair owner busy)
    {i : ι} {n : ℕ} (hrest : ∀ m, n ≤ m → ¬ busy (run.state m) i → ¬ busy (run.state (m + 1)) i) :
    ∃ m, n ≤ m ∧ ∀ k, m ≤ k → ¬ busy (run.state k) i := by
  obtain ⟨m, hnm, hidle⟩ := h.exists_idle run hfair i n
  refine ⟨m, hnm, fun k hmk => ?_⟩
  induction k, hmk using Nat.le_induction with
  | base => exact hidle
  | succ k hk ih => exact hrest k (hnm.trans hk) ih

/-- **The drain rule.** If a busy task always has an admitted step of its own to take, and
admitted steps leave tasks at rest, then from every reached state admitted steps lead to
one where all tasks are at rest. -/
theorem exists_chain_idle (h : Ranking M owner rank) {ok : σ → α → Prop}
    (hstep : ∀ s i, Reach M anyStep s → busy s i →
      ∃ a s', ok s a ∧ M.step s a s' ∧ owner s a = some i)
    (hrest : ∀ s a s' i, Reach M anyStep s → ok s a → M.step s a s' → ¬ busy s i → ¬ busy s' i)
    {s : σ} (hs : Reach M anyStep s) (tasks : List ι) :
    ∃ t, Chain M.step ok s t ∧ ∀ i ∈ tasks, ¬ busy t i := by
  have hone : ∀ (i : ι) (s : σ), Reach M anyStep s → ∃ t, Chain M.step ok s t ∧ ¬ busy t i := by
    intro i s hs
    induction hr : rank s i using Nat.strong_induction_on generalizing s with
    | _ r ih =>
      by_cases hbusy : busy s i
      · obtain ⟨a, s', hok, hstep, howner⟩ := hstep s i hs hbusy
        have hlt := h.own _ _ _ _ hs hstep howner
        obtain ⟨t, hchain, hidle⟩ := ih _ (hr ▸ hlt) s' (hs.step trivial hstep) rfl
        exact ⟨t, (Chain.single hok hstep).trans hchain, hidle⟩
      · exact ⟨s, .refl s, hbusy⟩
  induction tasks generalizing s with
  | nil => exact ⟨s, .refl s, by simp⟩
  | cons i tasks ih =>
    obtain ⟨t, hst, hidle⟩ := hone i s hs
    have ht : Reach M anyStep t := hs.chain (hst.mono fun _ _ _ => trivial)
    obtain ⟨u, htu, hrest'⟩ := ih ht
    -- the first task stays at rest while the others are brought there
    have hboth : Reach M anyStep u ∧ ¬ busy u i := by
      refine htu.preserves (I := fun v => Reach M anyStep v ∧ ¬ busy v i) ?_ ⟨ht, hidle⟩
      rintro v a v' ⟨hv, hv'⟩ hok hstep
      exact ⟨hv.step trivial hstep, hrest v a v' i hv hok hstep hv'⟩
    refine ⟨u, hst.trans htu, fun j hj => ?_⟩
    rcases List.mem_cons.mp hj with rfl | hj
    · exact hboth.2
    · exact hrest' j hj

end Ranking

end Lib

end InferenceGateway
