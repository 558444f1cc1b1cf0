import Mathlib.Data.List.Basic
import Mathlib.Tactic.TypeStar

/-!
# Histories

A history is the list of what has happened, newest first. `Lawful ok` says that
every event was legal given the events before it; it is how a property of whole
runs is carried as an invariant of the history alone, with one obligation for
each event that is entered. `countSince` counts events since the last reset
event, the counting form of "since" in past-time logic.

- `Lawful.of_append`, `Lawful.at_split`: what was legal stays so, and can be
  read off at any point of the history, however much has happened since.
- `countSince_cons_reset`, `countSince_cons_other`: what one more event does to
  a count.
-/

namespace InferenceGateway

namespace Lib

variable {ε : Type*}

/-- Every event of the history was legal when it happened. -/
def Lawful (ok : ε → List ε → Prop) : List ε → Prop
  | [] => True
  | e :: past => ok e past ∧ Lawful ok past

instance Lawful.decidable {ok : ε → List ε → Prop} [∀ e past, Decidable (ok e past)] :
    ∀ past, Decidable (Lawful ok past)
  | [] => inferInstanceAs (Decidable True)
  | e :: past => @instDecidableAnd (ok e past) (Lawful ok past) _ (Lawful.decidable past)

/-- What has happened since cannot make the past unlawful. -/
theorem Lawful.of_append {ok : ε → List ε → Prop} {past : List ε} :
    ∀ {recent : List ε}, Lawful ok (recent ++ past) → Lawful ok past
  | [], h => h
  | _ :: _, h => Lawful.of_append h.2

/-- The law at any point of a lawful history. -/
theorem Lawful.at_split {ok : ε → List ε → Prop} {recent past : List ε} {e : ε}
    (h : Lawful ok (recent ++ e :: past)) : ok e past :=
  (Lawful.of_append h).1

/-- Events meeting `p` since the last event meeting `reset` (exclusive). -/
def countSince (reset p : ε → Bool) : List ε → ℕ
  | [] => 0
  | e :: past => if reset e then 0 else (if p e then 1 else 0) + countSince reset p past

/-- A reset starts the count anew. -/
theorem countSince_cons_reset {reset p : ε → Bool} {e : ε} (he : reset e = true)
    (past : List ε) : countSince reset p (e :: past) = 0 := by
  rw [countSince, if_pos he]

/-- Any other event is counted or not. -/
theorem countSince_cons_other {reset p : ε → Bool} {e : ε} (he : reset e = false)
    (past : List ε) :
    countSince reset p (e :: past) = (if p e then 1 else 0) + countSince reset p past := by
  rw [countSince, if_neg (by simp [he])]

end Lib

end InferenceGateway
