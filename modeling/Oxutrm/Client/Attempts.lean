import Oxutrm.Client.Rebuild

/-!
What an attempt can still do. One that is past its `Choose`, or can no longer
claim its commitment, sends no other one, whatever its task does.
-/
namespace Oxutrm.Client

variable {Id : Type}

/-- An attempt that will never send a `Choose` it has not sent yet. -/
def Attempt.Mute (a : Attempt Id) : Prop :=
  a.progress = .chosen ∨ a.progress = .returned ∨ a.progress = .finished ∨ a.commitment = .abandoned

/-- Only a claimed commitment leads to a `Choose`. -/
def Attempt.Honest (a : Attempt Id) : Prop :=
  a.progress = .claimed → a.commitment = .committed

namespace Attempt
variable {a a' : Attempt Id} {t : TaskStep}

theorem mute_abort (quiet : a.polling = true → a.progress ≠ .connecting ∧ a.progress ≠ .claimed) :
    a.abort.Mute := by
  simp only [Mute, abort]
  split
  · next polling =>
      obtain ⟨past, sent⟩ := quiet polling
      cases standing : a.progress with
      | connecting => exact absurd standing past
      | claimed => exact absurd standing sent
      | chosen => exact Or.inl rfl
      | returned => exact Or.inr (Or.inl rfl)
      | finished => exact Or.inr (Or.inr (Or.inl rfl))
  · exact Or.inr (Or.inr (Or.inl rfl))

theorem abort_generation (a : Attempt Id) : a.abort.generation = a.generation := by
  simp only [Attempt.abort]
  split
  · rfl
  · rfl

theorem abort_over (a : Attempt Id) (past : a.progress = .finished) : a.abort.progress = .finished := by
  simp only [Attempt.abort]
  split
  · exact past
  · rfl

theorem Mute.abort (mute : a.Mute) : a.abort.Mute := by
  simp only [Mute, Attempt.abort]
  split
  · exact mute
  · exact Or.inr (Or.inr (Or.inl rfl))

theorem Honest.abort (honest : a.Honest) : a.abort.Honest := by
  simp only [Honest, Attempt.abort]
  split
  · exact honest
  · exact fun claimed => by cases claimed

theorem Honest.not_mute (honest : a.Honest) (claimed : a.progress = .claimed) : ¬ a.Mute := by
  intro mute
  have committed := honest claimed
  simp [Mute, claimed, committed] at mute

theorem Mute.step (mute : a.Mute) (honest : a.Honest) (stepped : a.step t = some a') :
    a'.Mute := by
  rcases step_cases stepped with
    ⟨-, -, -, -, rfl⟩ | ⟨-, -, rfl⟩ | ⟨-, -, connecting, ⟨free, rfl⟩ | ⟨-, rfl⟩⟩ |
    ⟨-, -, claimed, rfl⟩
  · exact mute
  · simp only [Mute]
    split
    · exact Or.inr (Or.inr (Or.inl rfl))
    · exact mute
  · simp [Mute, free, connecting] at mute
  · exact Or.inr (Or.inl rfl)
  · exact absurd mute (honest.not_mute claimed)

theorem step_over (stepped : a.step t = some a') (past : a.progress = .finished) :
    a'.progress = .finished := by
  rcases step_cases stepped with
    ⟨-, -, -, -, rfl⟩ | ⟨-, -, rfl⟩ | ⟨-, -, connecting, -⟩ | ⟨-, -, claimed, -⟩
  · exact past
  · simp only [past, ite_self]
  · rw [past] at connecting
    cases connecting
  · rw [past] at claimed
    cases claimed

theorem Honest.step (honest : a.Honest) (stepped : a.step t = some a') : a'.Honest := by
  rcases step_cases stepped with
    ⟨-, -, -, -, rfl⟩ | ⟨-, -, rfl⟩ | ⟨-, -, -, ⟨-, rfl⟩ | ⟨-, rfl⟩⟩ | ⟨-, -, -, rfl⟩
  · exact honest
  · intro claimed
    simp only at claimed ⊢
    split at claimed
    · cases claimed
    · exact honest claimed
  · exact fun _ => rfl
  · exact fun claimed => by cases claimed
  · exact fun claimed => by cases claimed

end Attempt

def Rebuild.Honest (r : Rebuild Id) : Prop :=
  ∀ (i : Nat) a, r.attempts[i]? = some a → a.Honest

namespace Rebuild.Honest
variable {r : Rebuild Id}

theorem aimed (aim : Aim Id) : (Rebuild.aimed aim).Honest := by
  intro i a found
  simp [Rebuild.aimed] at found

theorem cancel (honest : r.Honest) : r.cancel.Honest := by
  intro i a found
  rw [r.cancel_attempt i] at found
  split at found
  · obtain ⟨b, before, rfl⟩ := Option.map_eq_some_iff.mp found
    exact (honest i b before).abort
  · exact honest i a found

theorem set (honest : r.Honest) {i : Nat} {a : Attempt Id} (own : a.Honest) :
    Rebuild.Honest { r with attempts := r.attempts.set i a } := by
  intro j b found
  by_cases here : i = j
  · subst here
    obtain ⟨inside, rfl⟩ := List.getElem?_eq_some_iff.mp found
    rw [List.getElem_set_self]
    exact own
  · change (r.attempts.set i a)[j]? = some b at found
    rw [List.getElem?_set_ne here] at found
    exact honest j b found

theorem begin (honest : r.Honest) : r.begin.Honest := by
  intro i a found
  simp only [Rebuild.begin] at found
  cases List.mem_append.mp (List.mem_of_getElem? found) with
  | inl old =>
      obtain ⟨j, before⟩ := List.mem_iff_getElem?.mp old
      exact honest j a before
  | inr new =>
      rw [List.mem_singleton.mp new]
      exact fun claimed => by cases claimed

theorem makeWay (honest : r.Honest) : r.makeWay.1.Honest := by
  simp only [Rebuild.makeWay]
  split
  · cases r.abandon_cases with
    | inl same =>
        rw [same]
        exact honest
    | inr given =>
        obtain ⟨i, a, -, found, free, result⟩ := given
        rw [result]
        refine (honest.set ?_).cancel
        intro claimed
        have committed := honest i a found claimed
        rw [free] at committed
        cases committed
  · exact honest

theorem accept {E : Type} (honest : r.Honest) (report : Report E) :
    (r.accept report).1.Honest := by
  intro i a found
  rw [(r.accept_frame report).2] at found
  exact honest i a found

theorem task (honest : r.Honest) {r' : Rebuild Id} {i : Nat} {t : Attempt.TaskStep}
    (taken : r.task i (·.step t) = some r') : r'.Honest := by
  obtain ⟨a, a', found, stepped, rfl⟩ := Rebuild.task_cases taken
  exact honest.set ((honest i a found).step stepped)

theorem finish (honest : r.Honest) {r' : Rebuild Id} {i : Nat}
    (taken : r.task i Attempt.finish = some r') : r'.Honest := by
  obtain ⟨a, a', -, ended, rfl⟩ := Rebuild.task_cases taken
  rw [Attempt.finish_frame ended]
  exact honest.set fun claimed => by cases claimed

end Rebuild.Honest
end Oxutrm.Client
