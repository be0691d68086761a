import Oxutrm.Lib.Transition

/-!
Runs that come to an end. Where every step of some kind does a part of the work that is left, and
such a step can be taken in every state that is not final, no run of such steps is longer than
the work, and one of them ends in a final state.
-/
namespace Oxutrm.Transition
variable {σ ε : Type*} {step : σ → ε → Option σ} {I : σ → Prop} {good : ε → Prop} {work : σ → Nat}

theorem length_le_work (keep : ∀ s e t, I s → step s e = some t → I t)
    (drop : ∀ s e t, I s → good e → step s e = some t → work t < work s) (es : List ε) {s t : σ} (start : I s)
    (all : ∀ e ∈ es, good e) (run : runFrom step s es = some t) : es.length ≤ work s := by
  induction es generalizing s with
  | nil => exact Nat.zero_le _
  | cons e es ih =>
      obtain ⟨u, taken, rest⟩ := Option.bind_eq_some_iff.mp run
      have less := drop s e u start (all e List.mem_cons_self) taken
      have more := ih (keep s e u start taken) (fun f member => all f (List.mem_cons_of_mem _ member)) rest
      exact Nat.lt_of_le_of_lt more less

theorem exists_final_run {final : σ → Prop} (keep : ∀ s e t, I s → step s e = some t → I t)
    (drop : ∀ s e t, I s → good e → step s e = some t → work t < work s)
    (goes : ∀ s, I s → ¬ final s → ∃ e, good e ∧ ∃ t, step s e = some t) {s : σ} (start : I s) :
    ∃ es t, (∀ e ∈ es, good e) ∧ runFrom step s es = some t ∧ final t := by
  by_cases done : final s
  · exact ⟨[], s, fun _ member => (by cases member), rfl, done⟩
  · obtain ⟨e, fine, u, taken⟩ := goes s start done
    have less := drop s e u start fine taken
    obtain ⟨es, t, all, run, ended⟩ := exists_final_run keep drop goes (keep s e u start taken)
    refine ⟨e :: es, t, fun f member => ?_, ?_, ended⟩
    · rcases List.mem_cons.mp member with rfl | later
      · exact fine
      · exact all f later
    · simp only [runFrom, taken]
      exact run
termination_by work s

end Oxutrm.Transition
