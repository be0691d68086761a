import Mathlib.Tactic.Common

/-!
Patching a store towards a goal. Each write brings the places it covers to the
goal and leaves the rest alone, so writes compose by taking the union of what
they cover, in any order and with any overlap.
-/
namespace Oxutrm.Patch
universe u v w
variable {σ : Type u} {κ : Type v} {ν : Type w}

/-- From `s` to `t` exactly the covered places were brought to the goal. -/
structure Toward (get : σ → κ → ν) (goal : κ → ν) (covered : κ → Prop) (s t : σ) : Prop where
  reached : ∀ k, covered k → get t k = goal k
  kept : ∀ k, ¬ covered k → get t k = get s k

namespace Toward
variable {get : σ → κ → ν} {goal : κ → ν} {p q : κ → Prop} {s t u : σ}

theorem trans (first : Toward get goal p s t) (second : Toward get goal q t u) :
    Toward get goal (fun k => p k ∨ q k) s u where
  reached k covered := by
    by_cases later : q k
    · exact second.reached k later
    · rw [second.kept k later]
      exact first.reached k (covered.resolve_right later)
  kept k outside := by
    rw [not_or] at outside
    rw [second.kept k outside.2, first.kept k outside.1]

/-- Nothing is missing once every place that was wrong is covered. -/
theorem complete (patched : Toward get goal p s t) (wrong : ∀ k, get s k ≠ goal k → p k) (k : κ) :
    get t k = goal k := by
  by_cases covered : p k
  · exact patched.reached k covered
  · rw [patched.kept k covered]
    by_contra differs
    exact covered (wrong k differs)

end Toward

theorem toward_foldl {ω : Type*} {get : σ → κ → ν} {goal : κ → ν} {put : σ → ω → σ}
    {covers : ω → κ → Prop} (ws : List ω)
    (sound : ∀ w ∈ ws, ∀ s, Toward get goal (covers w) s (put s w)) (s : σ) :
    Toward get goal (fun k => ∃ w ∈ ws, covers w k) s (ws.foldl put s) := by
  induction ws generalizing s with
  | nil =>
      refine ⟨?_, fun _ _ => rfl⟩
      rintro k ⟨w, member, -⟩
      cases member
  | cons w ws ih =>
      have rest := ih (fun w' member => sound w' (List.mem_cons_of_mem _ member)) (put s w)
      have both := (sound w List.mem_cons_self s).trans rest
      simpa only [List.foldl_cons, List.mem_cons, exists_eq_or_imp] using both

end Oxutrm.Patch
