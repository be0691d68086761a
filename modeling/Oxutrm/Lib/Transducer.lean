import Mathlib.Data.List.Basic

/-!
Machines that read one symbol at a time and answer with any number of others.
Two of them in a row are again one.
-/
namespace Oxutrm.Transducer
variable {σ τ α β γ : Type*}

/-- A whole input, and everything that was answered. -/
def feed (step : σ → α → σ × List β) : σ → List α → σ × List β
  | s, [] => (s, [])
  | s, a :: as => ((feed step (step s a).1 as).1, (step s a).2 ++ (feed step (step s a).1 as).2)

/-- The second machine reads what the first one answers. -/
def chain (step : σ → α → σ × List β) (next : τ → β → τ × List γ) (s : σ × τ) (a : α) :
    (σ × τ) × List γ :=
  (((step s.1 a).1, (feed next s.2 (step s.1 a).2).1), (feed next s.2 (step s.1 a).2).2)

variable (step : σ → α → σ × List β) (next : τ → β → τ × List γ)

@[simp] theorem feed_nil (s : σ) : feed step s [] = (s, []) := rfl

theorem feed_cons (s : σ) (a : α) (as : List α) :
    feed step s (a :: as) =
      ((feed step (step s a).1 as).1, (step s a).2 ++ (feed step (step s a).1 as).2) := rfl

theorem feed_append (s : σ) (as bs : List α) :
    feed step s (as ++ bs) =
      ((feed step (feed step s as).1 bs).1,
        (feed step s as).2 ++ (feed step (feed step s as).1 bs).2) := by
  induction as generalizing s with
  | nil => rfl
  | cons a as ih => simp only [List.cons_append, feed_cons, ih, List.append_assoc]

theorem feed_isPrefix (s : σ) {as bs : List α} (h : as <+: bs) :
    (feed step s as).2 <+: (feed step s bs).2 := by
  obtain ⟨rest, rfl⟩ := h
  rw [feed_append]
  exact List.prefix_append _ _

theorem feed_chain (s : σ) (t : τ) (as : List α) :
    feed (chain step next) (s, t) as =
      (((feed step s as).1, (feed next t (feed step s as).2).1),
        (feed next t (feed step s as).2).2) := by
  induction as generalizing s t with
  | nil => rfl
  | cons a as ih => simp only [feed_cons, chain, ih, feed_append]

end Oxutrm.Transducer
