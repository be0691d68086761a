import Mathlib.Logic.Relation

/-!
Guarded transition systems. A step function says which events a state enables
and where they lead; a guard says which of them a run is allowed to take. The
unguarded runs are those of the guard `free`.
-/
namespace Oxutrm.Transition
variable {σ τ ε δ : Type*}

/-- One admitted and enabled event leads from `s` to `t`. -/
def Fires (step : σ → ε → Option σ) (guard : σ → ε → Prop) (s t : σ) : Prop :=
  ∃ e, guard s e ∧ step s e = some t

/-- Some run of admitted events leads from the first state to the second. -/
def Reaches (step : σ → ε → Option σ) (guard : σ → ε → Prop) : σ → σ → Prop :=
  Relation.ReflTransGen (Fires step guard)

def free : σ → ε → Prop := fun _ _ => True

/-- Replay of a list of events, `none` at the first one that is not enabled. -/
def runFrom (step : σ → ε → Option σ) : σ → List ε → Option σ
  | s, [] => some s
  | s, e :: es => (step s e).bind fun t => runFrom step t es

/-- Every event of the replay is admitted in the state it is taken in. -/
def Admits (step : σ → ε → Option σ) (guard : σ → ε → Prop) : σ → List ε → Prop
  | _, [] => True
  | s, e :: es => guard s e ∧
      match step s e with
      | some t => Admits step guard t es
      | none => True

instance decidableAdmits (step : σ → ε → Option σ) (guard : σ → ε → Prop)
    [∀ s e, Decidable (guard s e)] (s : σ) (es : List ε) : Decidable (Admits step guard s es) :=
  match es with
  | [] => .isTrue trivial
  | e :: es =>
      match taken : step s e with
      | some t =>
          have := decidableAdmits step guard t es
          decidable_of_iff (guard s e ∧ Admits step guard t es) (by simp only [Admits, taken])
      | none => decidable_of_iff (guard s e) (by simp only [Admits, taken, and_true])

theorem Reaches.invariant {step : σ → ε → Option σ} {guard : σ → ε → Prop}
    {I : σ → Prop}
    (keep : ∀ s e t, I s → guard s e → step s e = some t → I t)
    {s t : σ} (run : Reaches step guard s t) (start : I s) : I t := by
  induction run with
  | refl => exact start
  | tail _ fired ih =>
      obtain ⟨e, admitted, taken⟩ := fired
      exact keep _ e _ ih admitted taken

theorem Reaches.single {step : σ → ε → Option σ} {guard : σ → ε → Prop}
    {s t : σ} (e : ε) (admitted : guard s e) (taken : step s e = some t) :
    Reaches step guard s t :=
  Relation.ReflTransGen.single ⟨e, admitted, taken⟩

theorem reaches_of_runFrom {step : σ → ε → Option σ} {guard : σ → ε → Prop}
    (es : List ε) {s t : σ} (admitted : Admits step guard s es)
    (run : runFrom step s es = some t) : Reaches step guard s t := by
  induction es generalizing s with
  | nil =>
      obtain rfl : s = t := by simpa [runFrom] using run
      exact Relation.ReflTransGen.refl
  | cons e es ih =>
      obtain ⟨u, taken, rest⟩ := Option.bind_eq_some_iff.mp run
      simp only [Admits, taken] at admitted
      exact Relation.ReflTransGen.head ⟨e, admitted.1, taken⟩ (ih admitted.2 rest)

theorem Admits.mono {step : σ → ε → Option σ} {guard guard' : σ → ε → Prop}
    (weaker : ∀ s e, guard s e → guard' s e) {es : List ε} {s : σ} (admitted : Admits step guard s es) :
    Admits step guard' s es := by
  induction es generalizing s with
  | nil => trivial
  | cons e es ih =>
      refine ⟨weaker s e admitted.1, ?_⟩
      have rest := admitted.2
      cases taken : step s e with
      | none => trivial
      | some t =>
          rw [taken] at rest
          exact ih rest

/-- `P` holds of every step a replay takes, up to the first event that is not enabled. -/
def Along (step : σ → ε → Option σ) (P : σ → ε → σ → Prop) : σ → List ε → Prop
  | _, [] => True
  | s, e :: es =>
      match step s e with
      | some t => P s e t ∧ Along step P t es
      | none => True

theorem Along.mono {step : σ → ε → Option σ} {P Q : σ → ε → σ → Prop}
    (weaker : ∀ s e t, P s e t → Q s e t) {es : List ε} {s : σ} (along : Along step P s es) :
    Along step Q s es := by
  induction es generalizing s with
  | nil => trivial
  | cons e es ih =>
      unfold Along at along ⊢
      cases taken : step s e with
      | none => trivial
      | some t =>
          rw [taken] at along
          exact ⟨weaker s e t along.1, ih along.2⟩

/-- What is the same of every step from an invariant is the same of every replay. -/
theorem along_iff {step : σ → ε → Option σ} {P Q : σ → ε → σ → Prop} {I : σ → Prop}
    (keep : ∀ s e t, I s → step s e = some t → I t)
    (same : ∀ s e t, I s → step s e = some t → (P s e t ↔ Q s e t))
    (es : List ε) {s : σ} (start : I s) : Along step P s es ↔ Along step Q s es := by
  induction es generalizing s with
  | nil => exact Iff.rfl
  | cons e es ih =>
      unfold Along
      cases taken : step s e with
      | none => exact Iff.rfl
      | some t => exact and_congr (same s e t start taken) (ih (keep s e t start taken))

/-- Where what is right stays right under exactly some steps, a run keeps it right exactly
if it takes no others. -/
theorem along_right_iff {step : σ → ε → Option σ} {I R : σ → Prop} {Q : σ → ε → Prop}
    (keep : ∀ s e t, I s → step s e = some t → I t)
    (same : ∀ s e t, I s → R s → step s e = some t → (R t ↔ Q s e))
    (es : List ε) {s : σ} (start : I s) (right : R s) :
    Along step (fun _ _ t => R t) s es ↔ Along step (fun s e _ => Q s e) s es := by
  induction es generalizing s with
  | nil => exact Iff.rfl
  | cons e es ih =>
      unfold Along
      cases taken : step s e with
      | none => exact Iff.rfl
      | some t =>
          have one := same s e t start right taken
          have kept := keep s e t start taken
          constructor
          · rintro ⟨now, rest⟩
            exact ⟨one.mp now, (ih kept now).mp rest⟩
          · rintro ⟨now, rest⟩
            exact ⟨one.mpr now, (ih kept (one.mpr now)).mpr rest⟩

theorem admits_free (step : σ → ε → Option σ) (es : List ε) (s : σ) :
    Admits step free s es := by
  induction es generalizing s with
  | nil => trivial
  | cons e es ih =>
      simp only [Admits, free, true_and]
      cases step s e with
      | none => trivial
      | some t => exact ih t

end Oxutrm.Transition
