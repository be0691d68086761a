import Mathlib.Data.List.DropRight

/-!
Logs that only grow. A property of a log is stated entry by entry: what an entry must
satisfy may speak of everything that was written before it.
-/
namespace Oxutrm.History
variable {α β : Type*}

/-- Every entry is right, given the entries before it. -/
def Each (right : List α → α → Prop) (log : List α) : Prop :=
  ∀ before entry after, log = before ++ entry :: after → right before entry

theorem each_nil (right : List α → α → Prop) : Each right [] := by
  intro before entry after whole
  simp at whole

theorem each_of_forall {right : List α → α → Prop} {log : List α}
    (always : ∀ entry ∈ log, ∀ before, right before entry) : Each right log := by
  intro before entry after whole
  exact always entry (by simp [whole]) before

theorem each_cons {right : List α → α → Prop} {entry : α} {log : List α} (first : right [] entry)
    (rest : Each (fun before => right (entry :: before)) log) : Each right (entry :: log) := by
  intro before x after whole
  cases before with
  | nil =>
      obtain ⟨same, -⟩ := List.cons.inj whole
      exact same ▸ first
  | cons y before =>
      obtain ⟨same, whole⟩ := List.cons.inj whole
      exact same ▸ rest before x after whole

theorem Each.append {right : List α → α → Prop} {log more : List α} (old : Each right log)
    (new : Each (fun before => right (log ++ before)) more) : Each right (log ++ more) := by
  intro before x after whole
  cases List.append_eq_append_iff.mp whole with
  | inl split =>
      obtain ⟨middle, same, rest⟩ := split
      subst same
      exact new middle x after rest
  | inr split =>
      obtain ⟨middle, same, rest⟩ := split
      cases middle with
      | nil =>
          have settled := new [] x after (by simpa using rest.symm)
          have equal : log = before := by simpa using same
          rw [← equal]
          simpa using settled
      | cons y middle =>
          obtain ⟨head, -⟩ := List.cons.inj rest
          subst head
          exact old before x middle same

theorem Each.snoc {right : List α → α → Prop} {log : List α} {entry : α} (old : Each right log)
    (new : right log entry) : Each right (log ++ [entry]) :=
  old.append (each_cons (by simpa using new) (each_nil _))

theorem Each.mono {right right' : List α → α → Prop} {log : List α} (each : Each right log)
    (weaker : ∀ before entry, right before entry → right' before entry) : Each right' log :=
  fun before entry after whole => weaker _ _ (each before entry after whole)

theorem Each.of_mem {right : List α → α → Prop} {log : List α} (each : Each right log) {entry : α}
    (member : entry ∈ log) : ∃ before, right before entry := by
  obtain ⟨before, after, whole⟩ := List.append_of_mem member
  exact ⟨before, each before entry after whole⟩

/-- The entries since the last one that `ends` holds of. -/
def since (ends : α → Bool) (log : List α) : List α := log.rtakeWhile fun entry => !ends entry

@[simp] theorem since_nil (ends : α → Bool) : since ends [] = [] := rfl

theorem since_snoc (ends : α → Bool) (log : List α) (entry : α) :
    since ends (log ++ [entry]) = if ends entry then [] else since ends log ++ [entry] := by
  rw [since, List.rtakeWhile_concat]
  cases ends entry with
  | true => rfl
  | false => rfl

end Oxutrm.History
