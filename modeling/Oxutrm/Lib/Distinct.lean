import Mathlib.Data.List.Destutter
import Mathlib.Data.List.Sort

/-!
Lists without repeats, by a key of their entries: what is pushed only if its key is new, and
what is left of a sorted list when of neighbours with one key the first stays.
-/
namespace Distinct
variable {α κ : Type*} [DecidableEq κ] {key : α → κ}

/-- At the end, unless there is one with its key. -/
def pushNew (key : α → κ) (l : List α) (a : α) : List α :=
  if l.any fun x => key x = key a then l else l ++ [a]

/-- Of neighbours with one key the first. -/
def dedupBy (key : α → κ) (l : List α) : List α := l.destutter fun a b => key a ≠ key b

section Pushed
variable {l more : List α} {a x : α}

theorem pushNew_cases (key : α → κ) (l : List α) (a : α) :
    (pushNew key l a = l ∧ ∃ x ∈ l, key x = key a) ∨
      (pushNew key l a = l ++ [a] ∧ ∀ x ∈ l, key x ≠ key a) := by
  unfold pushNew
  by_cases old : (l.any fun x => key x = key a) = true
  · rw [if_pos old]
    obtain ⟨x, member, same⟩ := List.any_eq_true.mp old
    exact .inl ⟨rfl, x, member, of_decide_eq_true same⟩
  · rw [if_neg old]
    refine .inr ⟨rfl, fun x member same => old ?_⟩
    exact List.any_eq_true.mpr ⟨x, member, decide_eq_true same⟩

theorem mem_of_mem_pushed (member : x ∈ more.foldl (pushNew key) l) : x ∈ l ∨ x ∈ more := by
  induction more generalizing l with
  | nil => exact .inl member
  | cons a rest ih =>
      rcases ih member with pushed | later
      · cases pushNew_cases key l a with
        | inl old =>
            rw [old.1] at pushed
            exact .inl pushed
        | inr new =>
            rw [new.1] at pushed
            refine (List.mem_append.mp pushed).imp_right fun last => ?_
            rw [List.mem_singleton.mp last]
            exact List.mem_cons_self
      · exact .inr (List.mem_cons_of_mem _ later)

theorem mem_pushed_of_mem (member : x ∈ l) : x ∈ more.foldl (pushNew key) l := by
  induction more generalizing l with
  | nil => exact member
  | cons a rest ih =>
      apply ih
      cases pushNew_cases key l a with
      | inl old =>
          rw [old.1]
          exact member
      | inr new =>
          rw [new.1]
          exact List.mem_append_left _ member

theorem key_mem_pushed (member : x ∈ more) : ∃ y ∈ more.foldl (pushNew key) l, key y = key x := by
  induction more generalizing l with
  | nil => cases member
  | cons a rest ih =>
      rcases List.mem_cons.mp member with rfl | later
      · have goes : ∀ y ∈ pushNew key l x, y ∈ rest.foldl (pushNew key) (pushNew key l x) :=
          fun y there => mem_pushed_of_mem there
        cases pushNew_cases key l x with
        | inl old =>
            obtain ⟨y, there, same⟩ := old.2
            refine ⟨y, goes y ?_, same⟩
            rw [old.1]
            exact there
        | inr new =>
            refine ⟨x, goes x ?_, rfl⟩
            rw [new.1]
            exact List.mem_append_right _ List.mem_cons_self
      · exact ih later

theorem mem_pushed (one : ∀ a ∈ more, ∀ b ∈ more, key a = key b → a = b) :
    x ∈ more.foldl (pushNew key) [] ↔ x ∈ more := by
  have within : ∀ y ∈ more.foldl (pushNew key) [], y ∈ more := fun y there =>
    (mem_of_mem_pushed there).resolve_left List.not_mem_nil
  refine ⟨within x, fun member => ?_⟩
  obtain ⟨y, there, same⟩ : ∃ y ∈ more.foldl (pushNew key) [], key y = key x := key_mem_pushed member
  rw [← one y (within y there) x member same]
  exact there

theorem pairwise_pushed (distinct : l.Pairwise fun a b => key a ≠ key b) :
    (more.foldl (pushNew key) l).Pairwise fun a b => key a ≠ key b := by
  induction more generalizing l with
  | nil => exact distinct
  | cons a rest ih =>
      apply ih
      cases pushNew_cases key l a with
      | inl old =>
          rw [old.1]
          exact distinct
      | inr new =>
          rw [new.1]
          refine List.pairwise_append.mpr ⟨distinct, List.pairwise_singleton _ _, fun x member y last => ?_⟩
          rw [List.mem_singleton.mp last]
          exact new.2 x member

end Pushed

section Sorted
variable {r : α → α → Prop} {l : List α}

theorem mem_of_mem_dedupBy {x : α} (member : x ∈ dedupBy key l) : x ∈ l :=
  (List.destutter_sublist _ l).subset member

theorem key_mem_dedupBy {x : α} (member : x ∈ l) : ∃ y ∈ dedupBy key l, key y = key x := by
  have all : ∀ (l : List α) (a : α), ∀ x ∈ a :: l,
      ∃ y ∈ l.destutter' (fun a b => key a ≠ key b) a, key y = key x := by
    intro l
    induction l with
    | nil => exact fun a x member => ⟨x, member, rfl⟩
    | cons b l ih =>
        intro a x member
        rw [List.destutter'_cons]
        by_cases same : key a = key b
        · rw [if_neg (not_not_intro same)]
          rcases List.mem_cons.mp member with rfl | member
          · exact ih x x List.mem_cons_self
          · rcases List.mem_cons.mp member with rfl | later
            · obtain ⟨y, there, key_y⟩ := ih a a List.mem_cons_self
              exact ⟨y, there, key_y.trans same⟩
            · exact ih a x (List.mem_cons_of_mem _ later)
        · rw [if_pos same]
          rcases List.mem_cons.mp member with rfl | later
          · exact ⟨x, List.mem_cons_self, rfl⟩
          · obtain ⟨y, there, key_y⟩ := ih b x later
            exact ⟨y, List.mem_cons_of_mem _ there, key_y⟩
  cases l with
  | nil => cases member
  | cons a l => exact all l a x member

theorem mem_dedupBy {x : α} (one : ∀ a ∈ l, ∀ b ∈ l, key a = key b → a = b) :
    x ∈ dedupBy key l ↔ x ∈ l := by
  refine ⟨mem_of_mem_dedupBy, fun member => ?_⟩
  obtain ⟨y, there, same⟩ : ∃ y ∈ dedupBy key l, key y = key x := key_mem_dedupBy member
  rw [← one y (mem_of_mem_dedupBy there) x member same]
  exact there

/-- After a sort whose order tells the keys apart no key is left twice. -/
theorem pairwise_dedupBy (trans : ∀ a b c, r a b → r b c → r a c)
    (anti : ∀ a b, r a b → r b a → key a = key b)
    (same : ∀ a ∈ l, ∀ b ∈ l, key a = key b → r a b) (sorted : l.Pairwise r) :
    (dedupBy key l).Pairwise fun a b => r a b ∧ key a ≠ key b := by
  have kept : (dedupBy key l).Pairwise r := sorted.sublist (List.destutter_sublist _ l)
  have apart : (dedupBy key l).IsChain fun a b => key a ≠ key b := List.isChain_destutter _ l
  have within : ∀ x ∈ dedupBy key l, x ∈ l := fun x => mem_of_mem_dedupBy
  generalize dedupBy key l = d at kept apart within
  induction d with
  | nil => exact List.Pairwise.nil
  | cons a d ih =>
      obtain ⟨first, rest⟩ := List.pairwise_cons.mp kept
      have tail := ih rest apart.tail fun x member => within x (List.mem_cons_of_mem _ member)
      refine List.pairwise_cons.mpr ⟨fun c member => ⟨first c member, fun equal => ?_⟩, tail⟩
      cases d with
      | nil => cases member
      | cons b d =>
          -- `b` lies between two of one key, and so has that key too
          have above := first b List.mem_cons_self
          have back : r c a := same c (within c (List.mem_cons_of_mem _ member)) a
            (within a List.mem_cons_self) equal.symm
          have below : r b a := by
            rcases List.mem_cons.mp member with rfl | later
            · exact back
            · exact trans b c a ((List.pairwise_cons.mp rest).1 c later) back
          exact (List.isChain_cons_cons.mp apart).1 (anti a b above below)

end Sorted
end Distinct
