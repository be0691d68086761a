import Mathlib.Data.List.ReduceOption
import Mathlib.Order.Interval.Finset.Nat
import Oxutrm.Net.Ladder

/-!
The ports of a birthday blast: outward from the peer's observed base port, the higher of
two equidistant ports first, and none below 1024. The ladder's list of them is what the loop makes.
-/
namespace Oxutrm.Net.Birthday

def checkedAdd32 (a b : Nat) : Option Nat := if a + b < 2 ^ 32 then some (a + b) else none

def checkedSub32 (a b : Nat) : Option Nat := if b ≤ a then some (a - b) else none

/-- The two candidates of a step, as far as there are such numbers. -/
def candidates (base : UInt16) (step : Nat) : List Nat :=
  [checkedAdd32 base.toNat step, checkedSub32 base.toNat step].reduceOption

/-- What may be an ephemeral port. -/
def admissible (n : Nat) : Bool := 1024 ≤ n && n ≤ 65535

/-- One step's candidates, until there are `count` ports. -/
def pushEach (count : UInt16) : List Nat → List UInt16 → List UInt16
  | [], out => out
  | candidate :: more, out =>
      if out.length ≥ count.toNat then out
      else pushEach count more
        (if admissible candidate then out ++ [UInt16.ofNat candidate] else out)

def walk (base count : UInt16) (step : Nat) (out : List UInt16) : List UInt16 :=
  if out.length < count.toNat ∧ step ≤ 65535 then
    walk base count (step + 1) (pushEach count (candidates base step) out)
  else out
termination_by 65536 - step

def guessedPorts (base count : UInt16) : List UInt16 :=
  walk base count 1 (if base ≥ 1024 then [base] else [])

/-- How far a port is from the base. -/
def distance (base : UInt16) (n : Nat) : Nat := (base.toNat - n) + (n - base.toNat)

/-- Nearer to the base, or as near and above it. -/
def Nearer (base : UInt16) (a b : Nat) : Prop :=
  distance base a < distance base b ∨ distance base a = distance base b ∧ b < a

theorem Nearer.asymm {base : UInt16} {a b : Nat} (nearer : Nearer base a b) :
    ¬ Nearer base b a := by
  unfold Nearer at *
  omega

/-- The whole walk: the base, then the two ports at each distance. -/
def outward (base : UInt16) (steps : Nat) : List Nat :=
  base.toNat :: (List.range steps).flatMap fun i => candidates base (i + 1)

section Outward
variable {base : UInt16}

theorem mem_candidates {step n : Nat} (inside : step ≤ 65535) :
    n ∈ candidates base step ↔ n = base.toNat + step ∨ n + step = base.toNat := by
  have low := base.toNat_lt
  rw [candidates, List.reduceOption_mem_iff, checkedAdd32, if_pos (by omega), checkedSub32]
  simp only [List.mem_cons, Option.some.injEq, List.not_mem_nil, or_false]
  split
  · simp only [Option.some.injEq]
    omega
  · simp only [reduceCtorEq, or_false]
    omega

theorem distance_candidates {step n : Nat} (inside : step ≤ 65535)
    (member : n ∈ candidates base step) : distance base n = step := by
  have either := (mem_candidates inside).mp member
  unfold distance
  omega

theorem candidates_sorted {step : Nat} (positive : 0 < step) :
    (candidates base step).Pairwise (Nearer base) := by
  have low := base.toNat_lt
  unfold candidates checkedAdd32 checkedSub32
  split
  · split
    · simp only [List.reduceOption_cons_of_some, List.reduceOption_nil, List.pairwise_cons,
        List.mem_singleton, forall_eq, List.not_mem_nil, false_implies, implies_true,
        List.Pairwise.nil, and_true]
      unfold Nearer distance
      omega
    · exact List.pairwise_singleton _ _
  · split
    · exact List.pairwise_singleton _ _
    · exact List.Pairwise.nil

theorem outward_sorted {steps : Nat} (inside : steps ≤ 65535) :
    (outward base steps).Pairwise (Nearer base) := by
  have mine : ∀ i ∈ List.range steps, i + 1 ≤ 65535 := by
    intro i member
    have := List.mem_range.mp member
    omega
  refine List.pairwise_cons.mpr ⟨?_, ?_⟩
  · intro n member
    obtain ⟨i, among, here⟩ := List.mem_flatMap.mp member
    have far := distance_candidates (mine i among) here
    unfold Nearer
    rw [far]
    unfold distance
    omega
  · rw [List.pairwise_flatMap]
    refine ⟨fun i _ => candidates_sorted (Nat.succ_pos i), ?_⟩
    refine (List.pairwise_lt_range.imp_of_mem ?_)
    intro i j first second earlier a here b there
    have near := distance_candidates (mine i first) here
    have far := distance_candidates (mine j second) there
    unfold Nearer
    omega

theorem mem_outward {n : Nat} (port : n ≤ 65535) : n ∈ outward base 65535 := by
  have low := base.toNat_lt
  by_cases same : n = base.toNat
  · rw [same]
    exact List.mem_cons_self
  · refine List.mem_cons_of_mem _ (List.mem_flatMap.mpr ⟨distance base n - 1, ?_, ?_⟩)
    · rw [List.mem_range]
      unfold distance
      omega
    · rw [mem_candidates (by unfold distance; omega)]
      unfold distance
      omega

theorem outward_succ (base : UInt16) (steps : Nat) :
    outward base (steps + 1) = outward base steps ++ candidates base (steps + 1) := by
  rw [outward, outward, List.range_succ, List.flatMap_append, List.flatMap_singleton,
    List.cons_append]

theorem outward_begins {steps all : Nat} (le : steps ≤ all) :
    outward base steps <+: outward base all := by
  induction all, le using Nat.le_induction with
  | base => exact List.prefix_refl _
  | succ all _ ih =>
      rw [outward_succ]
      exact ih.trans (List.prefix_append _ _)

end Outward

section Loop
variable {base count : UInt16}

/-- The first `count` admissible ports, as they are pushed. -/
def firstPorts (count : UInt16) (walked : List Nat) : List UInt16 :=
  ((walked.filter admissible).take count.toNat).map UInt16.ofNat

theorem pushEach_firstPorts (count : UInt16) (more walked : List Nat) :
    pushEach count more (firstPorts count walked) = firstPorts count (walked ++ more) := by
  induction more generalizing walked with
  | nil => rw [List.append_nil, pushEach]
  | cons candidate more ih =>
      have next := ih (walked ++ [candidate])
      rw [List.append_assoc, List.singleton_append] at next
      rw [pushEach]
      split
      · rename_i full
        have enough : count.toNat ≤ (walked.filter admissible).length := by
          unfold firstPorts at full
          rw [List.length_map, List.length_take] at full
          omega
        rw [firstPorts, firstPorts, List.filter_append, List.take_append_of_le_length enough]
      · rename_i room
        have all : (walked.filter admissible).length < count.toNat := by
          unfold firstPorts at room
          rw [List.length_map, List.length_take] at room
          omega
        rw [← next]
        congr 1
        unfold firstPorts
        rw [List.filter_append, List.take_of_length_le (Nat.le_of_lt all)]
        cases fits : admissible candidate with
        | true =>
            rw [List.filter_cons_of_pos fits, List.filter_nil, List.take_of_length_le (by
              rw [List.length_append, List.length_singleton]
              exact all), List.map_append, if_pos rfl]
            rfl
        | false =>
            rw [List.filter_cons_of_neg (by rw [fits]; exact Bool.false_ne_true), List.filter_nil,
              List.append_nil, List.take_of_length_le (Nat.le_of_lt all)]
            rfl

theorem walk_firstPorts {steps : Nat} (inside : steps ≤ 65535) :
    walk base count (steps + 1) (firstPorts count (outward base steps)) =
      firstPorts count (outward base 65535) := by
  rw [walk]
  split
  · rename_i going
    rw [pushEach_firstPorts, ← outward_succ]
    exact walk_firstPorts going.2
  · rename_i ended
    rw [not_and_or] at ended
    by_cases last : steps = 65535
    · rw [last]
    · have full := ended.resolve_right (by omega)
      obtain ⟨more, whole⟩ := @outward_begins base steps 65535 inside
      have enough : count.toNat ≤ ((outward base steps).filter admissible).length := by
        unfold firstPorts at full
        rw [List.length_map, List.length_take] at full
        omega
      rw [← whole, firstPorts, firstPorts, List.filter_append,
        List.take_append_of_le_length enough]
termination_by 65535 - steps

theorem guessedPorts_eq (positive : 1 ≤ count) :
    guessedPorts base count = firstPorts count (outward base 65535) := by
  have one : 1 ≤ count.toNat := UInt16.le_iff_toNat_le.mp positive
  have low := base.toNat_lt
  rw [← walk_firstPorts (Nat.zero_le _), guessedPorts]
  congr 1
  have first : outward base 0 = [base.toNat] := rfl
  rw [first, firstPorts]
  by_cases own : base ≥ 1024
  · have fits : admissible base.toNat = true := by
      have := UInt16.le_iff_toNat_le.mp own
      change 1024 ≤ base.toNat at this
      unfold admissible
      simp only [this, decide_true, Bool.true_and, decide_eq_true_eq]
      omega
    rw [if_pos own, List.filter_cons_of_pos fits, List.filter_nil, List.take_of_length_le one]
    simp only [List.map_cons, List.map_nil, UInt16.ofNat_toNat]
  · have unfit : ¬ admissible base.toNat = true := by
      intro fits
      unfold admissible at fits
      simp only [Bool.and_eq_true, decide_eq_true_eq] at fits
      exact own (UInt16.le_iff_toNat_le.mpr fits.1)
    rw [if_neg own, List.filter_cons_of_neg unfit, List.filter_nil, List.take_nil, List.map_nil]

end Loop

section Ports
variable {base count : UInt16}

/-- All admissible ports, in the order of the walk. -/
def ordered (base : UInt16) : List Nat := (outward base 65535).filter admissible

theorem ordered_sorted : (ordered base).Pairwise (Nearer base) :=
  (outward_sorted (Nat.le_refl _)).filter _

theorem mem_ordered {n : Nat} : n ∈ ordered base ↔ 1024 ≤ n ∧ n ≤ 65535 := by
  rw [ordered, List.mem_filter, admissible, Bool.and_eq_true, decide_eq_true_eq, decide_eq_true_eq]
  exact ⟨And.right, fun inside => ⟨mem_outward inside.2, inside⟩⟩

theorem ordered_nodup : (ordered base).Nodup := by
  refine ordered_sorted.imp ?_
  intro a b nearer same
  rw [same] at nearer
  exact nearer.asymm nearer

theorem length_ordered : (ordered base).length = 65536 - 1024 := by
  have all : (ordered base).toFinset = Finset.Icc 1024 65535 := by
    ext n
    rw [List.mem_toFinset, mem_ordered, Finset.mem_Icc]
  rw [← List.toFinset_card_of_nodup ordered_nodup, all, Nat.card_Icc]

/-- A sorted list begins with all that comes before what it begins with. -/
theorem mem_take_of_sorted {α : Type*} {r : α → α → Prop} {l : List α} {n : Nat} {a b : α}
    (sorted : l.Pairwise r) (asymm : ∀ {a b}, r a b → ¬ r b a) (taken : b ∈ l.take n)
    (member : a ∈ l) (before : r a b) : a ∈ l.take n := by
  rw [← List.take_append_drop n l] at sorted member
  cases List.mem_append.mp member with
  | inl early => exact early
  | inr late =>
      exact absurd ((List.pairwise_append.mp sorted).2.2 b taken a late) (asymm before)

theorem toNat_port {n : Nat} (inside : 1024 ≤ n ∧ n ≤ 65535) : (UInt16.ofNat n).toNat = n :=
  UInt16.toNat_ofNat_of_lt' (Nat.lt_succ_of_le inside.2)

/-- The ports differ, are admissible, come outward with the higher of two first, are as many
as were asked for or all there are, and leave out none that would have come before. -/
theorem guessed_ports_walk_outward (base count : UInt16) (positive : 1 ≤ count) :
    (guessedPorts base count).Nodup ∧
    (∀ p ∈ guessedPorts base count, 1024 ≤ p) ∧
    (guessedPorts base count).Pairwise (fun a b => Nearer base a.toNat b.toNat) ∧
    (guessedPorts base count).length = min count.toNat (65536 - 1024) ∧
    ∀ p ∈ guessedPorts base count, ∀ q : UInt16, 1024 ≤ q → Nearer base q.toNat p.toNat →
      q ∈ guessedPorts base count := by
  rw [guessedPorts_eq positive]
  change (((ordered base).take count.toNat).map UInt16.ofNat).Nodup ∧ _
  have taken : ∀ n ∈ (ordered base).take count.toNat, 1024 ≤ n ∧ n ≤ 65535 :=
    fun n member => mem_ordered.mp (List.mem_of_mem_take member)
  have sorted : (((ordered base).take count.toNat).map UInt16.ofNat).Pairwise
      (fun a b => Nearer base a.toNat b.toNat) := by
    rw [List.pairwise_map]
    refine (ordered_sorted.sublist (List.take_sublist _ _)).imp_of_mem ?_
    intro a b first second nearer
    rw [toNat_port (taken a first), toNat_port (taken b second)]
    exact nearer
  refine ⟨?_, ?_, sorted, ?_, ?_⟩
  · refine sorted.imp ?_
    intro a b nearer same
    rw [same] at nearer
    exact nearer.asymm nearer
  · intro p member
    obtain ⟨n, among, rfl⟩ := List.mem_map.mp member
    rw [UInt16.le_iff_toNat_le, toNat_port (taken n among)]
    exact (taken n among).1
  · change (((ordered base).take count.toNat).map UInt16.ofNat).length = _
    rw [List.length_map, List.length_take, length_ordered]
  · intro p member q high nearer
    obtain ⟨n, among, rfl⟩ := List.mem_map.mp member
    rw [toNat_port (taken n among)] at nearer
    have port : q.toNat ∈ ordered base :=
      mem_ordered.mpr ⟨UInt16.le_iff_toNat_le.mp high, Nat.le_of_lt_succ q.toNat_lt⟩
    refine List.mem_map.mpr ⟨q.toNat, ?_, UInt16.ofNat_toNat⟩
    exact mem_take_of_sorted ordered_sorted Nearer.asymm among port nearer

/-- The walk around a base in the middle. -/
theorem guessed_ports_walk_outward_middle :
    guessedPorts 40000 3 = [40000, 40001, 39999] ∧ (guessedPorts 40000 3).Nodup := by
  refine ⟨?_, (guessed_ports_walk_outward 40000 3 (by decide)).1⟩
  simp [guessedPorts, walk, pushEach, candidates, checkedAdd32, checkedSub32, admissible]

end Ports
end Oxutrm.Net.Birthday
