import Oxutrm.Sync.Screen
import Oxutrm.Lib.Patch

/-!
The runs of a row. Every run copies a stretch of the target row and every
changed column lies in some run: this is all that painting them relies on.
Their weight bounds what they cost on the wire.
-/
namespace Oxutrm.Sync
open Proto

def Run.Covers (run : Run) (col : Nat) : Prop :=
  run.startCol.toNat ≤ col ∧ col < run.startCol.toNat + run.width

/-- The run writes what the target row shows at its columns. -/
structure Run.Copies (target : List Cell) (run : Run) : Prop where
  inside : run.startCol.toNat + run.width ≤ target.length
  cells : ∀ c ∈ run.cells, c ∈ target
  expanded : ∀ j < run.width, run.expanded[j]? = target[run.startCol.toNat + j]?

theorem Run.length_expanded (run : Run) : run.expanded.length = run.width := by
  simp [expanded, width, Nat.mul_comm]

section
variable {target : List Cell} {base : Option (List Cell)}

theorem repeats_of_lt_runLen (col fuel n k : Nat) (from_n : n ≤ k)
    (below : k < runLen target base col fuel n) :
    col + k < target.length ∧ target[col + k]? = target[col]? ∧
      unchanged target base (col + k) = false := by
  induction fuel generalizing n with
  | zero =>
      simp only [runLen] at below
      omega
  | succ fuel ih =>
      simp only [runLen] at below
      split at below
      · next continues =>
          by_cases here : k = n
          · rw [here]
            exact ⟨continues.1, continues.2.1, Bool.eq_false_of_not_eq_true continues.2.2⟩
          · exact ih (n + 1) (by omega) below
      · omega

theorem runLen_repeats (col : Nat) :
    ∀ k < runLen target base col target.length 1, target[col + k]? = target[col]? := by
  intro k below
  by_cases first : k = 0
  · rw [first]
    rfl
  · exact (repeats_of_lt_runLen col target.length 1 k (by omega) below).2.1

theorem runLen_changed {col : Nat} (changed : unchanged target base col = false) :
    ∀ k < runLen target base col target.length 1, unchanged target base (col + k) = false := by
  intro k below
  by_cases first : k = 0
  · rw [first]
    exact changed
  · exact (repeats_of_lt_runLen col target.length 1 k (by omega) below).2.2

theorem runLen_inside {col : Nat} (long : 2 ≤ runLen target base col target.length 1) :
    col + runLen target base col target.length 1 ≤ target.length := by
  have below : runLen target base col target.length 1 - 1 <
      runLen target base col target.length 1 := by omega
  have last := (repeats_of_lt_runLen col target.length 1 _ (by omega) below).1
  omega

/-- The runs and the cells they carry, counted together. -/
def weight (runs : List Run) : Nat := (runs.map fun run => 1 + run.cells.length).sum

@[simp] theorem weight_append (runs : List Run) (run : Run) :
    weight (runs ++ [run]) = weight runs + (1 + run.cells.length) := by
  simp [weight]

theorem weight_flush (literal : List Cell) (start : Nat) (runs : List Run) :
    weight (flush literal start runs) ≤ weight runs + 2 * literal.length := by
  simp only [flush]
  split
  · omega
  · next nonempty =>
      have := List.length_pos_iff.mpr fun empty => nonempty (List.isEmpty_iff.mpr empty)
      simp only [weight_append]
      omega

/-- What has been emitted once the scan stands at `col`. -/
structure RowEmits (target : List Cell) (base : Option (List Cell)) (col : Nat)
    (runs : List Run) : Prop where
  inside : col ≤ target.length
  light : weight runs ≤ 2 * col
  copies : ∀ run ∈ runs, run.Copies target
  covers : ∀ c < col, c < target.length → unchanged target base c = false →
    ∃ run ∈ runs, run.Covers c

/-- The same inside a span, where the last changed cells are still pending in
the literal. -/
structure Span.Emits (target : List Cell) (base : Option (List Cell)) (s : Span) : Prop where
  inside : s.col ≤ target.length
  light : weight s.runs + 2 * s.literal.length ≤ 2 * s.col
  pending : s.literal ≠ [] → s.literalStart + s.literal.length = s.col
  literal : ∀ j < s.literal.length, s.literal[j]? = target[s.literalStart + j]?
  copies : ∀ run ∈ s.runs, run.Copies target
  covers : ∀ c < s.col, unchanged target base c = false →
    (∃ run ∈ s.runs, run.Covers c) ∨ (s.literal ≠ [] ∧ s.literalStart ≤ c)

theorem copies_literal (short : target.length < 2 ^ 16) {literal : List Cell} {start : Nat}
    (inside : start + literal.length ≤ target.length)
    (same : ∀ j < literal.length, literal[j]? = target[start + j]?) (nonempty : literal ≠ []) :
    Run.Copies target
      { startCol := UInt16.ofNat start, repeats := 0, cells := literal } := by
  have positive := List.length_pos_iff.mpr nonempty
  have startCol := UInt16.toNat_ofNat_of_lt' (show start < 2 ^ 16 by omega)
  refine ⟨?_, ?_, ?_⟩
  · simpa [Run.width, startCol] using inside
  · intro c member
    obtain ⟨j, found⟩ := List.mem_iff_getElem?.mp member
    have index := (List.getElem?_eq_some_iff.mp found).1
    rw [same j index] at found
    exact List.mem_of_getElem? found
  · intro j below
    simp only [Run.width, UInt16.toNat_zero, Nat.zero_add, Nat.mul_one] at below
    simpa [Run.expanded, startCol] using same j below

theorem copies_repeat (short : target.length < 2 ^ 16) {col len : Nat} (positive : 0 < len)
    (inside : col + len ≤ target.length)
    (same : ∀ k < len, target[col + k]? = target[col]?) :
    Run.Copies target
      { startCol := UInt16.ofNat col, repeats := UInt16.ofNat (len - 1),
        cells := target[col]?.toList } := by
  have startCol := UInt16.toNat_ofNat_of_lt' (show col < 2 ^ 16 by omega)
  have repeats : (UInt16.ofNat (len - 1)).toNat + 1 = len := by
    rw [UInt16.toNat_ofNat_of_lt' (show len - 1 < 2 ^ 16 by omega)]
    omega
  have cell : target[col]? = some (target.get ⟨col, by omega⟩) :=
    List.getElem?_eq_getElem (by omega)
  refine ⟨?_, ?_, ?_⟩
  · simpa only [Run.width, startCol, repeats, cell, Option.toList_some, List.length_singleton,
      Nat.one_mul] using inside
  · intro c member
    rw [cell, Option.toList_some, List.mem_singleton] at member
    rw [member]
    exact List.get_mem _ _
  · intro j below
    simp only [Run.width, repeats, cell, Option.toList_some, List.length_singleton,
      Nat.one_mul] at below
    simp only [Run.expanded, repeats, startCol, same j below, cell, Option.toList_some,
      List.flatten_replicate_singleton, List.getElem?_replicate, below, if_true]

theorem Span.Emits.flush (short : target.length < 2 ^ 16) {s : Span}
    (emits : s.Emits target base) :
    RowEmits target base s.col (flush s.literal s.literalStart s.runs) := by
  have light := Nat.le_trans (weight_flush s.literal s.literalStart s.runs) emits.light
  by_cases empty : s.literal = []
  · simp only [Sync.flush, empty, List.isEmpty_nil, if_true] at light ⊢
    refine ⟨emits.inside, light, emits.copies, fun c below _ changed => ?_⟩
    exact (emits.covers c below changed).resolve_right fun pending => pending.1 empty
  · have bound := emits.pending empty
    have positive := List.length_pos_iff.mpr empty
    simp only [Sync.flush, List.isEmpty_iff, empty, if_false] at light ⊢
    refine ⟨emits.inside, light, ?_, ?_⟩
    · intro run member
      rcases List.mem_append.mp member with old | new
      · exact emits.copies run old
      · rw [List.mem_singleton.mp new]
        exact copies_literal short (by have := emits.inside; omega) emits.literal empty
    · intro c below _ changed
      rcases emits.covers c below changed with ⟨run, member, covered⟩ | ⟨-, after⟩
      · exact ⟨run, List.mem_append_left _ member, covered⟩
      · refine ⟨_, List.mem_append_right _ (List.mem_singleton_self _), ?_⟩
        have inside := emits.inside
        have startCol := UInt16.toNat_ofNat_of_lt' (show s.literalStart < 2 ^ 16 by omega)
        simp only [Run.Covers, Run.width, startCol, UInt16.toNat_zero, Nat.zero_add, Nat.mul_one]
        omega

theorem Span.Emits.repeated (short : target.length < 2 ^ 16) {s : Span}
    (emits : s.Emits target base) {len : Nat} (positive : 0 < len)
    (inside : s.col + len ≤ target.length)
    (same : ∀ k < len, target[s.col + k]? = target[s.col]?) :
    Span.Emits target base
      { col := s.col + len
        literal := []
        literalStart := s.col + len
        runs := Sync.flush s.literal s.literalStart s.runs ++
          [{ startCol := UInt16.ofNat s.col, repeats := UInt16.ofNat (len - 1),
             cells := target[s.col]?.toList }] } := by
  have flushed := emits.flush short
  have copy := copies_repeat short positive inside same
  refine ⟨inside, ?_, fun none => absurd rfl none, ?_, ?_, ?_⟩
  · have light := flushed.light
    have one : target[s.col]?.toList.length ≤ 1 := by cases target[s.col]? <;> simp
    simp only [weight_append, List.length_nil]
    omega
  · intro j below
    simp at below
  · intro run member
    rcases List.mem_append.mp member with old | new
    · exact flushed.copies run old
    · rw [List.mem_singleton.mp new]
      exact copy
  · intro c below changed
    left
    change c < s.col + len at below
    by_cases before : c < s.col
    · obtain ⟨run, member, covered⟩ := flushed.covers c before (by omega) changed
      exact ⟨run, List.mem_append_left _ member, covered⟩
    · refine ⟨_, List.mem_append_right _ (List.mem_singleton_self _), ?_⟩
      have startCol := UInt16.toNat_ofNat_of_lt' (show s.col < 2 ^ 16 by omega)
      have repeats : (UInt16.ofNat (len - 1)).toNat + 1 = len := by
        rw [UInt16.toNat_ofNat_of_lt' (show len - 1 < 2 ^ 16 by omega)]
        omega
      have cell : target[s.col]? = some (target.get ⟨s.col, by omega⟩) :=
        List.getElem?_eq_getElem (by omega)
      simp only [Run.Covers, Run.width, startCol, repeats, cell, Option.toList_some,
        List.length_singleton]
      omega

theorem Span.Emits.single {s : Span} (emits : s.Emits target base)
    (inside : s.col < target.length) :
    Span.Emits target base
      { col := s.col + 1
        literal := s.literal ++ target[s.col]?.toList
        literalStart := if s.literal.isEmpty then s.col else s.literalStart
        runs := s.runs } := by
  have cell : target[s.col]? = some (target.get ⟨s.col, inside⟩) :=
    List.getElem?_eq_getElem inside
  by_cases empty : s.literal = []
  · simp only [empty, List.isEmpty_nil, if_true, List.nil_append, cell, Option.toList_some]
    refine ⟨inside, ?_, fun _ => rfl, ?_, emits.copies, ?_⟩
    · have light := emits.light
      simp only [List.length_singleton]
      omega
    · intro j below
      obtain rfl : j = 0 := by simpa using below
      simp [cell]
    · intro c below changed
      change c < s.col + 1 at below
      by_cases before : c < s.col
      · exact Or.inl ((emits.covers c before changed).resolve_right fun h => h.1 empty)
      · exact Or.inr ⟨List.cons_ne_nil _ _, by change s.col ≤ c; omega⟩
  · have bound := emits.pending empty
    simp only [List.isEmpty_iff, empty, if_false, cell, Option.toList_some]
    refine ⟨inside, ?_, fun _ => ?_, ?_, emits.copies, ?_⟩
    · have light := emits.light
      simp only [List.length_append, List.length_singleton]
      omega
    · simp only [List.length_append, List.length_singleton]
      omega
    · intro j below
      simp only [List.length_append, List.length_singleton] at below
      by_cases old : j < s.literal.length
      · rw [List.getElem?_append_left old]
        exact emits.literal j old
      · have last : j = s.literal.length := by omega
        rw [List.getElem?_append_right (by omega), last, bound, cell]
        simp
    · intro c below changed
      change c < s.col + 1 at below
      by_cases before : c < s.col
      · exact (emits.covers c before changed).imp_right fun pending =>
          ⟨List.append_ne_nil_of_left_ne_nil pending.1 _, pending.2⟩
      · exact Or.inr ⟨List.append_ne_nil_of_left_ne_nil empty _,
          by change s.literalStart ≤ c; omega⟩

theorem spanLoop_emits (short : target.length < 2 ^ 16) (fuel : Nat) {s : Span}
    (emits : s.Emits target base) :
    (spanLoop target base fuel s).Emits target base ∧
      s.col ≤ (spanLoop target base fuel s).col := by
  induction fuel generalizing s with
  | zero => exact ⟨emits, Nat.le_refl _⟩
  | succ fuel ih =>
      simp only [spanLoop]
      split
      · next here =>
          split
          · next long =>
              obtain ⟨done, advanced⟩ := ih (emits.repeated short (by omega)
                (runLen_inside long) (runLen_repeats s.col))
              exact ⟨done, Nat.le_trans (Nat.le_add_right _ _) advanced⟩
          · obtain ⟨done, advanced⟩ := ih (emits.single here.1)
            exact ⟨done, Nat.le_trans (Nat.le_succ _) advanced⟩
      · exact ⟨emits, Nat.le_refl _⟩

theorem spanLoop_advances (short : target.length < 2 ^ 16) (fuel : Nat) {s : Span}
    (emits : s.Emits target base) (inside : s.col < target.length)
    (changed : unchanged target base s.col = false) :
    s.col < (spanLoop target base (fuel + 1) s).col := by
  simp only [spanLoop]
  rw [if_pos ⟨inside, by simp [changed]⟩]
  split
  · next long =>
      have advanced := (spanLoop_emits short fuel (emits.repeated short (by omega)
        (runLen_inside long) (runLen_repeats s.col))).2
      simp only at advanced
      omega
  · have advanced := (spanLoop_emits short fuel (emits.single inside)).2
    simp only at advanced
    omega

theorem rowLoop_emits (short : target.length < 2 ^ 16) (fuel : Nat) {col : Nat}
    {runs : List Run} (enough : target.length ≤ col + fuel)
    (emits : RowEmits target base col runs) :
    RowEmits target base target.length (rowLoop target base fuel col runs) := by
  induction fuel generalizing col runs with
  | zero =>
      have inside := emits.inside
      have light := emits.light
      exact ⟨Nat.le_refl _, by simp only [rowLoop]; omega, emits.copies,
        fun c below => emits.covers c (by omega)⟩
  | succ fuel ih =>
      simp only [rowLoop]
      split
      · next inside =>
          split
          · next same =>
              refine ih (by omega) ⟨inside, by have := emits.light; omega, emits.copies, ?_⟩
              intro c below bound changed
              by_cases here : c = col
              · rw [here, same] at changed
                contradiction
              · exact emits.covers c (by omega) bound changed
          · next differs =>
              have start : Span.Emits target base
                  { col := col, literal := [], literalStart := col, runs := runs } := by
                refine ⟨Nat.le_of_lt inside, emits.light, fun none => absurd rfl none, ?_,
                  emits.copies, ?_⟩
                · intro j below
                  simp at below
                · intro c below changed
                  exact Or.inl (emits.covers c below (Nat.lt_trans below inside) changed)
              have done := (spanLoop_emits short target.length start).1
              have advanced : col < (spanLoop target base target.length
                  { col := col, literal := [], literalStart := col, runs := runs }).col := by
                obtain ⟨n, size⟩ := Nat.exists_eq_succ_of_ne_zero (Nat.ne_zero_of_lt inside)
                rw [size]
                exact spanLoop_advances short n start inside (by simpa using differs)
              exact ih (by omega) (done.flush short)
      · have inside := emits.inside
        have light := emits.light
        exact ⟨Nat.le_refl _, by omega, emits.copies, fun c below => emits.covers c (by omega)⟩

theorem rowRuns_emits (short : target.length < 2 ^ 16) :
    RowEmits target base target.length (rowRuns target base) :=
  rowLoop_emits short _ (by omega) ⟨Nat.zero_le _, Nat.le_refl _,
    fun _ member => absurd member List.not_mem_nil, fun _ below => absurd below (Nat.not_lt_zero _)⟩

end
end Oxutrm.Sync
