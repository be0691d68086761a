import Oxutrm.Paint.Incremental
import Oxutrm.Vt.Twins

/-!
Repainting over an interrupted write. A full repaint tells every terminal the same, so
what it leaves differs from a fresh terminal only in what it never writes: the
background the screen was cleared with, and a pen that no cell selects.
-/
namespace Oxutrm.Paint
open Proto
open Transition
open Vt (Terminal Row Plane Command)

/-- The columns the cells of a run are printed in. -/
def advance (width : Text → Nat) : List Cell → Nat
  | [] => 0
  | cell :: cells => (if isCont cell then 0 else width (textOf cell)) + advance width cells

/-- A painted text that has no columns. -/
def columnless (width : Text → Nat) (cell : Cell) : Bool :=
  !isCont cell && decide (cell.text ≠ []) && decide (width cell.text = 0)

section
variable {width : Text → Nat} {desired : List Cell}

theorem width_textOf_le (measure : Measure width) (formed : Formed width desired) {cell : Cell}
    (member : cell ∈ desired) (plain : isCont cell = false) : width (textOf cell) ≤ 2 := by
  by_cases none : cell.text = []
  · simp only [textOf, none, if_true, measure.space]
    omega
  · simp only [textOf, none, if_false]
    exact formed.fits cell member plain

theorem advance_spec (measure : Measure width) (formed : Formed width desired) {e : Nat}
    (inside : e ≤ desired.length) (m : Nat) :
    ∀ {k : Nat}, k + m = e →
      advance width ((desired.take e).drop k) +
          ((desired.take e).drop k).countP (columnless width) + (contAt desired k).toNat =
        m + (contAt desired e).toNat := by
  induction m with
  | zero =>
      intro k reach
      have none : (desired.take e).drop k = [] := by
        rw [List.drop_eq_nil_iff, List.length_take]
        omega
      obtain rfl : k = e := reach
      rw [none]
      rfl
  | succ m ih =>
      intro k reach
      obtain ⟨cell, found, cells⟩ := drop_take_cons (show k < e by omega) inside
      have rest := ih (show k + 1 + m = e by omega)
      have member := List.mem_of_getElem? found
      rw [cells, advance, List.countP_cons]
      cases cont : isCont cell with
      | true =>
          have here : contAt desired k = true := by
            simp only [contAt, found, Option.any_some, cont]
          rw [formed.next_plain here] at rest
          simp only [columnless, cont, here, Bool.not_true, Bool.false_and, Bool.false_eq_true,
            if_true, if_false, Bool.toNat_true, Bool.toNat_false] at rest ⊢
          omega
      | false =>
          have here : contAt desired k = false := by
            simp only [contAt, found, Option.any_some, cont]
          have next : contAt desired (k + 1) = (width cell.text == 2) := by
            rw [formed.pairs, leadAt_of_some found cont]
          have fits := formed.fits cell member cont
          rw [next] at rest
          simp only [columnless, cont, here, Bool.not_false, Bool.true_and, Bool.false_eq_true,
            if_false, Bool.toNat_false, Bool.and_eq_true, decide_eq_true_eq] at rest ⊢
          by_cases none : cell.text = []
          · have zero : width cell.text = 0 := by rw [none]; exact measure.empty
            simp only [textOf, none, measure.empty, measure.space, if_true, ne_eq,
              not_true_eq_false, false_and, if_false] at rest ⊢
            simp at rest
            omega
          · simp only [textOf, none, if_false, ne_eq, not_false_eq_true, true_and]
            rcases Nat.lt_or_ge (width cell.text) 2 with small | wide
            · have narrow : (width cell.text == 2) = false := by
                rw [beq_eq_false_iff_ne]
                omega
              rw [narrow, Bool.toNat_false] at rest
              split
              · omega
              · omega
            · have two : width cell.text = 2 := by omega
              rw [two] at rest ⊢
              simp at rest ⊢
              omega

/-- The columns to paint on a screen that was just cleared. -/
def written (desired : List Cell) (c : Nat) : Bool := decide (desired[c]? ≠ some Cell.blank)

/-- A column that some run of a full repaint prints in. -/
def Covered (width : Text → Nat) (desired : List Cell) (c : Nat) : Prop :=
  ∃ run ∈ changedRuns desired (written desired),
    run.1 ≤ c ∧ c < run.1 + advance width ((desired.take run.2).drop run.1)

/-- A run of a full repaint ends short by its texts without columns. -/
theorem run_extent (measure : Measure width) (formed : Formed width desired) {run : Nat × Nat}
    (member : run ∈ changedRuns desired (written desired)) :
    run.1 + advance width ((desired.take run.2).drop run.1) +
      ((desired.take run.2).drop run.1).countP (columnless width) = run.2 := by
  have spec := changedRuns_spec desired (written desired)
  obtain ⟨order, inside, start⟩ := runs_start_plain formed spec run member
  have extent := advance_spec measure formed inside (run.2 - run.1)
    (show run.1 + _ = run.2 by omega)
  have ending : contAt desired run.2 = false := by
    rcases spec.ends run member with last | clean
    · rw [last]
      simp only [contAt, List.getElem?_length, Option.any_none]
    · simp only [written, ne_eq, decide_not, Bool.not_eq_false', decide_eq_true_eq] at clean
      simp only [contAt, clean, Option.any_some]
      rfl
  rw [start, ending, Bool.toNat_false] at extent
  omega

/-- A full repaint prints in every column exactly when no cell is blank and none is
painted without a column. -/
theorem covered_iff (measure : Measure width) (formed : Formed width desired) :
    (∀ c < desired.length, Covered width desired c) ↔
      ∀ cell ∈ desired, cell ≠ Cell.blank ∧ columnless width cell = false := by
  have spec := changedRuns_spec desired (written desired)
  constructor
  · intro covered cell member
    obtain ⟨j, found⟩ := List.mem_iff_getElem?.mp member
    have inside := (List.getElem?_eq_some_iff.mp found).1
    have nonblank : cell ≠ Cell.blank := by
      rintro rfl
      have clean : written desired j = false := by
        simp only [written, found, ne_eq, not_true_eq_false, decide_false]
      obtain ⟨run, place, low, high⟩ := covered j inside
      have extent := run_extent measure formed place
      by_cases first : run.1 = j
      · rcases spec.starts run place with ⟨own, -, -⟩ | ⟨-, -, cont⟩
        · rw [first, clean] at own
          cases own
        · have narrow : (width Cell.blank.text == 2) = false := by
            rw [show Cell.blank.text = [' '] from rfl, measure.space]
            rfl
          rw [first, formed.pairs, leadAt_of_some found (by decide), narrow] at cont
          cases cont
      · rw [spec.inside run place j (by omega) (by omega)] at clean
        cases clean
    refine ⟨nonblank, ?_⟩
    cases lost : columnless width cell with
    | false => rfl
    | true =>
        exfalso
        have dirty : written desired j = true := by
          simp only [written, found, Option.some.injEq, ne_eq, nonblank, not_false_eq_true,
            decide_true]
        obtain ⟨run, place, low, high⟩ := spec.covers j inside dirty
        obtain ⟨order, bound⟩ := spec.bounds run place
        have extent := run_extent measure formed place
        have some : 0 < ((desired.take run.2).drop run.1).countP (columnless width) := by
          refine List.countP_pos_iff.mpr ⟨cell, ?_, lost⟩
          refine List.mem_iff_getElem?.mpr ⟨j - run.1, ?_⟩
          rw [List.getElem?_drop, show run.1 + (j - run.1) = j by omega, List.getElem?_take,
            if_pos high]
          exact found
        obtain ⟨other, place', low', high'⟩ := covered (run.2 - 1) (by omega)
        have extent' := run_extent measure formed place'
        obtain rfl := spec.unique place place' (c := run.2 - 1) (by omega) (by omega)
        omega
  · intro full c inside
    have found := List.getElem?_eq_getElem inside
    have dirty : written desired c = true := by
      simp only [written, found, Option.some.injEq, ne_eq,
        (full _ (List.mem_of_getElem? found)).1, not_false_eq_true, decide_true]
    obtain ⟨run, place, low, high⟩ := spec.covers c inside dirty
    have extent := run_extent measure formed place
    have none : ((desired.take run.2).drop run.1).countP (columnless width) = 0 := by
      refine List.countP_eq_zero.mpr fun cell member => ?_
      rw [(full cell (List.mem_of_mem_take (List.mem_of_mem_drop member))).2]
      exact Bool.false_ne_true
    exact ⟨run, place, low, by omega⟩

end
/-- Two terminals that were told the same since they were `t₀` and `u₀`. -/
structure Told (width : Text → Nat) (t₀ u₀ : Terminal) (bg : Vt.Color) (ink : Ink)
    (done : Nat → Nat → Prop) (t u : Terminal) : Prop where
  first : t₀.run width ink.out = t
  second : u₀.run width ink.out = u
  twins : Terminal.Twins bg done t u

section
variable {width : Text → Nat} {r : Renderer} {links : Links} {desired : List Cell}
  {t₀ u₀ : Terminal} {bg : Vt.Color} {p q : Vt.Pen}

theorem told_cells (zero : links[(0 : UInt16)]? = none) (cells : List Cell)
    (fits : ∀ cell ∈ cells, isCont cell = false → width (textOf cell) ≤ 2) :
    ∀ (acc : Ink × UInt16) {done : Nat → Nat → Prop} {t u : Terminal},
      Told width t₀ u₀ bg acc.1 done t u → Drawing r links p t acc.1 acc.2 →
      Drawing r links q u acc.1 acc.2 →
      ∃ t' u', Told width t₀ u₀ bg (cells.foldl (r.writeCell links) acc).1
          (fun i c => done i c ∨ (i = t.row ∧ t.col ≤ c ∧ c < t.col + advance width cells)) t' u' ∧
        Drawing r links p t' (cells.foldl (r.writeCell links) acc).1
          (cells.foldl (r.writeCell links) acc).2 ∧
        Drawing r links q u' (cells.foldl (r.writeCell links) acc).1
          (cells.foldl (r.writeCell links) acc).2 := by
  induction cells with
  | nil =>
      intro acc done t u told drawing drawing'
      refine ⟨t, u, ⟨told.first, told.second, told.twins.congr fun i c => ?_⟩, drawing, drawing'⟩
      exact or_iff_left fun inside => by
        simp only [advance] at inside
        omega
  | cons cell cells ih =>
      intro acc done t u told drawing drawing'
      have rest := ih fun cell member => fits cell (List.mem_cons_of_mem _ member)
      rw [List.foldl_cons]
      cases cont : isCont cell with
      | true =>
          have skipped : r.writeCell links acc cell = acc := by
            simp only [Renderer.writeCell, cont, if_true]
          rw [skipped, show advance width (cell :: cells) = advance width cells by
            simp only [advance, cont, if_true, Nat.zero_add]]
          exact rest acc told drawing drawing'
      | false =>
          obtain ⟨first, selected, link⟩ := run_writeCell width zero told.first drawing cont
          obtain ⟨second, -, -⟩ := run_writeCell width zero told.second drawing' cont
          have printed := told.twins.print width (r.penOf cell) (r.linkAt links cell.link)
            (fits cell List.mem_cons_self cont)
          obtain ⟨t', u', told', after, after'⟩ := rest (r.writeCell links acc cell)
            ⟨first, second, printed⟩
            ⟨by rw [Ink.penFrom, selected]; rfl, by rw [link]; rfl⟩
            ⟨by rw [Ink.penFrom, selected]; rfl, by rw [link]; rfl⟩
          refine ⟨t', u', ⟨told'.first, told'.second, told'.twins.congr fun i c => ?_⟩, after, after'⟩
          simp only [advance, cont, Bool.false_eq_true, if_false, Terminal.print, or_assoc]
          refine or_congr_right ?_
          omega

/-- What a run prints in its row. -/
def Struck (width : Text → Nat) (row : Nat) (desired : List Cell) (run : Nat × Nat)
    (i c : Nat) : Prop :=
  i = row ∧ run.1 ≤ c ∧ c < run.1 + advance width ((desired.take run.2).drop run.1)

theorem told_writeRun (zero : links[(0 : UInt16)]? = none)
    (fits : ∀ cell ∈ desired, isCont cell = false → width (textOf cell) ≤ 2) (row : Nat)
    (run : Nat × Nat) {ink : Ink} {done : Nat → Nat → Prop} {t u : Terminal}
    (told : Told width t₀ u₀ bg ink done t u) (between : Between p t ink)
    (between' : Between q u ink) :
    ∃ t' u', Told width t₀ u₀ bg (r.writeRun links row desired ink run)
        (fun i c => done i c ∨ Struck width row desired run i c) t' u' ∧
      Between p t' (r.writeRun links row desired ink run) ∧
      Between q u' (r.writeRun links row desired ink run) := by
  have moved : Told width t₀ u₀ bg { ink with out := ink.out ++ [.moveTo row run.1] } done
      { t with row := row, col := run.1 } { u with row := row, col := run.1 } := by
    refine ⟨?_, ?_, ⟨rfl, rfl, told.twins.cells⟩⟩
    · rw [Terminal.run_append, told.first]
      rfl
    · rw [Terminal.run_append, told.second]
      rfl
  have closed := linkAt_zero (r := r) zero
  obtain ⟨t', u', told', after, after'⟩ := told_cells (r := r) (p := p) (q := q) zero
    ((desired.take run.2).drop run.1)
    (fun cell member => fits cell (List.mem_of_mem_take (List.mem_of_mem_drop member)))
    ({ ink with out := ink.out ++ [.moveTo row run.1] }, 0) moved
    ⟨between.pen, by rw [closed]; exact between.link⟩
    ⟨between'.pen, by rw [closed]; exact between'.link⟩
  simp only [Renderer.writeRun]
  split
  · refine ⟨{ t' with link := none }, { u' with link := none }, ⟨?_, ?_,
      ⟨told'.twins.row, told'.twins.col, told'.twins.cells⟩⟩, ⟨after.pen, rfl⟩, ⟨after'.pen, rfl⟩⟩
    · rw [Terminal.run_append, told'.first]
      rfl
    · rw [Terminal.run_append, told'.second]
      rfl
  · next idle =>
      rw [ne_eq, not_not] at idle
      exact ⟨t', u', told', ⟨after.pen, by rw [after.link, idle, closed]⟩,
        ⟨after'.pen, by rw [after'.link, idle, closed]⟩⟩

theorem told_writeRuns (zero : links[(0 : UInt16)]? = none)
    (fits : ∀ cell ∈ desired, isCont cell = false → width (textOf cell) ≤ 2) (row : Nat)
    (runs : List (Nat × Nat)) :
    ∀ {ink : Ink} {done : Nat → Nat → Prop} {t u : Terminal}, Told width t₀ u₀ bg ink done t u →
      Between p t ink → Between q u ink →
      ∃ t' u', Told width t₀ u₀ bg (runs.foldl (r.writeRun links row desired) ink)
          (fun i c => done i c ∨ ∃ run ∈ runs, Struck width row desired run i c) t' u' ∧
        Between p t' (runs.foldl (r.writeRun links row desired) ink) ∧
        Between q u' (runs.foldl (r.writeRun links row desired) ink) := by
  induction runs with
  | nil =>
      intro ink done t u told between between'
      refine ⟨t, u, ⟨told.first, told.second, told.twins.congr fun i c => ?_⟩, between, between'⟩
      exact or_iff_left fun ⟨_, absent, _⟩ => (by cases absent)
  | cons run runs ih =>
      intro ink done t u told between between'
      obtain ⟨t', u', told', after, after'⟩ :=
        told_writeRun (r := r) zero fits row run told between between'
      obtain ⟨t'', u'', told'', last, last'⟩ := ih told' after after'
      refine ⟨t'', u'', ⟨told''.first, told''.second, told''.twins.congr fun i c => ?_⟩, last, last'⟩
      simp only [List.mem_cons, exists_eq_or_imp, or_assoc]

theorem dirtyAt_full (r : Renderer) (cells : List Cell) (links : Links) (cols row : Nat) :
    r.dirtyAt cells links cols true row = written (rowOf cells cols row) :=
  funext fun c => dirty_full _ _ _ c

theorem inked_succ (r : Renderer) (cells : List Cell) (links : Links) (k cols : Nat) :
    r.inked cells links (k + 1) cols true =
      (changedRuns (rowOf cells cols k) (written (rowOf cells cols k))).foldl
        (r.writeRun links k (rowOf cells cols k)) (r.inked cells links k cols true) := by
  rw [Renderer.inked, List.range_succ, List.foldl_append, ← dirtyAt_full r cells links cols k]
  rfl

theorem told_rows (measure : Measure width) (zero : links[(0 : UInt16)]? = none)
    {cells : List Cell} {rows cols : Nat}
    (formed : ∀ row < rows, Formed width (rowOf cells cols row))
    (cleared : Terminal.Twins bg (fun _ _ => False) t₀ u₀) (closed : t₀.link = none)
    (closed' : u₀.link = none) (k : Nat) (bound : k ≤ rows) :
    ∃ t' u', Told width t₀ u₀ bg (r.inked cells links k cols true)
        (fun i c => i < k ∧ Covered width (rowOf cells cols i) c) t' u' ∧
      Between t₀.pen t' (r.inked cells links k cols true) ∧
      Between u₀.pen u' (r.inked cells links k cols true) := by
  induction k with
  | zero =>
      exact ⟨t₀, u₀, ⟨rfl, rfl, cleared.congr fun i c => by simp⟩, ⟨rfl, closed⟩, ⟨rfl, closed'⟩⟩
  | succ k ih =>
      obtain ⟨t', u', told, between, between'⟩ := ih (by omega)
      have fits : ∀ cell ∈ rowOf cells cols k, isCont cell = false → width (textOf cell) ≤ 2 :=
        fun cell member plain => width_textOf_le measure (formed k (by omega)) member plain
      obtain ⟨t'', u'', told', after, after'⟩ := told_writeRuns (r := r) zero fits k
        (changedRuns (rowOf cells cols k) (written (rowOf cells cols k))) told between between'
      rw [inked_succ]
      refine ⟨t'', u'', ⟨told'.first, told'.second, told'.twins.congr fun i c => ?_⟩, after,
        after'⟩
      simp only [Covered, Struck]
      constructor
      · rintro ⟨inside, run, member, place⟩
        by_cases last : i = k
        · subst last
          exact Or.inr ⟨run, member, rfl, place⟩
        · exact Or.inl ⟨by omega, run, member, place⟩
      · rintro (⟨inside, covered⟩ | ⟨run, member, rfl, place⟩)
        · exact ⟨by omega, covered⟩
        · exact ⟨by omega, run, member, place⟩

theorem pen_writeCells (r : Renderer) (links : Links) (cells : List Cell) (acc : Ink × UInt16) :
    (cells.foldl (r.writeCell links) acc).1.pen.isSome =
      (acc.1.pen.isSome || cells.any fun cell => !isCont cell) := by
  induction cells generalizing acc with
  | nil => simp
  | cons cell cells ih =>
      rw [List.foldl_cons, ih, List.any_cons]
      cases cont : isCont cell with
      | true => simp [Renderer.writeCell, cont]
      | false => simp [Renderer.writeCell, cont]

theorem pen_writeRun (row : Nat) (ink : Ink) {run : Nat × Nat} (order : run.1 < run.2)
    (inside : run.2 ≤ desired.length) (start : contAt desired run.1 = false) :
    (r.writeRun links row desired ink run).pen.isSome = true := by
  obtain ⟨cell, found, cells⟩ := drop_take_cons order inside
  have plain : isCont cell = false := by simpa [contAt, found] using start
  have selected := pen_writeCells r links ((desired.take run.2).drop run.1)
    ({ ink with out := ink.out ++ [.moveTo row run.1] }, 0)
  rw [cells, List.any_cons, plain, Bool.not_false, Bool.true_or, Bool.or_true, ← cells] at selected
  simp only [Renderer.writeRun]
  split
  · exact selected
  · exact selected

theorem pen_writeRuns (r : Renderer) (links : Links) (row : Nat) (ink : Ink) {runs : List (Nat × Nat)} (some : runs ≠ [])
    (starts : ∀ run ∈ runs, run.1 < run.2 ∧ run.2 ≤ desired.length ∧
      contAt desired run.1 = false) :
    (runs.foldl (r.writeRun links row desired) ink).pen.isSome = true := by
  rcases List.eq_nil_or_concat runs with none | ⟨earlier, last, rfl⟩
  · exact absurd none some
  · obtain ⟨order, inside, start⟩ := starts last (by simp)
    rw [List.concat_eq_append, List.foldl_append]
    exact pen_writeRun row _ order inside start

theorem changedRuns_nil (formed : Formed width desired) :
    changedRuns desired (written desired) = [] ↔ ∀ cell ∈ desired, cell = Cell.blank := by
  have spec := changedRuns_spec desired (written desired)
  constructor
  · intro none cell member
    obtain ⟨j, found⟩ := List.mem_iff_getElem?.mp member
    by_contra other
    obtain ⟨run, absent, -⟩ := spec.covers j (List.getElem?_eq_some_iff.mp found).1
      (by simp only [written, found, Option.some.injEq, ne_eq, other, not_false_eq_true,
        decide_true])
    rw [none] at absent
    cases absent
  · intro blank
    refine List.eq_nil_iff_forall_not_mem.mpr fun run member => ?_
    obtain ⟨order, inside, -⟩ := runs_start_plain formed spec run member
    rcases spec.starts run member with ⟨own, -, -⟩ | ⟨-, -, cont⟩
    · have found := List.getElem?_eq_getElem (show run.1 < desired.length by omega)
      simp only [written, found, blank _ (List.mem_of_getElem? found), ne_eq, not_true_eq_false,
        decide_false, Bool.false_eq_true] at own
    · cases found : desired[run.1 + 1]? with
      | none => simp only [contAt, found, Option.any_none, Bool.false_eq_true] at cont
      | some cell =>
          simp only [contAt, found, Option.any_some, blank cell (List.mem_of_getElem? found)] at cont
          revert cont
          decide

theorem pen_inked (r : Renderer) (links : Links) {cells : List Cell} {rows cols : Nat}
    (formed : ∀ row < rows, Formed width (rowOf cells cols row)) (k : Nat) (bound : k ≤ rows) :
    (r.inked cells links k cols true).pen = none ↔
      ∀ row < k, ∀ cell ∈ rowOf cells cols row, cell = Cell.blank := by
  induction k with
  | zero => exact ⟨fun _ row none => (by cases none), fun _ => rfl⟩
  | succ k ih =>
      have blank := changedRuns_nil (formed k (by omega))
      rw [inked_succ]
      constructor
      · intro none i inside
        have quiet : changedRuns (rowOf cells cols k) (written (rowOf cells cols k)) = [] := by
          by_contra some
          have selected := pen_writeRuns r links k
            (r.inked cells links k cols true) some
            (runs_start_plain (formed k (by omega)) (changedRuns_spec _ _))
          rw [none] at selected
          cases selected
        by_cases last : i = k
        · subst last
          exact blank.mp quiet
        · rw [quiet, List.foldl_nil] at none
          exact (ih (by omega)).mp none i (by omega)
      · intro allBlank
        rw [blank.mpr (allBlank k (by omega)), List.foldl_nil]
        exact (ih (by omega)).mpr fun i inside => allBlank i (by omega)

end
namespace Renderer

/-- A full repaint up to its first row. -/
def opening (r : Renderer) (s : ScreenState) : List Command :=
  [.setMode 2026 true] ++ (r.writeModes s true ++ r.writeTitle s true) ++ r.clearing

/-- A full repaint from its last row on. -/
def closing (r : Renderer) (s : ScreenState) : List Command :=
  r.writeCursor (r.shownCursor s) true true ++ [.setMode 2026 false]

end Renderer

section
variable {width : Text → Nat} {r : Renderer} {s : ScreenState}

theorem reshape_painted (forgotten : r.painted = none) (s : ScreenState) :
    (r.reshape s).painted = none := by
  simp only [Renderer.reshape]
  split
  · rfl
  · exact forgotten

theorem output_forgotten (forgotten : r.painted = none) :
    r.output width s = (r.reshape s).opening s ++
      (((r.reshape s).inked (composite width (r.reshape s).overlay s) s.links s.rows.toNat
          s.cols.toNat true).out ++
        (((r.reshape s).inked (composite width (r.reshape s).overlay s) s.links s.rows.toNat
          s.cols.toNat true).reset ++ (r.reshape s).closing s)) := by
  have none := reshape_painted forgotten s
  have kept : (r.reshape s).leaving s = r.reshape s := by
    simp only [Renderer.leaving, Renderer.bufferSwapped, none, Option.any_none,
      Bool.false_eq_true, if_false]
  have quiet : (r.reshape s).shouldRing s = false := by
    simp only [Renderer.shouldRing, none, Option.any_none]
  have unswapped : (r.reshape s).bufferSwapped s = false := by
    simp only [Renderer.bufferSwapped, none, Option.any_none]
  have painting : ((r.reshape s).writeModes s true ++ (r.reshape s).writeTitle s true ++
      (r.reshape s).writeCells (composite width (r.reshape s).overlay s) s.links s.rows.toNat
        s.cols.toNat true).isEmpty = false := by
    simp [writeCells_eq, Renderer.clearing]
  have paint : (r.reshape s).paint width s =
      ((r.reshape s).writeModes s true ++ (r.reshape s).writeTitle s true ++
      (r.reshape s).writeCells (composite width (r.reshape s).overlay s) s.links s.rows.toNat
        s.cols.toNat true) ++ (r.reshape s).writeCursor ((r.reshape s).shownCursor s) true true := by
    simp only [Renderer.paint, none, kept, quiet, unswapped, Option.isNone_none, Bool.or_false,
      Bool.false_eq_true, if_false, painting, Bool.not_false, List.append_nil]
  have some : ((r.reshape s).paint width s).isEmpty = false := by
    rw [List.isEmpty_eq_false_iff] at painting ⊢
    rw [paint]
    exact fun none => painting (List.append_eq_nil_iff.mp none).1
  rw [Renderer.output, Renderer.wrap, some, if_neg Bool.false_ne_true, paint, writeCells_eq]
  simp only [if_true, Renderer.opening, Renderer.closing, List.append_assoc]

theorem run_modes_frame (width : Text → Nat) (r : Renderer) (s : ScreenState) (t : Terminal) :
    ∃ paste mouse, t.run width (r.writeModes s true) = { t with paste := paste, mouse := mouse } := by
  have mouse : ∀ t : Terminal, ∃ mouse,
      t.run width (r.writeMouse s.modes.mouse) = { t with mouse := mouse } := by
    intro t
    cases sgr : r.caps.mouseSgr with
    | true => exact ⟨_, run_writeMouse width t _ fun off => by rw [sgr] at off; cases off⟩
    | false =>
        cases s.modes.mouse <;>
          exact ⟨_, by simp [Renderer.writeMouse, sgr, Terminal.mode]; rfl⟩
  have stated : r.writeModes s true =
      (if r.caps.bracketedPaste then [.setMode 2004 s.modes.bracketedPaste] else []) ++
        r.writeMouse s.modes.mouse := by
    simp [Renderer.writeModes]
  rw [stated, Terminal.run_append]
  cases r.caps.bracketedPaste with
  | true =>
      obtain ⟨m, moused⟩ := mouse { t with paste := s.modes.bracketedPaste }
      exact ⟨s.modes.bracketedPaste, m, by simpa [Terminal.mode] using moused⟩
  | false =>
      obtain ⟨m, moused⟩ := mouse t
      exact ⟨t.paste, m, moused⟩

/-- The screen is cleared in the background of the pen, and no hyperlink is open. -/
theorem run_opening (width : Text → Nat) (r : Renderer) (s : ScreenState) (t : Terminal)
    (opened : t.link ≠ none → r.caps.osc8 = true ∧ (r.linksOn = true ∨ r.linkMayBeOpen = true)) :
    ∃ t', t.run width (r.opening s) = t' ∧ t'.cells = Plane.erased t.pen ∧ t'.row = 0 ∧
      t'.col = 0 ∧ t'.pen = t.pen ∧ t'.link = none := by
  obtain ⟨paste, mouse, modes⟩ := run_modes_frame width r s { t with synchronized := true }
  obtain ⟨title, titled⟩ := run_writeTitle width (r := r)
    { t with synchronized := true, paste := paste, mouse := mouse } s true
  refine ⟨{ t with
    synchronized := true, paste := paste, mouse := mouse, title := title, link := none, row := 0
    col := 0, cells := Plane.erased t.pen }, ?_, rfl, rfl, rfl, rfl, rfl⟩
  rw [Renderer.opening, Terminal.run_append, Terminal.run_append, Terminal.run_append,
    show t.run width [.setMode 2026 true] = { t with synchronized := true } from rfl, modes, titled,
    Renderer.clearing, Terminal.run_append]
  refine (congrArg (Terminal.run width · _) (run_unless width
    { t with
      synchronized := true, paste := paste, mouse := mouse, title := title, link := none } _
    (fun _ => rfl) fun left => ?_)).trans rfl
  have closed : t.link = none := by
    by_contra open_
    exact left (opened open_)
  rw [← closed]

theorem run_closing (t : Terminal) :
    t.run width (r.closing s) = { t with
      row := (r.shownCursor s).row.toNat
      col := (r.shownCursor s).col.toNat
      visible := (r.shownCursor s).visible
      shape := Renderer.shapeCode (r.shownCursor s).shape
      synchronized := false } := by
  rw [Renderer.closing, Terminal.run_append,
    run_writeCursor width t (r.shownCursor s) true true fun partial_ => (by cases partial_)]
  rfl

end

theorem run_repaint {width : Text → Nat} {r : Renderer} {s : ScreenState}
    (forgotten : r.painted = none) {t t₀ t₁ : Terminal}
    (opening : t.run width ((r.reshape s).opening s) = t₀)
    (rows : t₀.run width ((r.reshape s).inked (composite width (r.reshape s).overlay s) s.links
      s.rows.toNat s.cols.toNat true).out = t₁)
    (between : Between t₀.pen t₁ ((r.reshape s).inked (composite width (r.reshape s).overlay s)
      s.links s.rows.toNat s.cols.toNat true)) :
    t.run width (r.output width s) = Terminal.run width
      { t₁ with pen := if ((r.reshape s).inked (composite width (r.reshape s).overlay s) s.links
        s.rows.toNat s.cols.toNat true).pen.isNone then t₀.pen else {} }
      ((r.reshape s).closing s) := by
  rw [output_forgotten forgotten, Terminal.run_append, opening, Terminal.run_append, rows,
    Terminal.run_append, run_reset width t₁ _ between.pen]

/-- Two terminals show the same screen, with the same pen, hyperlink and cursor. -/
structure SameScreen (rows cols : Nat) (t u : Terminal) : Prop where
  cells : ∀ row < rows, ∀ col < cols, t.cells row col = u.cells row col
  pen : t.pen = u.pen
  link : t.link = u.link
  row : t.row = u.row
  col : t.col = u.col
  visible : t.visible = u.visible
  shape : t.shape = u.shape

/-- Some cell of the composited screen is not blank. -/
def Inked (width : Text → Nat) (r : Renderer) (s : ScreenState) : Prop :=
  ∃ row < s.rows.toNat, ∃ cell ∈ rowOf (composite width r.overlay s) s.cols.toNat row,
    cell ≠ Cell.blank

/-- No cell of the composited screen is blank, and none is painted without a column. -/
def Filled (width : Text → Nat) (r : Renderer) (s : ScreenState) : Prop :=
  ∀ row < s.rows.toNat, ∀ cell ∈ rowOf (composite width r.overlay s) s.cols.toNat row,
    cell ≠ Cell.blank ∧ columnless width cell = false

theorem length_rowOf {cells : List Cell} {rows cols row : Nat}
    (length : cells.length = rows * cols) (inside : row < rows) :
    (rowOf cells cols row).length = cols := by
  have room : (row + 1) * cols ≤ rows * cols := Nat.mul_le_mul_right cols inside
  rw [Nat.succ_mul] at room
  rw [rowOf, List.length_take, List.length_drop, length]
  omega

/-- The screens agree exactly when the background was the default or every column has
been painted over. -/
theorem twins_agree_iff {width : Text → Nat} (measure : Measure width) {cells : List Cell}
    {rows cols : Nat} (length : cells.length = rows * cols)
    (formed : ∀ row < rows, Formed width (rowOf cells cols row)) {bg : Vt.Color}
    {t u : Terminal}
    (twins : Terminal.Twins bg (fun i c => i < rows ∧ Covered width (rowOf cells cols i) c) t u) :
    (∀ row < rows, ∀ col < cols, t.cells row col = u.cells row col) ↔
      bg = .default ∨ ∀ row < rows, ∀ cell ∈ rowOf cells cols row,
        cell ≠ Cell.blank ∧ columnless width cell = false := by
  constructor
  · intro same
    by_cases plain : bg = .default
    · exact Or.inl plain
    · refine Or.inr fun row inside => (covered_iff measure (formed row inside)).mp fun c short => ?_
      by_contra uncovered
      rw [length_rowOf length inside] at short
      obtain ⟨pen, tinted⟩ := (twins.cells row).bare c fun covered => uncovered covered.2
      rw [same row inside c short] at tinted
      have colour := congrArg (fun spot : Vt.Spot => spot.pen.bg) tinted
      rw [pen] at colour
      exact plain colour.symm
  · intro agree row inside c short
    by_cases covered : Covered width (rowOf cells cols row) c
    · exact (twins.cells row).inked c ⟨inside, covered⟩
    · obtain ⟨pen, tinted⟩ := (twins.cells row).bare c fun both => covered both.2
      cases agree with
      | inl plain =>
          rw [tinted, plain, Vt.Spot.tinted, show ({ bg := .default } : Vt.Pen) = {} from rfl, ← pen]
      | inr filled =>
          refine absurd ((covered_iff measure (formed row inside)).mpr (filled row inside) c ?_)
            covered
          rw [length_rowOf length inside]
          exact short

/-- A render with nothing painted leaves a terminal as it leaves a fresh one exactly when
its pen was the default, or some cell is painted and either the background was the
default or every column is painted over. -/
theorem repaint_recovers_iff {width : Text → Nat} (measure : Measure width) {r : Renderer}
    {s : ScreenState} (valid : s.validate = .ok ()) (formed : WellFormed width r s)
    (forgotten : r.painted = none) {t : Terminal}
    (opened : t.link ≠ none → r.caps.osc8 = true ∧ r.linkMayBeOpen = true) :
    SameScreen s.rows.toNat s.cols.toNat (t.run width (r.output width s))
        (Terminal.run width {} (r.output width s)) ↔
      t.pen = {} ∨ (Inked width r s ∧ (t.pen.bg = .default ∨ Filled width r s)) := by
  have valid := (ScreenState.validate_ok s).mp valid
  have zero := links_zero valid.links
  obtain ⟨caps, overlay, -⟩ := reshape_settings r s
  have may : (r.reshape s).linkMayBeOpen = r.linkMayBeOpen := by
    simp only [Renderer.reshape]
    split
    · rfl
    · rfl
  have length : (composite width (r.reshape s).overlay s).length = s.rows.toNat * s.cols.toNat := by
    rw [length_composite]
    exact valid.length
  have formed : WellFormed width (r.reshape s) s := formed.congr overlay
  obtain ⟨t₀, ranT, cellsT, rowT, colT, penT, linkT⟩ :=
    run_opening width (r.reshape s) s t fun some => by
      rw [caps, may]
      exact ⟨(opened some).1, Or.inr (opened some).2⟩
  obtain ⟨u₀, ranU, cellsU, rowU, colU, penU, linkU⟩ :=
    run_opening width (r.reshape s) s {} fun some => absurd rfl some
  have cleared : Terminal.Twins t.pen.bg (fun _ _ => False) t₀ u₀ := by
    refine ⟨rowT.trans rowU.symm, colT.trans colU.symm, fun i => ?_⟩
    rw [cellsT, cellsU]
    exact ⟨fun c none => none.elim, fun c _ => ⟨rfl, rfl⟩⟩
  obtain ⟨t₁, u₁, told, between, between'⟩ := told_rows (r := r.reshape s) measure zero formed
    cleared linkT linkU s.rows.toNat (Nat.le_refl _)
  have agree := twins_agree_iff measure length formed told.twins
  have unpainted := pen_inked (r.reshape s) s.links formed s.rows.toNat (Nat.le_refl _)
  have left := run_repaint forgotten ranT told.first between
  have right := run_repaint forgotten ranU told.second between'
  rw [penT] at left
  rw [penU] at right
  generalize (r.reshape s).inked (composite width (r.reshape s).overlay s) s.links s.rows.toNat
    s.cols.toNat true = ink at told between between' unpainted left right
  have painted : Inked width r s ↔ ink.pen ≠ none := by
    rw [Ne, unpainted, Inked, ← overlay]
    simp only [not_forall, exists_prop]
  rw [left, right, run_closing, run_closing]
  have filled : Filled width r s ↔ ∀ row < s.rows.toNat,
      ∀ cell ∈ rowOf (composite width (r.reshape s).overlay s) s.cols.toNat row,
        cell ≠ Cell.blank ∧ columnless width cell = false := by
    rw [Filled, overlay]
  rw [← filled] at agree
  rw [painted]
  constructor
  · intro same
    by_cases none : ink.pen = none
    · have pen := same.pen
      simp only [none, Option.isNone_none, if_true] at pen
      exact Or.inl pen
    · exact Or.inr ⟨none, agree.mp same.cells⟩
  · intro recovers
    have closed : t₁.link = u₁.link := between.link.trans between'.link.symm
    cases recovers with
    | inl plain =>
        refine ⟨agree.mpr (Or.inl (by rw [plain])), ?_, closed, rfl, rfl, rfl, rfl⟩
        simp only [plain]
    | inr drawn =>
        refine ⟨agree.mpr drawn.2, ?_, closed, rfl, rfl, rfl, rfl⟩
        have some : ink.pen.isNone = false := by
          rw [Option.isNone_eq_false_iff]
          exact Option.isSome_iff_ne_none.mpr drawn.1
        simp only [some, Bool.false_eq_true, if_false]

theorem three_wellFormed {r : Renderer} (bare : r.overlay = none) {a b c : Char}
    (checked : checkCellText [a] = .ok () ∧ checkCellText [b] = .ok () ∧
      checkCellText [c] = .ok ()) :
    (Display.three a b c).validate = .ok () ∧
      WellFormed Display.latinWidth r (Display.three a b c) :=
  Display.three_allowed (d := ⟨r, {}⟩) bare checked

/-- A bold pen with the default background does not show. -/
theorem repaint_recovers_from_bold :
    SameScreen 1 3
      (Terminal.run Display.latinWidth { pen := { bold := true } }
        (Display.opening.renderer.output Display.latinWidth (Display.three 'a' ' ' 'c')))
      (Terminal.run Display.latinWidth {}
        (Display.opening.renderer.output Display.latinWidth (Display.three 'a' ' ' 'c'))) := by
  obtain ⟨valid, formed⟩ := three_wellFormed (r := Display.opening.renderer) (a := 'a') (b := ' ')
    (c := 'c') rfl (by decide +kernel)
  refine (repaint_recovers_iff Display.latinWidth_measure valid formed rfl
    fun some => absurd rfl some).mpr (Or.inr ⟨?_, Or.inl rfl⟩)
  exact ⟨0, by decide, { Cell.blank with text := ['a'] }, by decide +kernel, by decide +kernel⟩

/-- A screen with a cell on a red background. -/
def red : ScreenState :=
  { Display.three 'x' 'x' 'x' with
    cells := List.replicate 3 { Cell.blank with text := ['x'], bg := .idx 1 } }

/-- The write of a pass fails when the background has been selected and nothing has been
printed. The next render clears the screen in that background. -/
theorem repaint_keeps_the_background :
    let r := Display.opening.renderer.interrupted red
    let t := Terminal.run Display.latinWidth {}
      ((Display.opening.renderer.output Display.latinWidth red).take 11)
    r.painted = none ∧ t.link = none ∧
      ¬ SameScreen 1 3
        (t.run Display.latinWidth (r.output Display.latinWidth (Display.three 'a' ' ' 'c')))
        (Terminal.run Display.latinWidth {}
          (r.output Display.latinWidth (Display.three 'a' ' ' 'c'))) := by
  refine ⟨rfl, by decide +kernel, fun same => ?_⟩
  have cell := congrArg (fun spot : Vt.Spot => spot.pen.bg)
    (same.cells 0 (by decide) 1 (by decide))
  revert cell
  decide +kernel

end Oxutrm.Paint
