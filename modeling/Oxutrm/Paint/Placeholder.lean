import Oxutrm.Paint.Recovery
import Oxutrm.Paint.Framing
import Oxutrm.Paint.Styles
import Oxutrm.Host.Cells
import Oxutrm.Vt.Prints

/-!
The last column of a line whose next glyph did not fit. Its cell is an empty right half
with no left half before it, so a pass never writes there: the column keeps what it
showed, and of the right half of a glyph its colours, its attributes and its link.
-/
namespace Oxutrm.Paint
open Proto
open Vt (Terminal Row Plane Command)
open Vt.Row (Prints)
open Host (VteCell Grid Laid Converted Shows)

/-- Every text that is painted has one column or two. -/
def Sized (width : Text → Nat) (cells : List Cell) : Prop :=
  ∀ cell ∈ cells, isCont cell = false → width (textOf cell) = 1 ∨ width (textOf cell) = 2

section
variable {width : Text → Nat} {r : Renderer} {links : Links} {pen : Vt.Pen} {desired : List Cell}
  {L : Nat} {t₀ : Terminal}

theorem prints_cells (zero : links[(0 : UInt16)]? = none) (cells : List Cell)
    (sized : Sized width cells) :
    ∀ (acc : Ink × UInt16) {t : Terminal}, t₀.run width acc.1.out = t →
      Drawing r links pen t acc.1 acc.2 → t.col + advance width cells ≤ L →
      ∃ t' reached, t₀.run width (cells.foldl (r.writeCell links) acc).1.out = t' ∧
        (∀ i, i ≠ t.row → t'.cells i = t.cells i) ∧
        Prints L (t.cells t.row) reached (t'.cells t.row) ∧
        (0 < advance width cells → t.col + advance width cells = L → reached = true) ∧
        Drawing r links pen t' (cells.foldl (r.writeCell links) acc).1
          (cells.foldl (r.writeCell links) acc).2 := by
  induction cells with
  | nil =>
      intro acc t ran drawing below
      exact ⟨t, false, ran, fun _ _ => rfl, .refl, fun some => absurd some (Nat.lt_irrefl 0),
        drawing⟩
  | cons cell cells ih =>
      intro acc t ran drawing below
      have rest := ih fun cell member => sized cell (List.mem_cons_of_mem _ member)
      rw [List.foldl_cons]
      cases cont : isCont cell with
      | true =>
          have skipped : r.writeCell links acc cell = acc := by
            simp only [Renderer.writeCell, cont, if_true]
          have same : advance width (cell :: cells) = advance width cells := by
            simp only [advance, cont, if_true, Nat.zero_add]
          rw [skipped, same]
          rw [same] at below
          exact rest acc ran drawing below
      | false =>
          have columns := sized cell List.mem_cons_self cont
          have more : advance width (cell :: cells) =
              width (textOf cell) + advance width cells := by
            simp only [advance, cont, Bool.false_eq_true, if_false]
          rw [more] at below ⊢
          obtain ⟨written, selected, link⟩ := run_writeCell width zero ran drawing cont
          obtain ⟨t', reached, ran', others, prints, ends, after⟩ :=
            rest (r.writeCell links acc cell) written
              ⟨by rw [Ink.penFrom, selected]; rfl, by rw [link]; rfl⟩
              (show t.col + width (textOf cell) + advance width cells ≤ L by omega)
          have first : Prints L (t.cells t.row)
              (false || decide (t.col + width (textOf cell) = L))
              ((t.cells t.row).put t.col (textOf cell) (r.penOf cell) (r.linkAt links cell.link)
                (width (textOf cell))) := .put .refl (by omega) columns _ _ _
          have here : (Terminal.print width
              { t with link := r.linkAt links cell.link, pen := r.penOf cell }
              (textOf cell)).cells t.row = (t.cells t.row).put t.col (textOf cell) (r.penOf cell)
                (r.linkAt links cell.link) (width (textOf cell)) := by
            simp only [Terminal.print, Function.update_self]
          refine ⟨t', _, ran', fun i other => ?_, first.trans (here ▸ prints), fun _ last => ?_, after⟩
          · rw [others i other]
            simp only [Terminal.print, Function.update_of_ne other]
          · rw [Bool.false_or, Bool.or_eq_true, decide_eq_true_eq]
            by_cases done : advance width cells = 0
            · exact Or.inl (by omega)
            · exact Or.inr (ends (by omega) (show t.col + width (textOf cell) + _ = L by omega))

/-- The columns a run prints in end here. -/
def extent (width : Text → Nat) (desired : List Cell) (run : Nat × Nat) : Nat :=
  run.1 + advance width ((desired.take run.2).drop run.1)

theorem prints_writeRun (zero : links[(0 : UInt16)]? = none) (sized : Sized width desired)
    (row : Nat) (run : Nat × Nat) (below : extent width desired run ≤ L) {t : Terminal} {ink : Ink}
    (ran : t₀.run width ink.out = t) (between : Between pen t ink) :
    ∃ t' reached, t₀.run width (r.writeRun links row desired ink run).out = t' ∧
      (∀ i, i ≠ row → t'.cells i = t.cells i) ∧
      Prints L (t.cells row) reached (t'.cells row) ∧
      (run.1 < L → extent width desired run = L → reached = true) ∧
      Between pen t' (r.writeRun links row desired ink run) := by
  have moved : t₀.run width (ink.out ++ [.moveTo row run.1]) =
      { t with row := row, col := run.1 } := by
    rw [Terminal.run_append, ran]
    rfl
  have drawing : Drawing r links pen { t with row := row, col := run.1 }
      { ink with out := ink.out ++ [.moveTo row run.1] } 0 :=
    ⟨between.pen, by rw [linkAt_zero zero]; exact between.link⟩
  obtain ⟨t', reached, written, others, prints, ends, after⟩ :=
    prints_cells zero ((desired.take run.2).drop run.1)
      (fun cell member => sized cell (List.mem_of_mem_take (List.mem_of_mem_drop member)))
      ({ ink with out := ink.out ++ [.moveTo row run.1] }, 0) moved drawing below
  have ends : run.1 < L → extent width desired run = L → reached = true := fun start last => by
    refine ends ?_ last
    rw [extent] at last
    omega
  simp only [Renderer.writeRun]
  split
  · refine ⟨{ t' with link := none }, reached, ?_, others, prints, ends, after.pen, rfl⟩
    rw [Terminal.run_append, written]
    rfl
  · next closed =>
      rw [ne_eq, not_not] at closed
      refine ⟨t', reached, written, others, prints, ends, after.pen, ?_⟩
      rw [after.link, closed, linkAt_zero zero]

theorem prints_writeRuns (zero : links[(0 : UInt16)]? = none) (sized : Sized width desired)
    (row : Nat) (runs : List (Nat × Nat)) (below : ∀ run ∈ runs, extent width desired run ≤ L) :
    ∀ {t : Terminal} {ink : Ink}, t₀.run width ink.out = t → Between pen t ink →
      ∃ t' reached, t₀.run width (runs.foldl (r.writeRun links row desired) ink).out = t' ∧
        (∀ i, i ≠ row → t'.cells i = t.cells i) ∧
        Prints L (t.cells row) reached (t'.cells row) ∧
        ((∃ run ∈ runs, run.1 < L ∧ extent width desired run = L) → reached = true) ∧
        Between pen t' (runs.foldl (r.writeRun links row desired) ink) := by
  induction runs with
  | nil =>
      intro t ink ran between
      exact ⟨t, false, ran, fun _ _ => rfl, .refl, fun ⟨_, absent, _⟩ => (by cases absent), between⟩
  | cons run runs ih =>
      intro t ink ran between
      obtain ⟨t', reached, ran', others, prints, ends, between'⟩ :=
        prints_writeRun (r := r) zero sized row run (below run List.mem_cons_self) ran between
      obtain ⟨t'', further, ran'', others', prints', ends', between''⟩ :=
        ih (fun run member => below run (List.mem_cons_of_mem _ member)) ran' between'
      refine ⟨t'', _, ran'', fun i other => (others' i other).trans (others i other),
        prints.trans prints', fun ⟨last, member, place⟩ => ?_, between''⟩
      rw [Bool.or_eq_true]
      cases List.mem_cons.mp member with
      | inl same =>
          rw [same] at place
          exact Or.inl (ends place.1 place.2)
      | inr later => exact Or.inr (ends' ⟨last, later, place⟩)

theorem advance_append (cells more : List Cell) :
    advance width (cells ++ more) = advance width cells + advance width more := by
  induction cells with
  | nil => simp only [List.nil_append, advance, Nat.zero_add]
  | cons cell cells ih => rw [List.cons_append, advance, advance, ih, Nat.add_assoc]

/-- A row that is well formed up to a last right half with nothing before it. -/
structure Ended (width : Text → Nat) (desired : List Cell) (L : Nat) : Prop where
  length : desired.length = L + 1
  cont : contAt desired L = true
  formed : Formed width (desired.take L)
  sized : Sized width desired
  spaced : ∀ cell ∈ desired, columnless width cell = false

theorem contAt_take {col : Nat} (below : col < L) :
    contAt (desired.take L) col = contAt desired col := by
  simp only [contAt, List.getElem?_take, if_pos below]

theorem contAt_edge : contAt (desired.take L) L = false := by
  simp only [contAt, List.getElem?_take, if_neg (Nat.lt_irrefl L), Option.any_none]

namespace Ended
variable (ended : Ended width desired L)
include ended

theorem advance_clipped {run : Nat × Nat} (order : run.1 < run.2) (inside : run.2 ≤ L + 1) :
    advance width ((desired.take run.2).drop run.1) =
      advance width (((desired.take L).take (min run.2 L)).drop run.1) := by
  by_cases short : run.2 ≤ L
  · rw [List.take_take, Nat.min_eq_left short, Nat.min_eq_left short]
  · have whole : run.2 = L + 1 := by omega
    have room : run.1 ≤ (desired.take L).length := by
      rw [List.length_take, ended.length]
      omega
    have nothing : advance width (desired[L]?.toList) = 0 := by
      have cont := ended.cont
      cases found : desired[L]? with
      | none => rfl
      | some cell =>
          simp only [contAt, found, Option.any_some] at cont
          simp only [Option.toList_some, advance, cont, if_true]
    rw [whole, List.take_add_one, List.drop_append_of_le_length room, advance_append, nothing,
      Nat.min_eq_right (Nat.le_succ L), List.take_take, Nat.min_self, Nat.add_zero]

theorem extent_spec (measure : Measure width) {run : Nat × Nat} (order : run.1 < run.2)
    (inside : run.2 ≤ L + 1) :
    extent width desired run + (contAt (desired.take L) run.1).toNat =
        min run.2 L + (contAt (desired.take L) (min run.2 L)).toNat ∧
      extent width desired run ≤ L := by
  have length : (desired.take L).length = L := by
    rw [List.length_take, ended.length]
    omega
  have none : (((desired.take L).take (min run.2 L)).drop run.1).countP (columnless width) = 0 := by
    refine List.countP_eq_zero.mpr fun cell member => ?_
    rw [ended.spaced cell (List.mem_of_mem_take (List.mem_of_mem_take
      (List.mem_of_mem_drop member)))]
    exact Bool.false_ne_true
  have formula := advance_spec measure ended.formed (e := min run.2 L) (by rw [length]; omega)
    (min run.2 L - run.1) (show run.1 + _ = min run.2 L by omega)
  rw [none] at formula
  rw [extent, ended.advance_clipped order inside]
  refine ⟨by omega, ?_⟩
  by_cases edge : min run.2 L = L
  · rw [edge] at formula ⊢
    rw [contAt_edge, Bool.toNat_false] at formula
    omega
  · have one := Bool.toNat_le (contAt (desired.take L) (min run.2 L))
    omega

theorem reaches_edge (measure : Measure width) {changed : Nat → Bool} (some : 0 < L)
    (dirty : changed (L - 1) = true) :
    ∃ run ∈ changedRuns desired changed, run.1 < L ∧ extent width desired run = L := by
  have spec := changedRuns_spec desired changed
  obtain ⟨run, member, low, high⟩ := spec.covers (L - 1) (by rw [ended.length]; omega) dirty
  obtain ⟨order, inside⟩ := spec.bounds run member
  rw [ended.length] at inside
  have start : contAt (desired.take L) run.1 = false := by
    rcases spec.starts run member with ⟨-, zero | plain, -⟩ | ⟨clean, -, cont⟩
    · rw [zero]
      exact ended.formed.first
    · rw [contAt_take (by omega)]
      exact plain
    · have before : run.1 + 1 < L := by
        by_contra last
        rw [show run.1 = L - 1 by omega, dirty] at clean
        cases clean
      cases here : contAt (desired.take L) run.1 with
      | false => rfl
      | true =>
          rw [← contAt_take before, ended.formed.next_plain here] at cont
          cases cont
  have ends := (ended.extent_spec measure order inside).1
  rw [start, show min run.2 L = L by omega, contAt_edge] at ends
  exact ⟨run, member, by omega, ends⟩

end Ended

theorem run_ended (measure : Measure width) (zero : links[(0 : UInt16)]? = none)
    (ended : Ended width desired L) (row : Nat) (changed : Nat → Bool) {t : Terminal} {ink : Ink}
    (ran : t₀.run width ink.out = t) (paired : (t.cells row).Paired) (between : Between pen t ink)
    (struck : (t.cells row L).glyph.isTrail = true → 0 < L ∧ changed (L - 1) = true) :
    ∃ t', t₀.run width
        ((changedRuns desired changed).foldl (r.writeRun links row desired) ink).out = t' ∧
      (∀ i, i ≠ row → t'.cells i = t.cells i) ∧ (t'.cells row).Paired ∧
      t'.cells row L = (if (t.cells row L).glyph.isTrail then (t.cells row L).halved
        else t.cells row L) ∧
      Between pen t' ((changedRuns desired changed).foldl (r.writeRun links row desired) ink) := by
  have spec := changedRuns_spec desired changed
  obtain ⟨t', reached, ran', others, prints, ends, between'⟩ :=
    prints_writeRuns (r := r) (L := L) zero ended.sized row (changedRuns desired changed)
      (fun run member => by
        obtain ⟨order, inside⟩ := spec.bounds run member
        rw [ended.length] at inside
        exact (ended.extent_spec measure order inside).2) ran between
  refine ⟨t', ran', others, prints.paired paired, ?_, between'⟩
  rw [prints.beyond paired]
  cases trail : (t.cells row L).glyph.isTrail with
  | true =>
      obtain ⟨some, dirty⟩ := struck trail
      rw [ends (ended.reaches_edge measure some dirty)]
      simp only [and_self, if_true]
  | false => simp only [Bool.false_eq_true, and_false, if_false]

theorem run_some_row (zero : links[(0 : UInt16)]? = none) (sized : Sized width desired) (row : Nat)
    (runs : List (Nat × Nat)) {t : Terminal} {ink : Ink} (ran : t₀.run width ink.out = t)
    (between : Between pen t ink) :
    ∃ t', t₀.run width (runs.foldl (r.writeRun links row desired) ink).out = t' ∧
      (∀ i, i ≠ row → t'.cells i = t.cells i) ∧
      Between pen t' (runs.foldl (r.writeRun links row desired) ink) := by
  have bounded : ∃ L, ∀ run ∈ runs, extent width desired run ≤ L := by
    induction runs with
    | nil => exact ⟨0, fun run none => absurd none List.not_mem_nil⟩
    | cons run runs ih =>
        obtain ⟨L, bound⟩ := ih
        refine ⟨extent width desired run + L, fun other member => ?_⟩
        cases List.mem_cons.mp member with
        | inl same =>
            rw [same]
            exact Nat.le_add_right _ _
        | inr later => exact Nat.le_trans (bound other later) (Nat.le_add_left _ _)
  obtain ⟨L, bound⟩ := bounded
  obtain ⟨t', -, ran', others, -, -, between'⟩ :=
    prints_writeRuns (r := r) zero sized row runs bound ran between
  exact ⟨t', ran', others, between'⟩

theorem run_each_row (width : Text → Nat) (r : Renderer) (cells : List Cell) (links : Links)
    {rows : Nat} (cols : Nat) (full : Bool) {Q : Nat → Row → Prop} (closed : t₀.link = none)
    (each : ∀ row < rows, ∀ {t : Terminal} {ink : Ink}, t₀.run width ink.out = t →
      Between t₀.pen t ink → t.cells row = t₀.cells row →
      ∃ t', t₀.run width (r.writeRow cells links cols full ink row).out = t' ∧
        (∀ i, i ≠ row → t'.cells i = t.cells i) ∧ Q row (t'.cells row) ∧
        Between t₀.pen t' (r.writeRow cells links cols full ink row))
    (k : Nat) (bound : k ≤ rows) :
    ∃ t', t₀.run width (r.inked cells links k cols full).out = t' ∧
      (∀ row < k, Q row (t'.cells row)) ∧ (∀ row, k ≤ row → t'.cells row = t₀.cells row) ∧
      Between t₀.pen t' (r.inked cells links k cols full) := by
  induction k with
  | zero => exact ⟨t₀, rfl, fun row none => (by cases none), fun row _ => rfl, rfl, closed⟩
  | succ k ih =>
      obtain ⟨t', ran, above, below, between⟩ := ih (by omega)
      obtain ⟨t'', ran', others, own, between'⟩ :=
        each k (by omega) ran between (below k (Nat.le_refl k))
      rw [Renderer.inked, List.range_succ, List.foldl_append]
      refine ⟨t'', ran', fun row before => ?_, fun row past => ?_, between'⟩
      · by_cases last : row = k
        · rw [last]
          exact own
        · rw [others row last]
          exact above row (by omega)
      · rw [others row (by omega)]
        exact below row (by omega)

end

/-- A command that touches neither the cells nor the hyperlink nor the pen. -/
def Quiet (c : Command) : Prop :=
  ∀ (width : Text → Nat) (t : Terminal), (t.exec width c).cells = t.cells ∧
    (t.exec width c).link = t.link ∧ (t.exec width c).pen = t.pen

theorem run_quiet (width : Text → Nat) {commands : List Command} (quiet : ∀ c ∈ commands, Quiet c)
    (t : Terminal) : (t.run width commands).cells = t.cells ∧
      (t.run width commands).link = t.link ∧ (t.run width commands).pen = t.pen := by
  induction commands generalizing t with
  | nil => exact ⟨rfl, rfl, rfl⟩
  | cons c commands ih =>
      rw [List.forall_mem_cons] at quiet
      obtain ⟨cells, link, pen⟩ := quiet.1 width t
      obtain ⟨cells', link', pen'⟩ := ih quiet.2 (t.exec width c)
      exact ⟨cells'.trans cells, link'.trans link, pen'.trans pen⟩

theorem quiet_setMode {n : Nat} (on : Bool) (known : n ∈ paintModes) : Quiet (.setMode n on) := by
  intro width t
  rw [Terminal.exec_setMode]
  simp only [paintModes, List.mem_cons, List.not_mem_nil, or_false] at known
  rcases known with rfl | rfl | rfl | rfl | rfl | rfl | rfl <;> exact ⟨rfl, rfl, rfl⟩

theorem quiet_setTitle (title : Text) : Quiet (.setTitle title) := fun width t => by
  rw [Terminal.exec_setTitle]
  exact ⟨rfl, rfl, rfl⟩

theorem quiet_writeModes (r : Renderer) (s : ScreenState) (full : Bool) :
    ∀ c ∈ r.writeModes s full, Quiet c := by
  intro c member
  obtain ⟨n, on, known, rfl⟩ := mode_of_writeModes r s full c member
  exact quiet_setMode on known

theorem quiet_writeTitle (r : Renderer) (s : ScreenState) (full : Bool) :
    ∀ c ∈ r.writeTitle s full, Quiet c := by
  intro c member
  rw [eq_of_mem_when member]
  exact quiet_setTitle s.title

theorem quiet_writeCursor (r : Renderer) (cursor : Cursor) (full painting : Bool) :
    ∀ c ∈ r.writeCursor cursor full painting, Quiet c := by
  intro c member
  simp only [Renderer.writeCursor, List.mem_append] at member
  rcases member with (shaped | moved) | visible
  · rw [eq_of_mem_when shaped]
    exact fun _ _ => ⟨rfl, rfl, rfl⟩
  · rw [eq_of_mem_when moved]
    exact fun _ _ => ⟨rfl, rfl, rfl⟩
  · rw [eq_of_mem_when visible]
    exact quiet_setMode _ (by decide)

/-- A pass states the modes and the title, paints the cells and states the cursor. -/
theorem paint_split (width : Text → Nat) (r : Renderer) (s : ScreenState) {full : Bool}
    (known : (r.painted.isNone || r.bufferSwapped s) = full) : ∃ rest, (∀ c ∈ rest, Quiet c) ∧
      r.paint width s = (r.writeModes s r.painted.isNone ++ (r.leaving s).writeTitle s full) ++
        ((r.leaving s).writeCells (composite width r.overlay s) s.links s.rows.toNat s.cols.toNat
          full ++ rest) := by
  subst known
  have quiet : ∀ painting, ∀ c ∈ (r.leaving s).writeCursor (r.shownCursor s)
      (r.painted.isNone || r.bufferSwapped s) painting ++
        (if r.shouldRing s then [.bell] else []), Quiet c := fun painting =>
    List.forall_mem_append.mpr ⟨quiet_writeCursor _ _ _ _, fun c member => by
      rw [eq_of_mem_when member]
      exact fun _ _ => ⟨rfl, rfl, rfl⟩⟩
  refine ⟨_, quiet (!(r.writeModes s r.painted.isNone ++ (r.leaving s).writeTitle s
    (r.painted.isNone || r.bufferSwapped s) ++ (r.leaving s).writeCells
      (composite width r.overlay s) s.links s.rows.toNat s.cols.toNat
      (r.painted.isNone || r.bufferSwapped s)).isEmpty), ?_⟩
  simp only [Renderer.paint, List.append_assoc]

theorem run_pass (width : Text → Nat) (r : Renderer) (s : ScreenState) {t : Terminal}
    (closed : t.link = none) {full : Bool}
    (known : ((r.reshape s).painted.isNone || (r.reshape s).bufferSwapped s) = full)
    {ink : Ink} (inked : ((r.reshape s).leaving s).inked (composite width r.overlay s) s.links
      s.rows.toNat s.cols.toNat full = ink) :
    ∃ t₁ : Terminal, t₁.link = none ∧ t₁.pen = t.pen ∧
      t₁.cells = (if full then Plane.erased t.pen else t.cells) ∧
      ∀ t₂, t₁.run width ink.out = t₂ → Between t₁.pen t₂ ink →
        (t.run width (r.output width s)).cells = t₂.cells ∧
          (t.run width (r.output width s)).link = none ∧
          (t.run width (r.output width s)).pen = (if ink.pen.isNone then t.pen else {}) := by
  have overlay : (r.reshape s).overlay = r.overlay := (reshape_settings r s).2.1
  -- the wrapping changes nothing that matters here
  have bare : (t.run width (r.output width s)).cells =
        (Terminal.run width { t with synchronized := true } ((r.reshape s).paint width s)).cells ∧
      (t.run width (r.output width s)).link =
        (Terminal.run width { t with synchronized := true } ((r.reshape s).paint width s)).link ∧
      (t.run width (r.output width s)).pen =
        (Terminal.run width { t with synchronized := true } ((r.reshape s).paint width s)).pen := by
    rw [Renderer.output]
    rcases @run_wrap width t ((r.reshape s).paint width s) with ⟨idle, none⟩ | wrapped
    · rw [idle, none]
      exact ⟨rfl, rfl, rfl⟩
    · rw [wrapped]
      exact ⟨rfl, rfl, rfl⟩
  have early : ∀ c ∈ (r.reshape s).writeModes s (r.reshape s).painted.isNone ++
      ((r.reshape s).leaving s).writeTitle s full, Quiet c :=
    List.forall_mem_append.mpr ⟨quiet_writeModes _ _ _, quiet_writeTitle _ _ _⟩
  obtain ⟨cells, link, pen⟩ := run_quiet width early { t with synchronized := true }
  generalize before : Terminal.run width { t with synchronized := true }
    ((r.reshape s).writeModes s (r.reshape s).painted.isNone ++
      ((r.reshape s).leaving s).writeTitle s full) = t' at cells link pen
  have cleared : ∃ t₁ : Terminal, t'.run width
        (if full then ((r.reshape s).leaving s).clearing else []) = t₁ ∧ t₁.link = none ∧
      t₁.pen = t.pen ∧ t₁.cells = (if full then Plane.erased t.pen else t.cells) := by
    cases full with
    | false => exact ⟨t', rfl, link.trans closed, pen, cells⟩
    | true =>
        refine ⟨_, rfl, ?_⟩
        simp only [if_true, Renderer.clearing]
        rw [Terminal.run_append]
        split
        · exact ⟨rfl, pen, by rw [← pen]; rfl⟩
        · exact ⟨link.trans closed, pen, by rw [← pen]; rfl⟩
  obtain ⟨t₁, ran, link₁, pen₁, cells₁⟩ := cleared
  refine ⟨t₁, link₁, pen₁, cells₁, fun t₂ inkRan between => ?_⟩
  obtain ⟨rest, quiet, split⟩ := paint_split width (r.reshape s) s known
  have painted : Terminal.run width { t with synchronized := true } ((r.reshape s).paint width s) =
      Terminal.run width { t₂ with pen := if ink.pen.isNone then t₁.pen else {} } rest := by
    rw [split, overlay, Terminal.run_append, before, writeCells_eq, Terminal.run_append,
      Terminal.run_append, ran, Terminal.run_append, inked, inkRan,
      run_reset width t₂ ink between.pen]
  obtain ⟨same, linked, penned⟩ := run_quiet width quiet
    { t₂ with pen := if ink.pen.isNone then t₁.pen else {} }
  rw [bare.1, bare.2.1, bare.2.2, painted, ← pen₁]
  exact ⟨same, linked.trans between.link, penned⟩

section
variable {κ : Type} {width : Text → Nat} {toProtoColor : κ → Color} {g : Grid κ width}
  {s : ScreenState} {row : Nat}

theorem converted_row (shows : Shows toProtoColor g s) (row : Nat) :
    Converted toProtoColor (g.strip row) (rowOf s.cells s.cols.toNat row) := by
  rw [shows.cols]
  exact (shows.cells.drop _).take _

theorem length_cells (shows : Shows toProtoColor g s) :
    s.cells.length = s.rows.toNat * s.cols.toNat := by
  rw [← shows.cells.length_eq, g.filled, shows.rows, shows.cols]

theorem laid_row (shows : Shows toProtoColor g s) (inside : row < s.rows.toNat) :
    Laid width (g.strip row) := by
  rw [shows.rows] at inside
  exact g.laid row inside

theorem columns_row (measure : Measure width) (shows : Shows toProtoColor g s)
    (inside : row < s.rows.toNat) {cell : Cell} (member : cell ∈ rowOf s.cells s.cols.toNat row)
    (plain : isCont cell = false) :
    cell.text ≠ [] ∧ (width cell.text = 1 ∨ width cell.text = 2) := by
  obtain ⟨col, found⟩ := List.mem_iff_getElem?.mp member
  rcases (converted_row shows row).at col with ⟨-, none⟩ | ⟨vte, blinking, id, place, made⟩
  · rw [none] at found
    cases found
  · rw [made] at found
    cases found
    rw [Host.isCont_convertCell] at plain
    have columns := (laid_row shows inside).columns vte (List.mem_of_getElem? place) plain
    change vte.cellText ≠ [] ∧ (width vte.cellText = 1 ∨ width vte.cellText = 2)
    refine ⟨fun empty => ?_, ?_⟩
    · rw [empty, measure.empty] at columns
      split at columns
      · cases columns
      · cases columns
    · rw [columns]
      split
      · exact Or.inr rfl
      · exact Or.inl rfl

theorem sized_row (measure : Measure width) (shows : Shows toProtoColor g s)
    (inside : row < s.rows.toNat) : Sized width (rowOf s.cells s.cols.toNat row) := by
  intro cell member plain
  obtain ⟨some, columns⟩ := columns_row measure shows inside member plain
  simp only [textOf, some, if_false]
  exact columns

theorem spaced_row (measure : Measure width) (shows : Shows toProtoColor g s)
    (inside : row < s.rows.toNat) : Spaced width (rowOf s.cells s.cols.toNat row) := by
  intro cell member plain _
  obtain ⟨-, columns⟩ := columns_row measure shows inside member plain
  omega

theorem ended_row (measure : Measure width) (shows : Shows toProtoColor g s)
    (inside : row < s.rows.toNat) (held : g.placeholder row = true) :
    Ended width (rowOf s.cells s.cols.toNat row) (s.cols.toNat - 1) := by
  have laid := laid_row shows inside
  have converted := converted_row shows row
  have ends : ((g.strip row)[s.cols.toNat - 1]?).any (·.flags.leadingWideCharSpacer) = true := by
    rw [shows.cols]
    exact held
  obtain ⟨before, whole⟩ := laid.before_placeholder ends
  refine ⟨?_, ?_, before.formed (converted.take _) whole, sized_row measure shows inside,
    fun cell member => ?_⟩
  · rw [← converted.length_eq]
    exact (laid.last _ ends).symm
  · rw [converted.contAt]
    cases found : (g.strip row)[s.cols.toNat - 1]? with
    | none =>
        rw [found] at ends
        cases ends
    | some vte =>
        rw [found, Option.any_some] at ends
        rw [Option.any_some, VteCell.isSpacer, ends, Bool.or_true]
  · cases cont : isCont cell with
    | true => simp only [columnless, cont, Bool.not_true, Bool.false_and]
    | false =>
        obtain ⟨-, columns⟩ := columns_row measure shows inside member cont
        simp only [columnless, Bool.and_eq_false_iff, decide_eq_false_iff_not]
        right
        omega

theorem formed_row (shows : Shows toProtoColor g s) (inside : row < s.rows.toNat)
    (whole : g.placeholder row = false) : Formed width (rowOf s.cells s.cols.toNat row) := by
  have laid := laid_row shows inside
  refine laid.formed (converted_row shows row) fun col => ?_
  rw [← Bool.not_eq_true]
  intro here
  have length := laid.last col here
  rw [(converted_row shows row).length_eq, length_rowOf (length_cells shows) inside,
    shows.cols] at length
  rw [Grid.placeholder, Grid.edge, show g.cols.toNat - 1 = col by omega, here] at whole
  cases whole

theorem shown_alone (measure : Measure width) (r : Renderer) (shows : Shows toProtoColor g s)
    (inside : row < s.rows.toNat) {vte : VteCell κ} {blinking : Bool} {id : UInt16}
    (found : (g.strip row)[s.cols.toNat - 1]? = some vte)
    (made : (rowOf s.cells s.cols.toNat row)[s.cols.toNat - 1]? =
      some { Host.convertCell toProtoColor blinking vte with link := id }) (plain : vte.isSpacer = false) :
    r.shown s.links width (rowOf s.cells s.cols.toNat row) (s.cols.toNat - 1) =
      ⟨.narrow vte.cellText, r.penOf { Host.convertCell toProtoColor blinking vte with link := id },
        r.linkAt s.links id⟩ := by
  have laid := laid_row shows inside
  have narrow : vte.flags.wideChar = false := by
    have length := length_rowOf (length_cells shows) inside
    rw [← (converted_row shows row).length_eq] at length
    have beyond : (g.strip row)[s.cols.toNat - 1 + 1]? = none := by
      rw [List.getElem?_eq_none_iff]
      omega
    have pair := laid.pairs (s.cols.toNat - 1)
    rw [beyond, found, Option.any_none, Option.any_some] at pair
    exact pair.symm
  obtain ⟨some, -⟩ := columns_row measure shows inside (List.mem_of_getElem? made)
    (by rw [Host.isCont_convertCell]; exact plain)
  have columns : width vte.cellText = 1 := by
    rw [laid.columns vte (List.mem_of_getElem? found) plain, narrow]
    rfl
  have one : width (Host.convertCell toProtoColor blinking vte).text ≠ 2 := by
    change width vte.cellText ≠ 2
    omega
  simp only [Renderer.shown, made, Host.isCont_convertCell, plain, Bool.false_eq_true, if_false, one, textOf,
    some]
  rfl

/-- What the last column of a line shows after a full repaint. -/
def Renderer.edgeSpot (r : Renderer) (g : Grid κ width) (s : ScreenState) (row : Nat) : Vt.Spot :=
  if g.placeholder row then .blank {}
  else r.shown s.links width (rowOf s.cells s.cols.toNat row) (s.cols.toNat - 1)

theorem edgeSpot_placeholder (r : Renderer) (held : g.placeholder row = true) :
    r.edgeSpot g s row = .blank {} := if_pos held

theorem spacer_of_edgeSpot {r : Renderer} (shows : Shows toProtoColor g s) (inside : row < s.rows.toNat)
    (trail : (r.edgeSpot g s row).glyph.isTrail = true) :
    ((g.strip row)[s.cols.toNat - 1]?).any (·.flags.wideCharSpacer) = true := by
  cases held : g.placeholder row with
  | true =>
      rw [edgeSpot_placeholder r held] at trail
      cases trail
  | false =>
      rw [Renderer.edgeSpot, held, if_neg Bool.false_ne_true,
        shown_isTrail r s.links (formed_row shows inside held), (converted_row shows row).contAt] at trail
      rw [Grid.placeholder, Grid.edge, ← shows.cols] at held
      cases found : (g.strip row)[s.cols.toNat - 1]? with
      | none =>
          rw [found] at trail
          cases trail
      | some vte =>
          rw [found, Option.any_some] at trail held
          rw [VteCell.isSpacer, held, Bool.or_false] at trail
          rwa [Option.any_some]

theorem run_full_rows (measure : Measure width) (valid : s.Valid) (r : Renderer)
    (shows : Shows toProtoColor g s) {t₀ : Terminal} (erased : t₀.cells = Plane.erased {})
    (closed : t₀.link = none) :
    ∃ t, t₀.run width (r.inked s.cells s.links s.rows.toNat s.cols.toNat true).out = t ∧
      (∀ row < s.rows.toNat, (t.cells row).Paired ∧
        t.cells row (s.cols.toNat - 1) = r.edgeSpot g s row) ∧
      Between t₀.pen t (r.inked s.cells s.links s.rows.toNat s.cols.toNat true) := by
  have zero := links_zero valid.links
  obtain ⟨t, ran, rows, -, between⟩ := run_each_row width r s.cells s.links s.cols.toNat true
    (Q := fun row painted => painted.Paired ∧ painted (s.cols.toNat - 1) = r.edgeSpot g s row)
    closed (fun row inside t ink ran between same => by
      cases held : g.placeholder row with
      | true =>
          obtain ⟨t', ran', others, paired, spot, between'⟩ := run_ended (r := r) measure zero
            (ended_row measure shows inside held) row
            (r.dirtyAt s.cells s.links s.cols.toNat true row) ran
            (by rw [same, erased]; exact ⟨rfl, fun _ => rfl⟩) between
            (fun trail => by
              rw [same, erased] at trail
              cases trail)
          refine ⟨t', ran', others, ⟨paired, ?_⟩, between'⟩
          rw [spot, same, erased, edgeSpot_placeholder r held]
          rfl
      | false =>
          have formed := formed_row shows inside held
          obtain ⟨t', ran', -, others, shown, between'⟩ := run_row (r := r) measure formed
            (spaced_row measure shows inside) zero
            (r.dirtyAt s.cells s.links s.cols.toNat true row) ran
            (by rw [same, erased]; exact ⟨rfl, fun _ => rfl⟩) between
            (by rw [same]; exact (ready_full measure zero erased row).stale)
          refine ⟨t', ran', others, ?_, between'⟩
          rw [shown]
          refine ⟨shown_paired r s.links formed, ?_⟩
          rw [Renderer.edgeSpot, held, if_neg Bool.false_ne_true])
    s.rows.toNat (Nat.le_refl _)
  exact ⟨t, ran, rows, between⟩

variable {before : Grid κ width} {s₁ : ScreenState} {toProtoColor₁ : κ → Color}

/-- Where a right half stood, its left half is painted over. -/
theorem dirty_before_edge (r r₁ : Renderer) {p : Painted}
    (painted : r.painted = some p) (shows : Shows toProtoColor g s)
    (shows₁ : Shows toProtoColor₁ before s₁) (rows : s.rows = s₁.rows) (cols : s.cols = s₁.cols)
    (cells : p.cells = s₁.cells) (inside : row < s.rows.toNat) (held : g.placeholder row = true)
    (trail : (r₁.edgeSpot before s₁ row).glyph.isTrail = true) :
    0 < s.cols.toNat - 1 ∧
      r.dirtyAt s.cells s.links s.cols.toNat false row (s.cols.toNat - 1 - 1) = true := by
  have inside₁ : row < s₁.rows.toNat := by rw [← rows]; exact inside
  have laid := laid_row shows inside
  have laid₁ := laid_row shows₁ inside₁
  have spacer : ((before.strip row)[s.cols.toNat - 1]?).any (·.flags.wideCharSpacer) = true := by
    rw [cols]
    exact spacer_of_edgeSpot shows₁ inside₁ trail
  have apart : ((g.strip row)[s.cols.toNat - 1]?).any (·.flags.wideCharSpacer) = false := by
    rw [Grid.placeholder, Grid.edge, ← shows.cols] at held
    cases found : (g.strip row)[s.cols.toNat - 1]? with
    | none => rfl
    | some vte =>
        rw [found, Option.any_some] at held
        exact laid.apart vte (List.mem_of_getElem? found) held
  generalize s.cols.toNat - 1 = L at spacer apart ⊢
  cases L with
  | zero =>
      rw [laid₁.first] at spacer
      cases spacer
  | succ k =>
      refine ⟨Nat.succ_pos k, ?_⟩
      have lead : leadAt width (rowOf s₁.cells s₁.cols.toNat row) k = true := by
        rw [(converted_row shows₁ row).leadAt laid₁, ← laid₁.pairs]
        exact spacer
      have plain : leadAt width (rowOf s.cells s.cols.toNat row) k = false := by
        rw [(converted_row shows row).leadAt laid, ← laid.pairs]
        exact apart
      have length : p.cells.length = s.cells.length := by
        rw [cells, length_cells shows₁, length_cells shows, rows, cols]
      have differ : (rowOf s.cells s.cols.toNat row)[k]? ≠ (rowOf p.cells s.cols.toNat row)[k]? := by
        intro same
        rw [leadAt, same, cells, cols, ← leadAt, lead] at plain
        cases plain
      simp only [Renderer.dirtyAt, painted, Option.bind_some, length, if_true, dirty,
        Nat.add_sub_cancel, differ, ne_eq, not_false_eq_true, decide_true, Bool.true_or]

theorem run_diff_rows (measure : Measure width) (valid : s.Valid) (r r₁ : Renderer) {p : Painted}
    (painted : r.painted = some p) (shows : Shows toProtoColor g s)
    (shows₁ : Shows toProtoColor₁ before s₁) (rows : s.rows = s₁.rows) (cols : s.cols = s₁.cols)
    (cells : p.cells = s₁.cells) {t₀ : Terminal} (closed : t₀.link = none)
    (standing : ∀ row < s.rows.toNat, (t₀.cells row).Paired ∧
      t₀.cells row (s.cols.toNat - 1) = r₁.edgeSpot before s₁ row) :
    ∃ t, t₀.run width (r.inked s.cells s.links s.rows.toNat s.cols.toNat false).out = t ∧
      (∀ row < s.rows.toNat, g.placeholder row = true →
        t.cells row (s.cols.toNat - 1) =
          if (r₁.edgeSpot before s₁ row).glyph.isTrail then (r₁.edgeSpot before s₁ row).halved
          else r₁.edgeSpot before s₁ row) ∧
      Between t₀.pen t (r.inked s.cells s.links s.rows.toNat s.cols.toNat false) := by
  have zero := links_zero valid.links
  obtain ⟨t, ran, rows, -, between⟩ := run_each_row width r s.cells s.links s.cols.toNat false
    (Q := fun row painted => g.placeholder row = true →
      painted (s.cols.toNat - 1) =
        if (r₁.edgeSpot before s₁ row).glyph.isTrail then (r₁.edgeSpot before s₁ row).halved
        else r₁.edgeSpot before s₁ row)
    closed (fun row inside t ink ran between same => by
      obtain ⟨paired, spot⟩ := standing row inside
      cases held : g.placeholder row with
      | true =>
          obtain ⟨t', ran', others, -, after, between'⟩ := run_ended (r := r) measure zero
            (ended_row measure shows inside held) row
            (r.dirtyAt s.cells s.links s.cols.toNat false row) ran (by rw [same]; exact paired) between
            (fun trail => by
              rw [same, spot] at trail
              exact dirty_before_edge r r₁ painted shows shows₁ rows cols cells inside held
                trail)
          refine ⟨t', ran', others, fun _ => ?_, between'⟩
          rw [after, same, spot]
      | false =>
          obtain ⟨t', ran', others, between'⟩ := run_some_row (r := r) zero
            (sized_row measure shows inside) row _ ran between
          exact ⟨t', ran', others, fun none => (by cases none), between'⟩)
    s.rows.toNat (Nat.le_refl _)
  exact ⟨t, ran, rows, between⟩

/-- Neither a new size nor a buffer left changes how a cell is painted. -/
theorem edgeSpot_painting (r : Renderer) (s : ScreenState) (row : Nat) :
    ((r.reshape s).leaving s).edgeSpot g s row = r.edgeSpot g s row := by
  obtain ⟨caps, -, hyperlinks⟩ := reshape_settings r s
  have same : ((r.reshape s).leaving s).caps = r.caps ∧ ((r.reshape s).leaving s).hyperlinks = r.hyperlinks := by
    rw [Renderer.leaving]
    split
    · exact ⟨caps, hyperlinks⟩
    · exact ⟨caps, hyperlinks⟩
  have pen : ∀ cell, ((r.reshape s).leaving s).penOf cell = r.penOf cell := fun cell => by
    rw [Renderer.penOf, same.1, Renderer.penOf]
  have link : ∀ links id, ((r.reshape s).leaving s).linkAt links id = r.linkAt links id := fun links id => by
    rw [Renderer.linkAt, Renderer.linksOn, same.1, same.2, Renderer.linkAt, Renderer.linksOn]
  simp only [Renderer.edgeSpot, Renderer.shown, pen, link]

theorem run_full_output (measure : Measure width) (valid : s.Valid)
    (shows : Shows toProtoColor g s) {r : Renderer} (bare : r.overlay = none)
    (full : ((r.reshape s).painted.isNone || (r.reshape s).bufferSwapped s) = true) {t : Terminal}
    (pen : t.pen = {}) (closed : t.link = none) :
    (∀ row < s.rows.toNat, ((t.run width (r.output width s)).cells row).Paired ∧
        (t.run width (r.output width s)).cells row (s.cols.toNat - 1) = r.edgeSpot g s row) ∧
      (t.run width (r.output width s)).link = none ∧ (t.run width (r.output width s)).pen = {} := by
  obtain ⟨t₁, link₁, pen₁, erased, painted⟩ := run_pass width r s closed full rfl
  rw [if_pos rfl, pen] at erased
  rw [bare] at painted
  obtain ⟨t₂, ran, rows, between⟩ :=
    run_full_rows measure valid ((r.reshape s).leaving s) shows erased link₁
  obtain ⟨cells, link, after⟩ := painted t₂ ran between
  rw [cells, link, after, pen, ite_self]
  refine ⟨fun row inside => ?_, rfl, rfl⟩
  rw [← edgeSpot_painting r s row]
  exact rows row inside

/-- The changes are painted: a placeholder keeps what its column showed. -/
theorem run_diff_output (measure : Measure width) (valid : s.Valid) {r r₁ : Renderer} {p : Painted}
    (bare : r.overlay = none) (painted : r.painted = some p)
    (size : r.size = { cols := s.cols, rows := s.rows }) (same : p.modes.altScreen = s.modes.altScreen)
    (shows : Shows toProtoColor g s) (shows₁ : Shows toProtoColor₁ before s₁)
    (rows : s.rows = s₁.rows) (cols : s.cols = s₁.cols) (cells : p.cells = s₁.cells) {t : Terminal}
    (closed : t.link = none)
    (standing : ∀ row < s.rows.toNat, (t.cells row).Paired ∧
      t.cells row (s.cols.toNat - 1) = r₁.edgeSpot before s₁ row) :
    ∀ row < s.rows.toNat, g.placeholder row = true →
      (t.run width (r.output width s)).cells row (s.cols.toNat - 1) =
        if (r₁.edgeSpot before s₁ row).glyph.isTrail then (r₁.edgeSpot before s₁ row).halved
        else r₁.edgeSpot before s₁ row := by
  have kept : r.reshape s = r := by
    rw [Renderer.reshape, if_neg]
    rw [size]
    simp only [ne_eq, not_true_eq_false, or_self, not_false_eq_true]
  have swapped : r.bufferSwapped s = false := by
    simp only [Renderer.bufferSwapped, painted, Option.any_some, same, ne_eq, not_true_eq_false,
      decide_false]
  have leaving : r.leaving s = r := by
    rw [Renderer.leaving, swapped, if_neg Bool.false_ne_true]
  have diff : ((r.reshape s).painted.isNone || (r.reshape s).bufferSwapped s) = false := by
    rw [kept, painted, swapped]
    rfl
  obtain ⟨t₁, link₁, -, cells₁, after⟩ := run_pass width r s closed diff rfl
  rw [if_neg Bool.false_ne_true] at cells₁
  rw [bare, kept, leaving] at after
  obtain ⟨t₂, ran, shown, between⟩ := run_diff_rows measure valid r r₁ painted shows shows₁ rows cols
    cells link₁ (by rw [cells₁]; exact standing)
  rw [(after t₂ ran between).1]
  exact shown

/-- The last column of a line is a blank, or a right half that leaves one: in the default colours,
without attribute or hyperlink. -/
def clearEdge (r : Renderer) (g : Grid κ width) (s : ScreenState) (row : Nat) : Bool :=
  (g.edge row).all fun vte =>
    if vte.flags.leadingWideCharSpacer then true
    else if vte.flags.wideCharSpacer then
      ((rowOf s.cells s.cols.toNat row)[s.cols.toNat - 2]?).all (r.unmarked s.links)
    else decide (vte.cellText = [' ']) &&
      ((rowOf s.cells s.cols.toNat row)[s.cols.toNat - 1]?).all (r.unmarked s.links)

/-- What is left at the last column when the glyph before it is painted. -/
theorem clearEdge_iff (measure : Measure width) (r : Renderer) (shows : Shows toProtoColor g s)
    (inside : row < s.rows.toNat) :
    (if (r.edgeSpot g s row).glyph.isTrail then (r.edgeSpot g s row).halved else r.edgeSpot g s row) =
        Vt.Spot.blank {} ↔ clearEdge r g s row = true := by
  have laid := laid_row shows inside
  have edge : g.edge row = (g.strip row)[s.cols.toNat - 1]? := by rw [Grid.edge, shows.cols]
  cases held : g.placeholder row with
  | true =>
      rw [edgeSpot_placeholder r held, clearEdge]
      rw [Grid.placeholder] at held
      cases found : g.edge row with
      | none =>
          rw [found] at held
          cases held
      | some vte =>
          rw [found, Option.any_some] at held
          rw [Option.all_some, held, if_pos rfl]
          exact iff_of_true rfl rfl
  | false =>
      have formed := formed_row shows inside held
      rw [Renderer.edgeSpot, held, if_neg Bool.false_ne_true, clearEdge, edge]
      rcases (converted_row shows row).at (s.cols.toNat - 1) with
        ⟨none, none'⟩ | ⟨vte, blinking, id, found, made⟩
      · rw [none, Option.all_none, Renderer.shown, none']
        exact iff_of_true rfl rfl
      · have leading : vte.flags.leadingWideCharSpacer = false := by
          rw [Grid.placeholder, edge, found, Option.any_some] at held
          exact held
        rw [found, Option.all_some, leading, if_neg Bool.false_ne_true]
        cases spacer : vte.flags.wideCharSpacer with
        | true =>
            have cont : contAt (rowOf s.cells s.cols.toNat row) (s.cols.toNat - 1) = true := by
              rw [(converted_row shows row).contAt, found, Option.any_some, VteCell.isSpacer, spacer,
                Bool.true_or]
            obtain ⟨k, lead, place, before, -⟩ := formed.lead_of_cont cont
            have shown : r.shown s.links width (rowOf s.cells s.cols.toNat row) (k + 1) =
                ⟨.trail, r.penOf lead, r.linkAt s.links lead.link⟩ :=
              shown_trail r s.links before (by rw [← place]; exact cont)
            rw [place, shown, show s.cols.toNat - 2 = k by omega, before, Option.all_some, if_pos rfl]
            change (⟨.narrow [' '], r.penOf lead, r.linkAt s.links lead.link⟩ : Vt.Spot) = ⟨.narrow [' '], {}, none⟩ ↔ _
            rw [unmarked_iff]
            simp only [Vt.Spot.mk.injEq, true_and]
        | false =>
            have plain : vte.isSpacer = false := by rw [VteCell.isSpacer, spacer, leading, Bool.or_self]
            have shown : r.shown s.links width (rowOf s.cells s.cols.toNat row) (s.cols.toNat - 1) =
                ⟨.narrow vte.cellText, r.penOf _, r.linkAt s.links id⟩ := shown_alone measure r shows inside found made plain
            rw [shown, if_neg Bool.false_ne_true, made, Option.all_some, Bool.and_eq_true, unmarked_iff,
              decide_eq_true_eq]
            change (⟨.narrow vte.cellText, r.penOf _, r.linkAt s.links id⟩ : Vt.Spot) = ⟨.narrow [' '], {}, none⟩ ↔ _
            simp only [Vt.Spot.mk.injEq, Vt.Glyph.narrow.injEq]

variable {after : Grid κ width} {s₂ : ScreenState}

end

/-- The columns of a text of Latin letters and ideographs. -/
def ideographWidth (text : Text) : Nat :=
  (text.map fun c => if 0x1100 ≤ c.toNat then 2 else 1).sum

theorem ideographWidth_measure : Measure ideographWidth := ⟨rfl, rfl⟩

namespace Wrapped

def letter (c : Char) : VteCell Unit := ⟨c, [], (), (), {}⟩

def wide (c : Char) : VteCell Unit := ⟨c, [], (), (), { wideChar := true }⟩

def spacer : VteCell Unit := ⟨' ', [], (), (), { wideCharSpacer := true }⟩

def leading : VteCell Unit := ⟨' ', [], (), (), { leadingWideCharSpacer := true }⟩

theorem laid_two {a b : VteCell Unit}
    (flags : a.isSpacer = false ∧ b.flags.wideCharSpacer = a.flags.wideChar ∧
      b.flags.wideChar = false ∧
      (b.flags.leadingWideCharSpacer = true → b.flags.wideCharSpacer = false))
    (left : ideographWidth a.cellText = if a.flags.wideChar then 2 else 1)
    (right : b.isSpacer = false → ideographWidth b.cellText = 1) :
    Laid ideographWidth [a, b] := by
  obtain ⟨plain, pair, narrow, apart⟩ := flags
  have alone : a.flags.wideCharSpacer = false ∧ a.flags.leadingWideCharSpacer = false :=
    Bool.or_eq_false_iff.mp plain
  refine ⟨alone.1, fun col => ?_, fun col here => ?_, ?_, ?_, ?_⟩
  · match col with
    | 0 => exact pair
    | 1 => exact narrow.symm
    | col + 2 => rfl
  · match col with
    | 0 =>
        change a.flags.leadingWideCharSpacer = true at here
        rw [alone.2] at here
        cases here
    | 1 => rfl
    | col + 2 => cases here
  · simp only [List.forall_mem_cons, List.not_mem_nil, false_implies, implies_true, and_true]
    exact ⟨fun _ => alone.1, apart⟩
  · simp only [List.forall_mem_cons, List.not_mem_nil, false_implies, implies_true, and_true]
    refine ⟨fun some => ?_, fun _ => narrow⟩
    rw [plain] at some
    cases some
  · simp only [List.forall_mem_cons, List.not_mem_nil, false_implies, implies_true, and_true]
    exact ⟨fun _ => left, fun own => by rw [right own, narrow]; rfl⟩

/-- Two lines of two cells. -/
def square (a b c d : VteCell Unit) (first : Laid ideographWidth [a, b])
    (second : Laid ideographWidth [c, d]) : Grid Unit ideographWidth where
  rows := 2
  cols := 2
  cells := [a, b, c, d]
  filled := rfl
  laid := fun row inside => by
    match row with
    | 0 => exact first
    | 1 => exact second
    | row + 2 =>
        change row + 2 < 2 at inside
        omega

def letters (b : Char) (plain : ideographWidth (letter b).cellText = 1) : Grid Unit ideographWidth :=
  square (letter 'a') (letter b) (letter 'c') (letter 'd')
    (laid_two ⟨rfl, rfl, rfl, fun no => (by cases no)⟩ (by decide +kernel) fun _ => plain)
    (laid_two (by decide) (by decide +kernel) fun _ => by decide +kernel)

/-- A letter, and an ideograph that did not fit behind it. -/
def broken : Grid Unit ideographWidth :=
  square (letter 'a') leading (wide (Char.ofNat 0x4e16)) spacer
    (laid_two (by decide) (by decide +kernel) fun own => by cases own)
    (laid_two (by decide) (by decide +kernel) fun own => by cases own)

def screenOf (g : Grid Unit ideographWidth) : ScreenState :=
  { ScreenState.blankState g.rows g.cols with
    cells := g.cells.map (Host.convertCell (fun _ => .default) false) }

theorem shows_screenOf (g : Grid Unit ideographWidth) :
    Shows (fun _ => .default) g (screenOf g) :=
  ⟨rfl, rfl, List.forall₂_map_right_iff.mpr (List.forall₂_same.mpr fun _ _ => ⟨false, 0, rfl⟩)⟩

def fresh : Renderer := Renderer.new ⟨2, 2⟩ Display.plainCaps

theorem letter_b_plain : ideographWidth (letter 'b').cellText = 1 := by decide +kernel

end Wrapped
end Oxutrm.Paint
