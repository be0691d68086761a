import Oxutrm.Paint.Passes
import Oxutrm.Lib.Transition

/-!
Painting the difference is painting the whole. Along every run the terminal shows
what the renderer believes it shows, and a pass that starts from there ends where a
full repaint on a fresh terminal ends.
-/
namespace Oxutrm.Paint
open Proto
open Transition
open Vt (Terminal Row Plane Command)

section
variable {width : Text → Nat}

theorem repairCell_invariant {P : List Cell → Prop} {cols base c : Nat} {cells : List Cell}
    (repair : ∀ cells i cell, P cells → cell ∈ cells →
      P (cells.set i { cell with text := [' '], attrs := 0 })) (start : P cells) :
    P (repairCell width cols base cells c) := by
  cases found : cells[base + c]? with
  | none => simpa only [repairCell, found] using start
  | some cell =>
      simp only [repairCell, found]
      generalize (if isCont cell = true then _ else _ : Bool) = broken
      cases broken with
      | true => exact repair cells _ cell start (List.mem_of_getElem? found)
      | false => exact start

/-- What holds of the screen and is kept by stamping and by repairing a cell holds of
the composited screen. -/
theorem composite_invariant {P : List Cell → Prop} {s : ScreenState} (overlay : Option Overlay)
    (stamp : ∀ o, overlay = some o → ∀ cells i cell, P cells → cell ∈ o.cells →
      P (cells.set i { cell with link := 0 }))
    (repair : ∀ cells i cell, P cells → cell ∈ cells →
      P (cells.set i { cell with text := [' '], attrs := 0 })) (start : P s.cells) :
    P (composite width overlay s) := by
  cases overlay with
  | none => exact start
  | some o =>
      refine List.foldlRecOn _ _ start fun cells kept r _ => ?_
      refine List.foldlRecOn _ _ ?_ fun cells kept c _ => repairCell_invariant repair kept
      refine List.foldlRecOn _ _ kept fun cells kept c _ => ?_
      simp only [stampCell]
      split
      · exact kept
      · next cell found => exact stamp o rfl _ _ cell kept (List.mem_of_getElem? found)

theorem length_composite (overlay : Option Overlay) (s : ScreenState) :
    (composite width overlay s).length = s.cells.length :=
  composite_invariant (P := fun cells => cells.length = s.cells.length) overlay
    (fun _ _ _ _ _ kept _ => by rw [List.length_set]; exact kept)
    (fun _ _ _ kept _ => by rw [List.length_set]; exact kept) rfl

end

/-- Ids are never zero in a table that passes its checks. -/
theorem links_zero {links : Links} (checked : checkLinks links = .ok ()) :
    links[(0 : UInt16)]? = none := by
  simp only [checkLinks, checked_seq_ok, checkEach_ok, refuse_ok] at checked
  cases found : links[(0 : UInt16)]? with
  | none => rfl
  | some uri =>
      have member := Std.ExtTreeMap.mem_toList_iff_getElem?_eq_some.mpr found
      exact absurd rfl (checked.2 _ member).1

section
variable {width : Text → Nat} {r : Renderer} {cells : List Cell} {links : Links}
  {cols : Nat} {t : Terminal}

theorem shown_blank (measure : Measure width) (zero : links[(0 : UInt16)]? = none)
    {desired : List Cell} {c : Nat} (blank : desired[c]? = some Cell.blank) :
    r.shown links width desired c = .blank {} := by
  have narrow : width Cell.blank.text ≠ 2 := by
    rw [show Cell.blank.text = [' '] from rfl, measure.space]
    decide
  have plain : isCont Cell.blank = false := by decide
  have link : r.linkAt links Cell.blank.link = none := linkAt_zero zero
  simp only [Renderer.shown, blank, plain, Bool.false_eq_true, if_false, narrow, Renderer.penOf,
    sgrFor_blank, link]
  rfl

theorem dirty_full (desired : List Cell) (previous : Option (List Cell)) (relinked : Nat → Bool)
    (col : Nat) :
    dirty desired previous true relinked col = decide (desired[col]? ≠ some Cell.blank) := by
  cases previous with
  | none => rfl
  | some prev => rfl

theorem ready_full (measure : Measure width) (zero : links[(0 : UInt16)]? = none)
    (erased : t.cells = Plane.erased {}) (row : Nat) :
    Ready width r cells links cols true t row := by
  refine ⟨⟨by rw [erased]; rfl, fun c => by rw [erased]; rfl⟩, fun c => ?_⟩
  cases found : (rowOf cells cols row)[c]? with
  | none =>
      left
      rw [erased]
      simp only [Renderer.shown, found]
      rfl
  | some cell =>
      by_cases blank : cell = Cell.blank
      · left
        rw [blank] at found
        rw [shown_blank measure zero found, erased]
        rfl
      · right
        refine ⟨(List.getElem?_eq_some_iff.mp found).1, Or.inl ?_⟩
        simp only [Renderer.dirtyAt, dirty_full, found, Option.some.injEq, ne_eq, blank,
          not_false_eq_true, decide_true]

theorem linkAt_unchanged {before : Links} (zero : links[(0 : UInt16)]? = none)
    (zero' : before[(0 : UInt16)]? = none) {id : UInt16}
    (kept : r.linksOn = true → id ≠ 0 → before[id]? = links[id]?) :
    r.linkAt before id = r.linkAt links id := by
  by_cases plain : id = 0
  · rw [plain, linkAt_zero zero, linkAt_zero zero']
  · by_cases on : r.linksOn = true
    · simp only [Renderer.linkAt, paintable, kept on plain]
    · simp only [Renderer.linkAt, on, Bool.false_eq_true, if_false]

variable {p : Painted}

/-- A column that is not dirty holds the cell it held, with the link it had. -/
theorem clean_cell (painted : r.painted = some p) (length : p.cells.length = cells.length)
    {row c : Nat} (clean : r.dirtyAt cells links cols false row c = false) :
    (rowOf cells cols row)[c]? = (rowOf p.cells cols row)[c]? ∧
      ∀ cell, (rowOf cells cols row)[c]? = some cell → r.linksOn = true → cell.link ≠ 0 →
        p.links[cell.link]? = links[cell.link]? := by
  simp only [Renderer.dirtyAt, painted, Option.bind_some, length, if_true, dirty,
    Bool.or_eq_false_iff, decide_eq_false_iff_not, ne_eq, not_not] at clean
  refine ⟨clean.1, fun cell found on named => ?_⟩
  simpa [Renderer.relinked, found, on, named, painted] using clean.2

theorem ready_known (painted : r.painted = some p) (length : p.cells.length = cells.length)
    (zero : links[(0 : UInt16)]? = none) (zero' : p.links[(0 : UInt16)]? = none) {row : Nat}
    (formed' : Formed width (rowOf p.cells cols row))
    (shows : t.cells row = r.shown p.links width (rowOf p.cells cols row)) :
    Ready width r cells links cols false t row := by
  refine ⟨by rw [shows]; exact shown_paired r p.links formed', fun c => ?_⟩
  have same : ∀ {col : Nat} {cell : Cell}, r.dirtyAt cells links cols false row col = false →
      (rowOf cells cols row)[col]? = some cell →
      r.linkAt p.links cell.link = r.linkAt links cell.link := fun clean found =>
    linkAt_unchanged zero zero' fun on named => (clean_cell painted length clean).2 _ found on named
  have short : (rowOf cells cols row).length = (rowOf p.cells cols row).length := by
    simp only [rowOf, List.length_take, List.length_drop, length]
  cases found : (rowOf cells cols row)[c]? with
  | none =>
      have absent : (rowOf p.cells cols row)[c]? = none := by
        rw [List.getElem?_eq_none_iff, ← short, ← List.getElem?_eq_none_iff]
        exact found
      left
      rw [shows]
      simp only [Renderer.shown, found, absent]
  | some cell =>
      have inside := (List.getElem?_eq_some_iff.mp found).1
      cases changed : r.dirtyAt cells links cols false row c with
      | true => exact Or.inr ⟨inside, Or.inl rfl⟩
      | false =>
          have before := (clean_cell painted length changed).1
          rw [found] at before
          cases cont : isCont cell with
          | false =>
              left
              rw [shows]
              simp only [Renderer.shown, found, ← before, cont, Bool.false_eq_true, if_false,
                same changed found]
          | true =>
              have right : contAt (rowOf p.cells cols row) c = true := by
                simp only [contAt, ← before, Option.any_some, cont]
              have here : contAt (rowOf cells cols row) c = true := by
                simp only [contAt, found, Option.any_some, cont]
              obtain ⟨j, lead, rfl, place, -⟩ := formed'.lead_of_cont right
              cases moved : r.dirtyAt cells links cols false row j with
              | true => exact Or.inr ⟨inside, Or.inr ⟨j, rfl, here, moved⟩⟩
              | false =>
                  have now := (clean_cell painted length moved).1
                  rw [place] at now
                  left
                  rw [shows, shown_trail r p.links place right, shown_trail r links now here,
                    same moved now]

end

/-- What is compared: the cells, the cursor and the modes of the input. -/
structure View where
  cells : Plane
  row : Nat
  col : Nat
  visible : Bool
  shape : Nat
  paste : Bool
  mouse : Vt.Mouse

def view (t : Terminal) : View := ⟨t.cells, t.row, t.col, t.visible, t.shape, t.paste, t.mouse⟩

def Renderer.target (r : Renderer) (width : Text → Nat) (s : ScreenState) : View where
  cells := r.picture s.links width (composite width r.overlay s) s.rows.toNat s.cols.toNat
  row := (r.shownCursor s).row.toNat
  col := (r.shownCursor s).col.toNat
  visible := (r.shownCursor s).visible
  shape := Renderer.shapeCode (r.shownCursor s).shape
  paste := r.pasteOf s.modes
  mouse := r.mouseOf s.modes.mouse

/-- The terminal shows what was painted. -/
structure Known (width : Text → Nat) (r : Renderer) (t : Terminal) (p : Painted) : Prop where
  cells : t.cells =
    r.picture p.links width p.cells r.size.rows.toNat r.size.cols.toNat
  length : p.cells.length = r.size.rows.toNat * r.size.cols.toNat
  formed : ∀ row < r.size.rows.toNat, Formed width (rowOf p.cells r.size.cols.toNat row)
  zero : p.links[(0 : UInt16)]? = none
  row : t.row = p.cursor.row.toNat
  col : t.col = p.cursor.col.toNat
  visible : t.visible = p.cursor.visible
  shape : t.shape = Renderer.shapeCode p.cursor.shape
  paste : t.paste = r.pasteOf p.modes
  mouse : t.mouse = r.mouseOf p.modes.mouse

/-- The terminal between two passes. -/
structure Faithful (width : Text → Nat) (r : Renderer) (t : Terminal) : Prop where
  pen : t.pen = {}
  link : t.link = none
  bare : r.caps.bracketedPaste = false → t.paste = false
  plain : r.caps.mouseSgr = false → t.mouse.sgr = false
  known : ∀ p, r.painted = some p → Known width r t p

/-- Every row of the composited screen is well formed. -/
def WellFormed (width : Text → Nat) (r : Renderer) (s : ScreenState) : Prop :=
  ∀ row < s.rows.toNat, Formed width (rowOf (composite width r.overlay s) s.cols.toNat row)

/-- No painted text of the composited screen has no columns. -/
def Columned (width : Text → Nat) (r : Renderer) (s : ScreenState) : Prop :=
  ∀ row < s.rows.toNat, Spaced width (rowOf (composite width r.overlay s) s.cols.toNat row)

section
variable {width : Text → Nat} {r : Renderer} {t : Terminal} {s : ScreenState}

theorem run_writeCells_full (measure : Measure width) {cells : List Cell} {links : Links}
    {rows cols : Nat} (zero : links[(0 : UInt16)]? = none)
    (formed : ∀ row < rows, Formed width (rowOf cells cols row))
    (spaced : ∀ row < rows, Spaced width (rowOf cells cols row)) (pen : t.pen = {})
    (link : t.link = none) :
    ∃ t', t.run width (r.writeCells cells links rows cols true) = t' ∧ t'.settings = t.settings ∧
      t'.cells = r.picture links width cells rows cols ∧ t'.pen = {} ∧ t'.link = none := by
  have clear : t.run width r.clearing =
      { t with row := 0, col := 0, cells := Plane.erased {} } := by
    rw [Renderer.clearing, Terminal.run_append]
    refine (congrArg (Terminal.run width · _)
      (run_unless width t _ (fun _ => ?_) fun _ => rfl)).trans ?_
    · rw [Terminal.run_cons, Terminal.run_nil, Terminal.exec_closeLink, ← link]
    · simp only [Terminal.run_cons, Terminal.run_nil, Terminal.exec_home, Terminal.exec_eraseAll,
        pen]
  rw [writeCells_eq, if_pos rfl, Terminal.run_append, clear]
  exact run_paint_rows measure zero formed spaced link pen
    (fun row _ => ready_full measure zero rfl row) (fun _ _ => rfl)

theorem run_writeCells_known (measure : Measure width) (faithful : Faithful width r t)
    {p : Painted} (painted : r.painted = some p) {cells : List Cell} {links : Links}
    (length : cells.length = r.size.rows.toNat * r.size.cols.toNat)
    (zero : links[(0 : UInt16)]? = none)
    (formed : ∀ row < r.size.rows.toNat, Formed width (rowOf cells r.size.cols.toNat row))
    (spaced : ∀ row < r.size.rows.toNat, Spaced width (rowOf cells r.size.cols.toNat row))
    (t₁ : Terminal) (same : t₁.cells = t.cells) (pen : t₁.pen = {}) (link : t₁.link = none) :
    ∃ t', t₁.run width
        (r.writeCells cells links r.size.rows.toNat r.size.cols.toNat false) = t' ∧
      t'.settings = t₁.settings ∧
      t'.cells = r.picture links width cells r.size.rows.toNat r.size.cols.toNat ∧ t'.pen = {} ∧
      t'.link = none := by
  have known := faithful.known p painted
  rw [writeCells_eq, if_neg Bool.false_ne_true, List.nil_append]
  refine run_paint_rows measure zero formed spaced link pen (fun row inside => ?_)
    (fun row outside => ?_)
  · refine ready_known painted (known.length.trans length.symm) zero known.zero
      (known.formed row inside) ?_
    rw [same, known.cells]
    simp only [Renderer.picture, inside, if_true]
  · rw [same, known.cells]
    simp only [Renderer.picture, Nat.not_lt.mpr outside, if_false]

theorem leaving_picture (r : Renderer) (s : ScreenState) (links : Links) (cells : List Cell)
    (rows cols : Nat) :
    (r.leaving s).picture links width cells rows cols = r.picture links width cells rows cols := by
  simp only [Renderer.leaving]
  split
  · rfl
  · rfl

/-- A pass that is not a full repaint diffs against what was painted. -/
theorem leaving_of_partial (diff : (r.painted.isNone || r.bufferSwapped s) = false) :
    r.leaving s = r ∧ ∃ p, r.painted = some p := by
  rw [Bool.or_eq_false_iff] at diff
  refine ⟨by simp only [Renderer.leaving, diff.2, Bool.false_eq_true, if_false], ?_⟩
  cases painted : r.painted with
  | none =>
      rw [painted] at diff
      cases diff.1
  | some p => exact ⟨p, rfl⟩

/-- The cells of a pass, whichever way they are painted. -/
theorem run_writeCells (measure : Measure width) (faithful : Faithful width r t) (valid : s.Valid)
    (shape : r.size = { cols := s.cols, rows := s.rows }) (formed : WellFormed width r s)
    (spaced : Columned width r s) (t₁ : Terminal) (same : t₁.cells = t.cells)
    (pen : t₁.pen = {}) (link : t₁.link = none) :
    ∃ t', t₁.run width ((r.leaving s).writeCells (composite width r.overlay s) s.links
        s.rows.toNat s.cols.toNat (r.painted.isNone || r.bufferSwapped s)) = t' ∧
      t'.settings = t₁.settings ∧
      t'.cells = r.picture s.links width (composite width r.overlay s) s.rows.toNat
        s.cols.toNat ∧ t'.pen = {} ∧ t'.link = none := by
  have zero := links_zero valid.links
  cases full : r.painted.isNone || r.bufferSwapped s with
  | true =>
      rw [← leaving_picture r s]
      exact run_writeCells_full measure zero formed spaced pen link
  | false =>
      obtain ⟨own, p, painted⟩ := leaving_of_partial full
      have rows : r.size.rows = s.rows := by rw [shape]
      have cols : r.size.cols = s.cols := by rw [shape]
      have length : (composite width r.overlay s).length =
          r.size.rows.toNat * r.size.cols.toNat := by
        rw [length_composite, rows, cols]
        exact valid.length
      have formed : ∀ row < r.size.rows.toNat,
          Formed width (rowOf (composite width r.overlay s) r.size.cols.toNat row) := by
        rw [rows, cols]
        exact formed
      have spaced : ∀ row < r.size.rows.toNat,
          Spaced width (rowOf (composite width r.overlay s) r.size.cols.toNat row) := by
        rw [rows, cols]
        exact spaced
      rw [own, ← rows, ← cols]
      exact run_writeCells_known measure faithful painted length zero formed spaced t₁ same pen link

theorem run_paint (measure : Measure width) (faithful : Faithful width r t) (valid : s.Valid)
    (shape : r.size = { cols := s.cols, rows := s.rows }) (formed : WellFormed width r s)
    (spaced : Columned width r s) :
    ∃ t', t.run width (r.paint width s) = t' ∧ view t' = r.target width s ∧ t'.pen = {} ∧
      t'.link = none := by
  have modes := run_writeModes width t s faithful.bare faithful.plain fun p painted =>
    ⟨(faithful.known p painted).paste, (faithful.known p painted).mouse⟩
  obtain ⟨title, titled⟩ := run_writeTitle width (r := r.leaving s)
    { t with paste := r.pasteOf s.modes, mouse := r.mouseOf s.modes.mouse } s
    (r.painted.isNone || r.bufferSwapped s)
  obtain ⟨t', drawn, settings, cells, pen, link⟩ := run_writeCells measure faithful valid shape
    formed spaced
    { t with paste := r.pasteOf s.modes, mouse := r.mouseOf s.modes.mouse, title := title }
    rfl faithful.pen faithful.link
  generalize before_eq : r.writeModes s r.painted.isNone ++
    (r.leaving s).writeTitle s (r.painted.isNone || r.bufferSwapped s) ++
    (r.leaving s).writeCells (composite width r.overlay s) s.links s.rows.toNat s.cols.toNat
      (r.painted.isNone || r.bufferSwapped s) = before at *
  have ran : t.run width before = t' := by
    rw [← before_eq, Terminal.run_append, Terminal.run_append, modes, titled]
    exact drawn
  have cursor := run_writeCursor width (r := r.leaving s) t' (r.shownCursor s)
    (r.painted.isNone || r.bufferSwapped s) (!before.isEmpty) fun diff => by
      obtain ⟨own, p, painted⟩ := leaving_of_partial diff
      have known := faithful.known p painted
      refine ⟨p, by rw [own]; exact painted, ?_, ?_, fun quiet => ?_⟩
      · exact (congrArg Vt.Settings.visible settings).trans known.visible
      · exact (congrArg Vt.Settings.shape settings).trans known.shape
      · have none : before = [] := by simpa using quiet
        rw [none, Terminal.run_nil] at ran
        rw [← ran]
        exact ⟨known.row, known.col⟩
  have ring : ∀ t : Terminal, t.run width (if r.shouldRing s then [.bell] else []) = t := fun t =>
    run_unless width t _ (fun _ => rfl) fun _ => rfl
  refine ⟨_, rfl, ?_, ?_, ?_⟩
  all_goals
    simp only [Renderer.paint, before_eq]
    rw [Terminal.run_append, Terminal.run_append, ran, cursor, ring]
  · have paste : t'.paste = r.pasteOf s.modes := congrArg Vt.Settings.paste settings
    have mouse : t'.mouse = r.mouseOf s.modes.mouse := congrArg Vt.Settings.mouse settings
    simp only [view, Renderer.target, cells, paste, mouse]
  · exact pen
  · exact link

theorem run_wrap (t : Terminal) (out : List Command) :
    t.run width (Renderer.wrap out) = t ∧ out = [] ∨
      t.run width (Renderer.wrap out) =
        { { t with synchronized := true }.run width out with synchronized := false } := by
  cases out with
  | nil => exact Or.inl ⟨rfl, rfl⟩
  | cons c cs =>
      right
      simp only [Renderer.wrap, List.isEmpty_cons, Bool.false_eq_true, if_false]
      rw [Terminal.run_append, Terminal.run_append]
      rfl

theorem Faithful.synchronized (faithful : Faithful width r t) (on : Bool) :
    Faithful width r { t with synchronized := on } :=
  ⟨faithful.pen, faithful.link, faithful.bare, faithful.plain, fun p painted =>
    { faithful.known p painted with }⟩

theorem Faithful.reshape (faithful : Faithful width r t) (s : ScreenState) :
    Faithful width (r.reshape s) t := by
  simp only [Renderer.reshape]
  split
  · exact ⟨faithful.pen, faithful.link, faithful.bare, faithful.plain,
      fun p none => (by cases none)⟩
  · exact faithful

theorem reshape_size (r : Renderer) (s : ScreenState) :
    (r.reshape s).size = { cols := s.cols, rows := s.rows } := by
  simp only [Renderer.reshape]
  split
  · rfl
  · next same =>
      rw [not_or, ne_eq, ne_eq, not_not, not_not] at same
      rw [same.1, same.2]

theorem picture_congr {r' : Renderer} (caps : r'.caps = r.caps)
    (hyperlinks : r'.hyperlinks = r.hyperlinks) {links : Links} {cells : List Cell}
    {rows cols : Nat} :
    r'.picture links width cells rows cols = r.picture links width cells rows cols := by
  obtain ⟨size, caps', painted, overlay', hyperlinks', may⟩ := r'
  cases caps
  cases hyperlinks
  rfl

/-- What a screen is to look like does not depend on what is painted. -/
theorem target_congr {r' : Renderer} (caps : r'.caps = r.caps) (overlay : r'.overlay = r.overlay)
    (hyperlinks : r'.hyperlinks = r.hyperlinks) : r'.target width s = r.target width s := by
  obtain ⟨size, caps', painted, overlay', hyperlinks', may⟩ := r'
  cases caps
  cases overlay
  cases hyperlinks
  rfl

theorem reshape_settings (r : Renderer) (s : ScreenState) :
    (r.reshape s).caps = r.caps ∧ (r.reshape s).overlay = r.overlay ∧
      (r.reshape s).hyperlinks = r.hyperlinks := by
  simp only [Renderer.reshape]
  split
  · exact ⟨rfl, rfl, rfl⟩
  · exact ⟨rfl, rfl, rfl⟩

theorem WellFormed.congr {r' : Renderer} (overlay : r'.overlay = r.overlay)
    (formed : WellFormed width r s) : WellFormed width r' s := by
  rw [WellFormed, overlay]
  exact formed

theorem Columned.congr {r' : Renderer} (overlay : r'.overlay = r.overlay)
    (spaced : Columned width r s) : Columned width r' s := by
  rw [Columned, overlay]
  exact spaced

/-- A completed render shows the screen, and leaves nothing else behind. -/
theorem run_output (measure : Measure width) (faithful : Faithful width r t) (valid : s.Valid)
    (formed : WellFormed width r s) (spaced : Columned width r s) :
    ∃ t', t.run width (r.output width s) = t' ∧ view t' = r.target width s ∧ t'.pen = {} ∧
      t'.link = none := by
  obtain ⟨caps, overlay, hyperlinks⟩ := reshape_settings r s
  have painted : ∀ t : Terminal, Faithful width (r.reshape s) t →
      ∃ t', t.run width ((r.reshape s).paint width s) = t' ∧ view t' = r.target width s ∧
        t'.pen = {} ∧ t'.link = none := by
    intro t faithful
    rw [← target_congr caps overlay hyperlinks]
    exact run_paint measure faithful valid (reshape_size r s) (formed.congr overlay)
      (spaced.congr overlay)
  rcases run_wrap t ((r.reshape s).paint width s) with ⟨quiet, none⟩ | wrapped
  · have shown := painted t (faithful.reshape s)
    rw [none, Terminal.run_nil] at shown
    rw [Renderer.output, quiet]
    exact shown
  · obtain ⟨t', ran, looks, pen, link⟩ :=
      painted _ ((faithful.synchronized true).reshape s)
    rw [Renderer.output, wrapped, ran]
    exact ⟨_, rfl, looks, pen, link⟩

theorem rendered_settings (width : Text → Nat) (r : Renderer) (s : ScreenState) :
    (r.rendered width s).caps = r.caps ∧ (r.rendered width s).overlay = r.overlay ∧
      (r.rendered width s).hyperlinks = r.hyperlinks ∧
      (r.rendered width s).size = { cols := s.cols, rows := s.rows } := by
  obtain ⟨caps, overlay, hyperlinks⟩ := reshape_settings r s
  have leaving : ∀ r : Renderer, (r.leaving s).caps = r.caps ∧ (r.leaving s).overlay = r.overlay ∧
      (r.leaving s).hyperlinks = r.hyperlinks ∧ (r.leaving s).size = r.size := by
    intro r
    simp only [Renderer.leaving]
    split
    · exact ⟨rfl, rfl, rfl, rfl⟩
    · exact ⟨rfl, rfl, rfl, rfl⟩
  obtain ⟨caps', overlay', hyperlinks', size'⟩ := leaving (r.reshape s)
  simp only [Renderer.rendered, Renderer.begun]
  split
  · exact ⟨caps'.trans caps, overlay'.trans overlay, hyperlinks'.trans hyperlinks,
      size'.trans (reshape_size r s)⟩
  · exact ⟨caps'.trans caps, overlay'.trans overlay, hyperlinks'.trans hyperlinks,
      size'.trans (reshape_size r s)⟩

theorem Faithful.rendered (measure : Measure width) (faithful : Faithful width r t)
    (valid : s.Valid) (formed : WellFormed width r s) (spaced : Columned width r s) :
    Faithful width (r.rendered width s) (t.run width (r.output width s)) := by
  obtain ⟨t', ran, looks, pen, link⟩ := run_output measure faithful valid formed spaced
  obtain ⟨caps, overlay, hyperlinks, size⟩ := rendered_settings width r s
  have pasteOf : ∀ modes, (r.rendered width s).pasteOf modes = r.pasteOf modes := fun modes => by
    rw [Renderer.pasteOf, caps, Renderer.pasteOf]
  have mouseOf : ∀ mode, (r.rendered width s).mouseOf mode = r.mouseOf mode := fun mode => by
    rw [Renderer.mouseOf, caps, Renderer.mouseOf]
  have paste : t'.paste = r.pasteOf s.modes := congrArg View.paste looks
  have mouse : t'.mouse = r.mouseOf s.modes.mouse := congrArg View.mouse looks
  rw [ran]
  refine ⟨pen, link, fun off => ?_, fun off => ?_, fun p painted => ?_⟩
  · rw [caps] at off
    rw [paste, Renderer.pasteOf, off, Bool.false_and]
  · rw [caps] at off
    rw [mouse]
    simp only [Renderer.mouseOf, off, Bool.false_eq_true, and_false, decide_false]
  · obtain rfl := Option.some.inj painted.symm
    refine ⟨?_, ?_, ?_, links_zero valid.links, congrArg View.row looks, congrArg View.col looks,
      congrArg View.visible looks, congrArg View.shape looks, ?_, ?_⟩
    · rw [size, picture_congr caps hyperlinks]
      exact congrArg View.cells looks
    · rw [size, length_composite]
      exact valid.length
    · rw [size]
      exact formed
    · rw [pasteOf]
      exact paste
    · rw [mouseOf]
      exact mouse

end
/-- A renderer and the terminal it writes to. -/
structure Display where
  renderer : Renderer
  terminal : Terminal

/-- A resized window may show anything, with its cursor anywhere. -/
inductive DisplayEvent where
  | render (s : ScreenState)
  | setOverlay (overlay : Option Overlay)
  | resize (size : TermSize) (cells : Plane) (row col : Nat)
  | invalidate
  | setHyperlinks (on : Bool)

namespace Display

/-- A render whose write completes. -/
def render (width : Text → Nat) (d : Display) (s : ScreenState) : Display where
  renderer := d.renderer.rendered width s
  terminal := d.terminal.run width (d.renderer.output width s)

def step (width : Text → Nat) (d : Display) : DisplayEvent → Option Display
  | .render s => some (d.render width s)
  | .setOverlay overlay => some { d with renderer := d.renderer.setOverlay overlay }
  | .resize size cells row col => some
      { renderer := d.renderer.resize size
        terminal := { d.terminal with cells := cells, row := row, col := col } }
  | .invalidate => some { d with renderer := d.renderer.invalidate }
  | .setHyperlinks on => some { d with renderer := d.renderer.setHyperlinks on }

def start (size : TermSize) (caps : TerminalCaps) : Display where
  renderer := Renderer.new size caps
  terminal := {}

/-- What is rendered validates and is well formed once composited. -/
def Allowed (width : Text → Nat) (d : Display) : DisplayEvent → Prop
  | .render s => s.validate = .ok () ∧ WellFormed width d.renderer s
  | .setOverlay _ | .resize _ _ _ _ | .invalidate | .setHyperlinks _ => True

/-- And every painted text of it has a column. -/
def Admitted (width : Text → Nat) (d : Display) (e : DisplayEvent) : Prop :=
  d.Allowed width e ∧ ∀ s, e = .render s → Columned width d.renderer s

/-- A fresh renderer with the overlay and the settings of another. -/
def fresh (r : Renderer) (size : TermSize) : Renderer :=
  { Renderer.new size r.caps with overlay := r.overlay, hyperlinks := r.hyperlinks }

variable {width : Text → Nat} {d : Display}

theorem faithful_forgotten {r r' : Renderer} {t t' : Terminal} (faithful : Faithful width r t)
    (caps : r'.caps = r.caps) (forgotten : r'.painted = none) (pen : t'.pen = t.pen)
    (link : t'.link = t.link) (paste : t'.paste = t.paste) (mouse : t'.mouse = t.mouse) :
    Faithful width r' t' := by
  refine ⟨pen.trans faithful.pen, link.trans faithful.link, ?_, ?_, fun p painted => ?_⟩
  · rw [caps, paste]
    exact faithful.bare
  · rw [caps, mouse]
    exact faithful.plain
  · rw [forgotten] at painted
    cases painted

theorem faithful_step (measure : Measure width)
    (faithful : Faithful width d.renderer d.terminal) {e : DisplayEvent} {d' : Display}
    (admitted : d.Admitted width e) (taken : d.step width e = some d') :
    Faithful width d'.renderer d'.terminal := by
  cases e with
  | render s =>
      cases taken
      exact faithful.rendered measure ((ScreenState.validate_ok s).mp admitted.1.1) admitted.1.2
        (admitted.2 s rfl)
  | setOverlay overlay =>
      cases taken
      exact ⟨faithful.pen, faithful.link, faithful.bare, faithful.plain, fun p painted =>
        { faithful.known p painted with }⟩
  | resize size cells row col =>
      cases taken
      exact faithful_forgotten faithful rfl rfl rfl rfl rfl rfl
  | invalidate =>
      cases taken
      exact faithful_forgotten faithful rfl rfl rfl rfl rfl rfl
  | setHyperlinks on =>
      cases taken
      by_cases same : d.renderer.hyperlinks ≠ on
      · simp only [Renderer.setHyperlinks, if_pos same]
        exact faithful_forgotten faithful rfl rfl rfl rfl rfl rfl
      · simp only [Renderer.setHyperlinks, if_neg same]
        exact faithful

theorem faithful_start (size : TermSize) (r : Renderer) : Faithful width (fresh r size) {} :=
  ⟨rfl, rfl, fun _ => rfl, fun _ => rfl, fun _ painted => (by cases painted)⟩

/-- In every run in which no painted text has no columns, a render leaves the terminal
as a fresh renderer with the same overlay and settings leaves a fresh terminal. -/
theorem incremental_equals_full (measure : Measure width) {size : TermSize} {caps : TerminalCaps}
    (run : Reaches (Display.step width) (Display.Admitted width) (start size caps) d)
    {s : ScreenState} (admitted : d.Admitted width (.render s)) (anySize : TermSize) :
    view (d.render width s).terminal =
      view (Terminal.run width {} ((fresh d.renderer anySize).output width s)) := by
  have faithful : Faithful width d.renderer d.terminal :=
    run.invariant (I := fun d => Faithful width d.renderer d.terminal)
      (fun _ _ _ faithful admitted taken => faithful_step measure faithful admitted taken)
      (faithful_start size (Renderer.new size caps))
  have valid := (ScreenState.validate_ok s).mp admitted.1.1
  obtain ⟨t', ran, looks, -⟩ :=
    run_output measure faithful valid admitted.1.2 (admitted.2 s rfl)
  obtain ⟨t'', ran', looks', -⟩ := run_output measure (faithful_start anySize d.renderer) valid
    (admitted.1.2.congr rfl) ((admitted.2 s rfl).congr rfl)
  rw [ran', looks']
  change view (d.terminal.run width (d.renderer.output width s)) = _
  rw [ran, looks]
  exact (target_congr rfl rfl rfl).symm

/-- The columns of a text of Latin letters and combining marks. -/
def latinWidth (text : Text) : Nat :=
  text.countP fun c => !(0x300 ≤ c.toNat && c.toNat ≤ 0x36f)

theorem latinWidth_measure : Measure latinWidth := ⟨rfl, rfl⟩

theorem formed_of_narrow {desired : List Cell}
    (narrow : ∀ cell ∈ desired, isCont cell = false ∧ width cell.text ≤ 1) :
    Formed width desired := by
  have cont : ∀ col, contAt desired col = false := by
    intro col
    cases found : desired[col]? with
    | none => simp only [contAt, found, Option.any_none]
    | some cell => simp only [contAt, found, Option.any_some,
        (narrow cell (List.mem_of_getElem? found)).1]
  have lead : ∀ col, leadAt width desired col = false := by
    intro col
    cases found : desired[col]? with
    | none => simp only [leadAt, found, Option.any_none]
    | some cell =>
        obtain ⟨plain, columns⟩ := narrow cell (List.mem_of_getElem? found)
        rw [leadAt_of_some found plain, beq_eq_false_iff_ne]
        omega
  exact ⟨cont 0, fun col => by rw [cont, lead], fun cell member _ =>
    Nat.le_succ_of_le (narrow cell member).2⟩

/-- A screen of one row of three cells. -/
def three (a b c : Char) : ScreenState :=
  { ScreenState.blankState 1 3 with
    cells := [{ Cell.blank with text := [a] }, { Cell.blank with text := [b] },
      { Cell.blank with text := [c] }] }

theorem three_valid {a b c : Char} (checked : checkCellText [a] = .ok () ∧
    checkCellText [b] = .ok () ∧ checkCellText [c] = .ok ()) : (three a b c).Valid := by
  have blank := @ScreenState.blankState_valid 1 3 (by decide)
  have cells : ∀ cell ∈ (three a b c).cells,
      checkCellText cell.text = .ok () ∧ cell.link = 0 := by
    intro cell member
    simp only [three, List.mem_cons, List.not_mem_nil, or_false] at member
    rcases member with rfl | rfl | rfl
    · exact ⟨checked.1, rfl⟩
    · exact ⟨checked.2.1, rfl⟩
    · exact ⟨checked.2.2, rfl⟩
  exact ⟨blank.bounds, rfl, blank.seq, blank.cursor, fun cell member => (cells cell member).1,
    blank.title, blank.clipboard, blank.links, fun cell member => Or.inl (cells cell member).2⟩

theorem three_allowed {a b c : Char} (bare : d.renderer.overlay = none)
    (checked : checkCellText [a] = .ok () ∧ checkCellText [b] = .ok () ∧
      checkCellText [c] = .ok ()) :
    d.Allowed latinWidth (.render (three a b c)) := by
  refine ⟨(ScreenState.validate_ok _).mpr (three_valid checked), fun row inside => ?_⟩
  have plain : contains Cell.blank.attrs Attrs.wideCont = false := by decide
  rw [bare]
  refine formed_of_narrow fun cell member => ?_
  have member := List.mem_of_mem_drop (List.mem_of_mem_take member)
  simp only [composite, three, List.mem_cons, List.not_mem_nil, or_false] at member
  rcases member with rfl | rfl | rfl
  · exact ⟨plain, List.countP_le_length⟩
  · exact ⟨plain, List.countP_le_length⟩
  · exact ⟨plain, List.countP_le_length⟩

theorem three_admitted {a b c : Char} (bare : d.renderer.overlay = none)
    (checked : checkCellText [a] = .ok () ∧ checkCellText [b] = .ok () ∧
      checkCellText [c] = .ok ())
    (columns : latinWidth [a] ≠ 0 ∧ latinWidth [b] ≠ 0 ∧ latinWidth [c] ≠ 0) :
    d.Admitted latinWidth (.render (three a b c)) := by
  refine ⟨three_allowed bare checked, fun s same row inside cell member _ _ => ?_⟩
  cases same
  rw [bare] at member
  have member := List.mem_of_mem_drop (List.mem_of_mem_take member)
  simp only [composite, three, List.mem_cons, List.not_mem_nil, or_false] at member
  rcases member with rfl | rfl | rfl
  · exact columns.1
  · exact columns.2.1
  · exact columns.2.2

def plainCaps : TerminalCaps := ⟨256, true, true, true, true⟩

def opening : Display := start ⟨3, 1⟩ plainCaps

theorem incremental_equals_full_of_letters :
    view ((opening.render latinWidth (three 'a' ' ' 'c')).render latinWidth
        (three 'a' 'x' 'c')).terminal =
      view (Terminal.run latinWidth {} ((fresh opening.renderer ⟨3, 1⟩).output latinWidth
        (three 'a' 'x' 'c'))) :=
  incremental_equals_full latinWidth_measure
    (Reaches.single (.render (three 'a' ' ' 'c'))
      (three_admitted rfl (by decide +kernel) (by decide +kernel)) rfl)
    (three_admitted rfl (by decide +kernel) (by decide +kernel)) ⟨3, 1⟩

/-- A combining mark in a cell of its own: what follows it in its run is written one
column to the left, and the last column keeps what it showed. -/
theorem incremental_leaves_a_glyph :
    ∃ d s, Reaches (Display.step latinWidth) (Display.Allowed latinWidth) opening d ∧
      d.Allowed latinWidth (.render s) ∧
      view (d.render latinWidth s).terminal ≠
        view (Terminal.run latinWidth {} ((fresh d.renderer ⟨3, 1⟩).output latinWidth s)) := by
  refine ⟨opening.render latinWidth (three 'a' ' ' 'c'), three 'a' (Char.ofNat 0x301) 'b',
    Reaches.single (.render (three 'a' ' ' 'c')) (three_allowed rfl (by decide +kernel)) rfl,
    three_allowed rfl (by decide +kernel), fun same => ?_⟩
  have column := congrArg (fun v : View => (v.cells 0 2).glyph) same
  have stale : (((opening.render latinWidth (three 'a' ' ' 'c')).render latinWidth
      (three 'a' (Char.ofNat 0x301) 'b')).terminal.cells 0 2).glyph = .narrow ['c'] := by
    decide +kernel
  have blank : ((Terminal.run latinWidth {} ((fresh (opening.render latinWidth
      (three 'a' ' ' 'c')).renderer ⟨3, 1⟩).output latinWidth
        (three 'a' (Char.ofNat 0x301) 'b'))).cells 0 2).glyph = .narrow [' '] := by
    decide +kernel
  have both := stale.symm.trans (column.trans blank)
  cases both

end Display
end Oxutrm.Paint
