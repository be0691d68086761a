import Oxutrm.Popup.Columns
import Oxutrm.Popup.Preview

/-!
The session selector. From the bottom of the box: the key bar, a rule, the line under the
list, the preview's pane, and the list in what is left, scrolled to the cursor.
-/
namespace Oxutrm.Popup
open Proto Drawing Checked
open Paint (Overlay)

inductive PreviewPane where
  | screen (s : ScreenState)
  /-- Why there is no screen. -/
  | note (text : Text)

structure SessionsView where
  title : Text
  header : Text
  rows : List SessionRow
  /-- The last row, after the sessions. -/
  newRow : Text
  /-- A row of `rows`, or the one after them. -/
  cursor : Nat
  line : Text
  /-- The line is a question the next key answers. -/
  question : Bool
  keys : List KeyHint
  small : Text
  preview : Option PreviewPane

/-- The least room the pane is drawn in. -/
def previewMin : TermSize := { cols := 30, rows := 4 }

def listRowsWithPreview : Nat := 8

def previewRule : Text := "preview".toList

/-- What a view is drawn as: its columns, the size of its box, and the rows of the pane. -/
structure SessionsPlan where
  columns : SessionCols
  cols : Nat
  rows : Nat
  preview : Option (PreviewPane × Nat)

section Drawing
variable (kit : Toolkit)

/-- Whether there is something in it, as a number. -/
def oneUnless (text : Text) : Nat := if text = [] then 0 else 1

def lineRows (v : SessionsView) (width height : Nat) : Option Nat :=
  if v.line = [] then some 0
  else do
    let rows ← wrappedRowCount kit [Line.ofText v.line] width height
    some (max rows 1)

def newLine (v : SessionsView) : Text :=
  [cursorMarker (decide (v.cursor ≥ v.rows.length)), ' '] ++ v.newRow

def sessionLines (v : SessionsView) (columns : SessionCols) : List Text :=
  (v.rows.zipIdx.map fun (r, i) => columns.line kit r (decide (i = v.cursor))) ++ [newLine v]

def markCut (cutShort : Bool) (area : Rect) (buf : Buffer) : Option Buffer :=
  if cutShort then do
    let x ← sub (right area) 1
    let y ← sub (bottom area) 1
    buf.set x y (setSymbol [ellipsis])
  else some buf

/-- The line at the bottom of the body, over as many rows as it needs and `room` allows. -/
def putLine (v : SessionsView) (room : Nat) (body : Rect) (buf : Buffer) : Option (Rect × Buffer) := do
  let want ← lineRows kit v body.width body.height
  let used := max (min want room) 1
  let y ← sub (bottom body) used
  let area := { body with y := y, height := used }
  let buf ← paint kit (.paragraph { lines := [Line.ofText v.line], trim := some false }) area buf
  let buf ← markCut (decide (want > used)) area buf
  let height ← sub body.height used
  some ({ body with height := height }, buf)

def asks (v : SessionsView) : Bool := v.question && decide (v.line ≠ [])

/-- Only with a row of the list left above it, and the question's. -/
def putRule (v : SessionsView) (cols : Nat) (body : Rect) (buf : Buffer) : Option (Rect × Buffer) :=
  if body.height > 2 * (asks v).toNat then do
    let y ← sub (bottom body) 1
    let buf ← rule kit buf y cols none
    let height ← sub body.height 1
    some ({ body with height := height }, buf)
  else some (body, buf)

def putQuestion (v : SessionsView) (body : Rect) (buf : Buffer) : Option (Rect × Buffer) :=
  if asks v = true then putLine kit v (body.height - 1) body buf else some (body, buf)

def putHeader (v : SessionsView) (body : Rect) (buf : Buffer) : Option (Rect × Buffer) :=
  if v.header ≠ [] ∧ (asks v = false ∨ body.height ≥ 2) then placeOne kit (Line.ofText v.header) body buf
  else some (body, buf)

def putRemark (v : SessionsView) (body : Rect) (buf : Buffer) : Option (Rect × Buffer) :=
  if asks v = false ∧ v.line ≠ [] ∧ body.height ≥ 2 then do
    let room ← sub body.height 1
    putLine kit v room body buf
  else some (body, buf)

/-- Wrapped, and in the middle of the pane both ways. -/
def drawNote (text : Text) (area : Rect) (buf : Buffer) : Option Buffer := do
  let note : Line := [{ text := text, style := { modifier := { dim := true } } }]
  let rows ← wrappedRowCount kit [note] area.width area.height
  let used := max rows 1
  let spare ← sub area.height used
  let y ← add 16 area.y (spare / 2)
  paint kit (.paragraph { lines := [note], trim := some true, centered := true })
    { area with y := y, height := used } buf

def drawPane (pane : PreviewPane) (area : Rect) (buf : Buffer) : Option Buffer :=
  match pane with
  | .screen _ => some buf
  | .note text => drawNote kit text area buf

/-- The pane's rows and their rule, at the bottom of the body. -/
def putPane (preview : Option (PreviewPane × Nat)) (cols : Nat) (body : Rect) (buf : Buffer) :
    Option (Rect × Option Rect × Buffer) :=
  match preview with
  | none => some (body, none, buf)
  | some (p, pane) => do
      let y ← sub (bottom body) pane
      let area := { body with y := y, height := pane }
      let above ← sub area.y 1
      let buf ← rule kit buf above cols (some previewRule)
      let height ← sub body.height (pane + 1)
      let buf ← drawPane kit p area buf
      some ({ body with height := height }, some area, buf)

/-- Everything but the list: its area, the pane's, and the buffer. -/
def aroundList (v : SessionsView) (cols rows : Nat) (preview : Option (PreviewPane × Nat)) :
    Option (Rect × Option Rect × Buffer) := do
  let keys := fittedKeyLine kit v.keys (cols - frameCols)
  let (buf, body) ← framed kit v.title keys cols rows
  let (body, buf) ← putRule kit v cols body buf
  let (body, buf) ← putQuestion kit v body buf
  let (body, buf) ← putHeader kit v body buf
  let (body, buf) ← putRemark kit v body buf
  putPane kit preview cols body buf

def cursorAt (v : SessionsView) (lines : List Text) : Nat := min v.cursor (lines.length - 1)

def listLine (v : SessionsView) (lines : List Text) (text : Text) (i : Nat) : Line :=
  [{ text := text
     style := { modifier :=
      { bold := decide (i = cursorAt v lines), dim := ((v.rows[i]?).map (·.dimmed)).getD false } } }]

def putEntry (v : SessionsView) (lines : List Text) (start : Nat) (body : Rect) (buf : Buffer)
    (entry : Text × Nat) : Option Buffer := do
  let n ← sub entry.2 start
  let y ← add 16 body.y (tryU16 n)
  paint kit (.paragraph { lines := [listLine v lines entry.1 entry.2] }) { body with y := y, height := 1 } buf

/-- Scrolled just enough for the cursor's row to be the last one shown. -/
def drawList (v : SessionsView) (lines : List Text) (body : Rect) (buf : Buffer) : Option Buffer :=
  let start := cursorAt v lines + 1 - body.height
  ((lines.zipIdx.drop start).take body.height).foldlM (putEntry kit v lines start body) buf

def drawSessions (v : SessionsView) (lines : List Text) (cols rows : Nat)
    (preview : Option (PreviewPane × Nat)) : Option (Buffer × Option Rect) := do
  let (body, pane, buf) ← aroundList kit v cols rows preview
  let buf ← drawList kit v lines body buf
  some (buf, pane)

/-- With a preview and room for it, the box takes all it may. -/
def planPreview (v : SessionsView) (p : PreviewPane) (full cap : Nat) (without : SessionsPlan) :
    Option SessionsPlan := do
  let width ← sub full frameCols
  let list := min (sessionLines kit v without.columns).length listRowsWithPreview
  let under ← lineRows kit v width cap
  let taken ← add 16 (4 + oneUnless v.header + under + tryU16 list) 1
  let pane := cap - taken
  if width ≥ previewMin.cols.toNat ∧ pane ≥ previewMin.rows.toNat then do
    let columns ← (SessionCols.of kit v.rows).fitted width
    some { columns := columns, cols := full, rows := cap, preview := some (p, pane) }
  else some without

/-- As wide as what it says. -/
def wantedCols (v : SessionsView) : Nat :=
  let width := [(SessionCols.of kit v.rows).width, kit.cells (newLine v), kit.cells v.header, kit.cells v.line,
    kit.cells v.title, kit.lineWidth (keyLine v.keys)].foldl max 0
  saturatingAdd (tryU16 width) frameCols

/-- Without a preview, as tall as what it says. -/
def planPlain (v : SessionsView) (full cap : Nat) : Option SessionsPlan := do
  let boxCols := min (wantedCols kit v) full
  let inner ← sub boxCols frameCols
  let columns ← (SessionCols.of kit v.rows).fitted inner
  let under ← lineRows kit v inner cap
  let inside := (sessionLines kit v columns).length + oneUnless v.header + under + 2
  let boxRows := min (saturatingAdd (tryU16 inside) 2) cap
  some { columns := columns, cols := boxCols, rows := boxRows, preview := none }

def planSessions (v : SessionsView) (size : TermSize) : Option SessionsPlan := do
  let across ← sub size.cols.toNat 4
  let full := min across maxBox.cols.toNat
  let down ← sub size.rows.toNat 2
  let cap := min down maxBox.rows.toNat
  let without ← planPlain kit v full cap
  match v.preview with
  | none => some without
  | some p => planPreview kit v p full cap without

def stampPreview (preview : Option (PreviewPane × Nat)) (pane : Option Rect) (o : Overlay) : Option Overlay :=
  match preview, pane with
  | some (.screen s, _), some pane => stamp o pane s
  | _, _ => some o

def layoutSessions (v : SessionsView) (size : TermSize) : Option Overlay :=
  if tooSmall size then reversedLine kit v.small size
  else do
    let plan ← planSessions kit v size
    let (buf, pane) ← drawSessions kit v (sessionLines kit v plan.columns) plan.cols plan.rows plan.preview
    let o ← centred kit buf plan.cols plan.rows size
    stampPreview plan.preview pane o

def sessionsList (v : SessionsView) (size : TermSize) : Option (SessionsPlan × Rect) := do
  let plan ← planSessions kit v size
  let (list, _, _) ← aroundList kit v plan.cols plan.rows plan.preview
  some (plan, list)

/-- The row the cursor is on: a session's, or the one after them. -/
def cursorLine (v : SessionsView) (columns : SessionCols) : Line :=
  match v.rows[v.cursor]? with
  | some r => [{ text := columns.line kit r true, style := { modifier := { bold := true, dim := r.dimmed } } }]
  | none => [{ text := newLine v, style := { modifier := { bold := true } } }]

end Drawing

def lineRowsOf (kit : Toolkit) (v : SessionsView) (width height : Nat) : Nat :=
  if v.line = [] then 0 else max (wrappedRows kit [Line.ofText v.line] width height) 1

section Specs
variable {kit : Toolkit} {v : SessionsView} {body : Rect} {buf : Buffer}

theorem runs_lineRows (lawful : kit.Lawful) (v : SessionsView) (width height : Nat) :
    Runs (lineRows kit v width height) (· = lineRowsOf kit v width height) := by
  unfold lineRows lineRowsOf
  split
  · exact Runs.pure rfl
  · refine Runs.bind (runs_wrappedRowCount lawful _ _ _) ?_
    rintro _ rfl
    exact Runs.pure rfl

theorem lineRowsOf_mono (lawful : kit.Lawful) (v : SessionsView) (width : Nat) {few many : Nat} (le : few ≤ many) :
    lineRowsOf kit v width few ≤ lineRowsOf kit v width many := by
  unfold lineRowsOf
  split
  · exact Nat.le_refl _
  · have rows := wrappedRows_mono lawful [Line.ofText v.line] width le
    omega

theorem runs_markCut (cutShort : Bool) (fits : Fits buf body) (wide : 1 ≤ body.width) (room : 1 ≤ body.height) :
    Runs (markCut cutShort body buf) (Changes body.y (body.y + body.height) buf) := by
  have columns := fits.columns
  have rows := fits.rows
  unfold markCut
  rw [fits.right, fits.bottom]
  refine Runs.ite (fun _ => ?_) fun _ => Runs.pure (Changes.refl _ _ buf)
  refine Runs.bind (runs_sub (by omega)) ?_
  rintro _ rfl
  refine Runs.bind (runs_sub (by omega)) ?_
  rintro _ rfl
  exact (runs_set (by omega) (by omega) _).mono fun _ changes => changes.mono (by omega) (by omega)

theorem runs_putLine (lawful : kit.Lawful) {room : Nat} (fits : Fits buf body) (line : v.line ≠ [])
    (wide : 1 ≤ body.width) (some_ : 1 ≤ body.height) (most : room ≤ body.height) :
    Runs (putLine kit v room body buf) (Leaves body buf (lineRowsOf kit v body.width body.height)) := by
  have columns := fits.columns
  have rows := fits.rows
  unfold putLine
  refine Runs.bind (runs_lineRows lawful v body.width body.height) ?_
  rintro _ rfl
  have positive : 1 ≤ lineRowsOf kit v body.width body.height := by
    unfold lineRowsOf
    rw [if_neg line]
    exact Nat.le_max_right _ _
  generalize lineRowsOf kit v body.width body.height = want at positive ⊢
  have used : max (min want room) 1 ≤ want ∧ max (min want room) 1 ≤ body.height ∧ 1 ≤ max (min want room) 1 := by
    omega
  dsimp only
  generalize max (min want room) 1 = used at used ⊢
  obtain ⟨atMost, within, least⟩ := used
  rw [fits.bottom]
  refine Runs.bind (runs_sub (by omega)) ?_
  rintro _ rfl
  have strip : Fits buf { body with y := body.y + body.height - used, height := used } :=
    ⟨columns, by dsimp only; omega, fits.width, fits.height⟩
  refine Runs.bind (runs_paint lawful _ strip.holds) fun first changes => ?_
  refine Runs.bind (runs_markCut _ (strip.changes changes) wide least) fun second more => ?_
  refine Runs.bind (runs_sub within) ?_
  rintro _ rfl
  have drawn : Changes (body.y + (body.height - used)) (body.y + body.height) buf second :=
    (changes.trans more).mono (by dsimp only; omega) (by dsimp only; omega)
  have leaves := Leaves.of_bottom within drawn
  exact Runs.pure { leaves with least := leaves.least.trans (Nat.add_le_add_left atMost _) }

theorem runs_putRule (lawful : kit.Lawful) (v : SessionsView) {cols : Nat} (fits : Fits buf body) (wide : 2 ≤ cols)
    (column : cols ≤ buf.width) (some_ : 1 ≤ body.height) :
    Runs (putRule kit v cols body buf) fun left =>
      Leaves body buf 1 left ∧ (asks v = true → 1 ≤ left.1.height) := by
  have rows := fits.rows
  unfold putRule
  rw [fits.bottom]
  refine Runs.ite (fun room => ?_) fun _ => Runs.pure ⟨Leaves.refl _ _ _, fun _ => some_⟩
  refine Runs.bind (runs_sub (by omega)) ?_
  rintro _ rfl
  refine Runs.bind (runs_rule lawful wide column (by omega) none) fun ruled changes => ?_
  refine Runs.bind (runs_sub some_) ?_
  rintro _ rfl
  refine Runs.pure ⟨Leaves.of_bottom some_ (changes.mono (by omega) (by omega)), fun ask => ?_⟩
  rw [ask] at room
  change body.height > 2 * 1 at room
  dsimp only
  omega

theorem runs_putQuestion (lawful : kit.Lawful) (fits : Fits buf body) (wide : 1 ≤ body.width)
    (some_ : asks v = true → 1 ≤ body.height) : Runs (putQuestion kit v body buf)
      (Leaves body buf (if asks v = true then lineRowsOf kit v body.width body.height else 0)) := by
  unfold putQuestion
  by_cases ask : asks v = true
  · rw [if_pos ask, if_pos ask]
    have line : v.line ≠ [] := of_decide_eq_true (Bool.and_eq_true_iff.mp ask).2
    exact runs_putLine lawful fits line wide (some_ ask) (Nat.sub_le _ _)
  · rw [if_neg ask, if_neg ask]
    exact Runs.pure (Leaves.refl _ _ _)

theorem runs_putHeader (lawful : kit.Lawful) (v : SessionsView) (fits : Fits buf body) :
    Runs (putHeader kit v body buf) (Leaves body buf (oneUnless v.header)) := by
  unfold putHeader
  refine Runs.ite (fun ⟨some_, _⟩ => ?_) fun _ => Runs.pure (Leaves.refl _ _ _)
  unfold oneUnless
  rw [if_neg some_]
  exact (runs_placeOne lawful _ fits).mono fun left ⟨placed, least⟩ => placed.leaves least

theorem runs_putRemark (lawful : kit.Lawful) (v : SessionsView) (fits : Fits buf body) (wide : 1 ≤ body.width) :
    Runs (putRemark kit v body buf)
      (Leaves body buf (if asks v = true then 0 else lineRowsOf kit v body.width body.height)) := by
  unfold putRemark
  refine Runs.ite (fun ⟨ask, line, room⟩ => ?_) fun _ => Runs.pure (Leaves.refl _ _ _)
  refine Runs.bind (runs_sub (by omega)) ?_
  rintro _ rfl
  rw [if_neg (Bool.eq_false_iff.mp ask)]
  exact runs_putLine lawful fits line wide (by omega) (Nat.sub_le _ _)

theorem runs_drawNote (lawful : kit.Lawful) (text : Text) (fits : Fits buf body) (some_ : 1 ≤ body.height) :
    Runs (drawNote kit text body buf) (Changes body.y (body.y + body.height) buf) := by
  have columns := fits.columns
  have rows := fits.rows
  have height := fits.height
  unfold drawNote
  extract_lets note
  refine Runs.bind (runs_wrappedRowCount lawful [note] body.width body.height) ?_
  rintro _ rfl
  have used := wrappedRows_le kit [note] body.width body.height
  generalize wrappedRows kit [note] body.width body.height = rows' at used ⊢
  dsimp only
  refine Runs.bind (runs_sub (by omega)) ?_
  rintro _ rfl
  refine Runs.bind (runs_add (by omega)) ?_
  rintro _ rfl
  have holds : buf.Holds ⟨body.x, body.y + (body.height - max rows' 1) / 2, body.width, max rows' 1⟩ :=
    ⟨columns, by dsimp only; omega⟩
  exact (runs_paint lawful _ holds).mono fun _ changes =>
    changes.mono (by dsimp only; omega) (by dsimp only; omega)

/-- The pane is below what is left. -/
structure Paned (body : Rect) (buf : Buffer) (left : Rect × Option Rect × Buffer) : Prop where
  x : left.1.x = body.x
  width : left.1.width = body.width
  y : left.1.y = body.y
  ends : left.1.y + left.1.height ≤ body.y + body.height
  changes : Changes body.y (body.y + body.height) buf left.2.2
  pane : ∀ pane, left.2.1 = some pane → pane.x = body.x ∧ pane.width = body.width ∧
    left.1.y + left.1.height ≤ pane.y ∧ pane.y + pane.height ≤ body.y + body.height

theorem runs_putPane (lawful : kit.Lawful) {cols : Nat} (preview : Option (PreviewPane × Nat)) (fits : Fits buf body)
    (wide : 2 ≤ cols) (column : cols ≤ buf.width)
    (room : ∀ p pane, preview = some (p, pane) → 1 ≤ pane ∧ pane + 1 ≤ body.height) :
    Runs (putPane kit preview cols body buf) (Paned body buf) := by
  have columns := fits.columns
  have rows := fits.rows
  cases preview with
  | none => exact Runs.pure ⟨rfl, rfl, rfl, Nat.le_refl _, Changes.refl _ _ _, nofun⟩
  | some preview =>
      obtain ⟨p, pane⟩ := preview
      obtain ⟨positive, within⟩ := room p pane rfl
      unfold putPane
      rw [fits.bottom]
      refine Runs.bind (runs_sub (by omega)) ?_
      rintro _ rfl
      dsimp only
      refine Runs.bind (runs_sub (by omega)) ?_
      rintro _ rfl
      refine Runs.bind (runs_rule lawful wide column (by omega) _) fun ruled changes => ?_
      refine Runs.bind (runs_sub within) ?_
      rintro _ rfl
      have lower : Fits buf { body with y := body.y + body.height - pane, height := pane } :=
        ⟨columns, by dsimp only; omega, fits.width, fits.height⟩
      have drawn : Runs (drawPane kit p { body with y := body.y + body.height - pane, height := pane } ruled)
          (Changes (body.y + body.height - pane) (body.y + body.height - pane + pane) ruled) := by
        cases p with
        | screen s => exact Runs.pure (Changes.refl _ _ _)
        | note text => exact runs_drawNote lawful text (lower.changes changes) positive
      refine Runs.bind drawn fun last more => Runs.pure ⟨rfl, rfl, rfl, by dsimp only; omega, ?_, ?_⟩
      · exact (changes.mono (by omega) (by omega)).trans (more.mono (by omega) (by omega))
      · rintro _ ⟨⟩
        exact ⟨rfl, rfl, by dsimp only; omega, by dsimp only; omega⟩

/-- What is around the list, inside the border and above the key bar. -/
structure Around (kit : Toolkit) (v : SessionsView) (cols rows : Nat) (around : Rect × Option Rect × Buffer) :
    Prop where
  x : around.1.x = 2
  width : around.1.width = cols - 4
  lower : 1 ≤ around.1.y
  ends : around.1.y + around.1.height ≤ rows - 2
  changes : Changes 1 (rows - 2)
    (barred kit v.title (fittedKeyLine kit v.keys (cols - frameCols)) cols rows) around.2.2
  pane : ∀ pane, around.2.1 = some pane → pane.x = 2 ∧ pane.width = cols - 4 ∧
    around.1.y + around.1.height ≤ pane.y ∧ pane.y + pane.height ≤ rows - 2

/-- The line takes no more rows of what is left of the box than of the whole. -/
theorem runs_aroundList (lawful : kit.Lawful) (v : SessionsView) {cols rows : Nat}
    (preview : Option (PreviewPane × Nat)) (wide : 5 ≤ cols) (tall : 4 ≤ rows) (narrow : cols < 2 ^ 16)
    (small : rows < 2 ^ 16)
    (room : ∀ p pane, preview = some (p, pane) → 1 ≤ pane ∧
      pane + 1 + (1 + oneUnless v.header + lineRowsOf kit v (cols - 4) (rows - 3)) ≤ rows - 3) :
    Runs (aroundList kit v cols rows preview) (Around kit v cols rows) := by
  obtain ⟨startWidth, startHeight⟩ :=
    barred_size lawful v.title (fittedKeyLine kit v.keys (cols - frameCols)) cols rows
  have start : Fits (barred kit v.title (fittedKeyLine kit v.keys (cols - frameCols)) cols rows)
      ⟨2, 1, cols - 4, rows - 3⟩ := ⟨by dsimp only; omega, by dsimp only; omega, by omega, by omega⟩
  unfold aroundList
  refine Runs.bind (runs_framed lawful v.title _ (by omega) (by omega) small) ?_
  rintro _ rfl
  dsimp only
  refine Runs.bind (runs_putRule lawful v start (by omega) (Nat.le_of_eq startWidth.symm) (by dsimp only; omega))
    fun ⟨ruled, _⟩ ⟨rule, some_⟩ => ?_
  have ruleWidth := rule.width
  have ruleHeight := rule.height
  dsimp only at ruleWidth ruleHeight some_ ⊢
  refine Runs.bind (runs_putQuestion lawful (rule.fits start) (by omega) some_) fun ⟨asked, _⟩ question => ?_
  have question := rule.trans question
  refine Runs.bind (runs_putHeader lawful v (question.fits start)) fun ⟨headed, _⟩ header => ?_
  have header := question.trans header
  have headerWidth := header.width
  have headerHeight := header.height
  dsimp only at headerWidth headerHeight ⊢
  refine Runs.bind (runs_putRemark lawful v (header.fits start) (by omega)) fun ⟨left, drawn⟩ remark => ?_
  have remark := header.trans remark
  have fits := remark.fits start
  -- The line is either a question or a remark.
  have lines : (if asks v = true then lineRowsOf kit v ruled.width ruled.height else 0) +
      (if asks v = true then 0 else lineRowsOf kit v headed.width headed.height) ≤
        lineRowsOf kit v (cols - 4) (rows - 3) := by
    rw [ruleWidth, headerWidth]
    split
    · exact lineRowsOf_mono lawful v (cols - 4) ruleHeight
    · rw [Nat.zero_add]
      exact lineRowsOf_mono lawful v (cols - 4) headerHeight
  obtain ⟨x, width, lower, ends, least, changes⟩ := remark
  dsimp only at x width lower ends least changes lines
  have column : cols ≤ drawn.width := by
    have same := changes.width
    omega
  have down : 1 + (rows - 3) = rows - 2 := by omega
  rw [down] at ends changes
  refine (runs_putPane lawful preview fits (by omega) column fun p pane here => ?_).mono fun around paned => ?_
  · have ⟨positive, spare⟩ := room p pane here
    refine ⟨positive, ?_⟩
    dsimp only
    omega
  · have lower' := paned.y
    have ends' := paned.ends
    dsimp only at lower' ends'
    refine ⟨paned.x.trans x, paned.width.trans width, by omega, by omega,
      changes.trans (paned.changes.mono lower ends), fun pane here => ?_⟩
    obtain ⟨paneX, paneWidth, above, within⟩ := paned.pane pane here
    exact ⟨paneX.trans x, paneWidth.trans width, above, within.trans ends⟩

theorem runs_putEntry (lawful : kit.Lawful) (lines : List Text) {start j : Nat} (fits : Fits buf body)
    (inside : j < body.height) (text : Text) :
    Runs (putEntry kit v lines start body buf (text, start + j)) fun after =>
      after = kit.render (.paragraph { lines := [listLine v lines text (start + j)] })
        { body with y := body.y + j, height := 1 } buf ∧ Changes (body.y + j) (body.y + j + 1) buf after := by
  have rows := fits.rows
  have height := fits.height
  unfold putEntry
  refine Runs.bind (runs_sub (Nat.le_add_right _ _)) ?_
  rintro _ rfl
  have index : tryU16 (start + j - start) = j := by
    unfold tryU16
    omega
  dsimp only
  rw [index]
  refine Runs.bind (runs_add (by omega)) ?_
  rintro _ rfl
  have holds : buf.Holds { body with y := body.y + j, height := 1 } := ⟨fits.columns, by dsimp only; omega⟩
  have drawn := lawful.changes (.paragraph { lines := [listLine v lines text (start + j)] })
    { body with y := body.y + j, height := 1 } buf
  exact ⟨_, if_pos holds, rfl, drawn⟩

/-- The row of the cursor is shown where there is room for a row. -/
theorem runs_drawList (lawful : kit.Lawful) (lines : List Text) (fits : Fits buf body) :
    Runs (drawList kit v lines body buf) fun last => Changes body.y (body.y + body.height) buf last ∧
      ∀ text, lines[cursorAt v lines]? = some text → 1 ≤ body.height →
        Visible kit body (listLine v lines text (cursorAt v lines)) last := by
  unfold drawList
  extract_lets start
  have place : ∀ (j : Nat) entry, ((lines.zipIdx.drop start).take body.height)[j]? = some entry →
      entry = (entry.1, start + j) ∧ j < body.height := by
    intro j entry here
    rw [List.getElem?_take, Option.ite_none_right_eq_some] at here
    obtain ⟨inside, here⟩ := here
    rw [List.getElem?_drop, List.getElem?_zipIdx] at here
    obtain ⟨_, _, rfl⟩ := Option.map_eq_some_iff.mp here
    exact ⟨by rw [Nat.zero_add], inside⟩
  have each : ∀ (j : Nat) entry, ((lines.zipIdx.drop start).take body.height)[j]? = some entry →
      ∀ c : Buffer, c.width = buf.width → c.height = buf.height →
        Runs (putEntry kit v lines start body c entry) fun after =>
          after = kit.render (.paragraph { lines := [listLine v lines entry.1 entry.2] })
            { body with y := body.y + j, height := 1 } c ∧ Changes (body.y + j) (body.y + j + 1) c after := by
    intro j entry here c width height
    obtain ⟨same, inside⟩ := place j entry here
    rw [same]
    have fits : Fits c body :=
      ⟨width ▸ fits.columns, height ▸ fits.rows, width ▸ fits.width, height ▸ fits.height⟩
    exact runs_putEntry lawful lines fits inside entry.1
  have rows := runs_rows fun j entry here c width height =>
    (each j entry here c width height).mono fun _ drawn => drawn.2
  refine rows.mono fun last ⟨changes, every⟩ => ⟨?_, fun text found some_ => ?_⟩
  · refine changes.mono (Nat.le_refl _) ?_
    rw [List.length_take]
    omega
  · obtain ⟨there, inside⟩ := @scrolled _ lines.zipIdx (cursorAt v lines) _ some_
    have here : ((lines.zipIdx.drop start).take body.height)[cursorAt v lines - start]? =
        some (text, cursorAt v lines) := by
      rw [there, List.getElem?_zipIdx, found, Option.map_some, Nat.zero_add]
    obtain ⟨before, after, earlier, drawn, same⟩ := every _ _ here
    obtain ⟨_, step, rendered, _⟩ := each _ _ here before earlier.width earlier.height
    cases Option.some.inj (drawn.symm.trans step)
    exact ⟨_, before, Nat.le_add_right _ _, Nat.add_lt_add_left inside _, earlier.width.trans changes.width.symm,
      fun x => (same x).trans (by rw [rendered])⟩

theorem cursorLine_eq (kit : Toolkit) (v : SessionsView) (columns : SessionCols) :
    ∃ text, (sessionLines kit v columns)[cursorAt v (sessionLines kit v columns)]? = some text ∧
      listLine v (sessionLines kit v columns) text (cursorAt v (sessionLines kit v columns)) =
        cursorLine kit v columns := by
  have length : (v.rows.zipIdx.map fun (r, i) => columns.line kit r (decide (i = v.cursor))).length =
      v.rows.length := by rw [List.length_map, List.length_zipIdx]
  have place : cursorAt v (sessionLines kit v columns) = min v.cursor v.rows.length := by
    rw [cursorAt, sessionLines, List.length_append, length]
    rfl
  unfold listLine cursorLine
  rw [place, decide_eq_true rfl]
  by_cases inside : v.cursor < v.rows.length
  · rw [Nat.min_eq_left (Nat.le_of_lt inside), List.getElem?_eq_getElem inside]
    refine ⟨_, ?_, rfl⟩
    rw [sessionLines, List.getElem?_append_left (by rw [length]; exact inside), List.getElem?_map,
      List.getElem?_zipIdx, List.getElem?_eq_getElem inside]
    simp only [Option.map_some, Nat.zero_add, decide_true]
  · have after := Nat.not_lt.mp inside
    rw [Nat.min_eq_right after, List.getElem?_eq_none after, List.getElem?_eq_none (Nat.le_refl v.rows.length)]
    refine ⟨newLine v, ?_, rfl⟩
    rw [sessionLines, List.getElem?_append_right (Nat.le_of_eq length), length, Nat.sub_self]
    rfl

/-- The box is on the screen, and the preview has the room it was given. -/
structure PlanFits (kit : Toolkit) (v : SessionsView) (size : TermSize) (plan : SessionsPlan) : Prop where
  wide : 5 ≤ plan.cols
  tall : 4 ≤ plan.rows
  cols : plan.cols ≤ size.cols.toNat
  rows : plan.rows ≤ size.rows.toNat
  room : ∀ p pane, plan.preview = some (p, pane) → 1 ≤ pane ∧
    pane + 1 + (1 + oneUnless v.header + lineRowsOf kit v (plan.cols - 4) (plan.rows - 3)) ≤ plan.rows - 3
  preview : ∀ p pane, plan.preview = some (p, pane) → v.preview = some p

theorem oneUnless_le (text : Text) : oneUnless text ≤ 1 := by
  unfold oneUnless
  split
  · exact Nat.zero_le _
  · exact Nat.le_refl _

theorem lineRowsOf_le (kit : Toolkit) (v : SessionsView) (width : Nat) {height : Nat} (some_ : 1 ≤ height) :
    lineRowsOf kit v width height ≤ height := by
  unfold lineRowsOf
  split
  · exact Nat.zero_le _
  · exact Nat.max_le.mpr ⟨wrappedRows_le kit _ width height, some_⟩

theorem runs_planPreview (lawful : kit.Lawful) {p : PreviewPane} {full cap : Nat} {size : TermSize}
    {without : SessionsPlan} (shown : v.preview = some p) (wide : 16 ≤ full) (cols : full ≤ size.cols.toNat)
    (tall : 4 ≤ cap) (rows : cap ≤ size.rows.toNat) (low : cap ≤ 24) (fits : PlanFits kit v size without) :
    Runs (planPreview kit v p full cap without) (PlanFits kit v size) := by
  have header := oneUnless_le v.header
  unfold planPreview
  refine Runs.bind (runs_sub (a := full) (b := frameCols) (by unfold frameCols; omega)) ?_
  rintro _ rfl
  refine Runs.bind (runs_lineRows lawful v (full - frameCols) cap) ?_
  rintro _ rfl
  have under := lineRowsOf_le kit v (full - frameCols) (by omega : 1 ≤ cap)
  have fewer := lineRowsOf_mono lawful v (full - frameCols) (Nat.sub_le cap 3)
  have kept : tryU16 (min (sessionLines kit v without.columns).length listRowsWithPreview) ≤ 8 := by
    unfold tryU16 listRowsWithPreview
    omega
  generalize tryU16 (min (sessionLines kit v without.columns).length listRowsWithPreview) = list at kept ⊢
  dsimp only
  refine Runs.bind (runs_add (by omega)) ?_
  rintro _ rfl
  refine Runs.ite (fun ⟨_, room⟩ => ?_) fun _ => Runs.pure fits
  change 4 ≤ _ at room
  refine Runs.bind (SessionCols.runs_fitted kit v.rows _) fun columns _ => Runs.pure ?_
  refine ⟨by dsimp only; omega, tall, cols, rows, ?_, ?_⟩
  · rintro _ _ ⟨⟩
    unfold frameCols at *
    exact ⟨by omega, by dsimp only; omega⟩
  · rintro _ _ ⟨⟩
    exact shown

theorem wantedCols_ge (kit : Toolkit) (v : SessionsView) : 14 ≤ wantedCols kit v := by
  have named : 10 ≤ (SessionCols.of kit v.rows).width := by
    have least : 8 ≤ (SessionCols.of kit v.rows).name := Nat.le_max_left _ _
    unfold SessionCols.width
    omega
  unfold wantedCols saturatingAdd tryU16 frameCols
  simp only [List.foldl_cons, List.foldl_nil]
  omega

theorem runs_planPlain (lawful : kit.Lawful) (v : SessionsView) {full cap : Nat} {size : TermSize} (wide : 16 ≤ full)
    (cols : full ≤ size.cols.toNat) (tall : 4 ≤ cap) (rows : cap ≤ size.rows.toNat) :
    Runs (planPlain kit v full cap) (PlanFits kit v size) := by
  have wanted := wantedCols_ge kit v
  unfold planPlain
  generalize wantedCols kit v = wanted_ at wanted
  refine Runs.bind (runs_sub (a := min wanted_ full) (by unfold frameCols; omega)) ?_
  rintro _ rfl
  refine Runs.bind (SessionCols.runs_fitted kit v.rows _) fun columns _ => ?_
  refine Runs.bind (runs_lineRows lawful v _ _) ?_
  rintro _ rfl
  have counted : 1 ≤ (sessionLines kit v columns).length := by
    rw [sessionLines, List.length_append]
    exact Nat.le_add_left _ _
  generalize (sessionLines kit v columns).length = lines at counted
  have height : 4 ≤ saturatingAdd (tryU16 (lines + oneUnless v.header +
      lineRowsOf kit v (min wanted_ full - frameCols) cap + 2)) 2 := by
    unfold saturatingAdd tryU16
    omega
  dsimp only
  generalize saturatingAdd (tryU16 (lines + oneUnless v.header +
      lineRowsOf kit v (min wanted_ full - frameCols) cap + 2)) 2 = high at height ⊢
  exact Runs.pure ⟨by dsimp only; omega, by dsimp only; omega, by dsimp only; omega, by dsimp only; omega,
    fun _ _ shown => (nomatch shown), fun _ _ shown => (nomatch shown)⟩

theorem runs_planSessions (lawful : kit.Lawful) (v : SessionsView) {size : TermSize} (box : ¬ tooSmall size) :
    Runs (planSessions kit v size) (PlanFits kit v size) := by
  obtain ⟨wide, tall⟩ := not_tooSmall box
  have maxCols : maxBox.cols.toNat = 72 := rfl
  have maxRows : maxBox.rows.toNat = 24 := rfl
  unfold planSessions
  rw [maxCols, maxRows]
  refine Runs.bind (runs_sub (by omega)) ?_
  rintro _ rfl
  refine Runs.bind (runs_sub (by omega)) ?_
  rintro _ rfl
  have full : 16 ≤ min (size.cols.toNat - 4) 72 ∧ min (size.cols.toNat - 4) 72 ≤ size.cols.toNat := by omega
  have cap : 4 ≤ min (size.rows.toNat - 2) 24 ∧ min (size.rows.toNat - 2) 24 ≤ size.rows.toNat := by omega
  refine Runs.bind (runs_planPlain lawful v full.1 full.2 cap.1 cap.2) fun without fits => ?_
  split
  next => exact Runs.pure fits
  next p shown =>
    exact runs_planPreview lawful shown full.1 full.2 cap.1 cap.2 (Nat.min_le_right _ _) fits

theorem runs_stampPreview {preview : Option (PreviewPane × Nat)} {pane : Option Rect} {o : Overlay} {low high : Nat}
    (valid : ∀ s n, preview = some (.screen s, n) → s.Valid) (wide : 4 ≤ o.cols.toNat) (above : high ≤ o.rows.toNat)
    (inside : ∀ area, pane = some area → area.x = 2 ∧ area.width = o.cols.toNat - 4 ∧ low ≤ area.y ∧
      area.y + area.height ≤ high) : Runs (stampPreview preview pane o) (Stamped low high o) := by
  unfold stampPreview
  split
  next _ _ s n area =>
    obtain ⟨x, width, lower, ends⟩ := inside area rfl
    exact (runs_stamp (valid s n rfl) (by omega) (by omega)).mono fun _ stamped => stamped.mono lower ends
  next => exact Runs.pure (Stamped.refl _ _ o)

/-- The selector is on the screen, with its key bar, and its list has the row of the cursor. -/
theorem runs_layoutSessions (lawful : kit.Lawful) (v : SessionsView) {size : TermSize}
    (valid : ∀ s, v.preview = some (.screen s) → s.Valid) (cols : 1 ≤ size.cols.toNat)
    (rows : 1 ≤ size.rows.toNat) : Runs (layoutSessions kit v size) fun o => Inside size o ∧ (¬ tooSmall size →
      Barred kit v.title (fittedKeyLine kit v.keys (o.cols.toNat - frameCols)) o ∧
      ∃ plan list, sessionsList kit v size = some (plan, list) ∧
        (1 ≤ list.height → Listed kit list (cursorLine kit v plan.columns) o)) := by
  unfold layoutSessions
  refine Runs.ite (fun none => ?_) fun box => ?_
  · exact (runs_reversedLine lawful _ cols rows).mono fun o inside => ⟨inside, fun box => absurd none box⟩
  obtain ⟨plan, planned, fits⟩ := runs_planSessions lawful v box
  have colsLt := size.cols.toNat_lt
  have rowsLt := size.rows.toNat_lt
  have wide := fits.wide
  have tall := fits.tall
  have across := fits.cols
  have down := fits.rows
  obtain ⟨⟨list, pane, buf⟩, found, around⟩ :=
    runs_aroundList lawful v plan.preview wide tall (by omega) (by omega) fits.room
  have here : sessionsList kit v size = some (plan, list) := by
    simp only [sessionsList, planned, found, Option.bind_eq_bind, Option.bind_some]
  obtain ⟨x, width, lower, ends, changes, below⟩ := around
  dsimp only at x width lower ends changes below
  obtain ⟨startWidth, startHeight⟩ :=
    barred_size lawful v.title (fittedKeyLine kit v.keys (plan.cols - frameCols)) plan.cols plan.rows
  have bufWidth := changes.width
  have bufHeight := changes.height
  have room : Fits buf list := ⟨by omega, by omega, by omega, by omega⟩
  obtain ⟨text, row, line⟩ := cursorLine_eq kit v plan.columns
  obtain ⟨last, drawn, more, visible⟩ := runs_drawList (v := v) lawful (sessionLines kit v plan.columns) room
  have visible := visible text row
  rw [line] at visible
  have lastWidth := more.width
  have sessions : drawSessions kit v (sessionLines kit v plan.columns) plan.cols plan.rows plan.preview =
      some (last, pane) := by
    simp only [drawSessions, found, drawn, Option.bind_eq_bind, Option.bind_some]
  refine Runs.bind_some planned (Runs.bind_some sessions ?_)
  refine Runs.bind (runs_centred lawful (changes.trans (more.mono lower ends)) (by omega) down across)
    fun o ⟨inside, bar, oRows, oCols, cells⟩ => ?_
  have stamps : Runs (stampPreview plan.preview pane o)
      (Stamped (list.y + list.height) (plan.rows - 2) o) := by
    refine runs_stampPreview (fun s n shown => valid s (fits.preview _ n shown)) (by omega) (by omega) ?_
    rintro area rfl
    obtain ⟨areaX, areaWidth, lower, upper⟩ := below area rfl
    exact ⟨areaX, by omega, lower, upper⟩
  refine stamps.mono fun after stamped => ⟨inside.stamped stamped, fun _ => ⟨?_, plan, list, here, fun some_ => ?_⟩⟩
  · rw [stamped.cols, oCols]
    exact bar.stamped stamped (by omega)
  · exact ((visible some_).listed lawful (by omega) cells (by omega)).stamped stamped (Nat.le_refl _)

end Specs
end Oxutrm.Popup
