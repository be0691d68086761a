import Oxutrm.Popup.Boxes

/-!
The status view: what the popup says of the link, laid out in a box as tall as it needs.
-/
namespace Oxutrm.Popup
open Proto Drawing Checked
open Paint (Overlay)

/-- Below this the box is dropped for a single line. -/
def minBox : TermSize := { cols := 20, rows := 6 }

/-- The largest box, whatever the screen. -/
def maxBox : TermSize := { cols := 72, rows := 24 }

def tooSmall (size : TermSize) : Prop := size.cols < minBox.cols ∨ size.rows < minBox.rows

instance (size : TermSize) : Decidable (tooSmall size) := inferInstanceAs (Decidable (_ ∨ _))

inductive Marker where
  | live
  | silent
  | recovering
  | liveAgain
  deriving DecidableEq, Repr

def Marker.color : Marker → RColor
  | .live | .liveAgain => .green
  | .silent => .yellow
  | .recovering => .red

/-- A row of two columns. -/
structure Row where
  label : Text
  text : Text
  deriving DecidableEq, Repr

structure PopupView where
  title : Text
  marker : Marker
  markerText : Text
  header : Text
  attempts : List Row
  held : List Text
  rtt : Text
  /-- Nothing is a gap. -/
  spark : List (Option Nat)
  quality : List Text
  standby : List Text
  log : List Row
  keys : List KeyHint
  line : List Text
  deriving DecidableEq, Repr

def headerGap : Text := "   ".toList
def sparkGap : Nat := 2
def attemptGap : Nat := 3
def logGap : Nat := 2
def standbyRule : Text := "standby".toList
def recentRule : Text := "recent".toList

def headerLine (v : PopupView) : Line :=
  [{ text := v.markerText, style := { fg := some v.marker.color, modifier := { bold := true } } }] ++
    if v.header = [] then [] else [{ text := headerGap }, { text := v.header }]

section Drawing
variable (kit : Toolkit)

/-- The column the texts start in, or none where that leaves them too little room. -/
def textColumn (rows : List Row) (gap width : Nat) : Nat :=
  let widest := (rows.map fun r => kit.lineWidth (Line.ofText r.label)).foldl max 0
  let col := saturatingAdd (tryU16 widest) gap
  if saturatingAdd col 8 > width then 0 else col

/-- The row as one line. -/
def runTogether (row : Row) : Line :=
  if row.label = [] then Line.ofText row.text else Line.ofText (row.label ++ [' '] ++ row.text)

def rowHeight (row : Row) (col width height : Nat) : Option Nat :=
  if col = 0 then do
    let rows ← wrappedRowCount kit [runTogether row] width height
    some (max rows 1)
  else do
    let width ← sub width col
    let rows ← wrappedRowCount kit [Line.ofText row.text] width height
    some (max rows 1)

def drawRow (row : Row) (col : Nat) (area : Rect) (height : Nat) (buf : Buffer) : Option Buffer :=
  if col = 0 then
    paint kit (.paragraph { lines := [runTogether row], trim := some false }) { area with height := height } buf
  else do
    let buf ← setString kit buf area.x area.y row.label col
    let x ← add 16 area.x col
    let width ← sub area.width col
    paint kit (.paragraph { lines := [Line.ofText row.text], trim := some false }) ⟨x, area.y, width, height⟩ buf

def placeRowsFrom (col : Nat) : List Row → Rect → Buffer → Option (Rect × Buffer)
  | [], area, buf => some (area, buf)
  | row :: rows, area, buf =>
      if area.height = 0 then some (area, buf)
      else do
        let h ← rowHeight kit row col area.width area.height
        let buf ← drawRow kit row col area h buf
        let area ← below area h
        placeRowsFrom col rows area buf

/-- Rows at the top of the area, each text hanging under itself. -/
def placeRows (rows : List Row) (gap : Nat) (area : Rect) (buf : Buffer) : Option (Rect × Buffer) :=
  placeRowsFrom kit (textColumn kit rows gap area.width) rows area buf

/-- One cell for each sample, the newest at the right edge. -/
def drawSpark (spark : List (Option Nat)) (used : Nat) (row : Rect) (buf : Buffer) : Option Buffer :=
  if spark.any Option.isSome = true ∧ used < row.width then do
    let width ← sub row.width used
    let shown := spark.drop (spark.length - width)
    let top := max (((shown.filterMap id).max?).getD 1) 1
    let gaps ← sub width shown.length
    let x ← add 16 row.x used
    paint kit (.sparkline (List.replicate gaps none ++ shown) top) { row with x := x, width := width } buf
  else some buf

/-- The text, then the samples. -/
def placeRtt (text : Text) (spark : List (Option Nat)) (area : Rect) (buf : Buffer) : Option (Rect × Buffer) :=
  if area.height = 0 ∨ (text = [] ∧ spark.any Option.isSome = false) then some (area, buf)
  else do
    let row := { area with height := 1 }
    let buf ← paint kit (.paragraph { lines := linesOf text }) row buf
    let used := saturatingAdd (tryU16 (kit.lineWidth (Line.ofText text))) sparkGap
    let buf ← drawSpark kit spark used row buf
    let left ← below area 1
    some (left, buf)

/-- The newest entries that fit, newest first, and the rows they take. -/
def keepLog (col : Nat) (area : Rect) :
    List Row → (used : Nat) → List (Row × Nat) → Option (Nat × List (Row × Nat))
  | [], used, kept => some (used, kept)
  | entry :: entries, used, kept => do
      let rows ← rowHeight kit entry col area.width area.height
      let sum ← add 16 used rows
      if sum > area.height then some (used, kept) else keepLog col area entries sum (kept ++ [(entry, rows)])

def drawLog (col : Nat) : List (Row × Nat) → Rect → Buffer → Option Buffer
  | [], _, buf => some buf
  | (entry, rows) :: kept, area, buf => do
      let buf ← drawRow kit entry col area rows buf
      let area ← below area rows
      drawLog col kept area buf

/-- The log from the top of the area, newest last. -/
def placeLog (log : List Row) (area : Rect) (buf : Buffer) : Option (Nat × Buffer) :=
  if area.height = 0 then some (0, buf)
  else do
    let col := textColumn kit log logGap area.width
    let (used, kept) ← keepLog kit col area log.reverse 0 []
    let buf ← drawLog kit col kept.reverse area buf
    some (used, buf)

/-- With something held the header keeps to one row. -/
def placeHeader (v : PopupView) (area : Rect) (buf : Buffer) : Option (Rect × Buffer) :=
  if v.held = [] then place kit [headerLine v] area buf else placeOne kit (headerLine v) area buf

/-- The attempts, then the held section, which is sized before them. -/
def placeOutage (v : PopupView) (body : Rect) (buf : Buffer) : Option (Rect × Buffer) := do
  let held := plain v.held
  let heldRows ← wrappedRowCount kit held body.width body.height
  let aboveHeld ← sub body.height heldRows
  let (afterAttempts, buf) ← placeRows kit v.attempts attemptGap { body with height := aboveHeld } buf
  let left ← sub (bottom body) afterAttempts.y
  place kit held { afterAttempts with height := left } buf

def placeStandby (v : PopupView) (cols : Nat) (body : Rect) (buf : Buffer) : Option (Rect × Buffer) :=
  if v.standby ≠ [] ∧ body.height ≥ 2 then do
    let buf ← rule kit buf body.y cols (some standbyRule)
    let area ← below body 1
    place kit (plain v.standby) area buf
  else some (body, buf)

/-- The row the content ends above. -/
def placeRecent (v : PopupView) (cols : Nat) (body : Rect) (buf : Buffer) : Option (Nat × Buffer) :=
  if v.log ≠ [] ∧ body.height ≥ 2 then do
    let buf ← rule kit buf body.y cols (some recentRule)
    let log ← below body 1
    let (used, buf) ← placeLog kit v.log log buf
    let end_ ← add 16 log.y used
    some (end_, buf)
  else some (body.y, buf)

/-- The sections under the content, above the plain rule, and the rows that are needed. -/
def drawSections (v : PopupView) (cols : Nat) (aboveBar body : Rect) (buf : Buffer) : Option (Buffer × Nat) :=
  if body.height = 0 then do
    let used ← add 16 aboveBar.height 1
    some (buf, used)
  else do
    let y ← sub (bottom body) 1
    let buf ← rule kit buf y cols none
    let height ← sub body.height 1
    let (body, buf) ← placeStandby kit v cols { body with height := height } buf
    let (end_, buf) ← placeRecent kit v cols body buf
    let content ← sub end_ aboveBar.y
    let used ← add 16 content 2
    some (buf, used)

/-- The box, and how many rows inside its border the content needs. -/
def draw (v : PopupView) (cols rows : Nat) : Option (Buffer × Nat) := do
  let (buf, aboveBar) ← framed kit v.title (keyLine v.keys) cols rows
  let (body, buf) ← placeHeader kit v aboveBar buf
  let (body, buf) ← placeOutage kit v body buf
  let (body, buf) ← placeRtt kit v.rtt v.spark body buf
  let (body, buf) ← place kit (plain v.quality) body buf
  drawSections kit v cols aboveBar body buf

/-- The text in reverse video on the top row. -/
def reversedLine (text : Text) (size : TermSize) : Option Overlay := do
  let cols := max size.cols.toNat 1
  let line : Line := [{ text := text, style := { modifier := { reversed := true } } }]
  let buf ← paint kit (.paragraph { lines := [line] }) ⟨0, 0, cols, 1⟩ (emptyBuffer cols 1)
  overlayFromBuffer kit buf 0 0

/-- The first text that fits, else the last. -/
def singleLine (v : PopupView) (size : TermSize) : Option Overlay :=
  let width := max size.cols.toNat 1
  let texts := if v.line = [] then ["oxutrm: ".toList ++ v.markerText] else v.line
  let text := ((texts.find? fun t => kit.lineWidth (Line.ofText t) ≤ width).or texts.getLast?).getD []
  reversedLine kit text size

/-- `clamp` panics on bounds that are the wrong way round. -/
def clamp (n low high : Nat) : Option Nat := if low ≤ high then some (max low (min n high)) else none

def layoutPopup (v : PopupView) (size : TermSize) : Option Overlay :=
  if tooSmall size then singleLine kit v size
  else do
    let width ← sub size.cols.toNat 4
    let cols := min width maxBox.cols.toNat
    let height ← sub size.rows.toNat 2
    let cap := min height maxBox.rows.toNat
    let (_, used) ← draw kit v cols cap
    let rows ← clamp (saturatingAdd used 2) 4 cap
    let (buf, _) ← draw kit v cols rows
    centred kit buf cols rows size

end Drawing

section Specs
variable {kit : Toolkit} {area : Rect} {buf : Buffer}

theorem textColumn_le (kit : Toolkit) (rows : List Row) (gap width : Nat) : textColumn kit rows gap width ≤ width := by
  unfold textColumn
  dsimp only
  generalize (rows.map fun r => kit.lineWidth (Line.ofText r.label)).foldl max 0 = widest
  unfold saturatingAdd tryU16
  split_ifs with cramped
  · exact Nat.zero_le _
  · omega

theorem runs_rowHeight (lawful : kit.Lawful) (row : Row) {col width height : Nat} (column : col ≤ width)
    (room : 1 ≤ height) : Runs (rowHeight kit row col width height) fun h => 1 ≤ h ∧ h ≤ height := by
  unfold rowHeight
  refine Runs.ite (fun _ => ?_) fun _ => ?_
  · refine Runs.bind (runs_wrappedRowCount lawful _ _ _) ?_
    rintro _ rfl
    have used := wrappedRows_le kit [runTogether row] width height
    exact Runs.pure ⟨Nat.le_max_right _ _, Nat.max_le.mpr ⟨used, room⟩⟩
  · refine Runs.bind (runs_sub column) ?_
    rintro _ rfl
    refine Runs.bind (runs_wrappedRowCount lawful _ _ _) ?_
    rintro _ rfl
    have used := wrappedRows_le kit [Line.ofText row.text] (width - col) height
    exact Runs.pure ⟨Nat.le_max_right _ _, Nat.max_le.mpr ⟨used, room⟩⟩

theorem runs_drawRow (lawful : kit.Lawful) (row : Row) {col height : Nat} (fits : Fits buf area)
    (column : col ≤ area.width) (some_ : 1 ≤ height) (room : height ≤ area.height) :
    Runs (drawRow kit row col area height buf) (Changes area.y (area.y + height) buf) := by
  obtain ⟨columns, rows, width, short⟩ := fits
  unfold drawRow
  refine Runs.ite (fun _ => ?_) fun own => ?_
  · exact runs_paint lawful _ ⟨columns, by dsimp only; omega⟩
  · refine Runs.bind (runs_setString lawful (by omega) (by omega) _ _) fun labelled changes => ?_
    have sameWidth := changes.width
    have sameHeight := changes.height
    refine Runs.bind (runs_add (by omega)) ?_
    rintro _ rfl
    refine Runs.bind (runs_sub column) ?_
    rintro _ rfl
    refine (runs_paint lawful _ ⟨by dsimp only; omega, by dsimp only; omega⟩).mono fun drawn more => ?_
    exact (changes.mono (Nat.le_refl _) (by omega)).trans more

theorem runs_placeRowsFrom (lawful : kit.Lawful) {col : Nat} (rows : List Row) (fits : Fits buf area)
    (column : col ≤ area.width) : Runs (placeRowsFrom kit col rows area buf) (Placed area buf) := by
  induction rows generalizing area buf with
  | nil => exact Runs.pure (Placed.refl area buf)
  | cons row rows ih =>
      rw [placeRowsFrom]
      refine Runs.ite (fun _ => Runs.pure (Placed.refl area buf)) fun some_ => ?_
      refine Runs.bind (runs_rowHeight lawful row column (by omega)) fun h ⟨positive, room⟩ => ?_
      refine Runs.bind (runs_drawRow lawful row fits column positive room) fun drawn changes => ?_
      have placed := placed_below room changes
      refine Runs.bind (runs_below (fits.changes changes) h) ?_
      rintro _ rfl
      exact (ih (placed.fits fits) column).mono fun _ rest => placed.trans rest

theorem runs_placeRows (lawful : kit.Lawful) (rows : List Row) (gap : Nat) (fits : Fits buf area) :
    Runs (placeRows kit rows gap area buf) (Placed area buf) :=
  runs_placeRowsFrom lawful rows fits (textColumn_le kit rows gap area.width)

theorem runs_drawSpark (lawful : kit.Lawful) (spark : List (Option Nat)) (used : Nat) (fits : Fits buf area)
    (single : area.height = 1) : Runs (drawSpark kit spark used area buf) (Changes area.y (area.y + 1) buf) := by
  have ⟨columns, rows, width, short⟩ := fits
  unfold drawSpark
  refine Runs.ite (fun ⟨_, beside⟩ => ?_) fun _ => Runs.pure (Changes.refl _ _ buf)
  refine Runs.bind (runs_sub (Nat.le_of_lt beside)) ?_
  rintro _ rfl
  refine Runs.bind (runs_sub (by rw [List.length_drop]; omega)) ?_
  rintro _ rfl
  refine Runs.bind (runs_add (by omega)) ?_
  rintro _ rfl
  have holds : buf.Holds ⟨area.x + used, area.y, area.width - used, area.height⟩ := ⟨by dsimp only; omega, rows⟩
  refine (runs_paint lawful _ holds).mono fun _ changes => ?_
  exact changes.mono (Nat.le_refl _) (Nat.le_of_eq (congrArg (area.y + ·) single))

theorem runs_placeRtt (lawful : kit.Lawful) (text : Text) (spark : List (Option Nat)) (fits : Fits buf area) :
    Runs (placeRtt kit text spark area buf) (Placed area buf) := by
  unfold placeRtt
  refine Runs.ite (fun _ => Runs.pure (Placed.refl area buf)) fun some_ => ?_
  have room : 1 ≤ area.height := by
    by_contra none
    exact some_ (.inl (by omega))
  have row : Fits buf { area with height := 1 } :=
    ⟨fits.columns, (Nat.add_le_add_left room _).trans fits.rows, fits.width, fits.height⟩
  refine Runs.bind (runs_paint lawful _ row.holds) fun first changes => ?_
  refine Runs.bind (runs_drawSpark lawful spark _ (row.changes changes) rfl) fun second more => ?_
  have all := changes.trans more
  refine Runs.bind (runs_below (fits.changes all) 1) ?_
  rintro _ rfl
  exact Runs.pure (placed_below room all)

/-- How many rows the entries take. -/
def total (kept : List (Row × Nat)) : Nat := (kept.map Prod.snd).sum

/-- What is kept of a log fits, and takes a row at least. -/
structure Kept (height : Nat) (kept : Nat × List (Row × Nat)) : Prop where
  sum : total kept.2 = kept.1
  room : kept.1 ≤ height
  some_ : ∀ entry ∈ kept.2, 1 ≤ entry.2

theorem runs_keepLog (lawful : kit.Lawful) {col : Nat} (column : col ≤ area.width) (room : 1 ≤ area.height)
    (small : area.height < 2 ^ 15) (entries : List Row) {used : Nat} {kept : List (Row × Nat)}
    (start : Kept area.height (used, kept)) : Runs (keepLog kit col area entries used kept) (Kept area.height) := by
  induction entries generalizing used kept with
  | nil => exact Runs.pure start
  | cons entry entries ih =>
      rw [keepLog]
      obtain ⟨sum, within, some_⟩ := start
      dsimp only at sum within
      refine Runs.bind (runs_rowHeight lawful entry column room) fun h ⟨positive, tall⟩ => ?_
      refine Runs.bind (runs_add (by omega)) ?_
      rintro _ rfl
      refine Runs.ite (fun _ => Runs.pure ⟨sum, within, some_⟩) fun fits => ih ⟨?_, by dsimp only; omega, ?_⟩
      · simp only [total, List.map_append, List.sum_append, List.map_singleton, List.sum_singleton]
        rw [← sum]
        rfl
      · intro other member
        rcases List.mem_append.mp member with old | new
        · exact some_ other old
        · rw [List.mem_singleton.mp new]
          exact positive

theorem runs_drawLog (lawful : kit.Lawful) {col : Nat} (kept : List (Row × Nat)) (fits : Fits buf area)
    (column : col ≤ area.width) (room : total kept ≤ area.height) (some_ : ∀ entry ∈ kept, 1 ≤ entry.2) :
    Runs (drawLog kit col kept area buf) (Changes area.y (area.y + area.height) buf) := by
  induction kept generalizing area buf with
  | nil => exact Runs.pure (Changes.refl _ _ buf)
  | cons entry kept ih =>
      obtain ⟨entry, rows⟩ := entry
      rw [drawLog]
      simp only [total, List.map_cons, List.sum_cons] at room
      have positive := some_ (entry, rows) List.mem_cons_self
      refine Runs.bind (runs_drawRow lawful entry fits column positive (by omega)) fun drawn changes => ?_
      have placed := placed_below (n := rows) (by omega) changes
      refine Runs.bind (runs_below (fits.changes changes) rows) ?_
      rintro _ rfl
      refine (ih (placed.fits fits) column ?_ fun other member => some_ other (List.mem_cons_of_mem _ member)).mono
        fun _ rest => placed.changes.trans (rest.mono placed.lower (Nat.le_of_eq placed.ends))
      dsimp only [total]
      omega

theorem runs_placeLog (lawful : kit.Lawful) (log : List Row) (fits : Fits buf area) (small : area.height < 2 ^ 15) :
    Runs (placeLog kit log area buf) fun placed =>
      placed.1 ≤ area.height ∧ Changes area.y (area.y + area.height) buf placed.2 := by
  unfold placeLog
  refine Runs.ite (fun none => Runs.pure ⟨Nat.zero_le _, Changes.refl _ _ buf⟩) fun some_ => ?_
  have column := textColumn_le kit log logGap area.width
  refine Runs.bind (runs_keepLog lawful column (by omega) small log.reverse ⟨rfl, Nat.zero_le _, nofun⟩) ?_
  rintro ⟨used, kept⟩ ⟨sum, room, positive⟩
  dsimp only at sum room positive ⊢
  refine Runs.bind (runs_drawLog lawful kept.reverse fits column ?_ ?_) fun drawn changes =>
    Runs.pure ⟨room, changes⟩
  · have same : total kept.reverse = total kept := by
      rw [total, List.map_reverse, List.sum_reverse]
      rfl
    omega
  · exact fun entry member => positive entry (List.mem_reverse.mp member)

theorem runs_placeHeader (lawful : kit.Lawful) (v : PopupView) (fits : Fits buf area) :
    Runs (placeHeader kit v area buf) (Placed area buf) :=
  Runs.ite (fun _ => runs_place lawful _ fits) fun _ => (runs_placeOne lawful _ fits).mono fun _ one => one.1

theorem runs_placeOutage (lawful : kit.Lawful) (v : PopupView) (fits : Fits buf area) :
    Runs (placeOutage kit v area buf) (Placed area buf) := by
  have ends := fits.bottom
  have rows := fits.rows
  unfold placeOutage
  refine Runs.bind (runs_wrappedRowCount lawful (plain v.held) area.width area.height) ?_
  rintro _ rfl
  have held := wrappedRows_le kit (plain v.held) area.width area.height
  generalize wrappedRows kit (plain v.held) area.width area.height = heldRows at held
  refine Runs.bind (runs_sub held) ?_
  rintro _ rfl
  have upper : Fits buf { area with height := area.height - heldRows } :=
    ⟨fits.columns, by dsimp only; omega, fits.width, fits.height⟩
  refine Runs.bind (runs_placeRows lawful v.attempts attemptGap upper) ?_
  rintro ⟨after, drawn⟩ placed
  have lower := placed.lower
  have ends' := placed.ends
  dsimp only at lower ends' ⊢
  refine Runs.bind (runs_sub (by omega)) ?_
  rintro _ rfl
  -- What is left reaches down to the end of the area again.
  have whole : Placed area buf ({ after with height := bottom area - after.y }, drawn) :=
    ⟨placed.x, placed.width, lower, by dsimp only; omega, placed.changes.mono (Nat.le_refl _) (by dsimp only; omega)⟩
  exact (runs_place lawful _ (whole.fits fits)).mono fun _ rest => whole.trans rest

theorem runs_placeStandby (lawful : kit.Lawful) (v : PopupView) {cols : Nat} (wide : 2 ≤ cols)
    (column : cols ≤ buf.width) (fits : Fits buf area) :
    Runs (placeStandby kit v cols area buf) (Placed area buf) := by
  have rows := fits.rows
  unfold placeStandby
  refine Runs.ite (fun ⟨_, room⟩ => ?_) fun _ => Runs.pure (Placed.refl area buf)
  refine Runs.bind (runs_rule lawful wide column (by omega) _) fun drawn changes => ?_
  have placed := placed_below (n := 1) (by omega) changes
  refine Runs.bind (runs_below (fits.changes changes) 1) ?_
  rintro _ rfl
  exact (runs_place lawful _ (placed.fits fits)).mono fun _ rest => placed.trans rest

theorem runs_placeRecent (lawful : kit.Lawful) (v : PopupView) {cols : Nat} (wide : 2 ≤ cols)
    (column : cols ≤ buf.width) (fits : Fits buf area) (small : area.height < 2 ^ 15) :
    Runs (placeRecent kit v cols area buf) fun placed => area.y ≤ placed.1 ∧
      placed.1 ≤ area.y + area.height ∧ Changes area.y (area.y + area.height) buf placed.2 := by
  have rows := fits.rows
  have short := fits.height
  unfold placeRecent
  refine Runs.ite (fun ⟨_, room⟩ => ?_) fun _ => Runs.pure ⟨Nat.le_refl _, Nat.le_add_right _ _, Changes.refl _ _ buf⟩
  refine Runs.bind (runs_rule lawful wide column (by omega) _) fun drawn changes => ?_
  have placed := placed_below (n := 1) (by omega) changes
  have lower := placed.lower
  have ends := placed.ends
  refine Runs.bind (runs_below (fits.changes changes) 1) ?_
  rintro _ rfl
  dsimp only at lower ends
  refine Runs.bind (runs_placeLog lawful v.log (placed.fits fits) (by dsimp only; omega)) ?_
  rintro ⟨used, logged⟩ ⟨within, more⟩
  dsimp only at within more ⊢
  refine Runs.bind (runs_add (by omega)) ?_
  rintro _ rfl
  exact Runs.pure ⟨by omega, by dsimp only; omega,
    placed.changes.trans (more.mono (by omega) (by omega))⟩

theorem runs_drawSections (lawful : kit.Lawful) (v : PopupView) {cols : Nat} {aboveBar : Rect} (wide : 2 ≤ cols)
    (column : cols ≤ buf.width) (fits : Fits buf area) (small : aboveBar.height < 2 ^ 15)
    (lower : aboveBar.y ≤ area.y) (ends : area.y + area.height = aboveBar.y + aboveBar.height) :
    Runs (drawSections kit v cols aboveBar area buf) fun drawn => Changes area.y (area.y + area.height) buf drawn.1 := by
  have rows := fits.rows
  have bottom := fits.bottom
  unfold drawSections
  refine Runs.ite (fun _ => ?_) fun some_ => ?_
  · refine Runs.bind (runs_add (by omega)) ?_
    rintro _ rfl
    exact Runs.pure (Changes.refl _ _ buf)
  · refine Runs.bind (runs_sub (by omega)) ?_
    rintro _ rfl
    refine Runs.bind (runs_rule lawful wide column (by omega) none) fun ruled changes => ?_
    refine Runs.bind (runs_sub (by omega)) ?_
    rintro _ rfl
    have upper : Placed area buf (area, ruled) := ⟨rfl, rfl, Nat.le_refl _, rfl, changes.mono (by omega) (by omega)⟩
    have above : Fits ruled { area with height := area.height - 1 } := by
      have fits := upper.fits fits
      exact ⟨fits.columns, by have := fits.rows; dsimp only at this ⊢; omega, fits.width, fits.height⟩
    have width := changes.width
    refine Runs.bind (runs_placeStandby lawful v wide (by omega) above) ?_
    rintro ⟨body, stood⟩ standby
    have fits' := standby.fits above
    have lower' := standby.lower
    have ends' := standby.ends
    have width' := standby.changes.width
    dsimp only at fits' lower' ends' width' ⊢
    refine Runs.bind (runs_placeRecent lawful v wide (by omega) fits' (by omega)) ?_
    rintro ⟨end_, logged⟩ ⟨low, high, recent⟩
    dsimp only at low high recent ⊢
    refine Runs.bind (runs_sub (by omega)) ?_
    rintro _ rfl
    refine Runs.bind (runs_add (by omega)) ?_
    rintro _ rfl
    exact Runs.pure ((upper.changes.trans (standby.changes.mono (Nat.le_refl _) (by dsimp only; omega))).trans
      (recent.mono lower' (by omega)))

theorem runs_draw (lawful : kit.Lawful) (v : PopupView) {cols rows : Nat} (wide : 4 ≤ cols) (tall : 3 ≤ rows)
    (narrow : cols < 2 ^ 16) (small : rows < 2 ^ 15) :
    Runs (draw kit v cols rows) fun drawn =>
      Changes 1 (rows - 2) (barred kit v.title (keyLine v.keys) cols rows) drawn.1 := by
  have size := barred_size lawful v.title (keyLine v.keys) cols rows
  unfold draw
  refine Runs.bind (runs_framed lawful v.title (keyLine v.keys) wide tall (by omega)) ?_
  rintro _ rfl
  generalize barred kit v.title (keyLine v.keys) cols rows = start at size ⊢
  obtain ⟨startWidth, startHeight⟩ := size
  have fits : Fits start ⟨2, 1, cols - 4, rows - 3⟩ :=
    ⟨by dsimp only; omega, by dsimp only; omega, by omega, by omega⟩
  dsimp only
  refine Runs.bind (runs_placeHeader lawful v fits) fun ⟨_, _⟩ header => ?_
  refine Runs.bind (runs_placeOutage lawful v (header.fits fits)) fun ⟨_, _⟩ outage => ?_
  have outage := header.trans outage
  refine Runs.bind (runs_placeRtt lawful v.rtt v.spark (outage.fits fits)) fun ⟨_, _⟩ rtt => ?_
  have rtt := outage.trans rtt
  refine Runs.bind (runs_place lawful (plain v.quality) (rtt.fits fits)) fun ⟨body, drawn⟩ quality => ?_
  have quality := rtt.trans quality
  have lower := quality.lower
  have ends := quality.ends
  have width := quality.changes.width
  dsimp only at lower ends width ⊢
  have column : cols ≤ drawn.width := by omega
  refine (runs_drawSections lawful v (by omega) column (quality.fits fits) (by dsimp only; omega) lower ends).mono
    fun _ sections => ?_
  exact (quality.changes.trans (sections.mono lower (Nat.le_of_eq ends))).mono (Nat.le_refl _)
    (by dsimp only; omega)

theorem runs_clamp {n low high : Nat} (room : low ≤ high) :
    Runs (clamp n low high) fun m => low ≤ m ∧ m ≤ high :=
  ⟨_, if_pos room, Nat.le_max_left _ _, Nat.max_le.mpr ⟨room, Nat.min_le_right _ _⟩⟩

theorem not_tooSmall {size : TermSize} (box : ¬ tooSmall size) : 20 ≤ size.cols.toNat ∧ 6 ≤ size.rows.toNat := by
  have large := not_or.mp box
  rw [UInt16.not_lt, UInt16.not_lt, UInt16.le_iff_toNat_le, UInt16.le_iff_toNat_le] at large
  exact large

theorem runs_reversedLine (lawful : kit.Lawful) (text : Text) {size : TermSize} (cols : 1 ≤ size.cols.toNat)
    (rows : 1 ≤ size.rows.toNat) : Runs (reversedLine kit text size) (Inside size) := by
  have small := size.cols.toNat_lt
  unfold reversedLine
  refine Runs.bind (runs_paint lawful _ ⟨Nat.le_of_eq (Nat.zero_add _), Nat.le_of_eq (Nat.zero_add _)⟩)
    fun buf changes => ?_
  have width : buf.width = max size.cols.toNat 1 := changes.width
  have height : buf.height = 1 := changes.height
  refine (runs_overlayFromBuffer kit (by omega) (by omega) (by decide) (by decide)).mono fun o shows => ?_
  have := shows.row
  have := shows.col
  have := shows.rows
  have := shows.cols
  exact ⟨by omega, by omega, o.filled⟩

theorem runs_layoutPopup (lawful : kit.Lawful) (v : PopupView) {size : TermSize} (cols : 1 ≤ size.cols.toNat)
    (rows : 1 ≤ size.rows.toNat) : Runs (layoutPopup kit v size) fun o =>
      Inside size o ∧ (¬ tooSmall size → Barred kit v.title (keyLine v.keys) o) := by
  unfold layoutPopup
  refine Runs.ite (fun none => ?_) fun box => ?_
  · exact (runs_reversedLine lawful _ cols rows).mono fun o inside => ⟨inside, fun box => absurd none box⟩
  obtain ⟨wide, tall⟩ := not_tooSmall box
  have colsLt := size.cols.toNat_lt
  have rowsLt := size.rows.toNat_lt
  have maxCols : maxBox.cols.toNat = 72 := rfl
  have maxRows : maxBox.rows.toNat = 24 := rfl
  refine Runs.bind (runs_sub (by omega)) ?_
  rintro _ rfl
  refine Runs.bind (runs_sub (by omega)) ?_
  rintro _ rfl
  refine Runs.bind (runs_draw lawful v (by omega) (by omega) (by omega) (by omega)) fun ⟨_, used⟩ _ => ?_
  dsimp only
  refine Runs.bind (runs_clamp (by omega)) fun height ⟨least, most⟩ => ?_
  refine Runs.bind (runs_draw lawful v (by omega) (by omega) (by omega) (by omega)) fun ⟨buf, _⟩ changes => ?_
  dsimp only at changes ⊢
  exact (runs_centred lawful changes (by omega) (by omega) (by omega)).mono fun o ⟨inside, bar, _⟩ =>
    ⟨inside, fun _ => bar⟩

end Specs
end Oxutrm.Popup
