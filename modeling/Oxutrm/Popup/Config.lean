import Oxutrm.Popup.Sessions

/-!
The config screen: sections of rows, each under a rule, scrolled to the row the cursor is
on, above a rule, a line of help and the key bar.
-/
namespace Oxutrm.Popup
open Proto Drawing Checked
open Paint (Overlay)

structure ConfigRow where
  name : Text
  /-- The value, or the text field while one is open on the row. -/
  value : Text
  changed : Bool
  origin : Text
  note : Text
  field : Bool
  deriving DecidableEq, Repr

structure ConfigSection where
  name : Text
  rows : List ConfigRow
  /-- A plain list, with no columns but an index. -/
  list : Bool
  deriving DecidableEq, Repr

structure ConfigView where
  title : Text
  header : Text
  sections : List ConfigSection
  /-- Counted across all sections. -/
  cursor : Nat
  help : Text
  keys : List KeyHint
  deriving DecidableEq, Repr

def nameCols : Nat := 18
def valueCols : Nat := 18
def originCols : Nat := 7
def indexCols : Nat := 4

/-- The row the cursor is on. -/
def ConfigView.selected (v : ConfigView) : Option ConfigRow := (v.sections.flatMap (·.rows))[v.cursor]?

inductive ConfigLine where
  | rule (name : Text)
  | row (r : ConfigRow) (selected list : Bool)
  deriving DecidableEq, Repr

def ConfigLine.isSelected : ConfigLine → Bool
  | .rule _ => false
  | .row _ selected _ => selected

/-- The lines of some sections, `n` rows being before them. -/
def configLinesFrom (cursor : Nat) : List ConfigSection → (n : Nat) → List ConfigLine
  | [], _ => []
  | s :: rest, n =>
      .rule s.name :: (s.rows.zipIdx n).map (fun (r, i) => .row r (decide (i = cursor)) s.list) ++
        configLinesFrom cursor rest (n + s.rows.length)

def configLines (v : ConfigView) : List ConfigLine := configLinesFrom v.cursor v.sections 0

/-- The line the cursor is on. -/
def selectedAt (lines : List ConfigLine) : Nat := (lines.findIdx? (·.isSelected)).getD 0

section Drawing
variable (kit : Toolkit)

def rowLine (r : ConfigRow) (selected list : Bool) (width : Nat) : Line :=
  let text :=
    if list then
      [cursorMarker selected, ' '] ++ column kit r.name indexCols false ++
        cut kit r.value (width - (2 + indexCols)) r.field
    else
      [cursorMarker selected, ' '] ++ column kit r.name nameCols false ++ column kit r.value valueCols r.field ++
        [if r.changed then '*' else ' ', ' '] ++ column kit r.origin originCols false ++ r.note
  [{ text := trimEnd text, style := if selected then { modifier := { bold := true } } else {} }]

def putHelp (v : ConfigView) (aboveBar : Rect) (buf : Buffer) : Option Buffer :=
  if aboveBar.height ≥ 1 then do
    let y ← sub (bottom aboveBar) 1
    paint kit (.paragraph { lines := linesOf v.help }) { aboveBar with y := y, height := 1 } buf
  else some buf

def putHelpRule (cols : Nat) (aboveBar : Rect) (buf : Buffer) : Option Buffer :=
  if aboveBar.height ≥ 2 then do
    let y ← sub (bottom aboveBar) 2
    rule kit buf y cols none
  else some buf

def putConfigHeader (v : ConfigView) (body : Rect) (buf : Buffer) : Option (Rect × Buffer) :=
  if v.header ≠ [] then placeOne kit (Line.ofText v.header) body buf else some (body, buf)

/-- Everything but the list, and the list's area. -/
def aroundConfig (v : ConfigView) (cols rows : Nat) : Option (Rect × Buffer) := do
  let (buf, aboveBar) ← framed kit v.title (keyLine v.keys) cols rows
  let buf ← putHelp kit v aboveBar buf
  let buf ← putHelpRule kit cols aboveBar buf
  putConfigHeader kit v { aboveBar with height := aboveBar.height - 2 } buf

def putConfigLine (cols : Nat) (body : Rect) (buf : Buffer) (entry : ConfigLine × Nat) : Option Buffer := do
  let y ← add 16 body.y (tryU16 entry.2)
  match entry.1 with
  | .rule name => rule kit buf y cols (some name)
  | .row r selected list =>
      paint kit (.paragraph { lines := [rowLine kit r selected list body.width] })
        { body with y := y, height := 1 } buf

/-- Scrolled just enough for the cursor's row to be the last one shown. -/
def drawConfigList (v : ConfigView) (cols : Nat) (body : Rect) (buf : Buffer) : Option Buffer :=
  let lines := configLines v
  let start := selectedAt lines + 1 - body.height
  ((lines.drop start).take body.height).zipIdx.foldlM (putConfigLine kit cols body) buf

def drawConfig (v : ConfigView) (cols rows : Nat) : Option Buffer := do
  let (body, buf) ← aroundConfig kit v cols rows
  drawConfigList kit v cols body buf

/-- How large the box is. -/
def planConfig (v : ConfigView) (size : TermSize) : Option (Nat × Nat) := do
  let across ← sub size.cols.toNat 4
  let down ← sub size.rows.toNat 2
  let lines := (configLines v).length + oneUnless v.header
  let wanted := saturatingAdd (tryU16 lines) (3 + 2)
  some (min across maxBox.cols.toNat, min wanted (min down maxBox.rows.toNat))

def smallText (v : ConfigView) : Text :=
  match v.selected with
  | some r => "oxutrm config \u00b7 ".toList ++ r.name ++ [' '] ++ r.value
  | none => "oxutrm config".toList

def layoutConfig (v : ConfigView) (size : TermSize) : Option Overlay :=
  if tooSmall size then reversedLine kit (smallText v) size
  else do
    let (cols, rows) ← planConfig v size
    let buf ← drawConfig kit v cols rows
    centred kit buf cols rows size

def configList (v : ConfigView) (size : TermSize) : Option Rect := do
  let (cols, rows) ← planConfig v size
  let (list, _) ← aroundConfig kit v cols rows
  some list

/-- The row the cursor is on as a line, if it is on one. -/
def selectedLine (v : ConfigView) (width : Nat) : Option Line :=
  ((v.sections.flatMap fun s => s.rows.map fun r => (r, s.list))[v.cursor]?).map fun (r, list) =>
    rowLine kit r true list width

end Drawing

section Specs
variable {kit : Toolkit} {v : ConfigView} {body : Rect} {buf : Buffer}

theorem row_mem {cursor n : Nat} {sections : List ConfigSection} {r : ConfigRow} {list : Bool} :
    ConfigLine.row r true list ∈ configLinesFrom cursor sections n ↔
      n ≤ cursor ∧ (sections.flatMap fun s => s.rows.map fun r => (r, s.list))[cursor - n]? = some (r, list) := by
  induction sections generalizing n with
  | nil => exact ⟨nofun, nofun⟩
  | cons s rest ih =>
      have here : ConfigLine.row r true list ∈
          (s.rows.zipIdx n).map (fun (r, i) => ConfigLine.row r (decide (i = cursor)) s.list) ↔
            n ≤ cursor ∧ s.rows[cursor - n]? = some r ∧ s.list = list := by
        rw [List.mem_map]
        constructor
        · rintro ⟨⟨r', i⟩, member, same⟩
          obtain ⟨rfl, chosen, rfl⟩ := ConfigLine.row.inj same
          obtain rfl := of_decide_eq_true chosen
          obtain ⟨least, found⟩ := List.mk_mem_zipIdx_iff_le_and_getElem?_sub.mp member
          exact ⟨least, found, rfl⟩
        · rintro ⟨least, found, rfl⟩
          exact ⟨(r, cursor), List.mk_mem_zipIdx_iff_le_and_getElem?_sub.mpr ⟨least, found⟩,
            congrArg (ConfigLine.row r · s.list) (decide_eq_true rfl)⟩
      rw [configLinesFrom, List.cons_append, List.mem_cons, List.mem_append, here, ih, List.flatMap_cons,
        List.getElem?_append, List.length_map, List.getElem?_map]
      constructor
      · rintro (no | ⟨least, found, rfl⟩ | ⟨least, found⟩)
        · nomatch no
        · obtain ⟨inside, _⟩ := List.getElem?_eq_some_iff.mp found
          rw [if_pos inside, found]
          exact ⟨least, rfl⟩
        · rw [if_neg (by omega), Nat.sub_sub]
          exact ⟨by omega, found⟩
      · rintro ⟨least, found⟩
        by_cases inside : cursor - n < s.rows.length
        · rw [if_pos inside, Option.map_eq_some_iff] at found
          obtain ⟨_, found, same⟩ := found
          cases same
          exact .inr (.inl ⟨least, found, rfl⟩)
        · rw [if_neg inside, Nat.sub_sub] at found
          exact .inr (.inr ⟨by omega, found⟩)

theorem selectedAt_eq {r : ConfigRow} {list : Bool}
    (chosen : (v.sections.flatMap fun s => s.rows.map fun r => (r, s.list))[v.cursor]? = some (r, list)) :
    (configLines v)[selectedAt (configLines v)]? = some (.row r true list) := by
  have member : ConfigLine.row r true list ∈ configLines v := row_mem.mpr ⟨Nat.zero_le _, chosen⟩
  unfold selectedAt
  cases found : (configLines v).findIdx? (·.isSelected) with
  | none => exact absurd (List.findIdx?_eq_none_iff.mp found _ member) Bool.noConfusion
  | some i =>
      obtain ⟨inside, selected, _⟩ := List.findIdx?_eq_some_iff_getElem.mp found
      rw [Option.getD_some, List.getElem?_eq_getElem inside]
      have there := List.getElem_mem inside
      cases line : (configLines v)[i] with
      | rule name =>
          rw [line] at selected
          nomatch selected
      | row r' selected' list' =>
          rw [line] at selected there
          change selected' = true at selected
          subst selected
          obtain ⟨_, also⟩ := row_mem.mp there
          cases chosen.symm.trans also
          rfl

theorem runs_putHelp (lawful : kit.Lawful) (v : ConfigView) (fits : Fits buf body) :
    Runs (putHelp kit v body buf) (Changes body.y (body.y + body.height) buf) := by
  have rows := fits.rows
  unfold putHelp
  rw [fits.bottom]
  refine Runs.ite (fun some_ => ?_) fun _ => Runs.pure (Changes.refl _ _ buf)
  refine Runs.bind (runs_sub (by omega)) ?_
  rintro _ rfl
  have holds : buf.Holds { body with y := body.y + body.height - 1, height := 1 } :=
    ⟨fits.columns, by dsimp only; omega⟩
  exact (runs_paint lawful _ holds).mono fun _ changes => changes.mono (by dsimp only; omega) (by dsimp only; omega)

theorem runs_putHelpRule (lawful : kit.Lawful) {cols : Nat} (fits : Fits buf body) (wide : 2 ≤ cols)
    (column : cols ≤ buf.width) :
    Runs (putHelpRule kit cols body buf) (Changes body.y (body.y + body.height) buf) := by
  have rows := fits.rows
  unfold putHelpRule
  rw [fits.bottom]
  refine Runs.ite (fun some_ => ?_) fun _ => Runs.pure (Changes.refl _ _ buf)
  refine Runs.bind (runs_sub (by omega)) ?_
  rintro _ rfl
  exact (runs_rule lawful wide column (by omega) none).mono fun _ changes => changes.mono (by omega) (by omega)

/-- What is around the config screen's list. -/
structure AroundConfig (kit : Toolkit) (v : ConfigView) (cols rows : Nat) (around : Rect × Buffer) : Prop where
  x : around.1.x = 2
  width : around.1.width = cols - 4
  lower : 1 ≤ around.1.y
  ends : around.1.y + around.1.height ≤ rows - 2
  changes : Changes 1 (rows - 2) (barred kit v.title (keyLine v.keys) cols rows) around.2

theorem runs_aroundConfig (lawful : kit.Lawful) (v : ConfigView) {cols rows : Nat} (wide : 4 ≤ cols)
    (tall : 4 ≤ rows) (narrow : cols < 2 ^ 16) (small : rows < 2 ^ 16) :
    Runs (aroundConfig kit v cols rows) (AroundConfig kit v cols rows) := by
  obtain ⟨startWidth, startHeight⟩ := barred_size lawful v.title (keyLine v.keys) cols rows
  have start : Fits (barred kit v.title (keyLine v.keys) cols rows) ⟨2, 1, cols - 4, rows - 3⟩ :=
    ⟨by dsimp only; omega, by dsimp only; omega, by omega, by omega⟩
  have down : 1 + (rows - 3) = rows - 2 := by omega
  unfold aroundConfig
  refine Runs.bind (runs_framed lawful v.title _ wide (by omega) small) ?_
  rintro _ rfl
  dsimp only
  refine Runs.bind (runs_putHelp lawful v start) fun helped help => ?_
  have fits := start.changes help
  have width := help.width
  refine Runs.bind (runs_putHelpRule lawful fits (by omega) (by omega)) fun ruled rule => ?_
  have ruled_ := help.trans rule
  have above : Fits ruled ⟨2, 1, cols - 4, rows - 3 - 2⟩ := by
    obtain ⟨columns, rows', _, _⟩ := start.changes ruled_
    exact ⟨columns, by dsimp only at rows' ⊢; omega, by assumption, by assumption⟩
  dsimp only at ruled_
  rw [down] at ruled_
  unfold putConfigHeader
  refine Runs.ite (fun _ => ?_) fun _ => Runs.pure ⟨rfl, rfl, Nat.le_refl _, by dsimp only; omega, ruled_⟩
  refine (runs_placeOne lawful _ above).mono fun left ⟨placed, _⟩ => ?_
  obtain ⟨x, width, lower, ends, changes⟩ := placed
  dsimp only at x width lower ends changes
  exact ⟨x, width, lower, by omega, ruled_.trans (changes.mono (Nat.le_refl _) (by omega))⟩

theorem runs_putConfigLine (lawful : kit.Lawful) {cols j : Nat} (fits : Fits buf body) (wide : 2 ≤ cols)
    (across : cols ≤ buf.width) (inside : j < body.height) (line : ConfigLine) :
    Runs (putConfigLine kit cols body buf (line, j)) fun after => Changes (body.y + j) (body.y + j + 1) buf after ∧
      ∀ r selected list, line = .row r selected list →
        after = kit.render (.paragraph { lines := [rowLine kit r selected list body.width] })
          { body with y := body.y + j, height := 1 } buf := by
  have rows := fits.rows
  have height := fits.height
  unfold putConfigLine
  have index : tryU16 j = j := by
    unfold tryU16
    omega
  dsimp only
  rw [index]
  refine Runs.bind (runs_add (by omega)) ?_
  rintro _ rfl
  cases line with
  | rule name =>
      exact (runs_rule lawful wide across (by omega) _).mono fun _ changes => ⟨changes, nofun⟩
  | row r selected list =>
      have holds : buf.Holds { body with y := body.y + j, height := 1 } := ⟨fits.columns, by dsimp only; omega⟩
      have drawn := lawful.changes (.paragraph { lines := [rowLine kit r selected list body.width] })
        { body with y := body.y + j, height := 1 } buf
      refine ⟨_, if_pos holds, drawn, ?_⟩
      rintro _ _ _ ⟨⟩
      rfl

/-- The row of the cursor is shown where there is room for a row. -/
theorem runs_drawConfigList (lawful : kit.Lawful) (v : ConfigView) {cols : Nat} (fits : Fits buf body)
    (wide : 2 ≤ cols) (across : cols ≤ buf.width) : Runs (drawConfigList kit v cols body buf) fun last =>
      Changes body.y (body.y + body.height) buf last ∧
        ∀ line, selectedLine kit v body.width = some line → 1 ≤ body.height → Visible kit body line last := by
  unfold drawConfigList
  extract_lets lines start
  have place : ∀ (j : Nat) entry, ((lines.drop start).take body.height).zipIdx[j]? = some entry →
      entry = (entry.1, j) ∧ j < body.height := by
    intro j entry here
    rw [List.getElem?_zipIdx] at here
    obtain ⟨line, found, rfl⟩ := Option.map_eq_some_iff.mp here
    rw [List.getElem?_take, Option.ite_none_right_eq_some] at found
    exact ⟨by rw [Nat.zero_add], found.1⟩
  have each : ∀ (j : Nat) entry, ((lines.drop start).take body.height).zipIdx[j]? = some entry →
      ∀ c : Buffer, c.width = buf.width → c.height = buf.height →
        Runs (putConfigLine kit cols body c entry) fun after => Changes (body.y + j) (body.y + j + 1) c after ∧
          ∀ r selected list, entry.1 = .row r selected list →
            after = kit.render (.paragraph { lines := [rowLine kit r selected list body.width] })
              { body with y := body.y + j, height := 1 } c := by
    intro j entry here c width height
    obtain ⟨same, inside⟩ := place j entry here
    rw [same]
    have fits : Fits c body :=
      ⟨width ▸ fits.columns, height ▸ fits.rows, width ▸ fits.width, height ▸ fits.height⟩
    exact runs_putConfigLine lawful fits wide (width ▸ across) inside entry.1
  have rows := runs_rows fun j entry here c width height =>
    (each j entry here c width height).mono fun _ drawn => drawn.1
  refine rows.mono fun last ⟨changes, every⟩ => ⟨?_, fun line chosen some_ => ?_⟩
  · refine changes.mono (Nat.le_refl _) ?_
    rw [List.length_zipIdx, List.length_take]
    omega
  · obtain ⟨⟨r, list⟩, found, rfl⟩ := Option.map_eq_some_iff.mp chosen
    have row := selectedAt_eq found
    obtain ⟨there, inside⟩ := @scrolled _ lines (selectedAt lines) _ some_
    have here : ((lines.drop start).take body.height).zipIdx[selectedAt lines - start]? =
        some (.row r true list, selectedAt lines - start) := by
      rw [List.getElem?_zipIdx, there, row, Option.map_some, Nat.zero_add]
    obtain ⟨before, after, earlier, drawn, same⟩ := every _ _ here
    obtain ⟨_, step, _, rendered⟩ := each _ _ here before earlier.width earlier.height
    cases Option.some.inj (drawn.symm.trans step)
    exact ⟨_, before, Nat.le_add_right _ _, Nat.add_lt_add_left inside _, earlier.width.trans changes.width.symm,
      fun x => (same x).trans (by rw [rendered r true list rfl])⟩

/-- The config screen is on the screen, with its key bar, and its list has the row of the
cursor. -/
theorem runs_layoutConfig (lawful : kit.Lawful) (v : ConfigView) {size : TermSize} (cols : 1 ≤ size.cols.toNat)
    (rows : 1 ≤ size.rows.toNat) : Runs (layoutConfig kit v size) fun o => Inside size o ∧ (¬ tooSmall size →
      Barred kit v.title (keyLine v.keys) o ∧ ∃ list, configList kit v size = some list ∧
        ∀ line, selectedLine kit v list.width = some line → 1 ≤ list.height → Listed kit list line o) := by
  unfold layoutConfig
  refine Runs.ite (fun none => ?_) fun box => ?_
  · exact (runs_reversedLine lawful _ cols rows).mono fun o inside => ⟨inside, fun box => absurd none box⟩
  obtain ⟨wide, tall⟩ := not_tooSmall box
  have colsLt := size.cols.toNat_lt
  have rowsLt := size.rows.toNat_lt
  have maxCols : maxBox.cols.toNat = 72 := rfl
  have maxRows : maxBox.rows.toNat = 24 := rfl
  have plan : Runs (planConfig v size) fun plan => 16 ≤ plan.1 ∧ plan.1 ≤ size.cols.toNat ∧ 4 ≤ plan.2 ∧
      plan.2 ≤ size.rows.toNat := by
    unfold planConfig
    refine Runs.bind (runs_sub (by omega)) ?_
    rintro _ rfl
    refine Runs.bind (runs_sub (by omega)) ?_
    rintro _ rfl
    generalize (configLines v).length + oneUnless v.header = lines
    have wanted : 5 ≤ saturatingAdd (tryU16 lines) (3 + 2) := by
      unfold saturatingAdd tryU16
      omega
    dsimp only
    generalize saturatingAdd (tryU16 lines) (3 + 2) = high at wanted ⊢
    exact Runs.pure ⟨by dsimp only; omega, by dsimp only; omega, by dsimp only; omega, by dsimp only; omega⟩
  obtain ⟨⟨boxCols, boxRows⟩, planned, atLeast, across, high, down⟩ := plan
  dsimp only at atLeast across high down
  obtain ⟨⟨list, buf⟩, found, around⟩ := runs_aroundConfig lawful v (by omega : 4 ≤ boxCols) high (by omega) (by omega)
  have here : configList kit v size = some list := by
    simp only [configList, planned, found, Option.bind_eq_bind, Option.bind_some]
  obtain ⟨x, width, lower, ends, changes⟩ := around
  dsimp only at x width lower ends changes
  obtain ⟨startWidth, startHeight⟩ := barred_size lawful v.title (keyLine v.keys) boxCols boxRows
  have bufWidth := changes.width
  have bufHeight := changes.height
  have room : Fits buf list := ⟨by omega, by omega, by omega, by omega⟩
  obtain ⟨last, drawn, more, visible⟩ := runs_drawConfigList lawful v room (by omega : 2 ≤ boxCols) (by omega)
  have lastWidth := more.width
  have config : drawConfig kit v boxCols boxRows = some last := by
    simp only [drawConfig, found, drawn, Option.bind_eq_bind, Option.bind_some]
  refine Runs.bind_some planned (Runs.bind_some config ?_)
  refine (runs_centred lawful (changes.trans (more.mono lower ends)) (by omega) down across).mono
    fun o ⟨inside, bar, oRows, oCols, cells⟩ => ⟨inside, fun _ => ⟨bar, list, here, fun line chosen some_ => ?_⟩⟩
  exact (visible line chosen some_).listed lawful (by omega) cells (by omega)

end Specs
end Oxutrm.Popup
