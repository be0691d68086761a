import Oxutrm.Lib.Format
import Oxutrm.Sync.Input
import Oxutrm.Sync.ScreenLaws

/-!
The wire formats of the two diffs, field by field in declaration order, and what
they cost: no diff between valid screens comes near the decompression limit.
`storedCodec` turns any such format into a codec whose compressor only wraps.
-/
namespace Oxutrm.Sync
open Proto

/-- The documented sizes of the wire format, as an upper bound. -/
structure Codec.Sized {D : Type} (codec : Codec D) (wire : Format D) : Prop where
  length_le : ∀ d raw, codec.toStdvec d = .ok raw → raw.length ≤ (wire.put d).length

/-- A frame header, then the bytes as they are. -/
def storedMagic : Bytes := [0x28, 0xb5, 0x2f, 0xfd]

def storedCodec {D : Type} (wire : Format D) : Codec D where
  toStdvec d := .ok (wire.put d)
  fromBytes bytes :=
    match wire.get bytes with
    | some (d, _) => .ok d
    | none => .error "malformed"
  compressToVec raw := storedMagic ++ raw
  streamingDecoder payload :=
    if payload.take 4 = storedMagic then .ok (payload.drop 4, none) else .error "bad magic"

theorem storedCodec_roundTrips {D : Type} (wire : Format D) : (storedCodec wire).RoundTrips where
  postcard d := by
    refine ⟨wire.put d, rfl, ?_⟩
    have back := wire.get_put d []
    rw [List.append_nil] at back
    simp [storedCodec, back]
  zstd raw := by
    simp [storedCodec, storedMagic]

theorem storedCodec_sized {D : Type} (wire : Format D) : (storedCodec wire).Sized wire where
  length_le d raw written := by
    rw [← Except.ok.inj written]

section Formats
open Format

def colorWire : Format Color where
  put
    | .default => [0]
    | .idx n => [1, n]
    | .rgb r g b => [2, r, g, b]
  get
    | 0 :: rest => some (.default, rest)
    | 1 :: n :: rest => some (.idx n, rest)
    | 2 :: r :: g :: b :: rest => some (.rgb r g b, rest)
    | _ => none
  get_put c rest := by cases c <;> rfl

def cellWire : Format Cell :=
  (pair text (pair colorWire (pair colorWire (pair uint16 uint16)))).via
    (fun p => some { text := p.1, fg := p.2.1, bg := p.2.2.1, attrs := p.2.2.2.1,
                     link := p.2.2.2.2 })
    (fun c => (c.text, c.fg, c.bg, c.attrs, c.link)) (fun _ => rfl)

def runWire : Format Run :=
  (pair uint16 (pair uint16 (list cellWire))).via
    (fun p => some { startCol := p.1, repeats := p.2.1, cells := p.2.2 })
    (fun r => (r.startCol, r.repeats, r.cells)) (fun _ => rfl)

def rowPatchWire : Format RowPatch :=
  (pair uint16 (list runWire)).via (fun p => some { row := p.1, runs := p.2 })
    (fun r => (r.row, r.runs)) (fun _ => rfl)

def termSizeWire : Format TermSize :=
  (pair uint16 uint16).via (fun p => some { cols := p.1, rows := p.2 })
    (fun s => (s.cols, s.rows)) (fun _ => rfl)

def cursorShapeWire : Format CursorShape :=
  byte.via
    (fun b => if b = 0 then some .block else if b = 1 then some .underline
      else if b = 2 then some .bar else none)
    (fun | .block => 0 | .underline => 1 | .bar => 2) (by rintro ⟨⟩ <;> rfl)

def cursorWire : Format Cursor :=
  (pair uint16 (pair uint16 (pair bool cursorShapeWire))).via
    (fun p => some { row := p.1, col := p.2.1, visible := p.2.2.1, shape := p.2.2.2 })
    (fun c => (c.row, c.col, c.visible, c.shape)) (fun _ => rfl)

def mouseModeWire : Format MouseMode :=
  byte.via
    (fun b => if b = 0 then some .off else if b = 1 then some .press
      else if b = 2 then some .pressRelease else if b = 3 then some .buttonMotion
      else if b = 4 then some .anyMotion else none)
    (fun | .off => 0 | .press => 1 | .pressRelease => 2 | .buttonMotion => 3 | .anyMotion => 4)
    (by rintro ⟨⟩ <;> rfl)

def modesWire : Format Modes :=
  (pair bool (pair bool (pair mouseModeWire (pair bool bool)))).via
    (fun p => some { altScreen := p.1, bracketedPaste := p.2.1, mouse := p.2.2.1,
                     appCursor := p.2.2.2.1, appKeypad := p.2.2.2.2 })
    (fun m => (m.altScreen, m.bracketedPaste, m.mouse, m.appCursor, m.appKeypad)) (fun _ => rfl)

def clipboardTargetWire : Format ClipboardTarget :=
  byte.via (fun b => if b = 0 then some .clipboard else if b = 1 then some .selection else none)
    (fun | .clipboard => 0 | .selection => 1) (by rintro ⟨⟩ <;> rfl)

def clipboardWire : Format Clipboard :=
  (pair uint32 (option ((pair clipboardTargetWire text).via
    (fun p => some { target := p.1, text := p.2 })
    (fun c : ClipboardCopy => (c.target, c.text)) (fun _ => rfl)))).via
    (fun p => some { serial := p.1, copy := p.2 })
    (fun c => (c.serial, c.copy)) (fun _ => rfl)

def screenDiffWire : Format ScreenDiff :=
  (pair (option termSizeWire) (pair (list rowPatchWire) (pair (option cursorWire)
    (pair (option modesWire) (pair (option text) (pair (option uint32) (pair (option uint64)
    (pair (option clipboardWire) (list (pair uint16 (option text))))))))))).via
    (fun p => some
      { resize := p.1, rows := p.2.1, cursor := p.2.2.1, modes := p.2.2.2.1,
        title := p.2.2.2.2.1, bell := p.2.2.2.2.2.1, scrollbackLen := p.2.2.2.2.2.2.1,
        clipboard := p.2.2.2.2.2.2.2.1, links := p.2.2.2.2.2.2.2.2 })
    (fun d => (d.resize, d.rows, d.cursor, d.modes, d.title, d.bell, d.scrollbackLen, d.clipboard,
      d.links)) (fun _ => rfl)

def inputDiffWire : Format InputDiff :=
  (pair uint64 (pair (list byte) (option termSizeWire))).via
    (fun p => some { consumed := p.1, appended := p.2.1, size := p.2.2 })
    (fun d => (d.consumed, d.appended, d.size)) (fun _ => rfl)

def screenCodec : Codec ScreenDiff := storedCodec screenDiffWire

def inputCodec : Codec InputDiff := storedCodec inputDiffWire

/-- The smallest screen that shows anything. -/
def dot : ScreenState := Proto.ScreenState.blankState 1 1

end Formats

section Sizes
open Format

theorem length_put_termSize (s : TermSize) : (termSizeWire.put s).length ≤ 6 := by
  have cols := length_put_uint16 s.cols
  have rows := length_put_uint16 s.rows
  simp only [termSizeWire, put_via, length_put_pair]
  omega

theorem length_put_inputDiff {d : InputDiff} (short : d.appended.length < 2 ^ 26 - 64) :
    (inputDiffWire.put d).length ≤ maxDecompressed := by
  have consumed := length_put_uint64 d.consumed
  have count := length_put_nat d.appended.length 3 (by omega)
  have bytes := length_put_list_le byte d.appended 1 fun _ _ => Nat.le_refl _
  have size := length_put_option_le termSizeWire d.size 6 fun s _ => length_put_termSize s
  simp only [inputDiffWire, put_via, length_put_pair, maxDecompressed]
  omega

theorem length_put_text_le {t : Text} {bound k : Nat} (short : t.len ≤ bound)
    (digits : bound < 128 ^ (k + 1)) : (text.put t).length ≤ k + 1 + bound := by
  rw [length_put_text]
  have prefixed := length_put_nat t.len k (Nat.lt_of_le_of_lt short digits)
  exact Nat.add_le_add prefixed short

theorem length_put_color (c : Color) : (colorWire.put c).length ≤ 4 := by
  cases c <;> simp [colorWire]

theorem length_put_cell {c : Cell} (checked : checkCellText c.text = .ok ()) :
    (cellWire.put c).length ≤ 47 := by
  have textLen := length_put_text_le (k := 0) (checkText_len checked) (by decide)
  have fg := length_put_color c.fg
  have bg := length_put_color c.bg
  have attrs := length_put_uint16 c.attrs
  have link := length_put_uint16 c.link
  simp only [TextField.maxBytes, maxCellText] at textLen
  simp only [cellWire, put_via, length_put_pair]
  omega

theorem length_put_run {run : Run} (texts : Paintable run.cells)
    (short : run.cells.length < 128 ^ 3) :
    (runWire.put run).length ≤ 47 * (1 + run.cells.length) := by
  have start := length_put_uint16 run.startCol
  have repeats := length_put_uint16 run.repeats
  have cells := length_put_list_le cellWire run.cells 47 fun c member =>
    length_put_cell (texts c member)
  have count := length_put_nat run.cells.length 2 short
  simp only [runWire, put_via, length_put_pair]
  omega

theorem length_put_runs {runs : List Run} (texts : ∀ run ∈ runs, Paintable run.cells)
    (short : weight runs < 128 ^ 3) :
    ((list runWire).put runs).length ≤ 3 + 47 * weight runs ∧ runs.length ≤ weight runs := by
  have sums : (runs.map fun run => (runWire.put run).length).sum ≤ 47 * weight runs ∧
      runs.length ≤ weight runs := by
    induction runs with
    | nil => exact ⟨Nat.le_refl _, Nat.le_refl _⟩
    | cons run runs ih =>
        simp only [weight, List.map_cons, List.sum_cons] at short
        obtain ⟨tail, count⟩ := ih (fun r member => texts r (List.mem_cons_of_mem _ member))
          (by simp only [weight]; omega)
        have head := length_put_run (texts run List.mem_cons_self) (by omega)
        simp only [weight, List.map_cons, List.sum_cons, List.length_cons] at tail count ⊢
        omega
  have count := length_put_nat runs.length 2 (by omega)
  rw [length_put_list]
  omega

variable {target : ScreenState} {baseRow : Nat → Option (List Cell)}

theorem length_put_rowPatch (valid : target.Valid) {patch : RowPatch}
    (member : patch ∈ rowPatches target baseRow) :
    (rowPatchWire.put patch).length ≤ 6 + 94 * target.cols.toNat := by
  obtain ⟨r, below, -, rfl⟩ := mem_rowPatches.mp member
  have emits := row_emits valid baseRow below
  have light := emits.light
  have cols := TermSize.cols_le valid.bounds
  change target.cols.toNat ≤ 2048 at cols
  have texts : ∀ run ∈ rowRuns (target.row r) (baseRow r), Paintable run.cells := by
    intro run present cell inside
    exact valid.text cell (List.mem_of_mem_drop
      (List.mem_of_mem_take ((emits.copies run present).cells cell inside)))
  have runs := (length_put_runs texts (by omega)).1
  have row := length_put_uint16 (UInt16.ofNat r)
  simp only [rowPatchWire, put_via, length_put_pair]
  omega

theorem length_put_rows (valid : target.Valid) :
    ((list rowPatchWire).put (rowPatches target baseRow)).length ≤ 24654000 := by
  have rows := TermSize.rows_le valid.bounds
  have cells := TermSize.cells_le valid.bounds
  change target.rows.toNat ≤ 2048 at rows
  change target.rows.toNat * target.cols.toNat ≤ 262144 at cells
  have count : (rowPatches target baseRow).length ≤ target.rows.toNat := by
    have := List.length_filterMap_le (fun r =>
      let runs := rowRuns (target.row r) (baseRow r)
      if runs.isEmpty then none else some { row := UInt16.ofNat r, runs := runs : RowPatch })
      (List.range target.rows.toNat)
    rwa [List.length_range] at this
  have patches := length_put_list_le rowPatchWire (rowPatches target baseRow)
    (6 + 94 * target.cols.toNat) fun patch member => length_put_rowPatch valid member
  have digits := length_put_nat (rowPatches target baseRow).length 1 (by omega)
  have total : (rowPatches target baseRow).length * (6 + 94 * target.cols.toNat) ≤
      2048 * 6 + 94 * 262144 := by
    calc (rowPatches target baseRow).length * (6 + 94 * target.cols.toNat)
        ≤ target.rows.toNat * (6 + 94 * target.cols.toNat) := Nat.mul_le_mul_right _ count
      _ = target.rows.toNat * 6 + 94 * (target.rows.toNat * target.cols.toNat) := by ring
      _ ≤ 2048 * 6 + 94 * 262144 := by omega
  omega

theorem length_put_clipboard {c : Clipboard} (checked : checkClipboard c = .ok ()) :
    (clipboardWire.put c).length ≤ 262156 := by
  have serial := length_put_uint32 c.serial
  simp only [clipboardWire, put_via, length_put_pair]
  simp only [checkClipboard, checkSome_ok, refuse_ok, gt_iff_lt, not_lt] at checked
  have copy := length_put_option_le
    ((pair clipboardTargetWire text).via (fun p => some { target := p.1, text := p.2 })
      (fun c : ClipboardCopy => (c.target, c.text)) (fun _ => rfl)) c.copy 262150 (by
    intro copy held
    have textLen := length_put_text_le (k := 2) (checked copy held) (by decide)
    simp only [maxClipboard] at textLen
    simp only [put_via, length_put_pair, clipboardTargetWire, length_put_byte]
    omega)
  omega

theorem length_put_links {links : List (UInt16 × Option Text)}
    (count : links.length ≤ 2 * maxLinks)
    (uris : ∀ p ∈ links, ∀ uri, p.2 = some uri → uri.len ≤ maxLinkUri) :
    ((list (pair uint16 (option text))).put links).length ≤ 2140162 := by
  have each : ∀ p ∈ links, ((pair uint16 (option text)).put p).length ≤ 2090 := by
    intro p member
    have id := length_put_uint16 p.1
    have uri := length_put_option_le text p.2 2086 fun uri held =>
      length_put_text_le (k := 2) (uris p member uri held) (by decide)
    simp only [length_put_pair]
    omega
  have entries := length_put_list_le _ links 2090 each
  simp only [maxLinks] at count
  have digits := length_put_nat links.length 1 (by omega)
  omega

/-- No honest diff of a valid screen reaches the decompression limit. -/
theorem length_put_screenDiff (valid : target.Valid) {d : ScreenDiff}
    (checked : d.check = .ok ()) (rows : d.rows = rowPatches target baseRow) :
    (screenDiffWire.put d).length ≤ maxDecompressed := by
  simp only [ScreenDiff.check, checked_seq_ok, checkSome_ok, refuse_ok, checkEach_ok, gt_iff_lt,
    not_lt] at checked
  obtain ⟨title, clipboard, count, links⟩ := checked
  have resizeLen := length_put_option_le termSizeWire d.resize 6 fun s _ => length_put_termSize s
  have rowsLen : ((list rowPatchWire).put (rowPatches target baseRow)).length ≤ 24654000 :=
    length_put_rows valid
  have cursorLen := length_put_option_le cursorWire d.cursor 8 fun c _ => by
    have row := length_put_uint16 c.row
    have col := length_put_uint16 c.col
    have visible := length_put_bool c.visible
    simp only [cursorWire, cursorShapeWire, put_via, length_put_pair, length_put_byte]
    omega
  have modesLen := length_put_option_le modesWire d.modes 5 fun m _ => by
    simp only [modesWire, mouseModeWire, put_via, length_put_pair, length_put_byte,
      length_put_bool]
    omega
  have titleLen := length_put_option_le text d.title 514 fun t held =>
    length_put_text_le (k := 1) (checkText_len (title t held)) (by decide)
  have bellLen := length_put_option_le uint32 d.bell 5 fun n _ => length_put_uint32 n
  have scrollbackLen := length_put_option_le uint64 d.scrollbackLen 10 fun n _ =>
    length_put_uint64 n
  have clipboardLen := length_put_option_le clipboardWire d.clipboard 262156 fun c held =>
    length_put_clipboard (clipboard c held)
  have linksLen := length_put_links count fun p member uri held =>
    checkLinkUri_len ((links p member).2 uri held)
  simp only [screenDiffWire, put_via, length_put_pair, rows, maxDecompressed]
  omega

end Sizes
end Oxutrm.Sync
