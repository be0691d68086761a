import Oxutrm.Sync.Writes

/-!
`apply` as a machine of 64 bits runs it. A sum or a product that does not fit, an index
outside the buffer, a copy of a text that nobody checked and a buffer for a size that
nobody checked are faults here. There are none.
-/
namespace Oxutrm.Sync
open Proto

inductive Fault where
  | overflow
  | outOfBounds
  | uncheckedText
  | uncheckedSize
  deriving DecidableEq, Repr

abbrev Machine := Except Fault

def usize (n : Nat) : Machine Nat := if n < 2 ^ 64 then .ok n else .error .overflow

/-- `self.cells[pos] = cell.clone()`. -/
def store (cells : List Cell) (pos : Nat) (cell : Cell) : Machine (List Cell) :=
  if cells.length ≤ pos then .error .outOfBounds
  else if checkCellText cell.text ≠ .ok () then .error .uncheckedText
  else .ok (cells.set pos cell)

/-- `vec![Cell::blank(); rows * cols]`. -/
def allocate (size : TermSize) : Machine (List Cell) :=
  if size.checkBounds ≠ .ok () then .error .uncheckedSize
  else do
    let count ← usize (size.rows.toNat * size.cols.toNat)
    pure (List.replicate count Cell.blank)

/-- The cells of a run once, from column `col` on. -/
def storeEach (rowStart : Nat) : Nat → List Cell → List Cell → Machine (Nat × List Cell)
  | col, [], cells => pure (col, cells)
  | col, c :: cs, cells => do
      let pos ← usize (rowStart + col)
      let cells ← store cells pos c
      let col ← usize (col + 1)
      storeEach rowStart col cs cells

def storeTimes (rowStart : Nat) (run : List Cell) :
    Nat → Nat → List Cell → Machine (Nat × List Cell)
  | 0, col, cells => pure (col, cells)
  | times + 1, col, cells => do
      let (col, cells) ← storeEach rowStart col run cells
      storeTimes rowStart run times col cells

def storeRuns (row cols : UInt16) (rowStart : Nat) :
    List Run → List Cell → Machine (List Cell × Checked)
  | [], cells => pure (cells, .ok ())
  | run :: runs, cells => do
      let times ← usize (run.repeats.toNat + 1)
      let width ← usize (run.cells.length * times)
      let stop ← usize (run.startCol.toNat + width)
      if stop > cols.toNat then pure (cells, .error (.runOverflowsRow row stop cols))
      else
        match checkEach (fun cell => checkCellText cell.text) run.cells with
        | .error e => pure (cells, .error e)
        | .ok _ => do
            let (_, cells) ← storeTimes rowStart run.cells times run.startCol.toNat cells
            storeRuns row cols rowStart runs cells

def storeRows (rows cols : UInt16) : List RowPatch → List Cell → Machine (List Cell × Checked)
  | [], cells => pure (cells, .ok ())
  | patch :: patches, cells =>
      if patch.row ≥ rows then pure (cells, .error (.outOfBounds patch.row rows))
      else do
        let rowStart ← usize (patch.row.toNat * cols.toNat)
        let (cells, result) ← storeRuns patch.row cols rowStart patch.runs cells
        match result with
        | .error e => pure (cells, .error e)
        | .ok _ => storeRows rows cols patches cells

namespace ScreenState

def resizeMachine (s : ScreenState) : Option TermSize → Machine (ScreenState × Checked)
  | none => pure (s, .ok ())
  | some size =>
      match size.checkBounds with
      | .error e => pure (s, .error e)
      | .ok _ => do
          let cells ← allocate size
          pure ({ s with rows := size.rows, cols := size.cols, cells := cells }, .ok ())

def applyMachine (s : ScreenState) (base target : UInt64) (d : ScreenDiff) :
    Machine (ScreenState × Checked) :=
  if base ≠ 0 ∧ base ≠ s.seq then pure (s, .error (.baseMismatch base s.seq))
  else
    match d.check with
    | .error e => pure (s, .error e)
    | .ok _ => do
        let (s, sized) ← resizeMachine s d.resize
        match sized with
        | .error e => pure (s, .error e)
        | .ok _ => do
            let (cells, painted) ← storeRows s.rows s.cols d.rows s.cells
            match painted with
            | .error e => pure ({ s with cells := cells }, .error e)
            | .ok _ => pure (applyRest { s with cells := cells } base target d, .ok ())

end ScreenState

def ScreenDiff.cellCount (d : ScreenDiff) : Nat :=
  ((d.rows.flatMap (·.runs)).map fun run => run.cells.length).sum

/-- The machine gives what the model gives, or it was given too much. -/
def Safe {α : Type} (small : Prop) (x : Machine α) (y : α) : Prop :=
  x = .ok y ∨ x = .error .overflow ∧ ¬ small

theorem Safe.bind {α β : Type} {small : Prop} {x : Machine α} {y : α} {f : α → Machine β} {z : β}
    (first : Safe small x y) (second : Safe small (f y) z) : Safe small (x >>= f) z := by
  rcases first with rfl | ⟨rfl, large⟩
  · exact second
  · exact Or.inr ⟨rfl, large⟩

theorem usize_safe {small : Prop} {n : Nat} (fits : small → n < 2 ^ 64) : Safe small (usize n) n := by
  unfold usize
  by_cases low : n < 2 ^ 64
  · rw [if_pos low]
    exact Or.inl rfl
  · rw [if_neg low]
    exact Or.inr ⟨rfl, fun held => low (fits held)⟩

theorem usize_ok {n : Nat} (fits : n < 2 ^ 64) : usize n = .ok n := if_pos fits

theorem paint_append (cells : List Cell) (pos : Nat) (xs ys : List Cell) :
    paint cells pos (xs ++ ys) = paint (paint cells pos xs) (pos + xs.length) ys := by
  induction xs generalizing cells pos with
  | nil => rfl
  | cons x xs ih =>
      simp only [List.cons_append, paint, ih, List.length_cons]
      congr 1
      omega

section Stores
variable {rowStart : Nat} {run : List Cell}

theorem storeEach_ok {col : Nat} {cells : List Cell}
    (fits : rowStart + col + run.length ≤ cells.length) (small : cells.length < 2 ^ 64)
    (checked : ∀ c ∈ run, checkCellText c.text = .ok ()) :
    storeEach rowStart col run cells = .ok (col + run.length, paint cells (rowStart + col) run) := by
  induction run generalizing col cells with
  | nil => rfl
  | cons c run ih =>
      rw [List.length_cons] at fits
      have inside : ¬ cells.length ≤ rowStart + col := by omega
      have stored : store cells (rowStart + col) c = .ok (cells.set (rowStart + col) c) := by
        rw [store, if_neg inside, if_neg]
        exact not_not.mpr (checked c List.mem_cons_self)
      have rest := @ih (col + 1) (cells.set (rowStart + col) c) (by rw [List.length_set]; omega)
        (by rwa [List.length_set]) fun x member => checked x (List.mem_cons_of_mem _ member)
      simp only [storeEach, usize_ok (show rowStart + col < 2 ^ 64 by omega), stored,
        usize_ok (show col + 1 < 2 ^ 64 by omega), bind, Except.bind, rest, paint, List.length_cons]
      congr 2
      omega

theorem storeTimes_ok {times col : Nat} {cells : List Cell}
    (fits : rowStart + col + run.length * times ≤ cells.length) (small : cells.length < 2 ^ 64)
    (checked : ∀ c ∈ run, checkCellText c.text = .ok ()) :
    storeTimes rowStart run times col cells =
      .ok (col + run.length * times,
        paint cells (rowStart + col) (List.replicate times run).flatten) := by
  induction times generalizing col cells with
  | zero => rfl
  | succ times ih =>
      rw [Nat.mul_succ] at fits
      have once := storeEach_ok (show rowStart + col + run.length ≤ cells.length by omega) small
        checked
      have rest := @ih (col + run.length) (paint cells (rowStart + col) run)
        (by rw [length_paint]; omega) (by rwa [length_paint])
      simp only [storeTimes, once, bind, Except.bind, rest, List.replicate_succ, List.flatten_cons,
        paint_append]
      rw [Nat.mul_succ]
      congr 2
      · omega
      · congr 1
        omega

end Stores

theorem storeRuns_safe {small : Prop} {row cols : UInt16} {runs : List Run} {cells : List Cell}
    (room : row.toNat * cols.toNat + cols.toNat ≤ cells.length) (bounded : cells.length < 2 ^ 64)
    (short : small → ∀ run ∈ runs, run.cells.length ≤ 2 ^ 26) :
    Safe small (storeRuns row cols (row.toNat * cols.toNat) runs cells)
      (paintRuns row cols runs cells) := by
  induction runs generalizing cells with
  | nil => exact Or.inl rfl
  | cons run runs ih =>
      have repeats := run.repeats.toNat_lt
      have start := run.startCol.toNat_lt
      -- the three numbers a run is checked by
      have width : small → run.width < 2 ^ 48 := fun held => by
        have cells := short held run List.mem_cons_self
        have times : run.repeats.toNat + 1 ≤ 2 ^ 16 := by omega
        have product := Nat.mul_le_mul cells times
        unfold Run.width
        omega
      rw [storeRuns, usize_ok (show run.repeats.toNat + 1 < 2 ^ 64 by omega)]
      refine (usize_safe (n := run.width) fun held => by have := width held; omega).bind ?_
      refine (usize_safe (n := run.startCol.toNat + run.width) fun held => by
        have := width held; omega).bind ?_
      rw [paintRuns_cons, Run.check]
      by_cases wide : run.startCol.toNat + run.width > cols.toNat
      · rw [if_pos wide]
        simp only [refuse, if_pos wide]
        exact Or.inl rfl
      · rw [if_neg wide]
        simp only [refuse, if_neg wide]
        cases checked : checkEach (fun cell => checkCellText cell.text) run.cells with
        | error e => exact Or.inl rfl
        | ok _ =>
            have texts := (checkEach_ok _ _).mp checked
            have stored := @storeTimes_ok (row.toNat * cols.toNat) run.cells (run.repeats.toNat + 1)
              run.startCol.toNat cells (by unfold Run.width at wide; omega) bounded texts
            have same : write cells (run.writes row cols) =
                paint cells (row.toNat * cols.toNat + run.startCol.toNat) run.expanded :=
              write_writesFrom _ _ _
            have rest := @ih (paint cells (row.toNat * cols.toNat + run.startCol.toNat) run.expanded)
              (by rw [length_paint]; exact room) (by rwa [length_paint])
              fun held x member => short held x (List.mem_cons_of_mem _ member)
            simp only [stored, bind, Except.bind, andThen, same]
            exact rest

theorem storeRows_safe {small : Prop} {rows cols : UInt16} {patches : List RowPatch}
    {cells : List Cell} (size : cells.length = rows.toNat * cols.toNat)
    (short : small → ∀ patch ∈ patches, ∀ run ∈ patch.runs, run.cells.length ≤ 2 ^ 26) :
    Safe small (storeRows rows cols patches cells) (paintRows rows cols patches cells) := by
  have high := rows.toNat_lt
  have wide := cols.toNat_lt
  have bounded : cells.length < 2 ^ 64 := by
    rw [size]
    have product := Nat.mul_le_mul (Nat.le_of_lt high) (Nat.le_of_lt wide)
    omega
  induction patches generalizing cells with
  | nil => exact Or.inl rfl
  | cons patch patches ih =>
      rw [storeRows, paintRows]
      by_cases outside : patch.row ≥ rows
      · simp only [refuse, if_pos outside, andThen]
        exact Or.inl rfl
      · have below : patch.row.toNat < rows.toNat :=
          UInt16.lt_iff_toNat_lt.mp (UInt16.not_le.mp outside)
        have room := row_room size below
        simp only [refuse, if_neg outside, andThen]
        rw [usize_ok (show patch.row.toNat * cols.toNat < 2 ^ 64 by omega)]
        have runs := storeRuns_safe room bounded
          fun held => short held patch List.mem_cons_self
        have painted := paintRuns_writes patch.row cols patch.runs cells
        refine Safe.bind (x := storeRuns _ _ _ _ _) runs ?_
        rcases result : paintRuns patch.row cols patch.runs cells with ⟨cells', outcome⟩
        rw [result] at painted
        cases outcome with
        | error e => exact Or.inl rfl
        | ok _ =>
            have same : cells'.length = cells.length := by
              rw [show cells' = _ from painted.1, length_write]
            exact ih (same.trans size)
              (fun held x member => short held x (List.mem_cons_of_mem _ member)) (same ▸ bounded)

namespace ScreenState
variable {s t : ScreenState} {base target : UInt64} {d : ScreenDiff}

theorem run_le_cellCount {patch : RowPatch} (member : patch ∈ d.rows) {run : Run}
    (inside : run ∈ patch.runs) : run.cells.length ≤ d.cellCount :=
  List.single_le_sum (fun _ _ => Nat.zero_le _) _
    (List.mem_map_of_mem (List.mem_flatMap.mpr ⟨patch, member, inside⟩))

theorem resizeMachine_eq (s : ScreenState) (resize : Option TermSize) :
    resizeMachine s resize = .ok (applyResize s resize) := by
  cases resize with
  | none => rfl
  | some size =>
      simp only [resizeMachine, applyResize]
      cases bounds : size.checkBounds with
      | error e => rfl
      | ok _ =>
          have cells := TermSize.cells_le bounds
          simp only [allocate, bounds, ne_eq, not_true_eq_false, if_false,
            usize_ok (show size.rows.toNat * size.cols.toNat < 2 ^ 64 by omega), andThen]
          rfl

theorem length_applyResize (valid : s.Valid) {resize : Option TermSize}
    (sized : applyResize s resize = (t, .ok ())) :
    t.cells.length = t.rows.toNat * t.cols.toNat := by
  cases resize with
  | none =>
      cases sized
      exact valid.length
  | some size =>
      simp only [applyResize, andThen_ok] at sized
      obtain ⟨s', -, made⟩ := sized
      cases made
      exact List.length_replicate

theorem text_applyResize (valid : s.Valid) {resize : Option TermSize}
    (sized : applyResize s resize = (t, .ok ())) :
    ∀ cell ∈ t.cells, checkCellText cell.text = .ok () := by
  cases resize with
  | none =>
      cases sized
      exact valid.text
  | some size =>
      simp only [applyResize, andThen_ok] at sized
      obtain ⟨s', -, made⟩ := sized
      cases made
      intro cell member
      rw [List.eq_of_mem_replicate member]
      decide

theorem title_applyResize {resize : Option TermSize} (sized : applyResize s resize = (t, .ok ())) :
    t.title = s.title := by
  cases resize with
  | none =>
      cases sized
      rfl
  | some size =>
      simp only [applyResize, andThen_ok] at sized
      obtain ⟨s', same, made⟩ := sized
      cases made
      rw [(Prod.mk.inj same).1]

theorem applyMachine_safe (valid : s.Valid) :
    Safe (d.cellCount ≤ 2 ^ 26) (applyMachine s base target d) (apply s base target d) := by
  unfold applyMachine apply
  by_cases named : base ≠ 0 ∧ base ≠ s.seq
  · simp only [refuse, if_pos named, andThen]
    exact Or.inl rfl
  · simp only [refuse, if_neg named, andThen]
    cases checked : d.check with
    | error e => exact Or.inl rfl
    | ok _ =>
        simp only [resizeMachine_eq, bind, Except.bind]
        rcases sized : applyResize s d.resize with ⟨s', outcome⟩
        cases outcome with
        | error e => exact Or.inl rfl
        | ok _ =>
            have size := length_applyResize valid sized
            have painted := @storeRows_safe (d.cellCount ≤ 2 ^ 26) s'.rows s'.cols d.rows s'.cells size
              fun small patch member run inside => (run_le_cellCount member inside).trans small
            simp only [applyRows]
            rcases painted with exact_ | ⟨fault, large⟩
            · rw [exact_]
              rcases paintRows s'.rows s'.cols d.rows s'.cells with ⟨cells, result⟩
              cases result with
              | error e => exact Or.inl rfl
              | ok _ => exact Or.inl rfl
            · rw [fault]
              exact Or.inr ⟨rfl, large⟩

theorem mem_write {cells : List Cell} {writes : List Write} {c : Cell}
    (member : c ∈ write cells writes) : c ∈ cells ∨ ∃ w ∈ writes, w.cell = c := by
  induction writes generalizing cells with
  | nil => exact Or.inl member
  | cons w writes ih =>
      rcases ih member with painted | ⟨x, later, same⟩
      · rcases List.mem_or_eq_of_mem_set painted with old | new
        · exact Or.inl old
        · exact Or.inr ⟨w, List.mem_cons_self, new.symm⟩
      · exact Or.inr ⟨x, List.mem_cons_of_mem _ later, same⟩

theorem cell_writesFrom {pos : Nat} {cs : List Cell} {w : Write} (member : w ∈ Run.writesFrom pos cs) :
    w.cell ∈ cs := by
  induction cs generalizing pos with
  | nil => cases member
  | cons c cs ih =>
      rcases List.mem_cons.mp member with rfl | later
      · exact List.mem_cons_self
      · exact List.mem_cons_of_mem _ (ih later)

theorem checked_runWrites {row cols : UInt16} {runs : List Run} {w : Write}
    (member : w ∈ runWrites row cols runs) : checkCellText w.cell.text = .ok () := by
  induction runs with
  | nil => cases member
  | cons run runs ih =>
      rw [runWrites] at member
      split at member
      · rename_i checked
        simp only [Run.check, checked_seq_ok, checkEach_ok] at checked
        rcases List.mem_append.mp member with here | later
        · have inside := cell_writesFrom here
          rw [Run.expanded] at inside
          obtain ⟨copy, copied, inside⟩ := List.mem_flatten.mp inside
          rw [List.eq_of_mem_replicate copied] at inside
          exact checked.2 _ inside
        · exact ih later
      · cases member

theorem checked_patchWrites {rows cols : UInt16} {patches : List RowPatch} {w : Write}
    (member : w ∈ patchWrites rows cols patches) : checkCellText w.cell.text = .ok () := by
  induction patches with
  | nil => cases member
  | cons patch patches ih =>
      rw [patchWrites] at member
      split at member
      · rcases List.mem_append.mp member with here | later
        · exact checked_runWrites here
        · split at later
          · exact ih later
          · cases later
      · cases member

/-- What an accepted diff leaves is as large as it says, and every text in it passes. -/
theorem apply_wellFormed (valid : s.Valid) (applied : apply s base target d = (t, .ok ())) :
    t.cells.length = t.rows.toNat * t.cols.toNat ∧
      (∀ cell ∈ t.cells, checkCellText cell.text = .ok ()) ∧ checkTitle t.title = .ok () := by
  obtain ⟨-, checked, sized, resized, cells, painted, rfl⟩ := apply_ok.mp applied
  have size := length_applyResize valid resized
  have texts := text_applyResize valid resized
  have same : cells = write sized.cells (patchWrites sized.rows sized.cols d.rows) := by
    rw [← (paintRows_writes sized.rows sized.cols d.rows sized.cells).1, painted]
  refine ⟨?_, ?_, ?_⟩
  · change cells.length = _
    rw [same, length_write]
    exact size
  · intro cell member
    change cell ∈ cells at member
    rw [same] at member
    rcases mem_write member with old | ⟨w, written, rfl⟩
    · exact texts cell old
    · exact checked_patchWrites written
  · change checkTitle (d.title.getD sized.title) = .ok ()
    simp only [ScreenDiff.check, checked_seq_ok, checkSome_ok] at checked
    cases title : d.title with
    | none =>
        rw [Option.getD_none, title_applyResize resized]
        exact valid.title
    | some text => exact checked.1 text title

/-- Whatever the peer puts into a diff, `apply` stays inside the buffer, copies only what
it has checked and allocates only what is bounded; nothing overflows on a diff that fits
into a frame; and what it accepts is well formed. -/
theorem apply_stays_in_bounds (valid : s.validate = .ok ()) (base target : UInt64)
    (d : ScreenDiff) :
    (∀ fault, applyMachine s base target d = .error fault → fault = .overflow) ∧
    (d.cellCount ≤ 2 ^ 26 → applyMachine s base target d = .ok (apply s base target d)) ∧
    ∀ t, apply s base target d = (t, .ok ()) →
      t.cells.length = t.rows.toNat * t.cols.toNat ∧
      (∀ cell ∈ t.cells, checkCellText cell.text = .ok ()) ∧ checkTitle t.title = .ok () := by
  have checked := (Proto.ScreenState.validate_ok s).mp valid
  have safe := @applyMachine_safe s base target d checked
  refine ⟨?_, ?_, fun t applied => apply_wellFormed checked applied⟩
  · intro fault failed
    rcases safe with fine | ⟨overflow, -⟩
    · rw [fine] at failed
      cases failed
    · rw [overflow] at failed
      cases failed
      rfl
  · intro small
    rcases safe with fine | ⟨-, large⟩
    · exact fine
    · exact absurd small large

theorem apply_stays_in_bounds_painted :
    applyMachine screen 1 2 (halfGood 1) = .ok (apply screen 1 2 (halfGood 1)) ∧
      (apply screen 1 2 (halfGood 1)).1.cells.length = 2 :=
  ⟨(apply_stays_in_bounds screen_valid 1 2 (halfGood 1)).2.1 (by decide +kernel), by decide +kernel⟩

end ScreenState

end Oxutrm.Sync
