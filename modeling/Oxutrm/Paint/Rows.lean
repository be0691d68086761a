import Oxutrm.Paint.Renderer
import Oxutrm.Vt.Rows

/-!
What a row of cells looks like on the terminal, and that writing one of its cells
brings the row closer to it: the cell's own columns are then as they should be, and
every column that already was still is.
-/
namespace Oxutrm.Paint
open Proto
open Vt (Terminal Spot Row)

/-- What the width of a text is relied on for. -/
structure Measure (width : Text → Nat) : Prop where
  empty : width [] = 0
  space : width [' '] = 1

section
variable (width : Text → Nat) (desired : List Cell)

def contAt (col : Nat) : Bool := (desired[col]?).any isCont

def leadAt (col : Nat) : Bool := (desired[col]?).any (isWideLead width)

/-- No text is wider than two columns, and a right half stands exactly to the right of
a two-column cell. -/
structure Formed : Prop where
  first : contAt desired 0 = false
  pairs : ∀ col, contAt desired (col + 1) = leadAt width desired col
  fits : ∀ cell ∈ desired, isCont cell = false → width cell.text ≤ 2

/-- A cell that is painted with a text of its own has a column to paint it in. -/
def Spaced : Prop :=
  ∀ cell ∈ desired, isCont cell = false → cell.text ≠ [] → width cell.text ≠ 0

end

/-- What is written for a cell. -/
def textOf (cell : Cell) : Text := if cell.text = [] then [' '] else cell.text

namespace Renderer
variable (r : Renderer) (links : Links)

def penOf (cell : Cell) : Vt.Pen := Vt.Pen.select {} (sgrFor r.caps cell)

/-- The hyperlink an id stands for. -/
def linkAt (id : UInt16) : Option Vt.Link :=
  if r.linksOn then (paintable links id).map fun uri => ⟨linkParams id, uri⟩ else none

/-- A row of cells as the terminal shows it. -/
def shown (width : Text → Nat) (desired : List Cell) : Row := fun col =>
  match desired[col]? with
  | none => .blank {}
  | some cell =>
      if isCont cell then
        match desired[col - 1]? with
        | none => .blank {}
        | some lead => ⟨.trail, r.penOf lead, r.linkAt links lead.link⟩
      else
        ⟨if width cell.text = 2 then .lead cell.text else .narrow (textOf cell), r.penOf cell,
          r.linkAt links cell.link⟩

end Renderer

section
variable {width : Text → Nat} {desired : List Cell} (r : Renderer) (links : Links)

theorem leadAt_of_some {col : Nat} {cell : Cell} (found : desired[col]? = some cell)
    (plain : isCont cell = false) : leadAt width desired col = (width cell.text == 2) := by
  simp only [leadAt, found, Option.any_some, isWideLead, plain, Bool.not_false, Bool.true_and]

theorem Formed.lead_of_cont (formed : Formed width desired) {col : Nat}
    (cont : contAt desired col = true) :
    ∃ k lead, col = k + 1 ∧ desired[k]? = some lead ∧ isWideLead width lead = true := by
  cases col with
  | zero =>
      rw [formed.first] at cont
      cases cont
  | succ k =>
      rw [formed.pairs] at cont
      cases found : desired[k]? with
      | none =>
          simp only [leadAt, found, Option.any_none] at cont
          cases cont
      | some lead =>
          simp only [leadAt, found, Option.any_some] at cont
          exact ⟨k, lead, rfl, found, cont⟩

theorem shown_isTrail (formed : Formed width desired) (col : Nat) :
    (r.shown links width desired col).glyph.isTrail = contAt desired col := by
  cases found : desired[col]? with
  | none => simp only [Renderer.shown, found, contAt, Option.any_none]; rfl
  | some cell =>
      cases cont : isCont cell with
      | false =>
          simp only [Renderer.shown, found, contAt, Option.any_some, cont, Bool.false_eq_true,
            if_false]
          split
          · rfl
          · rfl
      | true =>
          have here : contAt desired col = true := by simp only [contAt, found, Option.any_some, cont]
          obtain ⟨k, lead, rfl, before, -⟩ := formed.lead_of_cont here
          simp only [Renderer.shown, found, cont, if_true, Nat.add_sub_cancel, before, here]
          rfl

theorem shown_isLead (formed : Formed width desired) (col : Nat) :
    (r.shown links width desired col).glyph.isLead = leadAt width desired col := by
  cases found : desired[col]? with
  | none => simp only [Renderer.shown, found, leadAt, Option.any_none]; rfl
  | some cell =>
      cases cont : isCont cell with
      | false =>
          rw [leadAt_of_some found cont]
          simp only [Renderer.shown, found, cont, Bool.false_eq_true, if_false]
          split
          · next wide => simp [wide, Vt.Glyph.isLead]
          · next narrow => simp [narrow, Vt.Glyph.isLead]
      | true =>
          have here : contAt desired col = true := by simp only [contAt, found, Option.any_some, cont]
          have trail := shown_isTrail r links formed col
          rw [here] at trail
          simp only [leadAt, found, Option.any_some, isWideLead, cont, Bool.not_true, Bool.false_and]
          cases lead : (r.shown links width desired col).glyph.isLead with
          | false => rfl
          | true =>
              rw [Vt.Glyph.not_both _ lead] at trail
              cases trail

theorem shown_paired (formed : Formed width desired) :
    (r.shown links width desired).Paired := by
  refine ⟨?_, fun col => ?_⟩
  · rw [shown_isTrail r links formed]
    exact formed.first
  · rw [shown_isTrail r links formed, shown_isLead r links formed]
    exact formed.pairs col

theorem shown_trail {col : Nat} {lead : Cell} (found : desired[col]? = some lead)
    (cont : contAt desired (col + 1) = true) :
    r.shown links width desired (col + 1) =
      ⟨.trail, r.penOf lead, r.linkAt links lead.link⟩ := by
  cases next : desired[col + 1]? with
  | none =>
      simp only [contAt, next, Option.any_none] at cont
      cases cont
  | some cell =>
      simp only [contAt, next, Option.any_some] at cont
      simp only [Renderer.shown, next, cont, if_true, Nat.add_sub_cancel, found]

theorem width_textOf (measure : Measure width) {cell : Cell} (fits : width cell.text ≤ 2)
    (spaced : cell.text ≠ [] → width cell.text ≠ 0) :
    (width (textOf cell) = 1 ∧ width cell.text ≠ 2) ∨
      (width (textOf cell) = 2 ∧ width cell.text = 2 ∧ textOf cell = cell.text) := by
  by_cases none : cell.text = []
  · refine Or.inl ⟨?_, ?_⟩
    · simp only [textOf, none, if_true]
      exact measure.space
    · rw [none, measure.empty]
      omega
  · have same : textOf cell = cell.text := by simp only [textOf, none, if_false]
    have columns := spaced none
    rw [same]
    by_cases wide : width cell.text = 2
    · exact Or.inr ⟨wide, wide, rfl⟩
    · exact Or.inl ⟨by omega, wide⟩

variable {row : Row} {col : Nat} {cell : Cell}

theorem settle_one (formed : Formed width desired) (paired : row.Paired)
    (found : desired[col]? = some cell) (plain : isCont cell = false)
    (narrow : width cell.text ≠ 2) {c : Nat}
    (settled : c = col ∨ row c = r.shown links width desired c) :
    row.one col (textOf cell) (r.penOf cell) (r.linkAt links cell.link) c =
      r.shown links width desired c := by
  by_cases here : c = col
  · subst here
    rw [Row.one_self]
    simp only [Renderer.shown, found, plain, Bool.false_eq_true, if_false, narrow]
  · have right := settled.resolve_left here
    have notLead : leadAt width desired col = false := by
      rw [leadAt_of_some found plain]
      simpa using narrow
    have notCont : contAt desired col = false := by
      simp only [contAt, found, Option.any_some, plain]
    rw [Row.one_apply paired _ _ _ here, right]
    split
    · next halved =>
        exfalso
        rcases halved with ⟨rfl, trail⟩ | ⟨rfl, lead⟩
        · -- the left half would be settled, and this column its right half
          have lead : (row c).glyph.isLead = true := by rw [← paired.pairs]; exact trail
          rw [right, shown_isLead r links formed, ← formed.pairs, notCont] at lead
          cases lead
        · have trail : (row (col + 1)).glyph.isTrail = true := by rw [paired.pairs]; exact lead
          rw [right, shown_isTrail r links formed, formed.pairs, notLead] at trail
          cases trail
    · rfl

theorem settle_two (formed : Formed width desired) (paired : row.Paired)
    (found : desired[col]? = some cell) (plain : isCont cell = false)
    (wide : width cell.text = 2) {c : Nat}
    (settled : c = col ∨ c = col + 1 ∨ row c = r.shown links width desired c) :
    row.two col cell.text (r.penOf cell) (r.linkAt links cell.link) c =
      r.shown links width desired c := by
  have lead : leadAt width desired col = true := by
    rw [leadAt_of_some found plain]
    simpa using wide
  have cont : contAt desired (col + 1) = true := by rw [formed.pairs]; exact lead
  by_cases first : c = col
  · subst first
    rw [Row.two_lead]
    simp only [Renderer.shown, found, plain, Bool.false_eq_true, if_false, wide, if_true]
  · by_cases second : c = col + 1
    · subst second
      rw [Row.two_trail, shown_trail r links found cont]
    · have right := (settled.resolve_left first).resolve_left second
      have notCont : contAt desired col = false := by
        simp only [contAt, found, Option.any_some, plain]
      rw [Row.two_apply paired _ _ _ first second, right]
      split
      · next halved =>
          exfalso
          rcases halved with ⟨rfl, trail⟩ | ⟨rfl, next⟩
          · have before : (row c).glyph.isLead = true := by rw [← paired.pairs]; exact trail
            rw [right, shown_isLead r links formed, ← formed.pairs, notCont] at before
            cases before
          · -- a right half at the end would need a left half where this cell's own right half is
            have trail : (row (col + 1 + 1)).glyph.isTrail = true := by
              rw [paired.pairs]
              exact next
            rw [right, shown_isTrail r links formed, formed.pairs] at trail
            have both := shown_isLead r links formed (col + 1)
            rw [trail] at both
            have alone := Vt.Glyph.not_both _ both
            rw [shown_isTrail r links formed, cont] at alone
            cases alone
      · rfl

theorem put_settles (measure : Measure width) (formed : Formed width desired)
    (spaced : Spaced width desired) (paired : row.Paired)
    (found : desired[col]? = some cell) (plain : isCont cell = false) :
    let row' := row.put col (textOf cell) (r.penOf cell) (r.linkAt links cell.link)
      (width (textOf cell))
    row'.Paired ∧ col + width (textOf cell) = (if contAt desired (col + 1) then col + 2 else col + 1) ∧
      ∀ c, (c = col ∨ (c = col + 1 ∧ contAt desired c = true) ∨
        row c = r.shown links width desired c) → row' c = r.shown links width desired c := by
  have member := List.mem_of_getElem? found
  rcases width_textOf measure (formed.fits cell member plain) (spaced cell member plain) with
    ⟨columns, narrow⟩ | ⟨columns, wide, same⟩
  · have notLead : leadAt width desired col = false := by
      rw [leadAt_of_some found plain]
      simpa using narrow
    have notCont : contAt desired (col + 1) = false := by rw [formed.pairs]; exact notLead
    simp only [columns, Row.put, notCont]
    refine ⟨paired.one _ _ _, rfl, fun c settled => ?_⟩
    refine settle_one r links formed paired found plain narrow ?_
    rcases settled with here | ⟨rfl, cont⟩ | right
    · exact Or.inl here
    · rw [notCont] at cont
      cases cont
    · exact Or.inr right
  · have lead : leadAt width desired col = true := by
      rw [leadAt_of_some found plain]
      simpa using wide
    have cont : contAt desired (col + 1) = true := by rw [formed.pairs]; exact lead
    simp only [wide, Row.put, cont, if_true, same]
    refine ⟨paired.two _ _ _, trivial, fun c settled => ?_⟩
    refine settle_two r links formed paired found plain wide ?_
    rcases settled with here | ⟨next, -⟩ | right
    · exact Or.inl here
    · exact Or.inr (Or.inl next)
    · exact Or.inr (Or.inr right)

end

section
variable (desired : List Cell) (changed : Nat → Bool)

/-- Where a run may begin: at a dirty column, the one before it clean, or at a clean one
whose glyph has a dirty right half. -/
def Begins (s : Nat) : Prop :=
  (changed s = true ∧ (s = 0 ∨ contAt desired s = false) ∧ ∀ j, j + 1 = s → changed j = false) ∨
    (changed s = false ∧ changed (s + 1) = true ∧ contAt desired (s + 1) = true)

/-- What the scan of a row has found after its first `k` columns. -/
structure Scanned (k : Nat) (acc : List (Nat × Nat) × Option Nat) : Prop where
  runs : ∀ run ∈ acc.1, run.1 < run.2 ∧ run.2 ≤ k
  open_ : ∀ s, acc.2 = some s → s < k
  starts : ∀ s, (∃ e, (s, e) ∈ acc.1) ∨ acc.2 = some s → Begins desired changed s
  ends : ∀ run ∈ acc.1, run.2 = desired.length ∨ changed run.2 = false
  covers : ∀ c, c < k → changed c = true →
    (∃ run ∈ acc.1, run.1 ≤ c ∧ c < run.2) ∨ ∃ s, acc.2 = some s ∧ s ≤ c
  pairs : ∀ c, c + 1 < k → changed (c + 1) = true → contAt desired (c + 1) = true →
    (∃ run ∈ acc.1, run.1 ≤ c ∧ c < run.2) ∨ ∃ s, acc.2 = some s ∧ s ≤ c
  inside : ∀ run ∈ acc.1, ∀ c, run.1 < c → c < run.2 → changed c = true
  going : ∀ s, acc.2 = some s → ∀ c, s < c → c < k → changed c = true

namespace Scanned
variable {desired changed} {k : Nat}

theorem stay {runs : List (Nat × Nat)} {s : Nat} (scanned : Scanned desired changed k (runs, some s))
    (here : changed k = true) : Scanned desired changed (k + 1) (runs, some s) := by
  have before := scanned.open_ s rfl
  refine ⟨fun run member => ?_, fun a same => ?_, scanned.starts, scanned.ends,
    fun c inside dirty => ?_, fun c inside dirty cont => ?_, scanned.inside,
    fun a same c after inside => ?_⟩
  · exact ⟨(scanned.runs run member).1, Nat.le_succ_of_le (scanned.runs run member).2⟩
  · exact Nat.lt_succ_of_lt (scanned.open_ a same)
  · by_cases last : c = k
    · exact Or.inr ⟨s, rfl, by omega⟩
    · exact scanned.covers c (by omega) dirty
  · by_cases last : c + 1 = k
    · exact Or.inr ⟨s, rfl, by omega⟩
    · exact scanned.pairs c (by omega) dirty cont
  · by_cases last : c = k
    · rw [last]
      exact here
    · exact scanned.going a same c after (by omega)

theorem opens {runs : List (Nat × Nat)} (scanned : Scanned desired changed k (runs, none))
    (idle : ∀ j, j + 1 = k → changed j = false) (here : changed k = true) :
    Scanned desired changed (k + 1)
      (runs, some (if contAt desired k && decide (k > 0) then k - 1 else k)) := by
  have start : ∀ s, (if contAt desired k && decide (k > 0) then k - 1 else k) = s →
      (s + 1 = k ∧ contAt desired k = true) ∨ (s = k ∧ (k = 0 ∨ contAt desired k = false)) := by
    intro s same
    split at same
    · next extended =>
        simp only [Bool.and_eq_true, decide_eq_true_eq] at extended
        exact Or.inl ⟨by omega, extended.1⟩
    · next own =>
        simp only [Bool.and_eq_true, decide_eq_true_eq, not_and, Nat.not_lt] at own
        refine Or.inr ⟨same.symm, ?_⟩
        cases cont : contAt desired k with
        | false => exact Or.inr rfl
        | true => exact Or.inl (by have := own cont; omega)
  have closed : ∀ {c : Nat} {P : Prop}, (∃ s, (none : Option Nat) = some s ∧ s ≤ c) → P :=
    fun ⟨_, absent, _⟩ => (by cases absent)
  refine ⟨fun run member => ?_, fun s same => ?_, fun s place => ?_, scanned.ends,
    fun c inside dirty => ?_, fun c inside dirty cont => ?_, scanned.inside,
    fun s same c after inside => ?_⟩
  · exact ⟨(scanned.runs run member).1, Nat.le_succ_of_le (scanned.runs run member).2⟩
  · rcases start s (Option.some.inj same) with ⟨rfl, -⟩ | ⟨rfl, -⟩
    · omega
    · omega
  · cases place with
    | inl old => exact scanned.starts s (Or.inl old)
    | inr new =>
        rcases start s (Option.some.inj new) with ⟨rfl, cont⟩ | ⟨rfl, own⟩
        · exact Or.inr ⟨idle s rfl, here, cont⟩
        · exact Or.inl ⟨here, own, idle⟩
  · by_cases last : c = k
    · refine Or.inr ⟨_, rfl, ?_⟩
      rcases start _ rfl with ⟨before, -⟩ | ⟨same, -⟩
      · omega
      · omega
    · exact (scanned.covers c (by omega) dirty).elim Or.inl closed
  · by_cases last : c + 1 = k
    · refine Or.inr ⟨_, rfl, ?_⟩
      rcases start _ rfl with ⟨before, -⟩ | ⟨-, zero | plain⟩
      · omega
      · omega
      · rw [← last, cont] at plain
        cases plain
    · exact (scanned.pairs c (by omega) dirty cont).elim Or.inl closed
  · rcases start s (Option.some.inj same) with ⟨before, -⟩ | ⟨own, -⟩
    · obtain rfl : c = k := by omega
      exact here
    · omega

theorem close {runs : List (Nat × Nat)} {s : Nat}
    (scanned : Scanned desired changed k (runs, some s))
    (here : k = desired.length ∨ changed k = false) :
    Scanned desired changed k (runs ++ [(s, k)], none) := by
  have before := scanned.open_ s rfl
  have kept : ∀ {c : Nat}, c < k →
      ((∃ run ∈ runs, run.1 ≤ c ∧ c < run.2) ∨ ∃ a, (some s) = some a ∧ a ≤ c) →
      ∃ run ∈ runs ++ [(s, k)], run.1 ≤ c ∧ c < run.2 := by
    intro c inside place
    rcases place with ⟨run, member, bounds⟩ | ⟨a, same, from_⟩
    · exact ⟨run, List.mem_append_left _ member, bounds⟩
    · obtain rfl := Option.some.inj same
      exact ⟨(s, k), List.mem_append_right _ (List.mem_singleton.mpr rfl), from_, inside⟩
  refine ⟨fun run member => ?_, fun a none => (by cases none), fun a place => ?_,
    fun run member => ?_, fun c inside dirty => Or.inl (kept inside (scanned.covers c inside dirty)),
    fun c inside dirty cont => Or.inl (kept (by omega) (scanned.pairs c inside dirty cont)),
    fun run member c after inside => ?_, fun a none => (by cases none)⟩
  · cases List.mem_append.mp member with
    | inl old => exact scanned.runs run old
    | inr new =>
        rw [List.mem_singleton.mp new]
        exact ⟨before, Nat.le_refl k⟩
  · rcases place with ⟨e, member⟩ | none
    · cases List.mem_append.mp member with
      | inl old => exact scanned.starts a (Or.inl ⟨e, old⟩)
      | inr new =>
          obtain ⟨rfl, -⟩ := Prod.mk.inj (List.mem_singleton.mp new)
          exact scanned.starts a (Or.inr rfl)
    · cases none
  · cases List.mem_append.mp member with
    | inl old => exact scanned.ends run old
    | inr new =>
        rw [List.mem_singleton.mp new]
        exact here
  · cases List.mem_append.mp member with
    | inl old => exact scanned.inside run old c after inside
    | inr new =>
        rw [List.mem_singleton.mp new] at after inside
        exact scanned.going s rfl c after inside

theorem skip {runs : List (Nat × Nat)} (scanned : Scanned desired changed k (runs, none))
    (clean : changed k = false) : Scanned desired changed (k + 1) (runs, none) := by
  have earlier : ∀ {c : Nat}, c < k + 1 → changed c = true → c < k := by
    intro c inside dirty
    by_contra past
    obtain rfl : c = k := by omega
    rw [clean] at dirty
    cases dirty
  exact ⟨fun run member =>
      ⟨(scanned.runs run member).1, Nat.le_succ_of_le (scanned.runs run member).2⟩,
    fun a none => (by cases none), scanned.starts, scanned.ends,
    fun c inside dirty => scanned.covers c (earlier inside dirty) dirty,
    fun c inside dirty cont => scanned.pairs c (earlier inside dirty) dirty cont,
    scanned.inside, fun a none => (by cases none)⟩

theorem step {acc : List (Nat × Nat) × Option Nat} (scanned : Scanned desired changed k acc)
    (idle : acc.2 = none → ∀ j, j + 1 = k → changed j = false) :
    Scanned desired changed (k + 1) (runStep desired changed acc k) ∧
      ((runStep desired changed acc k).2 = none → ∀ j, j + 1 = k + 1 → changed j = false) := by
  have clean : changed k = false → ∀ j, j + 1 = k + 1 → changed j = false := by
    intro clean j same
    rw [Nat.succ.inj same]
    exact clean
  obtain ⟨runs, start⟩ := acc
  cases here : changed k with
  | true =>
      cases start with
      | none =>
          simp only [runStep, here]
          exact ⟨scanned.opens (idle rfl) here, fun none => (by cases none)⟩
      | some s =>
          simp only [runStep, here]
          exact ⟨scanned.stay here, fun none => (by cases none)⟩
  | false =>
      cases start with
      | none =>
          simp only [runStep, here]
          exact ⟨scanned.skip here, fun _ => clean here⟩
      | some s =>
          simp only [runStep, here]
          exact ⟨(scanned.close (Or.inr here)).skip here, fun _ => clean here⟩

theorem scan (k : Nat) :
    Scanned desired changed k ((List.range k).foldl (runStep desired changed) ([], none)) ∧
      (((List.range k).foldl (runStep desired changed) ([], none)).2 = none →
        ∀ j, j + 1 = k → changed j = false) := by
  induction k with
  | zero =>
      exact ⟨⟨fun run none => (by cases none), fun s none => (by cases none),
        fun s none => none.elim (fun ⟨e, no⟩ => (by cases no)) (fun no => (by cases no)),
        fun run none => (by cases none), fun c no => (by cases no), fun c no => (by cases no),
        fun run none => (by cases none), fun s none => (by cases none)⟩,
        fun _ j same => (by cases same)⟩
  | succ k ih =>
      rw [List.range_succ, List.foldl_append]
      exact ih.1.step ih.2

end Scanned

/-- What the runs of a row are known to satisfy. -/
structure Runs (runs : List (Nat × Nat)) : Prop where
  bounds : ∀ run ∈ runs, run.1 < run.2 ∧ run.2 ≤ desired.length
  starts : ∀ run ∈ runs, Begins desired changed run.1
  ends : ∀ run ∈ runs, run.2 = desired.length ∨ changed run.2 = false
  covers : ∀ c, c < desired.length → changed c = true → ∃ run ∈ runs, run.1 ≤ c ∧ c < run.2
  pairs : ∀ c, c + 1 < desired.length → changed (c + 1) = true →
    contAt desired (c + 1) = true → ∃ run ∈ runs, run.1 ≤ c ∧ c < run.2
  inside : ∀ run ∈ runs, ∀ c, run.1 < c → c < run.2 → changed c = true

theorem changedRuns_spec : Runs desired changed (changedRuns desired changed) := by
  have finished : ∀ runs : List (Nat × Nat), Scanned desired changed desired.length (runs, none) →
      Runs desired changed runs := by
    intro runs scanned
    have closed : ∀ {c : Nat} {P : Prop}, (∃ s, (none : Option Nat) = some s ∧ s ≤ c) → P :=
      fun ⟨_, absent, _⟩ => (by cases absent)
    exact ⟨scanned.runs, fun run member => scanned.starts run.1 (Or.inl ⟨run.2, member⟩),
      scanned.ends, fun c inside dirty => (scanned.covers c inside dirty).elim id closed,
      fun c inside dirty cont => (scanned.pairs c inside dirty cont).elim id closed,
      scanned.inside⟩
  have scanned := (@Scanned.scan desired changed desired.length).1
  simp only [changedRuns]
  split
  · next runs result =>
      rw [result] at scanned
      exact finished runs scanned
  · next runs s result =>
      rw [result] at scanned
      exact finished _ (scanned.close (Or.inl rfl))

variable {desired changed}

theorem Runs.unique {runs : List (Nat × Nat)} (spec : Runs desired changed runs) {x y : Nat × Nat}
    (memberX : x ∈ runs) (memberY : y ∈ runs) {c : Nat} (inX : x.1 ≤ c ∧ c < x.2)
    (inY : y.1 ≤ c ∧ c < y.2) : x = y := by
  have ends : ∀ {x y : Nat × Nat}, x ∈ runs → y ∈ runs → x.1 ≤ c → c < y.2 → x.2 ≤ y.2 := by
    intro x y memberX memberY low high
    by_contra past
    have dirty := spec.inside x memberX y.2 (by omega) (by omega)
    have bound := (spec.bounds x memberX).2
    rcases spec.ends y memberY with last | clean
    · omega
    · rw [clean] at dirty
      cases dirty
  have starts : ∀ {x y : Nat × Nat}, x ∈ runs → y ∈ runs → x.1 ≤ c → c < y.2 → x.1 ≤ y.1 := by
    intro x y memberX memberY low high
    by_contra past
    have dirty := spec.inside y memberY x.1 (by omega) (by omega)
    rcases spec.starts x memberX with ⟨-, plain, before⟩ | ⟨clean, -, -⟩
    · have clean := before (x.1 - 1) (by omega)
      by_cases next : y.1 = x.1 - 1
      · rcases spec.starts y memberY with ⟨own, -, -⟩ | ⟨-, -, cont⟩
        · rw [next, clean] at own
          cases own
        · rw [show y.1 + 1 = x.1 by omega] at cont
          rcases plain with zero | plain
          · omega
          · rw [cont] at plain
            cases plain
      · rw [spec.inside y memberY (x.1 - 1) (by omega) (by omega)] at clean
        cases clean
    · rw [clean] at dirty
      cases dirty
  exact Prod.ext
    (Nat.le_antisymm (starts memberX memberY inX.1 inY.2) (starts memberY memberX inY.1 inX.2))
    (Nat.le_antisymm (ends memberX memberY inX.1 inY.2) (ends memberY memberX inY.1 inX.2))

end
end Oxutrm.Paint
