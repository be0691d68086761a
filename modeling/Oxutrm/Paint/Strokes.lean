import Oxutrm.Paint.Rows

/-!
What the cells written by a pass do to the terminal: one cell, one run, one row, and
all of them. A run starts and ends with no hyperlink open; the pen is the one last
selected.
-/
namespace Oxutrm.Paint
open Proto
open Vt (Terminal Row Command)

theorem sgrFor_reset (caps : TerminalCaps) (cell : Cell) :
    ∃ params, sgrFor caps cell = 0 :: params := ⟨_, rfl⟩

theorem linkParams_plain (id : UInt16) : ∀ c ∈ linkParams id, c ≠ ';' := by
  intro c member
  cases List.mem_append.mp member with
  | inl label =>
      simp only [List.mem_cons, List.not_mem_nil, or_false] at label
      rcases label with rfl | rfl | rfl
      · decide
      · decide
      · decide
  | inr digit =>
      have digit := Nat.isDigit_of_mem_toDigits (by decide) (by decide) digit
      rintro rfl
      revert digit
      decide

theorem paintable_some {links : Links} {id : UInt16} {uri : Text}
    (painted : paintable links id = some uri) :
    links[id]? = some uri ∧ checkLinkUri id uri = .ok () := by
  simpa [paintable, Option.filter_eq_some_iff] using painted

theorem checkLinkUri_nonempty {id : UInt16} {uri : Text} (checked : checkLinkUri id uri = .ok ()) :
    uri ≠ [] := by
  rintro rfl
  simp only [checkLinkUri, checked_seq_ok, refuse_ok] at checked
  exact checked.2.1 rfl

/-- The pen after a pass so far that began with another. -/
def Ink.penFrom (ink : Ink) (pen : Vt.Pen) : Vt.Pen := (ink.pen.map (Vt.Pen.select {})).getD pen

section
variable (width : Text → Nat) (r : Renderer) (links : Links) (pen : Vt.Pen)

/-- The terminal is where the ink says: its pen is the selection last written, and the
hyperlink open is the one the run has opened. -/
structure Drawing (t : Terminal) (ink : Ink) (opened : UInt16) : Prop where
  pen : t.pen = ink.penFrom pen
  link : t.link = r.linkAt links opened

variable {r links pen}

theorem linkAt_zero (zero : links[(0 : UInt16)]? = none) : r.linkAt links 0 = none := by
  simp only [Renderer.linkAt, paintable, zero, Option.filter_none, Option.map_none, ite_self]

theorem run_writeLink (zero : links[(0 : UInt16)]? = none) {t : Terminal} {opened : UInt16}
    (drawing : t.link = r.linkAt links opened) (cell : Cell) :
    t.run width (r.writeLink links cell opened).1 =
        { t with link := r.linkAt links cell.link } ∧
      r.linkAt links (r.writeLink links cell opened).2 = r.linkAt links cell.link := by
  have closed : t.run width (if opened ≠ 0 then [.closeLink] else []) = { t with link := none } := by
    by_cases idle : opened = 0
    · rw [idle, linkAt_zero zero] at drawing
      simp only [idle, ne_eq, not_true_eq_false, if_false, Terminal.run_nil, ← drawing]
    · simp only [idle, ne_eq, not_false_eq_true, if_true, Terminal.run_cons, Terminal.run_nil,
        Terminal.exec_closeLink]
  by_cases other : r.linksOn = true ∧ cell.link ≠ opened
  · cases painted : paintable links cell.link with
    | some uri =>
        have named := checkLinkUri_nonempty (paintable_some painted).2
        have opens := fun t : Terminal =>
          Terminal.exec_openLink width t (linkParams_plain cell.link) named
        simp only [Renderer.writeLink, other, ne_eq, not_false_eq_true, and_self, if_true, painted]
        rw [Terminal.run_append, closed]
        simp only [Terminal.run_cons, Terminal.run_nil, opens, Renderer.linkAt, other.1, if_true,
          painted, Option.map_some, and_self]
    | none =>
        have plain : r.linkAt links cell.link = none := by
          simp only [Renderer.linkAt, painted, Option.map_none, ite_self]
        simp only [Renderer.writeLink, other, ne_eq, not_false_eq_true, and_self, if_true, painted]
        rw [closed, linkAt_zero zero, plain]
        exact ⟨rfl, rfl⟩
  · simp only [Renderer.writeLink, other, if_false, Terminal.run_nil]
    have same : r.linkAt links opened = r.linkAt links cell.link := by
      by_cases on : r.linksOn = true
      · rw [not_and, not_not] at other
        rw [other on]
      · simp only [Renderer.linkAt, on, Bool.false_eq_true, if_false]
    rw [← same, ← drawing]
    exact ⟨rfl, rfl⟩

theorem run_writeCell (zero : links[(0 : UInt16)]? = none) {t t₀ : Terminal} {acc : Ink × UInt16}
    (ran : t₀.run width acc.1.out = t) (drawing : Drawing r links pen t acc.1 acc.2) {cell : Cell}
    (plain : isCont cell = false) :
    t₀.run width (r.writeCell links acc cell).1.out =
        Terminal.print width
          { t with link := r.linkAt links cell.link, pen := r.penOf cell } (textOf cell) ∧
      (r.writeCell links acc cell).1.pen = some (sgrFor r.caps cell) ∧
      r.linkAt links (r.writeCell links acc cell).2 = r.linkAt links cell.link := by
  obtain ⟨linked, same⟩ := run_writeLink width zero drawing.link cell
  obtain ⟨params, reset⟩ := sgrFor_reset r.caps cell
  have selected : ∀ t' : Terminal, t'.pen = t.pen →
      t'.run width (if acc.1.pen = some (sgrFor r.caps cell) then [] else [.sgr (sgrFor r.caps cell)]) =
        { t' with pen := r.penOf cell } := by
    intro t' same
    split
    · next chosen =>
        have now := drawing.pen
        rw [Ink.penFrom, chosen, Option.map_some, Option.getD_some] at now
        rw [Terminal.run_nil, Renderer.penOf, ← now, ← same]
    · rw [Terminal.run_cons, Terminal.run_nil, Renderer.penOf, reset, Terminal.exec_sgr_reset]
      rfl
  refine ⟨?_, ?_, ?_⟩
  · simp only [Renderer.writeCell, plain, Bool.false_eq_true, if_false]
    rw [Terminal.run_append, Terminal.run_append, Terminal.run_append, ran, linked,
      selected { t with link := r.linkAt links cell.link } rfl]
    rfl
  · simp only [Renderer.writeCell, plain, Bool.false_eq_true, if_false]
  · simp only [Renderer.writeCell, plain, Bool.false_eq_true, if_false]
    exact same

end

/-- Row `row` has come closer to `goal`: the columns in `done` are as in it, and so are
those that were before. Nothing else has changed. -/
structure Draws (row : Nat) (goal : Row) (done : Nat → Prop) (t t' : Terminal) : Prop where
  settings : t'.settings = t.settings
  others : ∀ i, i ≠ row → t'.cells i = t.cells i
  paired : (t'.cells row).Paired
  settled : ∀ c, done c ∨ t.cells row c = goal c → t'.cells row c = goal c

namespace Draws
variable {row : Nat} {goal : Row} {done more : Nat → Prop} {t t' t'' : Terminal}

theorem refl (paired : (t.cells row).Paired) : Draws row goal (fun _ => False) t t :=
  ⟨rfl, fun _ _ => rfl, paired, fun _ settled => settled.resolve_left id⟩

theorem trans (first : Draws row goal done t t') (second : Draws row goal more t' t'') :
    Draws row goal (fun c => done c ∨ more c) t t'' := by
  refine ⟨second.settings.trans first.settings,
    fun i other => (second.others i other).trans (first.others i other), second.paired,
    fun c settled => second.settled c ?_⟩
  rcases settled with (early | late) | before
  · exact Or.inr (first.settled c (Or.inl early))
  · exact Or.inl late
  · exact Or.inr (first.settled c (Or.inr before))

theorem mono (draws : Draws row goal done t t') (less : ∀ c, more c → done c) :
    Draws row goal more t t' :=
  { draws with settled := fun c settled => draws.settled c (settled.imp_left (less c)) }

end Draws

/-- The columns that the cells from `k` up to `e` are painted in. -/
def Strikes (desired : List Cell) (k e c : Nat) : Prop :=
  (k ≤ c ∧ c < e ∧ contAt desired c = false) ∨
    ∃ j, c = j + 1 ∧ k ≤ j ∧ j < e ∧ contAt desired c = true

section
variable {width : Text → Nat} {r : Renderer} {links : Links} {pen : Vt.Pen} {desired : List Cell}

theorem print_draws (measure : Measure width) (formed : Formed width desired)
    (spaced : Spaced width desired) {t : Terminal} {row k : Nat} {cell : Cell}
    (found : desired[k]? = some cell) (plain : isCont cell = false) (atRow : t.row = row)
    (atCol : t.col = k) (paired : (t.cells row).Paired) :
    let t' := Terminal.print width
      { t with link := r.linkAt links cell.link, pen := r.penOf cell } (textOf cell)
    Draws row (r.shown links width desired)
        (fun c => c = k ∨ (c = k + 1 ∧ contAt desired c = true)) t t' ∧
      t'.row = row ∧ t'.col = (if contAt desired (k + 1) then k + 2 else k + 1) := by
  obtain ⟨after, columns, settles⟩ :=
    put_settles r links measure formed spaced paired found plain
  subst atRow atCol
  refine ⟨⟨rfl, fun i other => ?_, ?_, fun c settled => ?_⟩, rfl, columns⟩
  · simp only [Terminal.print, Function.update_of_ne other]
  · simp only [Terminal.print, Function.update_self]
    exact after
  · simp only [Terminal.print, Function.update_self]
    refine settles c ?_
    rcases settled with (here | next) | before
    · exact Or.inl here
    · exact Or.inr (Or.inl next)
    · exact Or.inr (Or.inr before)

theorem Formed.next_plain (formed : Formed width desired) {k : Nat}
    (cont : contAt desired k = true) : contAt desired (k + 1) = false := by
  rw [formed.pairs]
  cases found : desired[k]? with
  | none => simp only [leadAt, found, Option.any_none]
  | some cell =>
      simp only [contAt, found, Option.any_some] at cont
      simp only [leadAt, found, Option.any_some, isWideLead, cont, Bool.not_true, Bool.false_and]

theorem drop_take_cons {e k : Nat} (before : k < e) (inside : e ≤ desired.length) :
    ∃ cell, desired[k]? = some cell ∧
      (desired.take e).drop k = cell :: (desired.take e).drop (k + 1) := by
  have bound : k < (desired.take e).length := by
    rw [List.length_take]
    omega
  refine ⟨(desired.take e)[k], ?_, List.drop_eq_getElem_cons bound⟩
  rw [List.getElem_take]
  exact List.getElem?_eq_getElem _

theorem run_cells (measure : Measure width) (formed : Formed width desired)
    (spaced : Spaced width desired) (zero : links[(0 : UInt16)]? = none) {row e : Nat}
    (inside : e ≤ desired.length) {t₀ : Terminal} (m : Nat) :
    ∀ {k : Nat} (acc : Ink × UInt16) {t : Terminal}, k + m = e →
      t₀.run width acc.1.out = t → t.row = row →
      t.col = (if contAt desired k then k + 1 else k) → (t.cells row).Paired →
      Drawing r links pen t acc.1 acc.2 →
      ∃ t', t₀.run width (((desired.take e).drop k).foldl (r.writeCell links) acc).1.out = t' ∧
        Draws row (r.shown links width desired) (Strikes desired k e) t t' ∧
        Drawing r links pen t' (((desired.take e).drop k).foldl (r.writeCell links) acc).1
          (((desired.take e).drop k).foldl (r.writeCell links) acc).2 := by
  induction m with
  | zero =>
      intro k acc t reach ran atRow atCol paired drawing
      have none : (desired.take e).drop k = [] := by
        rw [List.drop_eq_nil_iff, List.length_take]
        omega
      rw [none]
      refine ⟨t, ran, (Draws.refl paired).mono fun c strikes => ?_, drawing⟩
      rcases strikes with ⟨low, high, -⟩ | ⟨j, -, low, high, -⟩
      · omega
      · omega
  | succ m ih =>
      intro k acc t reach ran atRow atCol paired drawing
      obtain ⟨cell, found, cells⟩ := drop_take_cons (show k < e by omega) inside
      rw [cells, List.foldl_cons]
      cases cont : isCont cell with
      | true =>
          have here : contAt desired k = true := by
            simp only [contAt, found, Option.any_some, cont]
          have next := formed.next_plain here
          have skipped : r.writeCell links acc cell = acc := by
            simp only [Renderer.writeCell, cont, if_true]
          rw [skipped]
          obtain ⟨t', run, draws, after⟩ := ih acc (show k + 1 + m = e by omega) ran atRow
            (by rw [atCol, here, next]; rfl) paired drawing
          refine ⟨t', run, draws.mono fun c strikes => ?_, after⟩
          rcases strikes with ⟨low, high, plain⟩ | ⟨j, same, low, high, right⟩
          · refine Or.inl ⟨?_, high, plain⟩
            by_contra small
            obtain rfl : c = k := by omega
            rw [here] at plain
            cases plain
          · refine Or.inr ⟨j, same, ?_, high, right⟩
            by_contra small
            obtain rfl : j = k := by omega
            rw [same, next] at right
            cases right
      | false =>
          have here : contAt desired k = false := by
            simp only [contAt, found, Option.any_some, cont]
          rw [here] at atCol
          obtain ⟨written, selected, link⟩ := run_writeCell width zero ran drawing cont
          obtain ⟨first, row', col'⟩ :=
            print_draws measure formed spaced found cont atRow atCol paired
          obtain ⟨t', run, draws, after⟩ := ih _ (show k + 1 + m = e by omega) written row'
            (by rw [col']) first.paired ⟨by rw [Ink.penFrom, selected]; rfl, by rw [link]; rfl⟩
          refine ⟨t', run, (first.trans draws).mono fun c strikes => ?_, after⟩
          rcases strikes with ⟨low, high, plain⟩ | ⟨j, same, low, high, right⟩
          · by_cases own : c = k
            · exact Or.inl (Or.inl own)
            · exact Or.inr (Or.inl ⟨by omega, high, plain⟩)
          · by_cases own : j = k
            · exact Or.inl (Or.inr ⟨by rw [same, own], right⟩)
            · exact Or.inr (Or.inr ⟨j, same, by omega, high, right⟩)

/-- The terminal between runs: the pen last selected, and no hyperlink open. -/
structure Between (pen : Vt.Pen) (t : Terminal) (ink : Ink) : Prop where
  pen : t.pen = ink.penFrom pen
  link : t.link = none

theorem run_writeRun (measure : Measure width) (formed : Formed width desired)
    (spaced : Spaced width desired) (zero : links[(0 : UInt16)]? = none) {row : Nat}
    {run : Nat × Nat} (order : run.1 < run.2) (inside : run.2 ≤ desired.length)
    (start : contAt desired run.1 = false) {t₀ t : Terminal} {ink : Ink}
    (ran : t₀.run width ink.out = t) (paired : (t.cells row).Paired) (between : Between pen t ink) :
    ∃ t', t₀.run width (r.writeRun links row desired ink run).out = t' ∧
      Draws row (r.shown links width desired) (Strikes desired run.1 run.2) t t' ∧
      Between pen t' (r.writeRun links row desired ink run) := by
  have moved : t₀.run width (ink.out ++ [.moveTo row run.1]) =
      { t with row := row, col := run.1 } := by
    rw [Terminal.run_append, ran]
    rfl
  have drawing : Drawing r links pen { t with row := row, col := run.1 }
      { ink with out := ink.out ++ [.moveTo row run.1] } 0 :=
    ⟨between.pen, by rw [linkAt_zero zero]; exact between.link⟩
  obtain ⟨t', written, draws, after⟩ :=
    run_cells measure formed spaced zero inside (run.2 - run.1)
      ({ ink with out := ink.out ++ [.moveTo row run.1] }, 0) (show run.1 + _ = run.2 by omega)
      moved rfl (by rw [start]; rfl) paired drawing
  have draws : Draws row (r.shown links width desired) (Strikes desired run.1 run.2) t t' :=
    ⟨draws.settings, draws.others, draws.paired, draws.settled⟩
  simp only [Renderer.writeRun]
  split
  · refine ⟨{ t' with link := none }, ?_, ⟨draws.settings, draws.others, draws.paired,
      draws.settled⟩, after.pen, rfl⟩
    rw [Terminal.run_append, written]
    rfl
  · next closed =>
      rw [ne_eq, not_not] at closed
      refine ⟨t', written, draws, after.pen, ?_⟩
      rw [after.link, closed, linkAt_zero zero]

theorem run_writeRuns (measure : Measure width) (formed : Formed width desired)
    (spaced : Spaced width desired) (zero : links[(0 : UInt16)]? = none) {row : Nat}
    {t₀ : Terminal} (runs : List (Nat × Nat))
    (bounds : ∀ run ∈ runs, run.1 < run.2 ∧ run.2 ≤ desired.length ∧
      contAt desired run.1 = false) :
    ∀ {t : Terminal} {ink : Ink}, t₀.run width ink.out = t → (t.cells row).Paired →
      Between pen t ink →
      ∃ t', t₀.run width (runs.foldl (r.writeRun links row desired) ink).out = t' ∧
        Draws row (r.shown links width desired)
          (fun c => ∃ run ∈ runs, Strikes desired run.1 run.2 c) t t' ∧
        Between pen t' (runs.foldl (r.writeRun links row desired) ink) := by
  induction runs with
  | nil =>
      intro t ink ran paired between
      exact ⟨t, ran, (Draws.refl paired).mono fun c ⟨_, absent, _⟩ => (by cases absent), between⟩
  | cons run runs ih =>
      intro t ink ran paired between
      obtain ⟨order, inside, start⟩ := bounds run List.mem_cons_self
      obtain ⟨t', first, draws, between'⟩ :=
        run_writeRun measure formed spaced zero order inside start ran paired between
      obtain ⟨t'', rest, further, between''⟩ :=
        ih (fun run member => bounds run (List.mem_cons_of_mem _ member)) first draws.paired
          between'
      refine ⟨t'', rest, (draws.trans further).mono fun c struck => ?_, between''⟩
      obtain ⟨run', member, strikes⟩ := struck
      cases List.mem_cons.mp member with
      | inl same =>
          rw [same] at strikes
          exact Or.inl strikes
      | inr later => exact Or.inr ⟨run', later, strikes⟩

theorem runs_start_plain (formed : Formed width desired) {changed : Nat → Bool}
    {runs : List (Nat × Nat)} (spec : Runs desired changed runs) :
    ∀ run ∈ runs, run.1 < run.2 ∧ run.2 ≤ desired.length ∧ contAt desired run.1 = false := by
  intro run member
  refine ⟨(spec.bounds run member).1, (spec.bounds run member).2, ?_⟩
  rcases spec.starts run member with ⟨-, zero | plain, -⟩ | ⟨-, -, cont⟩
  · rw [zero]
    exact formed.first
  · exact plain
  · cases here : contAt desired run.1 with
    | false => rfl
    | true =>
        rw [formed.next_plain here] at cont
        cases cont

theorem Runs.strikes (formed : Formed width desired) {changed : Nat → Bool}
    {runs : List (Nat × Nat)} (spec : Runs desired changed runs) {c : Nat}
    (inside : c < desired.length)
    (due : changed c = true ∨ ∃ j, c = j + 1 ∧ contAt desired c = true ∧ changed j = true) :
    ∃ run ∈ runs, Strikes desired run.1 run.2 c := by
  rcases due with dirty | ⟨j, rfl, cont, dirty⟩
  · cases cont : contAt desired c with
    | false =>
        obtain ⟨run, member, low, high⟩ := spec.covers c inside dirty
        exact ⟨run, member, Or.inl ⟨low, high, cont⟩⟩
    | true =>
        obtain ⟨j, lead, rfl, -⟩ := formed.lead_of_cont cont
        obtain ⟨run, member, low, high⟩ := spec.pairs j inside dirty cont
        exact ⟨run, member, Or.inr ⟨j, rfl, low, high, cont⟩⟩
  · obtain ⟨run, member, low, high⟩ := spec.covers j (by omega) dirty
    exact ⟨run, member, Or.inr ⟨j, rfl, low, high, cont⟩⟩

theorem run_row (measure : Measure width) (formed : Formed width desired)
    (spaced : Spaced width desired) (zero : links[(0 : UInt16)]? = none) {row : Nat}
    (changed : Nat → Bool) {t₀ t : Terminal} {ink : Ink} (ran : t₀.run width ink.out = t)
    (paired : (t.cells row).Paired) (between : Between pen t ink)
    (stale : ∀ c, t.cells row c = r.shown links width desired c ∨ (c < desired.length ∧
      (changed c = true ∨ ∃ j, c = j + 1 ∧ contAt desired c = true ∧ changed j = true))) :
    ∃ t', t₀.run width
        ((changedRuns desired changed).foldl (r.writeRun links row desired) ink).out = t' ∧
      t'.settings = t.settings ∧ (∀ i, i ≠ row → t'.cells i = t.cells i) ∧
      t'.cells row = r.shown links width desired ∧
      Between pen t' ((changedRuns desired changed).foldl (r.writeRun links row desired) ink) := by
  have spec := changedRuns_spec desired changed
  obtain ⟨t', written, draws, between'⟩ := run_writeRuns measure formed spaced zero _
    (runs_start_plain formed spec) ran paired between
  refine ⟨t', written, draws.settings, draws.others, ?_, between'⟩
  funext c
  refine draws.settled c ?_
  rcases stale c with right | ⟨inside, due⟩
  · exact Or.inr right
  · exact Or.inl (Runs.strikes formed spec inside due)

end
end Oxutrm.Paint
