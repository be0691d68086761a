import Oxutrm.Paint.Framing

/-!
The title of the window over a whole run. A pass that knows what is painted compares the
titles; one that knows nothing states the title of the screen only if there is one, and
so leaves the old one standing where the new one is empty.
-/
namespace Oxutrm.Paint
open Proto
open Vt (Command Terminal splitField)

theorem title_enterAlternate (t : Terminal) : t.enterAlternate.title = t.title := by
  unfold Terminal.enterAlternate
  split <;> rfl

theorem title_leaveAlternate (t : Terminal) : t.leaveAlternate.title = t.title := by
  unfold Terminal.leaveAlternate
  split <;> rfl

theorem title_mode (t : Terminal) (on : Bool) (n : Nat) : (t.mode on n).title = t.title := by
  simp only [Terminal.mode, apply_ite Terminal.title, title_enterAlternate, title_leaveAlternate, ite_self]

theorem title_modes (t : Terminal) (on : Bool) (params : List Nat) :
    (params.foldl (Terminal.mode on) t).title = t.title := by
  induction params generalizing t with
  | nil => rfl
  | cons n params ih => rw [List.foldl_cons, ih, title_mode]

theorem title_exec (width : Text → Nat) (t : Terminal) {c : Command} (other : isTitle c = false) :
    (t.exec width c).title = t.title := by
  cases c with
  | text text => rfl
  | control _ | escape _ => rfl
  | csi marks params inter final =>
      simp only [Terminal.exec, Terminal.control]
      split
      · repeat' split
        all_goals rfl
      · split
        · split
          · exact title_modes t true params
          · split
            · exact title_modes t false params
            · rfl
        · split <;> rfl
  | osc payload =>
      have number : (splitField payload).1 ≠ ['0'] := by simpa [isTitle] using other
      simp only [Terminal.exec, Terminal.operate, if_neg number]
      split <;> rfl

theorem title_run (width : Text → Nat) (t : Terminal) {commands : List Command}
    (others : ∀ c ∈ commands, isTitle c = false) : (t.run width commands).title = t.title := by
  induction commands generalizing t with
  | nil => rfl
  | cons c commands ih =>
      rw [Terminal.run_cons, ih _ fun d member => others d (List.mem_cons_of_mem _ member),
        title_exec width t (others c List.mem_cons_self)]

theorem untitled_strokes : Strokes fun c => isTitle c = false where
  moveTo _ _ := rfl
  home := rfl
  eraseAll := rfl
  sgr _ := rfl
  closeLink := by decide
  openLink id uri checked := (Drawn.openLink (s := ScreenState.blankState 0 0) id uri checked).not_title
  blank := rfl

/-- Whatever a cell of the screen or of the overlay holds, it is painted as a text. -/
theorem title_output (width : Text → Nat) (r : Renderer) (t : Terminal) (s : ScreenState) :
    (t.run width (r.output width s)).title = if r.retitled s then s.title else t.title := by
  have cells : ∀ (r : Renderer) cells links rows cols full,
      ∀ c ∈ r.writeCells cells links rows cols full, isTitle c = false := fun r cells links rows cols full =>
    strokes_writeCells r untitled_strokes links rows cols full fun _ _ => rfl
  have modes : ∀ (r : Renderer) full, ∀ c ∈ r.writeModes s full, isTitle c = false := fun r full c member =>
    (drawn_writeModes r (s := s) full c member).not_title
  have cursor : ∀ (r r' : Renderer) full painting,
      ∀ c ∈ r.writeCursor (r'.shownCursor s) full painting, isTitle c = false := by
    intro r r' full painting c member
    refine (drawn_writeCursor r (s := s) full painting ?_ c member).not_title
    simp only [Renderer.shownCursor]
    split <;> rfl
  have body : ∀ t : Terminal, (t.run width ((r.reshape s).paint width s)).title =
      if r.retitled s then s.title else t.title := by
    intro t
    simp only [Renderer.paint, writeTitle_leaving, Terminal.run_append]
    rw [title_run, title_run _ _ (cursor _ _ _ _), title_run _ _ (cells _ _ _ _ _ _)]
    · rw [← Renderer.retitled]
      split
      · rw [Terminal.run_cons, Terminal.exec_setTitle, Terminal.run_nil]
      · rw [Terminal.run_nil, title_run _ _ (modes _ _)]
    · intro c member
      cases eq_of_mem_when member
      rfl
  rw [Renderer.output, Renderer.wrap]
  split
  next empty =>
      have nothing := body t
      rw [List.isEmpty_iff.mp empty] at nothing
      exact nothing
  next =>
      rw [Terminal.run_append, Terminal.run_append, title_run, body]
      · rw [title_run]
        intro c member
        cases List.mem_singleton.mp member
        rfl
      · intro c member
        cases List.mem_singleton.mp member
        rfl

namespace Display

/-- A run of operations, in which every write completes. -/
def played (width : Text → Nat) (d : Display) (events : List DisplayEvent) : Display :=
  events.foldl (fun d e => (d.step width e).getD d) d

/-- The title of the last screen rendered, empty if there was none. -/
def lastTitle (events : List DisplayEvent) : Text :=
  events.foldl (fun title e => match e with
    | .render s => s.title
    | .setOverlay _ | .resize _ _ _ _ | .invalidate | .setHyperlinks _ => title) []

/-- The next pass knows nothing of the terminal: it is the first one, the model was
dropped, the screen has another size or the application crossed between its buffers. -/
def Repaints (r : Renderer) (s : ScreenState) : Prop := ((r.reshape s).leaving s).painted = none

section
variable (width : Text → Nat) (d : Display)

theorem played_snoc (events : List DisplayEvent) (e : DisplayEvent) :
    d.played width (events ++ [e]) = (((d.played width events).step width e).getD (d.played width events)) := by
  rw [played, List.foldl_append]
  rfl

theorem lastTitle_snoc (events : List DisplayEvent) (e : DisplayEvent) :
    lastTitle (events ++ [e]) = match e with
      | .render s => s.title
      | .setOverlay _ | .resize _ _ _ _ | .invalidate | .setHyperlinks _ => lastTitle events := by
  rw [lastTitle, List.foldl_append]
  rfl

theorem painted_title (fresh : d.renderer.painted = none) (events : List DisplayEvent) :
    ∀ p, (d.played width events).renderer.painted = some p → p.title = lastTitle events := by
  induction events using List.reverseRecOn with
  | nil =>
      intro p painted
      rw [show (d.played width []) = d from rfl, fresh] at painted
      cases painted
  | append_singleton events e ih =>
      rw [played_snoc, lastTitle_snoc]
      cases e with
      | render s =>
          intro p painted
          cases painted
          rfl
      | setOverlay overlay => exact ih
      | resize size cells row col =>
          intro p painted
          have forgotten : none = some p := painted
          cases forgotten
      | invalidate =>
          intro p painted
          have forgotten : none = some p := painted
          cases forgotten
      | setHyperlinks on =>
          intro p painted
          refine ih p ?_
          change ((d.played width events).renderer.setHyperlinks on).painted = some p at painted
          rw [Renderer.setHyperlinks] at painted
          split at painted
          · cases painted
          · exact painted

/-- Every screen rendered so far had its title shown. -/
def Matched (events : List DisplayEvent) : Prop :=
  ∀ (before : List DisplayEvent) (s : ScreenState) (after : List DisplayEvent),
    events = before ++ .render s :: after →
    (d.played width (before ++ [.render s])).terminal.title = s.title

/-- No empty title was to be stated by a repaint after another one. -/
def Restated (events : List DisplayEvent) : Prop :=
  ∀ (before : List DisplayEvent) (s : ScreenState) (after : List DisplayEvent),
    events = before ++ .render s :: after → s.title = [] →
    Repaints (d.played width before).renderer s → lastTitle before = []

theorem terminal_title (untitled : d.terminal.title = []) {events : List DisplayEvent}
    (matched : d.Matched width events) : (d.played width events).terminal.title = lastTitle events := by
  induction events using List.reverseRecOn with
  | nil => exact untitled
  | append_singleton events e ih =>
      have earlier : d.Matched width events := fun before s after split =>
        matched before s (after ++ [e]) (by rw [split]; simp)
      rw [lastTitle_snoc]
      cases e with
      | render s => exact matched events s [] rfl
      | setOverlay overlay => rw [played_snoc]; exact ih earlier
      | resize size cells row col => rw [played_snoc]; exact ih earlier
      | invalidate => rw [played_snoc]; exact ih earlier
      | setHyperlinks on => rw [played_snoc]; exact ih earlier

/-- One render: a title compared with the right one is right, and a title that is not
empty is stated; what is left is the empty one. -/
theorem render_title (fresh : d.renderer.painted = none) {before : List DisplayEvent}
    (shown : (d.played width before).terminal.title = lastTitle before) (s : ScreenState) :
    (d.played width (before ++ [.render s])).terminal.title = s.title ↔
      (s.title = [] → Repaints (d.played width before).renderer s → lastTitle before = []) := by
  have model := painted_title width d fresh before
  rw [played_snoc]
  change ((d.played width before).terminal.run width
    ((d.played width before).renderer.output width s)).title = s.title ↔ _
  rw [title_output, shown, Renderer.retitled, Repaints]
  cases painted : (((d.played width before).renderer.reshape s).leaving s).painted with
  | none =>
      cases title : s.title with
      | nil => simp
      | cons c rest => simp
  | some p =>
      have same : (d.played width before).renderer.painted = some p := by
        have left := painted
        rw [Renderer.leaving] at left
        split at left
        · cases left
        · rw [Renderer.reshape] at left
          split at left
          · cases left
          · exact left
      have compared := model p same
      by_cases changed : lastTitle before = s.title
      · simp [compared, changed]
      · simp [compared, changed]

theorem matched_iff_restated (fresh : d.renderer.painted = none) (untitled : d.terminal.title = [])
    (events : List DisplayEvent) : d.Matched width events ↔ d.Restated width events := by
  constructor
  · intro matched before s after split
    have earlier : d.Matched width before := fun front other back inside =>
      matched front other (back ++ .render s :: after) (by rw [split, inside]; simp)
    exact (render_title width d fresh (terminal_title width d untitled earlier) s).mp
      (matched before s after split)
  · intro restated
    induction events using List.reverseRecOn with
    | nil => exact fun before s after split => absurd split (by simp)
    | append_singleton events e ih =>
        have earlier := ih fun before s after split =>
          restated before s (after ++ [e]) (by rw [split]; simp)
        intro before s after split
        cases after using List.reverseRecOn with
        | nil =>
            obtain ⟨same, last⟩ := List.append_inj' split rfl
            cases last
            rw [← same]
            exact (render_title width d fresh (terminal_title width d untitled earlier) s).mpr
              (restated events s [] rfl)
        | append_singleton rest last _ =>
            have inside : events ++ [e] = (before ++ .render s :: rest) ++ [last] := by rw [split]; simp
            exact earlier before s rest (List.append_inj' inside rfl).1

end

/-- Over every run from a terminal without a title. -/
theorem title_matches_iff (width : Text → Nat) (size : TermSize) (caps : TerminalCaps) (t : Terminal)
    (untitled : t.title = []) (events : List DisplayEvent) :
    (∀ (before : List DisplayEvent) (s : ScreenState) (after : List DisplayEvent),
      events = before ++ .render s :: after →
      (played width ⟨Renderer.new size caps, t⟩ (before ++ [.render s])).terminal.title = s.title) ↔
    ∀ (before : List DisplayEvent) (s : ScreenState) (after : List DisplayEvent),
      events = before ++ .render s :: after → s.title = [] →
      Repaints (played width ⟨Renderer.new size caps, t⟩ before).renderer s → lastTitle before = [] :=
  matched_iff_restated width ⟨Renderer.new size caps, t⟩ rfl untitled events

/-- A screen of one cell with a title. -/
def titled (title : Text) : ScreenState := { ScreenState.blankState 1 1 with title := title }

theorem titled_valid {title : Text} (checked : checkTitle title = .ok ()) : (titled title).validate = .ok () :=
  (ScreenState.validate_ok _).mpr { ScreenState.blankState_valid (by decide) with title := checked }

theorem restated_of_titles (width : Text → Nat) (d : Display) {events : List DisplayEvent}
    (named : ∀ s, .render s ∈ events → s.title ≠ []) : d.Restated width events :=
  fun before s after split empty _ => absurd empty (named s (by rw [split]; simp))

theorem title_matches_iff_named :
    ({} : Terminal).title = [] ∧
    ∀ (before : List DisplayEvent) (s : ScreenState) (after : List DisplayEvent),
      [.render (titled ['v']), .resize ⟨2, 2⟩ (fun _ _ => .blank {}) 0 0, .render (titled ['w'])] =
        before ++ .render s :: after →
      (played List.length ⟨Renderer.new ⟨1, 1⟩ ⟨256, true, true, true, true⟩, {}⟩
        (before ++ [.render s])).terminal.title = s.title := by
  refine ⟨rfl, (title_matches_iff List.length ⟨1, 1⟩ ⟨256, true, true, true, true⟩ {} rfl _).mpr ?_⟩
  refine restated_of_titles List.length _ fun s member => ?_
  simp only [List.mem_cons, DisplayEvent.render.injEq, List.not_mem_nil, or_false, reduceCtorEq,
    false_or] at member
  cases member with
  | inl first => rw [first]; nofun
  | inr second => rw [second]; nofun

/-- A program sets a title, the window is repainted, and by then the title is gone again:
the terminal keeps it. -/
theorem repaint_keeps_a_stale_title :
    (titled ['v']).validate = .ok () ∧ (titled []).validate = .ok () ∧
    (played List.length ⟨Renderer.new ⟨1, 1⟩ ⟨256, true, true, true, true⟩, {}⟩
      ([.render (titled ['v']), .invalidate] ++ [.render (titled [])])).terminal.title ≠
        (titled []).title := by
  refine ⟨titled_valid (by decide), titled_valid (by decide), ?_⟩
  have matched : Matched List.length ⟨Renderer.new ⟨1, 1⟩ ⟨256, true, true, true, true⟩, {}⟩
      [.render (titled ['v']), .invalidate] := by
    refine (matched_iff_restated _ _ rfl rfl _).mpr (restated_of_titles _ _ fun s member => ?_)
    simp only [List.mem_cons, DisplayEvent.render.injEq, List.not_mem_nil, or_false, reduceCtorEq] at member
    rw [member]
    nofun
  rw [ne_eq, render_title _ _ rfl (terminal_title _ _ rfl matched)]
  intro restated
  cases restated rfl rfl

end Display
end Oxutrm.Paint
