import Oxutrm.Host.Window
import Oxutrm.Lib.Transition
import Oxutrm.Log.Activity
import Oxutrm.Popup.Sessions
import Oxutrm.Ui.Popup

/-!
The selector's preview of the selected session: which session's screen to ask for, the
shots that came back, and what the pane shows. A request that is no longer waited for may
have been answered before its task was aborted.
-/
namespace Oxutrm.Client
open Proto Transition
open Oxutrm.Ui (SessionId SessionEntry)
open Oxutrm.Popup (PreviewPane)

def previewMax : TermSize := { cols := 68, rows := 18 }

def previewFresh : Nat := seconds 2

def newSession : Text := "a new login shell in your home directory".toList

def otherVersion : Text := "another version of oxutrm: no preview".toList

def notDetachable : Text := "no preview: it dies with its ssh".toList

def linkDown : Text := "the link is down".toList

def asking (e : SessionEntry) : Text := "asking ".toList ++ Ui.label e ++ " for its screen…".toList

def notValid (e : SessionEntry) : Text := Ui.label e ++ " sent a screen that is not valid".toList

/-- What came back for one session. -/
inductive Got where
  | screen (s : ScreenState)
  | failed (why : Text)
  | invalid

structure Previews where
  shots : SessionId → Option (Got × Instant) := fun _ => none
  /-- `some none` is the row after the sessions. -/
  selected : Option (Option SessionId) := none
  wanted : Option SessionId := none
  out : Option SessionId := none

/-- Whether a received cell takes the columns a cell may. -/
def fits (width : Text → Nat) (c : Cell) : Bool := width c.text ≤ 2

/-- A screen that may be shown. -/
def presentable (width : Text → Nat) (s : ScreenState) : Bool :=
  s.validate.toBool && decide (s.rows ≤ previewMax.rows) && decide (s.cols ≤ previewMax.cols) &&
    s.cells.all (fits width)

def previewable (e : SessionEntry) : Bool :=
  !e.this && e.detachable && e.attached != .otherVersion

namespace Previews

/-- Nothing is kept of a session, or what is kept has aged. -/
def due (p : Previews) (now : Instant) (id : SessionId) : Bool :=
  (p.shots id).all fun shot => decide (previewFresh ≤ now - shot.2)

/-- The selection is on a row, `none` for the one after the sessions. -/
def arrive (p : Previews) (row : Option SessionEntry) (now : Instant) : Previews :=
  if p.selected = some (row.map (·.id)) then p
  else
    { p with
      selected := some (row.map (·.id))
      wanted := ((row.filter previewable).map (·.id)).filter (p.due now) }

def askNext (p : Previews) (live : Bool) : Previews × Option SessionId :=
  if !live || p.out.isSome then (p, none) else ({ p with out := p.wanted }, p.wanted)

/-- An answer as it is kept: a screen that fails its check is not repaired. -/
def judge (width : Text → Nat) : Except Text ScreenState → Got
  | .ok s => if presentable width s then .screen s else .invalid
  | .error why => .failed why

/-- The answer to a request, dropped unless it is the one out. -/
def answered (width : Text → Nat) (p : Previews) (id : SessionId) (answer : Except Text ScreenState)
    (now : Instant) : Previews :=
  if p.out ≠ some id then p
  else
    { p with
      out := none
      wanted := if p.wanted = some id then none else p.wanted
      shots := Function.update p.shots id (some (judge width answer, now)) }

/-- A fresh list. -/
def keep (p : Previews) (list : List SessionEntry) : Previews :=
  let listed := fun id => list.any (·.id = id)
  { p with
    shots := fun id => if listed id then p.shots id else none
    wanted := p.wanted.filter listed }

def clear : Previews := {}

def pane (p : Previews) (row : Option SessionEntry) (own : ScreenState) (live : Bool) : PreviewPane :=
  match row with
  | none => .note newSession
  | some e =>
      if e.this then .screen (own.window previewMax)
      else if e.attached = .otherVersion then .note otherVersion
      else if !e.detachable then .note notDetachable
      else
        match p.shots e.id with
        | some (.screen s, _) => .screen s
        | some (.failed why, _) => .note (Log.summarised why)
        | some (.invalid, _) => .note (notValid e)
        | none => .note (if live then asking e else linkDown)

end Previews

/-- The request under way, if its task has not sent its answer, and the channel the answers
come back on. -/
structure PreviewSlot where
  inbox : List (SessionId × Except Text ScreenState) := []
  task : Option SessionId := none

/-- What of the session the preview reads and changes. The answers sent, the requests made
and the row the selection came to, as it was listed then, are there to be spoken about. -/
structure Previewing where
  ui : Ui.Popup := {}
  previews : Previews := {}
  slot : PreviewSlot := {}
  phase : Phase := .live
  clock : Instant := 0
  answers : List (SessionId × Except Text ScreenState) := []
  asked : List SessionId := []
  onto : Option SessionEntry := none

namespace Previewing

/-- What a lap of the loop wakes up to. -/
inductive Wake where
  /-- Keys, a timer, a frame, a failed request: the previews are left alone. -/
  | shown (ui : Ui.Popup)
  | listed (list : List SessionEntry)
  /-- The client is in another session. -/
  | landed
  | previewed (heard : Instant)

inductive Event where
  /-- A wake, and then the preview's part of the lap. -/
  | lap (wake : Wake) (phase : Phase) (now : Instant)
  /-- The task of the request sends what came back. -/
  | answer (shot : Except Text ScreenState)

/-- The task goes with the request. -/
def released (s : Previewing) : Previewing :=
  if s.previews.out = none then { s with slot := { s.slot with task := none } } else s

/-- An answer comes out of the slot's channel. -/
def previewed (width : Text → Nat) (s : Previewing) (id : SessionId)
    (shot : Except Text ScreenState) (now : Instant) : Previewing :=
  released { s with previews := s.previews.answered width id shot now }

/-- The request to send now. With the selector closed, everything is forgotten. -/
def previewStep (s : Previewing) (phase : Phase) (now : Instant) : Previews × Option SessionId :=
  if s.ui.mode ≠ .sessions then (Previews.clear, none)
  else if s.ui.selector.loading then (s.previews, none)
  else (s.previews.arrive s.ui.selector.row now).askNext (phase = .live)

/-- The task of a request that was made. -/
def started (s : Previewing) : Option SessionId → Previewing
  | none => s
  | some id => { s with slot := { s.slot with task := some id }, asked := id :: s.asked }

/-- The step, done to the slot. -/
def lapped (s : Previewing) (phase : Phase) (now : Instant) (p : Previews) (ask : Option SessionId) :
    Previewing :=
  (released { s with
    previews := p
    phase := phase
    clock := now
    onto := if p.selected = s.previews.selected then s.onto else s.ui.selector.row }).started ask

def previewLap (s : Previewing) (phase : Phase) (now : Instant) : Previewing :=
  s.lapped phase now (s.previewStep phase now).1 (s.previewStep phase now).2

def wake (width : Text → Nat) (s : Previewing) : Wake → Option Previewing
  | .shown ui => some { s with ui := ui }
  | .listed list =>
      some { s with
        ui := { s.ui with selector := s.ui.selector.setRows list }
        previews := s.previews.keep list }
  | .landed => some { s with ui := s.ui.closePopup, previews := Previews.clear }
  | .previewed heard =>
      match s.slot.inbox with
      | [] => none
      | (id, shot) :: rest =>
          if s.clock ≤ heard then
            some (({ s with slot := { s.slot with inbox := rest }, clock := heard } : Previewing).previewed
              width id shot heard)
          else none

/-- Time does not go back, and the channel holds one answer. -/
def step (width : Text → Nat) (s : Previewing) : Event → Option Previewing
  | .lap wake phase now =>
      (s.wake width wake).bind fun s => if s.clock ≤ now then some (s.previewLap phase now) else none
  | .answer shot =>
      match s.slot.task, s.slot.inbox with
      | some id, [] =>
          some { s with
            slot := { inbox := [(id, shot)], task := none }
            answers := (id, shot) :: s.answers }
      | _, _ => none

/-- What the selector's view shows beside the list. -/
def pane (s : Previewing) (own : ScreenState) : Option PreviewPane :=
  if s.ui.selector.loading then none
  else some (s.previews.pane s.ui.selector.row own (s.phase = .live))

end Previewing

section Operations
variable {width : Text → Nat} {p : Previews} {row : Option SessionEntry} {now : Instant} {id : SessionId}
  {live : Bool} {list : List SessionEntry} {answer : Except Text ScreenState}

namespace Previews

@[simp] theorem arrive_out : (p.arrive row now).out = p.out := by
  unfold arrive
  split
  · rfl
  · rfl

@[simp] theorem arrive_shots : (p.arrive row now).shots = p.shots := by
  unfold arrive
  split
  · rfl
  · rfl

theorem arrive_selected : (p.arrive row now).selected = some (row.map (·.id)) := by
  unfold arrive
  split
  · assumption
  · rfl

theorem arrive_rested (same : p.selected = some (row.map (·.id))) : p.arrive row now = p := if_pos same

theorem arrive_wanted (other : p.selected ≠ some (row.map (·.id))) :
    (p.arrive row now).wanted = ((row.filter previewable).map (·.id)).filter (p.due now) := by
  unfold arrive
  rw [if_neg other]

/-- A row that is arrived on and can be asked for is wanted, or something is kept of it. -/
theorem arrive_wants {e : SessionEntry} (other : p.selected ≠ some (some e.id)) (can : previewable e = true) :
    (p.arrive (some e) now).wanted = some e.id ∨ (p.shots e.id).isSome := by
  rw [arrive_wanted other]
  cases kept : p.shots e.id with
  | some shot => exact .inr rfl
  | none =>
      refine .inl ?_
      have aged : p.due now e.id = true := by
        unfold due
        rw [kept]
        rfl
      rw [Option.filter_some_pos can, Option.map_some, Option.filter_some_pos aged]

theorem wanted_of_arrive (other : p.selected ≠ some (row.map (·.id)))
    (wanted : (p.arrive row now).wanted = some id) :
    p.due now id = true ∧ ∃ e, row = some e ∧ previewable e = true ∧ e.id = id := by
  rw [arrive_wanted other, Option.filter_eq_some_iff, Option.map_eq_some_iff] at wanted
  obtain ⟨⟨e, member, rfl⟩, aged⟩ := wanted
  rw [Option.filter_eq_some_iff] at member
  exact ⟨aged, e, member.1, member.2, rfl⟩

theorem due_mono {later : Instant} (due : p.due now id = true) (after : now ≤ later) :
    p.due later id = true := by
  unfold Previews.due at due ⊢
  cases kept : p.shots id with
  | none => rfl
  | some shot =>
      rw [kept, Option.all_some, decide_eq_true_iff] at due
      rw [Option.all_some, decide_eq_true_iff]
      exact Nat.le_trans due (Nat.sub_le_sub_right after _)

theorem due_congr {q : Previews} (same : q.shots id = p.shots id) : q.due now id = p.due now id := by
  unfold due
  rw [same]

theorem answered_other (other : p.out ≠ some id) : p.answered width id answer now = p := if_pos other

theorem answered_out (out : p.out = some id) : p.answered width id answer now =
    { p with
      out := none
      wanted := if p.wanted = some id then none else p.wanted
      shots := Function.update p.shots id (some (judge width answer, now)) } :=
  if_neg (not_not.mpr out)

theorem keep_listed (listed : list.any (·.id = id) = true) : (p.keep list).shots id = p.shots id :=
  if_pos listed

theorem keep_shots {shot : Got × Instant} (kept : (p.keep list).shots id = some shot) :
    p.shots id = some shot := by
  change (if list.any (·.id = id) = true then p.shots id else none) = some shot at kept
  split at kept
  · exact kept
  · cases kept

theorem keep_wanted (wanted : (p.keep list).wanted = some id) :
    p.wanted = some id ∧ list.any (·.id = id) = true := Option.filter_eq_some_iff.mp wanted

/-- Something is kept of a session, or it is asked for, or it is the next to be. -/
def Looked (p : Previews) (id : SessionId) : Prop :=
  (p.shots id).isSome ∨ p.wanted = some id ∨ p.out = some id

theorem Looked.keep (looked : p.Looked id) (listed : list.any (·.id = id) = true) :
    (p.keep list).Looked id := by
  rcases looked with kept | wanted | out
  · exact .inl (by rwa [keep_listed listed])
  · exact .inr (.inl (Option.filter_eq_some_iff.mpr ⟨wanted, listed⟩))
  · exact .inr (.inr out)

theorem Looked.answered {id' : SessionId} (looked : p.Looked id) :
    (p.answered width id' answer now).Looked id := by
  by_cases out : p.out = some id'
  · rw [answered_out out]
    by_cases same : id = id'
    · subst same
      have mine : Function.update p.shots id (some (judge width answer, now)) id =
          some (judge width answer, now) := Function.update_self ..
      exact .inl (congrArg Option.isSome mine)
    · rcases looked with kept | wanted | mine
      · have apart : Function.update p.shots id' (some (judge width answer, now)) id = p.shots id :=
          Function.update_of_ne same _ _
        exact .inl ((congrArg Option.isSome apart).trans kept)
      · refine .inr (.inl ?_)
        have differ : p.wanted ≠ some id' := by
          rw [wanted]
          exact fun h => same (Option.some.inj h)
        exact (if_neg differ).trans wanted
      · exact absurd (Option.some.inj (mine.symm.trans out)) same
  · rwa [answered_other out]

end Previews

end Operations

namespace Previewing
variable {width : Text → Nat} {s t : Previewing} {phase : Phase} {now : Instant} {e : SessionEntry}
  {id : SessionId}

/-- What holds at every point of a lap: every request is under way or answered, every shot is
an answer to a request for its session, and what is wanted is the row the selection came to,
with nothing fresh kept of it. -/
structure Steady (width : Text → Nat) (s : Previewing) : Prop where
  served : ∀ id, s.previews.out = some id → s.slot.task = some id ∨ ∃ shot, (id, shot) ∈ s.slot.inbox
  running : ∀ id, s.slot.task = some id → s.previews.out = none ∨ s.previews.out = some id
  sent : ∀ a ∈ s.slot.inbox, a ∈ s.answers
  kept : ∀ id shot, s.previews.shots id = some shot →
    ∃ answer, (id, answer) ∈ s.answers ∧ shot.1 = Previews.judge width answer
  came : s.previews.selected = none ∨ s.previews.selected = some (s.onto.map (·.id))
  waiting : ∀ id, s.previews.wanted = some id →
    (∃ e, s.onto = some e ∧ previewable e = true ∧ e.id = id) ∧
      s.previews.selected = some (some id) ∧ s.previews.due s.clock id = true

/-- The row the selection came to is looked after. -/
def Tended (s : Previewing) : Prop :=
  ∀ e, s.onto = some e → previewable e = true → s.previews.selected = some (some e.id) →
    s.previews.Looked e.id

/-- Until the lap is over, a list that has come may have dropped the row the selection came
to, and the selection is then on another. -/
def Hopeful (s : Previewing) : Prop :=
  Tended s ∨ s.ui.selector.loading = false ∧ ∀ e, s.onto = some e → previewable e = true →
    s.previews.selected = some (some e.id) → s.ui.selector.row.map (·.id) = some e.id →
      s.previews.Looked e.id

/-- After a lap no task runs for a request that is not out. -/
structure Settled (width : Text → Nat) (s : Previewing) : Prop extends Steady width s where
  idle : ∀ id, s.slot.task = some id → s.previews.out = some id
  tended : Tended s

theorem previewStep_closed (closed : s.ui.mode ≠ .sessions) :
    s.previewStep phase now = (Previews.clear, none) := if_pos closed

theorem previewStep_loading (opened : s.ui.mode = .sessions) (loading : s.ui.selector.loading = true) :
    s.previewStep phase now = (s.previews, none) := by
  rw [previewStep, if_neg (not_not.mpr opened), if_pos loading]

theorem previewStep_open (opened : s.ui.mode = .sessions) (loaded : s.ui.selector.loading = false) :
    s.previewStep phase now = (s.previews.arrive s.ui.selector.row now).askNext (phase = .live) := by
  rw [previewStep, if_neg (not_not.mpr opened), loaded, if_neg Bool.false_ne_true]

/-- The previews are turned to others that keep no more shots and have nothing else out. -/
theorem Steady.turned (steady : Steady width s) {q : Previews} {onto : Option SessionEntry}
    (shots : ∀ id shot, q.shots id = some shot → s.previews.shots id = some shot)
    (out : q.out = none ∨ q.out = s.previews.out)
    (came : q.selected = none ∨ q.selected = some (onto.map (·.id)))
    (waiting : ∀ id, q.wanted = some id → (∃ e, onto = some e ∧ previewable e = true ∧ e.id = id) ∧
      q.selected = some (some id) ∧ q.due now id = true) (ui : Ui.Popup) :
    Steady width { s with ui := ui, previews := q, phase := phase, clock := now, onto := onto } where
  served id outs := by
    rcases out with none_ | same
    · exact absurd (none_.symm.trans outs) (Option.some_ne_none id).symm
    · exact steady.served id (same.symm.trans outs)
  running id runs := by
    rcases out with none_ | same
    · exact .inl none_
    · rcases steady.running id runs with idle | out
      · exact .inl (same.trans idle)
      · exact .inr (same.trans out)
  sent := steady.sent
  kept id shot kept := steady.kept id shot (shots id shot kept)
  came := came
  waiting := waiting

theorem Steady.released (steady : Steady width s) : Steady width s.released := by
  unfold Previewing.released
  split
  next idle =>
    refine { steady with served := ?_, running := ?_ }
    · intro id out
      exact absurd (idle.symm.trans out) (Option.some_ne_none id).symm
    · exact fun id _ => .inl idle
  next => exact steady

theorem Steady.idle_released (steady : Steady width s) (runs : s.released.slot.task = some id) :
    s.released.previews.out = some id := by
  unfold Previewing.released at runs ⊢
  split at runs
  next idle => cases runs
  next out =>
    rw [if_neg out]
    exact (steady.running id runs).resolve_left out

/-- A request is made, and its task started. -/
def send (s : Previewing) (id : SessionId) : Previewing :=
  { s with
    previews := { s.previews with out := some id }
    slot := { s.slot with task := some id }
    asked := id :: s.asked }

theorem Steady.send (steady : Steady width s) (id : SessionId) : Steady width (s.send id) where
  served _ out := .inl out
  running _ runs := .inr runs
  sent := steady.sent
  kept := steady.kept
  came := steady.came
  waiting := steady.waiting

/-- The row the selection came to, when it comes to one. -/
def cameTo (s : Previewing) (row : Option SessionEntry) : Option SessionEntry :=
  if s.previews.selected = some (row.map (·.id)) then s.onto else row

/-- The selection comes to the row the cursor is on. -/
def arrived (s : Previewing) (phase : Phase) (now : Instant) : Previewing :=
  { s with
    previews := s.previews.arrive s.ui.selector.row now
    phase := phase
    clock := now
    onto := s.cameTo s.ui.selector.row }

theorem cameTo_arrive (now : Instant) (s : Previewing) (row : Option SessionEntry) :
    (if (s.previews.arrive row now).selected = s.previews.selected then s.onto else row) = s.cameTo row := by
  rw [Previews.arrive_selected, cameTo]
  exact if_congr eq_comm rfl rfl

theorem previewLap_cases (s : Previewing) (phase : Phase) (now : Instant) :
    (s.ui.mode ≠ .sessions ∧ ∃ onto, s.previewLap phase now = released
      { s with previews := Previews.clear, phase := phase, clock := now, onto := onto }) ∨
    (s.ui.mode = .sessions ∧ s.ui.selector.loading = true ∧
      s.previewLap phase now = released { s with phase := phase, clock := now }) ∨
    (s.ui.mode = .sessions ∧ s.ui.selector.loading = false ∧
      (phase = .live → s.previews.out = none → (s.arrived phase now).previews.wanted = none) ∧
      s.previewLap phase now = (s.arrived phase now).released) ∨
    (s.ui.mode = .sessions ∧ s.ui.selector.loading = false ∧ phase = .live ∧ s.previews.out = none ∧
      ∃ id, (s.arrived phase now).previews.wanted = some id ∧
        s.previewLap phase now = (s.arrived phase now).send id) := by
  by_cases opened : s.ui.mode = .sessions
  · right
    cases loading : s.ui.selector.loading with
    | true =>
        refine .inl ⟨opened, rfl, ?_⟩
        rw [previewLap, previewStep_loading opened loading, lapped, if_pos rfl]
        rfl
    | false =>
        right
        have arriving := cameTo_arrive now s s.ui.selector.row
        by_cases ready : phase = .live ∧ s.previews.out = none
        · obtain ⟨rfl, idle⟩ := ready
          have step : s.previewStep .live now =
              ({ s.previews.arrive s.ui.selector.row now with
                out := (s.previews.arrive s.ui.selector.row now).wanted },
                (s.previews.arrive s.ui.selector.row now).wanted) := by
            rw [previewStep_open opened loading, Previews.askNext, Previews.arrive_out, idle]
            rfl
          cases wanted : (s.previews.arrive s.ui.selector.row now).wanted with
          | none =>
              refine .inl ⟨opened, rfl, fun _ _ => wanted, ?_⟩
              have same : ({ s.previews.arrive s.ui.selector.row now with out := none } : Previews) =
                  s.previews.arrive s.ui.selector.row now := by
                have out : (s.previews.arrive s.ui.selector.row now).out = none := by
                  rw [Previews.arrive_out, idle]
                rw [← out]
              rw [previewLap, step, wanted, same, lapped, arriving]
              rfl
          | some id =>
              refine .inr ⟨opened, rfl, rfl, idle, id, wanted, ?_⟩
              rw [previewLap, step, wanted, lapped, arriving]
              rfl
        · refine .inl ⟨opened, rfl, fun live idle => absurd ⟨live, idle⟩ ready, ?_⟩
          have step : s.previewStep phase now = (s.previews.arrive s.ui.selector.row now, none) := by
            rw [previewStep_open opened loading, Previews.askNext, Previews.arrive_out]
            refine if_pos ?_
            rw [Bool.or_eq_true, Bool.not_eq_true', decide_eq_false_iff_not, Option.isSome_iff_ne_none]
            exact Decidable.not_and_iff_not_or_not.mp ready
          rw [previewLap, step, lapped, arriving]
          rfl
  · refine .inl ⟨opened, ?_⟩
    rw [previewLap, previewStep_closed opened]
    exact ⟨_, rfl⟩

@[simp] theorem released_previews (s : Previewing) : s.released.previews = s.previews := by
  unfold Previewing.released
  split
  · rfl
  · rfl

@[simp] theorem released_onto (s : Previewing) : s.released.onto = s.onto := by
  unfold Previewing.released
  split
  · rfl
  · rfl

@[simp] theorem released_ui (s : Previewing) : s.released.ui = s.ui := by
  unfold Previewing.released
  split
  · rfl
  · rfl

@[simp] theorem released_asked (s : Previewing) : s.released.asked = s.asked := by
  unfold Previewing.released
  split
  · rfl
  · rfl

@[simp] theorem released_inbox (s : Previewing) : s.released.slot.inbox = s.slot.inbox := by
  unfold Previewing.released
  split
  · rfl
  · rfl

@[simp] theorem released_phase (s : Previewing) : s.released.phase = s.phase := by
  unfold Previewing.released
  split
  · rfl
  · rfl

theorem Tended.released (tended : Tended s) : Tended s.released := by
  unfold Tended
  rw [released_previews, released_onto]
  exact tended

theorem Steady.settled (steady : Steady width s) (tended : Tended s) : Settled width s.released :=
  { steady.released with
    idle := fun _ => steady.idle_released
    tended := tended.released }

theorem Steady.cameTo_id (steady : Steady width s) (row : Option SessionEntry) :
    row.map (·.id) = (s.cameTo row).map (·.id) := by
  unfold cameTo
  split
  next same =>
    rcases steady.came with none_ | came
    · exact absurd (none_.symm.trans same) (Option.some_ne_none _).symm
    · exact Option.some.inj (same.symm.trans came)
  next => rfl

theorem Steady.arrived (steady : Steady width s) (phase : Phase) (after : s.clock ≤ now) :
    Steady width (s.arrived phase now) := by
  refine steady.turned (fun id shot kept => ?_) (.inr Previews.arrive_out)
    (.inr (Previews.arrive_selected.trans (congrArg some (steady.cameTo_id _)))) (fun id wanted => ?_) s.ui
  · rwa [Previews.arrive_shots] at kept
  · by_cases same : s.previews.selected = some (s.ui.selector.row.map (·.id))
    · rw [Previews.arrive_rested same] at wanted ⊢
      obtain ⟨listed, selected, due⟩ := steady.waiting id wanted
      rw [cameTo, if_pos same]
      exact ⟨listed, selected, Previews.due_mono due after⟩
    · obtain ⟨due, e, row, can, rfl⟩ := Previews.wanted_of_arrive same wanted
      rw [cameTo, if_neg same, Previews.arrive_selected, Previews.due_congr (congrFun Previews.arrive_shots e.id)]
      exact ⟨⟨e, row, can, rfl⟩, by rw [row]; rfl, due⟩

theorem Hopeful.arrived (hopeful : Hopeful s) (phase : Phase) (now : Instant) :
    Tended (s.arrived phase now) := by
  intro e onto can selected
  change (s.previews.arrive s.ui.selector.row now).Looked e.id
  change s.cameTo s.ui.selector.row = some e at onto
  by_cases same : s.previews.selected = some (s.ui.selector.row.map (·.id))
  · change (s.previews.arrive s.ui.selector.row now).selected = _ at selected
    rw [Previews.arrive_rested same] at selected ⊢
    rw [cameTo, if_pos same] at onto
    rcases hopeful with tended | ⟨-, hopes⟩
    · exact tended e onto can selected
    · exact hopes e onto can selected (Option.some.inj (same.symm.trans selected))
  · rw [cameTo, if_neg same] at onto
    rw [onto] at same ⊢
    rcases Previews.arrive_wants same can with wanted | kept
    · exact .inr (.inl wanted)
    · exact .inl (by rwa [Previews.arrive_shots])

theorem Tended.send (tended : Tended s) (idle : s.previews.out = none) (id : SessionId) :
    Tended (s.send id) := by
  intro e onto can selected
  rcases tended e onto can selected with kept | wanted | out
  · exact .inl kept
  · exact .inr (.inl wanted)
  · exact absurd (idle.symm.trans out) (Option.some_ne_none _).symm

theorem Steady.lap (steady : Steady width s) (hopeful : Hopeful s) (phase : Phase) (after : s.clock ≤ now) :
    Settled width (s.previewLap phase now) := by
  rcases previewLap_cases s phase now with ⟨-, onto, same⟩ | ⟨-, loading, same⟩ | ⟨-, -, -, same⟩ |
    ⟨-, -, -, idle, id, -, same⟩
  · rw [same]
    have cleared : Steady width
        { s with previews := Previews.clear, phase := phase, clock := now, onto := onto } :=
      steady.turned (fun id shot kept => by cases kept) (.inl rfl) (.inl rfl) (fun id wanted => by cases wanted) s.ui
    refine cleared.settled ?_
    intro e _ _ selected
    cases selected
  · rw [same]
    have aged : Steady width { s with phase := phase, clock := now } :=
      steady.turned (fun _ _ kept => kept) (.inr rfl) steady.came (fun id wanted =>
        ⟨(steady.waiting id wanted).1, (steady.waiting id wanted).2.1,
          Previews.due_mono (steady.waiting id wanted).2.2 after⟩) s.ui
    refine aged.settled ?_
    rcases hopeful with tended | ⟨loaded, -⟩
    · exact tended
    · exact absurd (loaded.symm.trans loading) Bool.false_ne_true
  · rw [same]
    exact (steady.arrived phase after).settled (hopeful.arrived phase now)
  · rw [same]
    have out : (s.arrived phase now).previews.out = none := Previews.arrive_out.trans idle
    exact
      { (steady.arrived phase after).send id with
        idle := fun _ runs => runs
        tended := (hopeful.arrived phase now).send out id }

theorem listed_of_row {list : List SessionEntry} {selector : Ui.Selector}
    (row : (selector.setRows list).row.map (·.id) = some id) : list.any (·.id = id) = true := by
  obtain ⟨e, at_, rfl⟩ := Option.map_eq_some_iff.mp row
  have member : e ∈ Ui.Selector.byStart list := List.mem_of_getElem? at_
  exact List.any_eq_true.mpr ⟨e, (List.mem_insertionSort _).mp member, decide_eq_true rfl⟩

theorem Settled.listed (settled : Settled width s) (list : List SessionEntry) :
    Steady width { s with
      ui := { s.ui with selector := s.ui.selector.setRows list }
      previews := s.previews.keep list } := by
  refine settled.turned (fun _ _ kept => Previews.keep_shots kept) (.inr rfl) settled.came
    (fun id wanted => ?_) { s.ui with selector := s.ui.selector.setRows list }
  obtain ⟨wanted, kept⟩ := Previews.keep_wanted wanted
  obtain ⟨listed, selected, due⟩ := settled.waiting id wanted
  exact ⟨listed, selected, (Previews.due_congr (Previews.keep_listed kept)).trans due⟩

theorem Settled.heard (settled : Settled width s) {shot : Except Text ScreenState}
    {rest : List (SessionId × Except Text ScreenState)} (inbox : s.slot.inbox = (id, shot) :: rest)
    (after : s.clock ≤ now) :
    Steady width { s with
      slot := { s.slot with inbox := rest }
      clock := now
      previews := s.previews.answered width id shot now } := by
  have sent : ∀ a ∈ rest, a ∈ s.answers := by
    intro a member
    refine settled.sent a ?_
    rw [inbox]
    exact List.mem_cons_of_mem _ member
  by_cases out : s.previews.out = some id
  · rw [Previews.answered_out out]
    refine ⟨fun _ outs => (by cases outs), fun _ _ => .inl rfl, sent, ?_, settled.came, ?_⟩
    · intro id' kept shown
      change Function.update s.previews.shots id _ id' = some kept at shown
      by_cases same : id' = id
      · subst same
        rw [Function.update_self] at shown
        obtain rfl := Option.some.inj shown
        refine ⟨shot, settled.sent _ ?_, rfl⟩
        rw [inbox]
        exact List.mem_cons_self
      · rw [Function.update_of_ne same] at shown
        exact settled.kept id' kept shown
    · intro id' wanted
      change (if s.previews.wanted = some id then none else s.previews.wanted) = some id' at wanted
      split at wanted
      next => cases wanted
      next other =>
        obtain ⟨listed, selected, due⟩ := settled.waiting id' wanted
        have same : id' ≠ id := by
          rintro rfl
          exact other wanted
        refine ⟨listed, selected, ?_⟩
        rw [Previews.due_congr (p := s.previews) (Function.update_of_ne same _ _)]
        exact Previews.due_mono due after
  · rw [Previews.answered_other out]
    refine ⟨?_, settled.running, sent, settled.kept, settled.came, ?_⟩
    · intro id' outs
      rcases settled.served id' outs with runs | ⟨shot', member⟩
      · exact .inl runs
      · rw [inbox] at member
        rcases List.mem_cons.mp member with this | later
        · rw [(Prod.mk.inj this).1] at outs
          exact absurd outs out
        · exact .inr ⟨shot', later⟩
    · intro id' wanted
      obtain ⟨listed, selected, due⟩ := settled.waiting id' wanted
      exact ⟨listed, selected, Previews.due_mono due after⟩

theorem wake_previewed {heard : Instant} (woken : s.wake width (.previewed heard) = some t) :
    ∃ id shot rest, s.slot.inbox = (id, shot) :: rest ∧ s.clock ≤ heard ∧
      t = released { s with
        slot := { s.slot with inbox := rest }
        clock := heard
        previews := s.previews.answered width id shot heard } := by
  unfold Previewing.wake at woken
  cases inbox : s.slot.inbox with
  | nil =>
      rw [inbox] at woken
      cases woken
  | cons message rest =>
      obtain ⟨id, shot⟩ := message
      rw [inbox] at woken
      obtain ⟨after, same⟩ := Option.ite_none_right_eq_some.mp woken
      exact ⟨id, shot, rest, rfl, after, (Option.some.inj same).symm⟩

theorem Settled.wake (settled : Settled width s) {w : Wake} (taken : s.wake width w = some t) :
    Steady width t ∧ Hopeful t := by
  cases w with
  | shown ui =>
      obtain rfl := Option.some.inj taken
      exact ⟨settled.turned (fun _ _ kept => kept) (.inr rfl) settled.came settled.waiting ui,
        .inl settled.tended⟩
  | listed list =>
      obtain rfl := Option.some.inj taken
      refine ⟨settled.listed list, .inr ⟨rfl, ?_⟩⟩
      intro e onto can selected row
      exact (settled.tended e onto can selected).keep (listed_of_row row)
  | landed =>
      obtain rfl := Option.some.inj taken
      refine ⟨settled.turned (fun _ _ kept => by cases kept) (.inl rfl) (.inl rfl)
        (fun _ wanted => by cases wanted) s.ui.closePopup, .inl ?_⟩
      intro e _ _ selected
      cases selected
  | previewed heard =>
      obtain ⟨id, shot, rest, inbox, after, rfl⟩ := wake_previewed taken
      refine ⟨(settled.heard inbox after).released, .inl (Tended.released ?_)⟩
      intro e onto can selected
      have before : s.previews.selected = some (some e.id) := by
        change (s.previews.answered width id shot heard).selected = _ at selected
        by_cases out : s.previews.out = some id
        · rwa [Previews.answered_out out] at selected
        · rwa [Previews.answered_other out] at selected
      exact (settled.tended e onto can before).answered

theorem Settled.step (settled : Settled width s) {event : Event} (taken : s.step width event = some t) :
    Settled width t := by
  cases event with
  | lap w phase now =>
      obtain ⟨m, woken, lapped⟩ := Option.bind_eq_some_iff.mp taken
      obtain ⟨after, same⟩ := Option.ite_none_right_eq_some.mp lapped
      obtain rfl := Option.some.inj same
      obtain ⟨steady, hopeful⟩ := settled.wake woken
      exact steady.lap hopeful phase after
  | answer shot =>
      unfold Previewing.step at taken
      cases task : s.slot.task with
      | none =>
          rw [task] at taken
          cases taken
      | some id =>
          cases inbox : s.slot.inbox with
          | cons message rest =>
              rw [task, inbox] at taken
              cases taken
          | nil =>
              rw [task, inbox] at taken
              obtain rfl := Option.some.inj taken
              refine ⟨⟨?_, fun _ runs => (by cases runs), ?_, ?_, settled.came, settled.waiting⟩,
                fun _ runs => (by cases runs), settled.tended⟩
              · intro id' out
                have mine := (settled.idle id task).symm.trans out
                rw [Option.some.inj mine]
                exact .inr ⟨shot, List.mem_cons_self⟩
              · intro a member
                rw [List.mem_singleton.mp member]
                exact List.mem_cons_self
              · intro id' kept shown
                obtain ⟨answer, member, judged⟩ := settled.kept id' kept shown
                exact ⟨answer, List.mem_cons_of_mem _ member, judged⟩

theorem Settled.start (width : Text → Nat) (ui : Ui.Popup) : Settled width { ui := ui } :=
  ⟨⟨fun _ out => (by cases out), fun _ runs => (by cases runs), fun _ member => (by cases member),
    fun _ _ kept => (by cases kept), .inl rfl, fun _ wanted => (by cases wanted)⟩,
    fun _ runs => (by cases runs), fun _ onto => (by cases onto)⟩

theorem settled_reaches {ui : Ui.Popup} (run : Reaches (step width) free { ui := ui } s) : Settled width s :=
  run.invariant (fun _ _ _ settled _ taken => settled.step taken) (.start width ui)

theorem lap_eq {w : Wake} (taken : s.step width (.lap w phase now) = some t) :
    ∃ m, s.wake width w = some m ∧ m.clock ≤ now ∧ m.previewLap phase now = t := by
  obtain ⟨m, woken, lapped⟩ := Option.bind_eq_some_iff.mp taken
  obtain ⟨after, same⟩ := Option.ite_none_right_eq_some.mp lapped
  exact ⟨m, woken, after, Option.some.inj same⟩

end Previewing

theorem presentable_iff {width : Text → Nat} {s : ScreenState} : presentable width s = true ↔
    s.validate = .ok () ∧ s.rows ≤ previewMax.rows ∧ s.cols ≤ previewMax.cols ∧
      s.cells.all (fits width) = true := by
  unfold presentable
  rw [Bool.and_eq_true, Bool.and_eq_true, Bool.and_eq_true, decide_eq_true_iff, decide_eq_true_iff]
  constructor
  · rintro ⟨⟨⟨valid, rows⟩, cols⟩, cells⟩
    refine ⟨?_, rows, cols, cells⟩
    cases checked : s.validate with
    | ok => rfl
    | error e =>
        rw [checked] at valid
        cases valid
  · rintro ⟨valid, rows, cols, cells⟩
    refine ⟨⟨⟨?_, rows⟩, cols⟩, cells⟩
    rw [valid]
    rfl

theorem screen_of_judge {width : Text → Nat} {answer : Except Text ScreenState} {x : ScreenState}
    (judged : Got.screen x = Previews.judge width answer) : answer = .ok x ∧ presentable width x = true := by
  cases answer with
  | error why => cases judged
  | ok shot =>
      by_cases good : presentable width shot = true
      · obtain rfl := Got.screen.inj (judged.trans (if_pos good))
        exact ⟨rfl, good⟩
      · cases judged.trans (if_neg good)

/-- A pane with a screen is of a row: the client's own, or one whose screen came. -/
theorem Previews.screen_of_pane {p : Previews} {row : Option SessionEntry} {own x : ScreenState} {live : Bool}
    (shown : p.pane row own live = .screen x) : ∃ e, row = some e ∧
      (e.this = true ∧ x = own.window previewMax ∨
        previewable e = true ∧ ∃ at_, p.shots e.id = some (.screen x, at_)) := by
  unfold pane at shown
  split at shown
  · cases shown
  next e =>
    refine ⟨e, rfl, ?_⟩
    split at shown
    next this => exact .inl ⟨this, (PreviewPane.screen.inj shown).symm⟩
    next this =>
      split at shown
      · cases shown
      next version =>
        split at shown
        · cases shown
        next detachable =>
          refine .inr ⟨?_, ?_⟩
          · unfold previewable
            rw [Bool.and_eq_true, Bool.and_eq_true, Bool.not_eq_true', bne_iff_ne]
            exact ⟨⟨eq_false_of_ne_true this, by simpa using detachable⟩, version⟩
          · split at shown
            next at_ kept =>
              obtain rfl := PreviewPane.screen.inj shown
              exact ⟨at_, kept⟩
            · cases shown
            · cases shown
            · split at shown
              · cases shown
              · cases shown

theorem Previews.pane_asking {p : Previews} {e : SessionEntry} {own : ScreenState} (can : previewable e = true)
    (nothing : p.shots e.id = none) : p.pane (some e) own true = .note (asking e) := by
  unfold previewable at can
  rw [Bool.and_eq_true, Bool.and_eq_true, Bool.not_eq_true', bne_iff_ne] at can
  obtain ⟨⟨this, detachable⟩, version⟩ := can
  change (if e.this = true then _ else _) = _
  rw [this, detachable, if_neg Bool.false_ne_true, if_neg version, nothing]
  rfl

theorem Previewing.lap_phase (s : Previewing) (phase : Phase) (now : Instant) :
    (s.previewLap phase now).phase = phase := by
  rcases previewLap_cases s phase now with ⟨-, onto, same⟩ | ⟨-, -, same⟩ | ⟨-, -, -, same⟩ |
    ⟨-, -, -, -, id, -, same⟩
  · rw [same, released_phase]
  · rw [same, released_phase]
  · rw [same, released_phase]
    rfl
  · rw [same]
    rfl

/-- Before a request can go out, the one that is out is answered. -/
theorem Previewing.wake_out {width : Text → Nat} {s m : Previewing} {w : Previewing.Wake} {id : SessionId}
    (woken : s.wake width w = some m) (out : s.previews.out = some id) (opened : m.ui.mode = .sessions)
    (idle : m.previews.out = none) : ∃ shot rest, s.slot.inbox = (id, shot) :: rest ∧ m.slot.inbox = rest := by
  cases w with
  | shown ui =>
      obtain rfl := Option.some.inj woken
      exact absurd (idle.symm.trans out) (Option.some_ne_none _).symm
  | listed list =>
      obtain rfl := Option.some.inj woken
      exact absurd (idle.symm.trans out) (Option.some_ne_none _).symm
  | landed =>
      obtain rfl := Option.some.inj woken
      cases opened
  | previewed heard =>
      obtain ⟨id', shot, rest, inbox, -, rfl⟩ := wake_previewed woken
      rw [released_inbox]
      by_cases mine : s.previews.out = some id'
      · rw [Option.some.inj (out.symm.trans mine)]
        exact ⟨shot, rest, inbox, rfl⟩
      · rw [released_previews, Previews.answered_other mine] at idle
        exact absurd (idle.symm.trans out) (Option.some_ne_none _).symm

theorem Previewing.wake_asked {width : Text → Nat} {s m : Previewing} {w : Previewing.Wake}
    (woken : s.wake width w = some m) : m.asked = s.asked := by
  cases w with
  | shown ui =>
      obtain rfl := Option.some.inj woken
      rfl
  | listed list =>
      obtain rfl := Option.some.inj woken
      rfl
  | landed =>
      obtain rfl := Option.some.inj woken
      rfl
  | previewed heard =>
      obtain ⟨id, shot, rest, -, -, rfl⟩ := wake_previewed woken
      rw [released_asked]

section Runs
variable {width : Text → Nat} {ui : Ui.Popup} {s t : Previewing} {own x : ScreenState} {e e₀ : SessionEntry}
  {id : SessionId} {w : Previewing.Wake} {phase : Phase} {now : Instant}

open Previewing (step)

/-- Whatever comes back and whenever, a screen in the pane passes its checks and is no larger
than the pane. It is the client's own, or one that was sent, as it was sent, for the session
of the row. -/
theorem shown_screen_was_sent (run : Reaches (step width) free { ui := ui } s) (valid : own.validate = .ok ())
    (shown : s.pane own = some (.screen x)) :
    x.validate = .ok () ∧ x.rows ≤ previewMax.rows ∧ x.cols ≤ previewMax.cols ∧
      ∃ e, s.ui.selector.row = some e ∧
        (e.this = true ∧ x = own.window previewMax ∨
          previewable e = true ∧ (e.id, .ok x) ∈ s.answers ∧ x.cells.all (fits width) = true) := by
  have settled := Previewing.settled_reaches run
  unfold Previewing.pane at shown
  split at shown
  · cases shown
  · obtain ⟨e, row, mine | ⟨can, at_, kept⟩⟩ := Previews.screen_of_pane (Option.some.inj shown)
    · obtain ⟨this, rfl⟩ := mine
      have within : (own.window previewMax).Valid :=
        ScreenState.window_valid ((ScreenState.validate_ok own).mp valid)
      exact ⟨(ScreenState.validate_ok _).mpr within, ScreenState.min16_le_right _ _,
        ScreenState.min16_le_right _ _, e, row, .inl ⟨this, rfl⟩⟩
    · obtain ⟨answer, sent, judged⟩ := settled.kept e.id _ kept
      obtain ⟨rfl, good⟩ := screen_of_judge judged
      obtain ⟨checked, rows, cols, cells⟩ := presentable_iff.mp good
      exact ⟨checked, rows, cols, e, row, .inr ⟨can, sent, cells⟩⟩

/-- A lap with the list on the screen has the selection on the row of the cursor, and a row
that is wanted over a live link waits for no other reason than a request that is out. -/
theorem Previewing.lap_opened (s : Previewing) (opened : (s.previewLap phase now).ui.mode = .sessions)
    (loaded : (s.previewLap phase now).ui.selector.loading = false) :
    (s.previewLap phase now).previews.selected = some ((s.previewLap phase now).ui.selector.row.map (·.id)) ∧
      (phase = .live → (s.previewLap phase now).previews.out = none →
        (s.previewLap phase now).previews.wanted = none) := by
  rcases previewLap_cases s phase now with ⟨closed, onto, same⟩ | ⟨-, loading, same⟩ | ⟨-, -, idle, same⟩ |
    ⟨-, -, -, -, id, -, same⟩
  · rw [same, released_ui] at opened
    exact absurd opened closed
  · rw [same, released_ui] at loaded
    exact absurd (loading.symm.trans loaded) Bool.false_ne_true.symm
  · rw [same, released_ui, released_previews]
    refine ⟨Previews.arrive_selected, fun live out => ?_⟩
    exact idle live (Previews.arrive_out.symm.trans out)
  · rw [same]
    exact ⟨Previews.arrive_selected, fun _ out => (by cases out)⟩

/-- After every lap of a live link, a row that could be asked for when the selection came to
it, and of which nothing is kept, is being asked for or is the next to be: the pane says so
while the row still can be, and the request that is out is under way or its answer has come. -/
theorem asking_is_under_way (run : Reaches (step width) free { ui := ui } s)
    (taken : s.step width (.lap w .live now) = some t) (opened : t.ui.mode = .sessions)
    (loaded : t.ui.selector.loading = false) (row : t.ui.selector.row = some e)
    (came : t.onto = some e₀) (can : previewable e₀ = true) (nothing : t.previews.shots e.id = none) :
    (previewable e = true → t.pane own = some (.note (asking e))) ∧
      ∃ id, t.previews.out = some id ∧ (id = e.id ∨ t.previews.wanted = some e.id) ∧
        (t.slot.task = some id ∨ ∃ shot, (id, shot) ∈ t.slot.inbox) := by
  have settled := (Previewing.settled_reaches run).step taken
  obtain ⟨m, woken, after, rfl⟩ := Previewing.lap_eq taken
  obtain ⟨selected, idle⟩ := m.lap_opened opened loaded
  rw [row, Option.map_some] at selected
  have same : e₀.id = e.id := by
    rcases settled.came with none_ | mine
    · exact absurd (none_.symm.trans selected) (Option.some_ne_none _).symm
    · rw [came] at mine
      exact Option.some.inj (Option.some.inj (mine.symm.trans selected))
  have looked := settled.tended e₀ came can (by rw [selected, same])
  rw [same] at looked
  refine ⟨fun can => ?_, ?_⟩
  · unfold Previewing.pane
    rw [loaded, if_neg Bool.false_ne_true, row, m.lap_phase, decide_eq_true rfl]
    exact congrArg some (Previews.pane_asking can nothing)
  · cases out : (m.previewLap .live now).previews.out with
    | none =>
        rcases looked with kept | wanted | mine
        · rw [nothing] at kept
          cases kept
        · exact absurd ((idle rfl out).symm.trans wanted) (Option.some_ne_none _).symm
        · exact absurd (out.symm.trans mine) (Option.some_ne_none _).symm
    | some id =>
        refine ⟨id, rfl, ?_, settled.served id out⟩
        rcases looked with kept | wanted | mine
        · rw [nothing] at kept
          cases kept
        · exact .inr wanted
        · exact .inl (Option.some.inj (out.symm.trans mine))

/-- A request goes out over a live link for the row the cursor is on, which could be asked for
when the selection came to it. Whatever is kept of it is two seconds old, and no other request
is out: if one was, its answer has just come. -/
theorem request_is_due (run : Reaches (step width) free { ui := ui } s)
    (taken : s.step width (.lap w phase now) = some t) (asked : t.asked = id :: s.asked) :
    phase = .live ∧ t.ui.mode = .sessions ∧ t.ui.selector.selected = some id ∧
      (∃ e, t.onto = some e ∧ previewable e = true ∧ e.id = id) ∧
      (∀ shot, t.previews.shots id = some shot → shot.2 + previewFresh ≤ now) ∧
      t.previews.out = some id ∧ t.slot.task = some id ∧
      ∀ id', s.previews.out = some id' →
        ∃ shot rest, s.slot.inbox = (id', shot) :: rest ∧ t.slot.inbox = rest := by
  obtain ⟨m, woken, after, rfl⟩ := Previewing.lap_eq taken
  have before := Previewing.wake_asked woken
  have more : (m.previewLap phase now).asked ≠ m.asked := by
    rw [asked, before]
    exact List.cons_ne_self _ _
  rcases Previewing.previewLap_cases m phase now with ⟨-, onto, same⟩ | ⟨-, -, same⟩ | ⟨-, -, -, same⟩ |
    ⟨opened, -, live, idle, id', wanted, same⟩
  · rw [same, Previewing.released_asked] at more
    exact absurd rfl more
  · rw [same, Previewing.released_asked] at more
    exact absurd rfl more
  · rw [same, Previewing.released_asked] at more
    exact absurd rfl more
  · rw [same] at asked ⊢
    obtain rfl : id' = id := (List.cons.inj asked).1
    obtain ⟨steady, -⟩ := (Previewing.settled_reaches run).wake woken
    obtain ⟨came, selected, due⟩ := (steady.arrived phase after).waiting id' wanted
    refine ⟨live, opened, ?_, came, fun shot kept => ?_, rfl, rfl, fun other out => ?_⟩
    · exact Option.some.inj (Previews.arrive_selected.symm.trans selected)
    · have aged := due
      unfold Previews.due at aged
      rw [show (m.arrived phase now).previews.shots id' = some shot from kept, Option.all_some,
        decide_eq_true_iff] at aged
      have waits : 0 < previewFresh := by decide
      have gap : previewFresh ≤ now - shot.2 := aged
      have later : shot.2 ≤ now := Nat.le_of_lt (Nat.lt_of_sub_pos (Nat.lt_of_lt_of_le waits gap))
      rw [Nat.add_comm]
      exact Nat.add_le_of_le_sub later gap
    · obtain ⟨shot, rest, inbox, left⟩ := Previewing.wake_out woken out opened idle
      exact ⟨shot, rest, inbox, left⟩

end Runs

namespace Looking
open Previewing (step Event)

def mine : SessionEntry :=
  { id := ⟨List.replicate 16 1, rfl⟩
    name := none
    createdUnix := 1
    detachable := true
    attached := .here
    this := true }

def logs : SessionEntry :=
  { id := ⟨List.replicate 16 2, rfl⟩
    name := none
    createdUnix := 2
    detachable := true
    attached := .no
    this := false }

def loading : Ui.Popup := Ui.Popup.openSessions {}

def onLogs : Ui.Popup :=
  { loading with selector := { loading.selector.setRows [mine, logs] with cursor := 1 } }

def shot : ScreenState := ScreenState.blankState 2 3

def come : Event := .lap (.shown onLogs) .live 2

/-- The list has come. -/
def listed : Previewing :=
  (runFrom (step List.length) { ui := loading } [.lap (.listed [mine, logs]) .live 1]).getD {}

/-- The selection has come to the row of `logs`. -/
def onto : Previewing := (step List.length listed come).getD {}

/-- Its screen has come. -/
def seen : Previewing :=
  (runFrom (step List.length) onto [.answer (.ok shot), .lap (.previewed 3) .live 4]).getD {}

theorem reaches_listed : Reaches (step List.length) free { ui := loading } listed :=
  reaches_of_runFrom [.lap (.listed [mine, logs]) .live 1] (admits_free _ _ _) rfl

theorem comes : step List.length listed come = some onto := rfl

theorem reaches_seen : Reaches (step List.length) free { ui := loading } seen :=
  (reaches_listed.tail ⟨come, trivial, comes⟩).trans
    (reaches_of_runFrom [.answer (.ok shot), .lap (.previewed 3) .live 4] (admits_free _ _ _) rfl)

theorem shown_screen_was_sent_x : ∃ e, seen.ui.selector.row = some e ∧
    (e.this = true ∧ shot = shot.window previewMax ∨
      previewable e = true ∧ (e.id, .ok shot) ∈ seen.answers ∧ shot.cells.all (fits List.length) = true) := by
  have valid : shot.validate = .ok () := rfl
  have shown : seen.pane shot = some (.screen shot) := rfl
  exact (shown_screen_was_sent reaches_seen valid shown).2.2.2

theorem asking_is_under_way_x : onto.pane shot = some (.note (asking logs)) := by
  have row : onto.ui.selector.row = some logs := rfl
  have came : onto.onto = some logs := rfl
  exact (asking_is_under_way reaches_listed comes rfl rfl row came rfl rfl).1 rfl

theorem request_is_due_x : onto.ui.selector.selected = some logs.id ∧ onto.slot.task = some logs.id := by
  obtain ⟨-, -, selected, -, -, -, task, -⟩ := request_is_due reaches_listed comes rfl
  exact ⟨selected, task⟩

end Looking

end Oxutrm.Client
