import Oxutrm.Client.LinkState
import Oxutrm.Ui.Strokes

/-!
The client's key routing: the popup, the link's phase and the input held while the link
is down, driven by reads, laps, frames and the rest of the session. Beside it stands a
log of every lap and every read.
-/
namespace Oxutrm.Ui
open Client

/-- A read, as the client took it. -/
structure Taken where
  phase : Phase
  now : Instant
  bytes : List UInt8
  /-- The config screen or the selector was up. -/
  onScreen : Bool
  strokes : List Stroke
  routed : Routed

inductive Entry where
  | lap (phase : Phase) (now : Instant)
  | read (taken : Taken)

namespace Entry

def phase : Entry → Phase
  | lap phase _ => phase
  | read taken => taken.phase

def now : Entry → Instant
  | lap _ now => now
  | read taken => taken.now

def strokes : Entry → List Stroke
  | lap _ _ => []
  | read taken => taken.strokes

def routed : Entry → Routed
  | lap _ _ => {}
  | read taken => taken.routed

/-- The held input was sent or dropped. -/
def answers (e : Entry) : Bool :=
  e.routed.command == some .sendHeld || e.routed.command == some .dropHeld

end Entry

/-- Every byte typed on the status view or with the popup closed. -/
def typed (log : List Entry) : List Stroke := log.flatMap Entry.strokes

/-- What was to be held since the held input was last sent or dropped. -/
def blind (log : List Entry) : List UInt8 :=
  (History.since Entry.answers log).flatMap fun e => e.routed.toHold

/-- When the question that is up was first seen, by a lap or a read. -/
def firstSeen (log : List Entry) : Option Instant :=
  (History.since (fun e => e.phase != .confirming) log).head?.map Entry.now

/-- What an entry gives the host: its own bytes, and the held input if it sends it. -/
def given (past : List Entry) (e : Entry) : List UInt8 :=
  e.routed.toHost ++
    if e.routed.command = some .sendHeld then (blind past).take maxHeld else []

/-- Everything the entries after `past` give the host. -/
def givenAll : List Entry → List Entry → List UInt8
  | _, [] => []
  | past, e :: rest => given past e ++ givenAll (past ++ [e]) rest

/-- What the rest of the session does to the popup. -/
inductive PopupAct where
  | openSessions
  | closePopup
  | openText (text : Text)
  | openCapture
  | openServers (list : List Text)
  | accepted
  | say (note : Text)
  | setSelector (selector : Selector)

def PopupAct.on (u : Popup) : PopupAct → Popup
  | openSessions => u.openSessions
  | closePopup => u.closePopup
  | openText text => u.openText text
  | openCapture => u.openCapture
  | openServers list => u.openServers list
  | accepted => u.accepted
  | say note => u.say note
  | setSelector selector => { u with selector := selector }

inductive KeyEvent where
  | read (bytes : List UInt8) (now : Instant) (lobby busy : Bool)
  | lap (now : Instant) (replyOwed : Bool)
  | heard (now : Instant)
  | sent (now : Instant)
  | beginAttempt (now : Instant)
  | attemptFailed (now : Instant)
  | rebuilt (now : Instant)
  /-- New settings. -/
  | applied (key : Option UInt8) (linger : Nat) (autoOpenAfter : Option Nat)
      (silentAfter rebuildAfter : Nat)
  | popup (act : PopupAct)

structure Keyboard where
  popup : Popup := {}
  link : LinkState
  /-- The user quit. -/
  ended : Bool := false
  /-- Every byte a turn was given for the host. -/
  host : List UInt8 := []
  log : List Entry := []

namespace Popup

/-- The config screen or the selector takes the read. -/
def onScreen (u : Popup) : Bool := u.mode.isConfig || u.mode == .sessions

/-- The popup that a read on the status view or the selector finds. -/
def shownTo (u : Popup) (phase : Phase) (now : Instant) : Popup :=
  { (u.noteQuestion phase now).giveWay phase with pasting := none }

/-- The read, and what the recorder beside it wrote down. -/
def taken (u : Popup) (bytes : List UInt8) (phase : Phase) (now : Instant) : Taken where
  phase := phase
  now := now
  bytes := bytes
  onScreen := (u.shownTo phase now).onScreen
  strokes :=
    if (u.shownTo phase now).onScreen then []
    else strokes phase now (bytes == [esc]) (u.shownTo phase now) {} bytes
  routed := (u.keys bytes phase now).2

end Popup

namespace Keyboard

def turn (k : Keyboard) (input : List UInt8) : Keyboard := { k with host := k.host ++ input }

/-- One read from the keyboard, sent wherever it belongs. A command of the config
screen or the selector is the rest of the session's. -/
def routeKeysAt (k : Keyboard) (bytes : List UInt8) (now : Instant) (lobby busy : Bool) :
    Keyboard :=
  let phase := k.link.phase
  let u := k.popup.setSwitcher lobby busy
  let routed := (u.keys bytes phase now).2
  let k := { k with
    popup := (u.keys bytes phase now).1
    log := k.log ++ [.read (u.taken bytes phase now)] }
  let k := if routed.toHost = [] then k else k.turn routed.toHost
  let k := if routed.toHold = [] then k else { k with link := k.link.holdKeys routed.toHold }
  match routed.command with
  | some .quit => { k with ended := true }
  | some .sendHeld => { k with link := k.link.takeHeld.1 }.turn k.link.takeHeld.2
  | some .dropHeld => { k with link := k.link.dropHeld }
  | some (.config _) | some (.ask _) | none => k

/-- One lap: the phase is decided, and the popup moves on. -/
def lap (k : Keyboard) (now : Instant) (replyOwed : Bool) : Keyboard :=
  let link := k.link.evaluate now replyOwed
  { k with
    link := link
    popup := (k.popup.tick link.phase now).1
    log := k.log ++ [.lap link.phase now] }

def step (k : Keyboard) (e : KeyEvent) : Keyboard :=
  if k.ended then k
  else
    match e with
    | .read bytes now lobby busy => k.routeKeysAt bytes now lobby busy
    | .lap now replyOwed => k.lap now replyOwed
    | .heard now => { k with link := k.link.heard now }
    | .sent now => { k with link := k.link.sent now }
    | .beginAttempt now => { k with link := k.link.beginAttempt now }
    | .attemptFailed now => { k with link := k.link.attemptFailed now }
    | .rebuilt now => { k with link := k.link.rebuilt now }
    | .applied key linger autoOpenAfter silentAfter rebuildAfter =>
        { k with
          popup := k.popup.retune key linger autoOpenAfter
          link := k.link.retune silentAfter rebuildAfter }
    | .popup act => { k with popup := act.on k.popup }

def start (now : Instant) : Keyboard := { link := LinkState.new now }

def run (now : Instant) (es : List KeyEvent) : Keyboard := es.foldl step (start now)

end Keyboard

/-- What a read may do, given the laps and reads before it. -/
structure Taken.Rightful (past : List Entry) (t : Taken) : Prop where
  /-- The recorder saw every byte, in order. -/
  bytes : t.onScreen = false → t.strokes.map Stroke.byte = t.bytes
  marked : ∀ s ∈ t.strokes, s.phase = t.phase ∧ s.now = t.now
  /-- A byte goes to one place at most, and in order. -/
  toHost : t.routed.toHost = sentTo .host t.strokes
  toHold : t.routed.toHold = sentTo .hold t.strokes
  strokes : History.Each (fun before s => s.Rightful (typed past ++ before)) t.strokes
  /-- A read that began on the config screen or the selector delivers nothing. -/
  onScreen : t.onScreen = true → t.routed.toHost = [] ∧ t.routed.toHold = []
  outage : t.routed.toHold ≠ [] → t.phase.isOutage = true
  calm : t.routed.toHost ≠ [] → t.phase.isOutage = false
  /-- The held input is sent or dropped only where that is asked. -/
  question : t.routed.command = some .sendHeld ∨ t.routed.command = some .dropHeld →
    t.phase = .confirming
  /-- A question is answered only after it has been up for a while. -/
  answer : t.phase = .confirming →
    t.routed.command = some .sendHeld ∨ t.routed.command = some .dropHeld ∨
      t.routed.command = some .quit →
    ∃ first, firstSeen (past ++ [.read t]) = some first ∧ first + answerGuard ≤ t.now
  confirming : t.phase = .confirming → t.routed.toHost = [] ∧ t.routed.toHold = []

def Entry.Rightful (past : List Entry) : Entry → Prop
  | .lap _ _ => True
  | .read taken => taken.Rightful past

namespace Popup
variable {phase : Phase} {now : Instant}

/-- Neither the question nor the press that opened the popup is made up. -/
structure Undisturbed (u v : Popup) : Prop where
  asked : v.askedAt = u.askedAt
  pressed : v.pressed = none ∨ v.pressed = u.pressed

theorem Undisturbed.refl (u : Popup) : Undisturbed u u := ⟨rfl, Or.inr rfl⟩

theorem Undisturbed.trans {u v w : Popup} (first : Undisturbed u v) (second : Undisturbed v w) :
    Undisturbed u w where
  asked := second.asked.trans first.asked
  pressed := by
    cases second.pressed with
    | inl none => exact Or.inl none
    | inr same => rw [same]; exact first.pressed

theorem undisturbed_leaveConfig (u : Popup) : Undisturbed u u.leaveConfig := by
  unfold leaveConfig
  split
  · exact ⟨rfl, Or.inl rfl⟩
  · exact Undisturbed.refl u

theorem undisturbed_giveWay (u : Popup) (phase : Phase) : Undisturbed u (u.giveWay phase) := by
  unfold giveWay
  split
  · refine (undisturbed_leaveConfig u).trans ?_
    unfold leaveSessions
    split
    · exact ⟨rfl, Or.inl rfl⟩
    · exact Undisturbed.refl _
  · exact Undisturbed.refl u

theorem undisturbed_outageOn {u : Popup} {since : Instant} (on : u.outageSince = some since)
    (phase : Phase) (now : Instant) : Undisturbed u (u.tickOutage phase now).1 := by
  unfold tickOutage
  simp only [on]
  split
  · split
    · exact ⟨rfl, Or.inl rfl⟩
    · exact Undisturbed.refl u
  · split
    · exact ⟨rfl, Or.inl rfl⟩
    · exact Undisturbed.refl u
  · split
    · have decided : Undisturbed u { u with outageSince := some since, configDecided := true } :=
        ⟨rfl, Or.inr rfl⟩
      dsimp only
      split
      · exact decided
      · exact decided.trans (undisturbed_leaveConfig _)
    · exact Undisturbed.refl u
  all_goals exact Undisturbed.refl u

theorem undisturbed_tickOutage (u : Popup) (phase : Phase) (now : Instant) :
    Undisturbed u (u.tickOutage phase now).1 := by
  cases since : u.outageSince with
  | none =>
      -- the lap that begins an outage goes on as the next one does
      have begun (at_ : Instant) : Undisturbed u
          { u with outageSince := some at_, dismissed := false, configDecided := false } :=
        ⟨rfl, Or.inr rfl⟩
      have same : ∃ at_, (u.tickOutage phase now).1 =
          (tickOutage { u with outageSince := some at_, dismissed := false, configDecided := false }
            phase now).1 := by
        apply Exists.intro
        unfold tickOutage
        rw [since]
        dsimp only
        cases u.mode with
        | closed | lingering _ _ | opened _ | auto | sessions => rfl
        | config _ editing =>
            dsimp only
            rw [apply_ite Prod.fst, apply_ite Prod.fst]
      obtain ⟨at_, same⟩ := same
      rw [same]
      exact (begun at_).trans (undisturbed_outageOn rfl phase now)
  | some at_ => exact undisturbed_outageOn since phase now

theorem undisturbed_answeredOn {u : Popup} (ended : u.outageSince = none) (phase : Phase)
    (now : Instant) : Undisturbed u (u.tickAnswered phase now).1 := by
  unfold tickAnswered
  rw [ended]
  dsimp only
  split
  · split
    · exact ⟨rfl, Or.inl rfl⟩
    · exact Undisturbed.refl u
  · split
    · exact ⟨rfl, Or.inl rfl⟩
    · exact Undisturbed.refl u
  all_goals exact Undisturbed.refl u

theorem undisturbed_tickAnswered (u : Popup) (phase : Phase) (now : Instant) :
    Undisturbed u (u.tickAnswered phase now).1 := by
  cases since : u.outageSince with
  | none => exact undisturbed_answeredOn since phase now
  | some at_ =>
      have ended : Undisturbed u { u with lastOutage := now - at_, outageSince := none } :=
        ⟨rfl, Or.inr rfl⟩
      have same : (u.tickAnswered phase now).1 =
          (tickAnswered { u with lastOutage := now - at_, outageSince := none } phase now).1 := by
        unfold tickAnswered
        rw [since]
        dsimp only
        cases u.mode <;> rfl
      rw [same]
      exact ended.trans (undisturbed_answeredOn rfl phase now)

theorem undisturbed_tick (u : Popup) (phase : Phase) (now : Instant) :
    Undisturbed (u.noteQuestion phase now) (u.tick phase now).1 := by
  refine (undisturbed_giveWay _ phase).trans ?_
  rw [tick]
  split
  · exact undisturbed_tickOutage _ phase now
  · exact undisturbed_tickAnswered _ phase now

theorem undisturbed_openOn (u : Popup) (editing : Editing) : Undisturbed u (u.openOn editing) := by
  unfold openOn
  split
  · exact ⟨rfl, Or.inl rfl⟩
  all_goals exact Undisturbed.refl u

theorem undisturbed_accepted (u : Popup) : Undisturbed u u.accepted := by
  unfold accepted
  split
  · exact ⟨rfl, Or.inl rfl⟩
  · exact ⟨rfl, Or.inl rfl⟩
  all_goals exact Undisturbed.refl u

theorem undisturbed_act (u : Popup) (act : PopupAct) : Undisturbed u (act.on u) := by
  cases act with
  | openSessions => exact ⟨(undisturbed_leaveConfig u).asked, Or.inl rfl⟩
  | closePopup => exact ⟨(undisturbed_leaveConfig u).asked, Or.inl rfl⟩
  | openText text =>
      simp only [PopupAct.on, openText]
      split
      · have set : Undisturbed u { u with field := Field.set text } := ⟨rfl, Or.inr rfl⟩
        exact set.trans (undisturbed_openOn _ .text)
      · exact Undisturbed.refl u
  | openCapture => exact undisturbed_openOn u .capture
  | openServers list =>
      simp only [PopupAct.on, openServers]
      split
      · have set : Undisturbed u { u with servers := list } := ⟨rfl, Or.inr rfl⟩
        exact set.trans (undisturbed_openOn _ (.servers 0 false))
      · exact Undisturbed.refl u
  | accepted => exact undisturbed_accepted u
  | say note => exact ⟨rfl, Or.inr rfl⟩
  | setSelector selector => exact ⟨rfl, Or.inr rfl⟩

/-- A read that is a screen's own. -/
structure Apart (u : Popup) (s : Popup × Routed) : Prop where
  undisturbed : Undisturbed u s.1
  toHost : s.2.toHost = []
  toHold : s.2.toHold = []
  command : s.2.command ≠ some .sendHeld ∧ s.2.command ≠ some .dropHeld

theorem apart_fresh {u v : Popup} (undisturbed : Undisturbed u v) : Apart u (v, {}) :=
  ⟨undisturbed, rfl, rfl, nofun, nofun⟩

theorem pressed_of_isConfig {u : Popup} (up : u.mode.isConfig = true) : u.pressed = none := by
  unfold pressed
  cases mode : u.mode with
  | opened at_ => rw [mode] at up; cases up
  | closed | auto | lingering _ _ | config _ _ | sessions => rfl

theorem ConfigStep.apart {u v : Popup} {r : Routed} {next : (Popup × Routed) × Bool}
    (step : ConfigStep v phase r next) (apart : Apart u (v, r)) : Apart u next.1 := by
  cases step with
  | stays mode field up =>
      exact ⟨⟨apart.undisturbed.asked, Or.inl (pressed_of_isConfig up)⟩, apart.toHost, apart.toHold,
        apart.command⟩
  | leaves =>
      exact ⟨apart.undisturbed.trans (undisturbed_leaveConfig v), apart.toHost, apart.toHold,
        apart.command⟩
  | asks proposed command own =>
      exact ⟨⟨apart.undisturbed.asked, apart.undisturbed.pressed⟩, apart.toHost, apart.toHold,
        fun send => own.1 (Option.some.inj send), fun drop => own.2 (Option.some.inj drop)⟩
  | accepts =>
      exact ⟨apart.undisturbed.trans (undisturbed_accepted v), apart.toHost, apart.toHold,
        apart.command⟩
  | closes =>
      have frame := dismiss_frame { v.leaveConfig with mode := .closed } phase
      refine ⟨⟨?_, Or.inl ?_⟩, apart.toHost, apart.toHold, apart.command⟩
      · exact (frame.2.1.trans (undisturbed_leaveConfig v).asked).trans apart.undisturbed.asked
      · rw [pressed, frame.2.2]
  | elsewhere down => exact apart

theorem keeps_apart (phase : Phase) (u : Popup) :
    (configReader phase).Keeps (Apart u) (Apart u) where
  key s k apart _ := (configStep_configKey k s.1 s.2).apart apart
  last s k apart _ := (configStep_configKey k s.1 s.2).apart apart
  pasted s b apart := by
    refine ⟨apart.undisturbed.trans ?_, apart.toHost, apart.toHold, apart.command⟩
    simp only [configReader, pasteByte]
    split
    · exact ⟨rfl, Or.inr rfl⟩
    · exact Undisturbed.refl _
  setPasting s p apart :=
    ⟨apart.undisturbed.trans ⟨rfl, Or.inr rfl⟩, apart.toHost, apart.toHold, apart.command⟩

theorem apart_configKeys {u v : Popup} (undisturbed : Undisturbed u v) (bytes : List UInt8)
    (phase : Phase) : Apart u (v.configKeys bytes phase) := by
  have fresh : Apart u ({ v with note := none }, {}) :=
    apart_fresh (undisturbed.trans ⟨rfl, Or.inr rfl⟩)
  cases (keeps_apart phase u).read (bytes == [esc]) fresh bytes with
  | inl going => exact going
  | inr stopped => exact stopped

theorem apart_sessionsKeys {u v : Popup} (undisturbed : Undisturbed u v) (bytes : List UInt8)
    (phase : Phase) (now : Instant) : Apart u (v.sessionsKeys bytes phase now) := by
  unfold sessionsKeys
  split
  · split
    · exact apart_fresh undisturbed
    · have frame := dismiss_frame { v with mode := .closed } phase
      refine apart_fresh (undisturbed.trans ⟨frame.2.1, Or.inl ?_⟩)
      rw [pressed, frame.2.2]
  · have apart (out : Option Out) (selector : Selector) :
        Apart u ({ v with selector := selector }.went out) := by
      have same : Undisturbed u { v with selector := selector } :=
        undisturbed.trans ⟨rfl, Or.inr rfl⟩
      cases out with
      | none => exact apart_fresh same
      | some out =>
          cases out with
          | ask _ => exact ⟨same, rfl, rfl, (by simp [went]), (by simp [went])⟩
          | back => exact apart_fresh ⟨undisturbed.asked, Or.inl rfl⟩
          | close => exact apart_fresh ⟨undisturbed.asked, Or.inl rfl⟩
          | quit => exact ⟨same, rfl, rfl, (by simp [went]), (by simp [went])⟩
    exact apart _ _

theorem undisturbed_shownTo (u : Popup) (phase : Phase) (now : Instant) :
    Undisturbed (u.noteQuestion phase now) (u.shownTo phase now) :=
  (undisturbed_giveWay _ phase).trans ⟨rfl, Or.inr rfl⟩

theorem keys_onScreen {u : Popup} (on : (u.shownTo phase now).onScreen = true)
    (bytes : List UInt8) : Apart (u.noteQuestion phase now) (u.keys bytes phase now) := by
  have given := undisturbed_giveWay (u.noteQuestion phase now) phase
  simp only [keys]
  split
  · exact apart_sessionsKeys (undisturbed_shownTo u phase now) bytes phase now
  · exact apart_configKeys ((keeps_apart phase _).resume (apart_fresh given) bytes).undisturbed _ phase
  all_goals
    rename_i mode
    simp [onScreen, shownTo, mode, Mode.isConfig] at on

theorem keys_status {u : Popup} (off : (u.shownTo phase now).onScreen = false)
    (bytes : List UInt8) :
    u.keys bytes phase now =
      statusKeys phase now (bytes == [esc]) (u.shownTo phase now) {} bytes := by
  simp only [keys]
  split
  · rename_i mode
    simp [onScreen, shownTo, mode] at off
  · rename_i mode
    simp [onScreen, shownTo, mode, Mode.isConfig] at off
  all_goals rfl

theorem onScreen_confirming {u : Popup} (now : Instant) :
    (u.shownTo .confirming now).onScreen = false := by
  have down : (u.noteQuestion .confirming now).leaveConfig.mode.isConfig = false := by
    unfold leaveConfig
    split
    · rfl
    · rename_i other
      exact Bool.eq_false_of_not_eq_true other
  change ((u.noteQuestion .confirming now).giveWay .confirming).onScreen = false
  rw [giveWay, if_pos rfl]
  unfold leaveSessions
  split
  · rfl
  · rename_i other
    simp [onScreen, down, other]

end Popup
theorem typed_snoc (log : List Entry) (e : Entry) : typed (log ++ [e]) = typed log ++ e.strokes := by
  simp [typed]

theorem blind_snoc (log : List Entry) (e : Entry) :
    blind (log ++ [e]) = if e.answers then [] else blind log ++ e.routed.toHold := by
  rw [blind, History.since_snoc]
  split
  · rfl
  · simp [blind]

theorem firstSeen_snoc (log : List Entry) (e : Entry) :
    firstSeen (log ++ [e]) =
      if e.phase = .confirming then some ((firstSeen log).getD e.now) else none := by
  rw [firstSeen, History.since_snoc]
  by_cases asked : e.phase = .confirming
  · rw [if_neg (by simp [asked]), if_pos asked, List.head?_append, firstSeen]
    cases (History.since (fun e : Entry => e.phase != .confirming) log).head? with
    | none => rfl
    | some first => rfl
  · rw [if_pos (by simp [asked]), if_neg asked]
    rfl

theorem givenAll_snoc (past log : List Entry) (e : Entry) :
    givenAll past (log ++ [e]) = givenAll past log ++ given (past ++ log) e := by
  induction log generalizing past with
  | nil => simp [givenAll]
  | cons first log ih =>
      rw [List.cons_append, givenAll, ih, givenAll, List.append_assoc, List.append_assoc,
        List.singleton_append]

theorem sentTo_nil_of {dest : Dest} {strokes : List Stroke} (none : ∀ s ∈ strokes, s.went ≠ some dest) :
    sentTo dest strokes = [] := by
  rw [sentTo, List.filter_eq_nil_iff.mpr, List.map_nil]
  intro s member
  simp [none s member]

namespace Popup
variable {phase : Phase} {now : Instant}

theorem strokes_marked (loneEsc : Bool) (u : Popup) (r : Routed) (bytes : List UInt8) :
    ∀ s ∈ strokes phase now loneEsc u r bytes, s.phase = phase ∧ s.now = now := by
  induction bytes generalizing u r with
  | nil => exact fun _ member => (nomatch member)
  | cons b rest ih =>
      intro s member
      rw [strokes] at member
      cases List.mem_cons.mp member with
      | inl here => rw [here]; exact ⟨rfl, rfl⟩
      | inr later =>
          split at later
          · obtain ⟨b', -, rfl⟩ := List.mem_map.mp later
            exact ⟨rfl, rfl⟩
          · exact ih _ _ s later

theorem firstSeen_read {past : List Entry} {u : Popup} (asked : u.askedAt = firstSeen past)
    (e : Entry) : (u.noteQuestion e.phase e.now).askedAt = firstSeen (past ++ [e]) := by
  rw [firstSeen_snoc, noteQuestion, asked]

theorem first_of_answerable {u : Popup} (late : u.answerable now = true) :
    ∃ first, u.askedAt = some first ∧ first + answerGuard ≤ now := by
  unfold answerable at late
  split at late
  · rename_i first asked
    exact ⟨first, asked, late_of_not_early (Nat.not_lt.mpr (of_decide_eq_true late))⟩
  · cases late

section Taken
variable {past : List Entry} {u : Popup} (opened : u.Remembers (typed past))
  (asked : u.askedAt = firstSeen past) (bytes : List UInt8)

include opened asked

/-- The popup and its recorder, on the status view. -/
theorem taken_status (off : (u.shownTo phase now).onScreen = false) :
    (u.taken bytes phase now).Rightful past ∧
      (u.keys bytes phase now).1.Remembers (typed past ++ (u.taken bytes phase now).strokes) ∧
      (u.keys bytes phase now).1.askedAt = (u.noteQuestion phase now).askedAt := by
  have shown := undisturbed_shownTo u phase now
  have recorded : (u.taken bytes phase now).strokes =
      strokes phase now (bytes == [esc]) (u.shownTo phase now) {} bytes := if_neg (by simp [off])
  have routed : u.keys bytes phase now =
      statusKeys phase now (bytes == [esc]) (u.shownTo phase now) {} bytes := keys_status off bytes
  have right := @rightful_strokes phase now (bytes == [esc]) (typed past) (u.shownTo phase now)
    (opened.of_pressed shown.pressed) {} bytes
  have kept := @kept_statusKeys phase now (bytes == [esc]) (u.shownTo phase now) {} bytes
  have marked := @strokes_marked phase now (bytes == [esc]) (u.shownTo phase now) {} bytes
  have sent (dest : Dest) :=
    @sentTo_strokes phase now (bytes == [esc]) dest (u.shownTo phase now) {} bytes
  rw [← recorded, ← routed] at right
  rw [← routed] at kept
  rw [← recorded] at marked
  simp only [← recorded, ← routed] at sent
  have toHost : (u.keys bytes phase now).2.toHost = sentTo .host (u.taken bytes phase now).strokes :=
    sent .host
  have toHold : (u.keys bytes phase now).2.toHold = sentTo .hold (u.taken bytes phase now).strokes :=
    sent .hold
  have dest {d : Dest} (some_ : sentTo d (u.taken bytes phase now).strokes ≠ []) : d = Dest.of phase := by
    obtain ⟨s, member, went⟩ : ∃ s ∈ (u.taken bytes phase now).strokes, s.went = some d := by
      refine Classical.not_forall_not.mp fun nowhere => some_ (sentTo_nil_of fun s member went => ?_)
      exact nowhere s ⟨member, went⟩
    obtain ⟨before, rightful⟩ := right.1.of_mem member
    rw [rightful.dest went, (marked s member).1]
  have nowhere (d : Dest) (confirming : phase = .confirming) :
      sentTo d (u.taken bytes phase now).strokes = [] := by
    refine sentTo_nil_of fun s member went => ?_
    obtain ⟨before, rightful⟩ := right.1.of_mem member
    rw [rightful.confirming ((marked s member).1.trans confirming)] at went
    cases went
  have may {command : Command} (commanded : (u.keys bytes phase now).2.command = some command) :
      (u.shownTo phase now).MayAsk phase now command := by
    cases kept.command with
    | inl none => rw [commanded] at none; cases none
    | inr new =>
        obtain ⟨command', same, may⟩ := new
        rw [commanded] at same
        cases same
        exact may
  have answers {command : Command} (commanded : (u.keys bytes phase now).2.command = some command)
      (late : (u.shownTo phase now).MayAsk phase now command →
        (u.shownTo phase now).answerable now = true) :
      ∃ first, firstSeen (past ++ [.read (u.taken bytes phase now)]) = some first ∧
        first + answerGuard ≤ now := by
    obtain ⟨first, up, waited⟩ := first_of_answerable (late (may commanded))
    refine ⟨first, ?_, waited⟩
    rw [← firstSeen_read asked]
    exact shown.asked.symm.trans up
  refine ⟨?_, right.2, kept.asked.trans shown.asked⟩
  exact {
    bytes := fun _ => by rw [recorded]; exact strokes_bytes _ _ _
    marked := marked
    toHost := toHost
    toHold := toHold
    strokes := right.1
    onScreen := fun on => by rw [taken, off] at on; cases on
    outage := fun held => by
      have there := dest (toHold ▸ held)
      cases outage : phase.isOutage with
      | true => exact outage
      | false => rw [Dest.of, outage] at there; cases there
    calm := fun went => by
      have there := dest (toHost ▸ went)
      cases outage : phase.isOutage with
      | true => rw [Dest.of, outage] at there; cases there
      | false => exact outage
    question := fun command => by
      cases command with
      | inl send => exact (may send).1
      | inr drop => exact (may drop).1
    answer := fun confirming command => by
      cases command with
      | inl send => exact answers send fun may => may.2
      | inr command =>
          cases command with
          | inl drop => exact answers drop fun may => may.2
          | inr quit => exact answers quit fun may => may confirming
    confirming := fun confirming =>
      ⟨toHost.trans (nowhere .host confirming), toHold.trans (nowhere .hold confirming)⟩ }

omit asked in
/-- The popup and its recorder, on the config screen or the selector. -/
theorem taken_onScreen (on : (u.shownTo phase now).onScreen = true) :
    (u.taken bytes phase now).Rightful past ∧
      (u.keys bytes phase now).1.Remembers (typed past ++ (u.taken bytes phase now).strokes) ∧
      (u.keys bytes phase now).1.askedAt = (u.noteQuestion phase now).askedAt := by
  have apart := keys_onScreen on bytes
  have recorded : (u.taken bytes phase now).strokes = [] := if_pos on
  have elsewhere : phase ≠ .confirming := by
    intro confirming
    subst confirming
    rw [onScreen_confirming now] at on
    cases on
  refine ⟨?_, ?_, apart.undisturbed.asked⟩
  · exact {
      bytes := fun off => by rw [taken, on] at off; cases off
      marked := fun s member => by rw [recorded] at member; cases member
      toHost := by rw [recorded]; exact apart.toHost
      toHold := by rw [recorded]; exact apart.toHold
      strokes := by rw [recorded]; exact History.each_nil _
      onScreen := fun _ => ⟨apart.toHost, apart.toHold⟩
      outage := fun held => absurd apart.toHold held
      calm := fun went => absurd apart.toHost went
      question := fun command =>
        command.elim (fun send => absurd send apart.command.1) fun drop => absurd drop apart.command.2
      answer := fun confirming => absurd confirming elsewhere
      confirming := fun confirming => absurd confirming elsewhere }
  · rw [recorded, List.append_nil]
    exact opened.of_pressed apart.undisturbed.pressed

/-- One read is rightful, and leaves the popup remembering as much. -/
theorem taken_rightful :
    (u.taken bytes phase now).Rightful past ∧
      (u.keys bytes phase now).1.Remembers (typed past ++ (u.taken bytes phase now).strokes) ∧
      (u.keys bytes phase now).1.askedAt = (u.noteQuestion phase now).askedAt := by
  cases screen : (u.shownTo phase now).onScreen with
  | true => exact taken_onScreen opened bytes screen
  | false => exact taken_status opened asked bytes screen

end Taken
end Popup

namespace Keyboard

/-- What holds of the client's keys in every run. -/
structure Sound (k : Keyboard) : Prop where
  log : History.Each (fun past e => e.Rightful past) k.log
  opened : k.popup.Remembers (typed k.log)
  asked : k.popup.askedAt = firstSeen k.log
  held : k.link.held = (blind k.log).take maxHeld
  host : k.host = givenAll [] k.log

theorem Sound.onLink {k : Keyboard} (sound : k.Sound) {link : LinkState}
    (held : link.held = k.link.held) : Sound { k with link := link } :=
  { sound with held := held.trans sound.held }

theorem Sound.onPopup {k : Keyboard} (sound : k.Sound) {popup : Popup}
    (undisturbed : Popup.Undisturbed k.popup popup) : Sound { k with popup := popup } :=
  { sound with
    opened := sound.opened.of_pressed undisturbed.pressed
    asked := undisturbed.asked.trans sound.asked }

theorem held_holdKeys (s : LinkState) (bytes before : List UInt8)
    (held : s.held = before.take maxHeld) :
    (s.holdKeys bytes).held = (before ++ bytes).take maxHeld := by
  have room : maxHeld - s.held.length = maxHeld - before.length := by
    rw [held, List.length_take]
    omega
  simp only [LinkState.holdKeys]
  rw [room, held, List.take_append, Nat.min_comm, ← List.take_eq_take_min]

theorem held_evaluate (s : LinkState) (now : Instant) (replyOwed : Bool) :
    (s.evaluate now replyOwed).held = s.held := by
  cases s.evaluate_cases now replyOwed with
  | inl same => rw [same]
  | inr moved =>
      cases moved with
      | inl rebuilds =>
          obtain ⟨since, -, -, same⟩ := rebuilds
          rw [same]
      | inr calm =>
          cases calm.2 with
          | inl same => rw [same]
          | inr same => rw [same]

theorem Sound.lap {k : Keyboard} (sound : k.Sound) (now : Instant) (replyOwed : Bool) :
    (k.lap now replyOwed).Sound := by
  have moved := Popup.undisturbed_tick k.popup (k.link.evaluate now replyOwed).phase now
  refine ⟨sound.log.snoc trivial, ?_, ?_, ?_, ?_⟩
  · simp only [Keyboard.lap, typed_snoc, Entry.strokes, List.append_nil]
    exact sound.opened.of_pressed moved.pressed
  · exact moved.asked.trans
      (Popup.firstSeen_read sound.asked (.lap (k.link.evaluate now replyOwed).phase now))
  · have quiet : (Entry.lap (k.link.evaluate now replyOwed).phase now).answers = false := rfl
    simp only [Keyboard.lap, blind_snoc, quiet, held_evaluate, Entry.routed, List.append_nil]
    exact sound.held
  · simp only [Keyboard.lap, givenAll_snoc, given, Entry.routed]
    simpa using sound.host

/-- What a read does before its command is acted on. -/
def routed (k : Keyboard) (bytes : List UInt8) (now : Instant) (lobby busy : Bool) : Keyboard :=
  let u := k.popup.setSwitcher lobby busy
  let r := (u.keys bytes k.link.phase now).2
  { k with
    popup := (u.keys bytes k.link.phase now).1
    link := k.link.holdKeys r.toHold
    host := k.host ++ r.toHost
    log := k.log ++ [.read (u.taken bytes k.link.phase now)] }

theorem holdKeys_nil (s : LinkState) : s.holdKeys [] = s := by
  simp [LinkState.holdKeys]

theorem routeKeysAt_eq (k : Keyboard) (bytes : List UInt8) (now : Instant) (lobby busy : Bool) :
    k.routeKeysAt bytes now lobby busy =
      let k' := k.routed bytes now lobby busy
      match ((k.popup.setSwitcher lobby busy).keys bytes k.link.phase now).2.command with
      | some .quit => { k' with ended := true }
      | some .sendHeld => { k' with link := k'.link.takeHeld.1 }.turn k'.link.takeHeld.2
      | some .dropHeld => { k' with link := k'.link.dropHeld }
      | some (.config _) | some (.ask _) | none => k' := by
  simp only [routeKeysAt, routed, turn]
  by_cases toHost : ((k.popup.setSwitcher lobby busy).keys bytes k.link.phase now).2.toHost = []
  · by_cases toHold : ((k.popup.setSwitcher lobby busy).keys bytes k.link.phase now).2.toHold = []
    · simp only [toHost, toHold, if_true, holdKeys_nil, List.append_nil]
    · simp only [toHost, toHold, if_true, if_false, List.append_nil]
  · by_cases toHold : ((k.popup.setSwitcher lobby busy).keys bytes k.link.phase now).2.toHold = []
    · simp only [toHost, toHold, if_true, if_false, holdKeys_nil]
    · simp only [toHost, toHold, if_false]

theorem Sound.routeKeysAt {k : Keyboard} (sound : k.Sound) (bytes : List UInt8) (now : Instant)
    (lobby busy : Bool) : (k.routeKeysAt bytes now lobby busy).Sound := by
  have ready : Popup.Undisturbed k.popup (k.popup.setSwitcher lobby busy) := ⟨rfl, Or.inr rfl⟩
  obtain ⟨right, opened, asked⟩ := @Popup.taken_rightful k.link.phase now k.log _
    (sound.opened.of_pressed ready.pressed) (ready.asked.trans sound.asked) bytes
  have log : History.Each (fun past e => e.Rightful past) (k.routed bytes now lobby busy).log :=
    sound.log.snoc right
  have typed_ : (k.routed bytes now lobby busy).popup.Remembers
      (typed (k.routed bytes now lobby busy).log) := by
    simp only [routed, typed_snoc]
    exact opened
  have seen : (k.routed bytes now lobby busy).popup.askedAt =
      firstSeen (k.routed bytes now lobby busy).log :=
    asked.trans (Popup.firstSeen_read (ready.asked.trans sound.asked)
      (.read ((k.popup.setSwitcher lobby busy).taken bytes k.link.phase now)))
  have blind_ : (k.routed bytes now lobby busy).link.held =
      (blind k.log ++ ((k.popup.setSwitcher lobby busy).keys bytes k.link.phase now).2.toHold).take
        maxHeld :=
    held_holdKeys _ _ _ sound.held
  have host : (k.routed bytes now lobby busy).host =
      givenAll [] k.log ++
        ((k.popup.setSwitcher lobby busy).keys bytes k.link.phase now).2.toHost :=
    congrArg (· ++ _) sound.host
  have gives : givenAll [] (k.routed bytes now lobby busy).log = givenAll [] k.log ++
      (((k.popup.setSwitcher lobby busy).keys bytes k.link.phase now).2.toHost ++
        if ((k.popup.setSwitcher lobby busy).keys bytes k.link.phase now).2.command = some .sendHeld
        then (blind k.log).take maxHeld else []) :=
    givenAll_snoc [] k.log _
  have plain (other : ((k.popup.setSwitcher lobby busy).keys bytes k.link.phase now).2.command ≠
        some .sendHeld ∧
      ((k.popup.setSwitcher lobby busy).keys bytes k.link.phase now).2.command ≠ some .dropHeld) :
      (k.routed bytes now lobby busy).Sound := by
    have quiet : (Entry.read ((k.popup.setSwitcher lobby busy).taken bytes k.link.phase
        now)).answers = false := by
      simp [Entry.answers, Entry.routed, Popup.taken, other.1, other.2]
    refine ⟨log, typed_, seen, ?_, ?_⟩
    · rw [blind_, routed, blind_snoc, quiet]
      rfl
    · rw [host, gives, if_neg other.1, List.append_nil]
  rw [routeKeysAt_eq]
  cases command : ((k.popup.setSwitcher lobby busy).keys bytes k.link.phase now).2.command with
  | none => exact plain (by simp [command])
  | some c =>
      cases c with
      | config cmd | ask ask => exact plain (by simp [command])
      | quit =>
          have same := plain (by simp [command])
          exact ⟨same.log, same.opened, same.asked, same.held, same.host⟩
      | sendHeld =>
          have phase := right.question (Or.inl command)
          have nothing := right.confirming phase
          have answers : (Entry.read ((k.popup.setSwitcher lobby busy).taken bytes k.link.phase
              now)).answers = true := by
            simp [Entry.answers, Entry.routed, Popup.taken, command]
          refine ⟨log, typed_, seen, ?_, ?_⟩
          · simp only [turn, LinkState.takeHeld, routed, blind_snoc, answers, if_true, List.take_nil]
          · have held : (k.routed bytes now lobby busy).link.held = (blind k.log).take maxHeld := by
              rw [blind_, show ((k.popup.setSwitcher lobby busy).keys bytes k.link.phase now).2.toHold =
                [] from nothing.2, List.append_nil]
            rw [command, if_pos rfl] at gives
            simp only [turn, LinkState.takeHeld]
            rw [held, host, gives, List.append_assoc]
      | dropHeld =>
          have answers : (Entry.read ((k.popup.setSwitcher lobby busy).taken bytes k.link.phase
              now)).answers = true := by
            simp [Entry.answers, Entry.routed, Popup.taken, command]
          refine ⟨log, typed_, seen, ?_, ?_⟩
          · simp only [LinkState.dropHeld, routed, blind_snoc, answers, if_true, List.take_nil]
          · rw [command, if_neg (by simp), List.append_nil] at gives
            exact host.trans gives.symm

theorem Sound.step {k : Keyboard} (sound : k.Sound) (e : KeyEvent) : (k.step e).Sound := by
  unfold Keyboard.step
  split
  · exact sound
  · cases e with
    | read bytes now lobby busy => exact sound.routeKeysAt bytes now lobby busy
    | lap now replyOwed => exact sound.lap now replyOwed
    | heard now | sent now => exact sound.onLink rfl
    | beginAttempt now => exact sound.onLink (by unfold LinkState.beginAttempt; split <;> rfl)
    | attemptFailed now => exact sound.onLink (by unfold LinkState.attemptFailed; split <;> rfl)
    | rebuilt now => exact sound.onLink (by unfold LinkState.rebuilt; split <;> rfl)
    | applied key linger autoOpenAfter silentAfter rebuildAfter =>
        have retuned : Popup.Undisturbed k.popup (k.popup.retune key linger autoOpenAfter) :=
          ⟨rfl, Or.inr rfl⟩
        have linked : Sound { k with link := k.link.retune silentAfter rebuildAfter } :=
          sound.onLink rfl
        exact linked.onPopup retuned
    | popup act => exact sound.onPopup (Popup.undisturbed_act k.popup act)

theorem sound_start (now : Instant) : (start now).Sound where
  log := History.each_nil _
  opened := fun first pressed => by cases pressed
  asked := rfl
  held := rfl
  host := rfl

theorem sound_run (now : Instant) (es : List KeyEvent) : (run now es).Sound := by
  have steps (k : Keyboard) (sound : k.Sound) : (es.foldl step k).Sound := by
    induction es generalizing k with
    | nil => exact sound
    | cons e es ih => exact ih _ (sound.step e)
  exact steps _ (sound_start now)

/-- In every run every byte goes where it belongs, the held input is what was typed
blind, and the host is given nothing else. -/
theorem keys_go_where_they_belong (now : Instant) (es : List KeyEvent) :
    History.Each (fun past e => e.Rightful past) (run now es).log ∧
      (run now es).link.held = (blind (run now es).log).take maxHeld ∧
      (run now es).host = givenAll [] (run now es).log :=
  have sound := sound_run now es
  ⟨sound.log, sound.held, sound.host⟩

/-- The popup is opened and its config screen. -/
def onConfig : Keyboard := run 0 [.read [0x1c] 0 false false, .read [0x63] 0 false false]

/-- The popup key closes the popup from the config screen, and the byte after it in the
read is lost with the popup no longer shown. -/
theorem rest_of_a_closing_read_is_lost :
    (onConfig.popup.keys [0x1c] onConfig.link.phase 1).1.visible onConfig.link.phase = false ∧
      (onConfig.routeKeysAt [0x1c, 0x6c] 1 false false).host = [] ∧
      (onConfig.routeKeysAt [0x1c, 0x6c] 1 false false).link.held = [] ∧
      ((onConfig.routeKeysAt [0x1c] 1 false false).routeKeysAt [0x6c] 1 false false).host =
        [0x6c] := by
  decide +kernel

end Keyboard
end Oxutrm.Ui
