import Oxutrm.Config.Layers
import Oxutrm.Ui.Selector

/-!
The status popup's modal state, and where every keystroke goes. While the popup is
shown every key is its own; while it is closed the popup key opens it and every other
byte goes to the host, or is held during an outage.
-/
namespace Oxutrm.Ui
open Client

def defaultKey : UInt8 := 0x1c

/-- How soon the second press of the popup key must follow the first for the pair to
mean that key, literally. -/
def doublePress : Nat := 500000000

def defaultLinger : Nat := seconds 3

/-- What the config screen is doing with the keys. -/
inductive Editing where
  | none
  | text
  | capture
  | servers (cursor : Nat) (field : Bool)
  | save
  deriving DecidableEq, Repr

def Editing.takesEveryByte : Editing → Bool
  | .text | .capture | .servers _ true => true
  | .none | .servers _ false | .save => false

inductive Mode where
  | closed
  /-- Opened by hand, or touched by a key; stays until closed. -/
  | opened (pressed : Option Instant)
  /-- Opened because the link went quiet. -/
  | auto
  | lingering (since : Instant) (outage : Nat)
  | config (cursor : Nat) (editing : Editing)
  | sessions
  deriving DecidableEq, Repr

def Mode.isConfig : Mode → Bool
  | .config _ _ => true
  | .closed | .opened _ | .auto | .lingering _ _ | .sessions => false

inductive ConfigCmd where
  | edit (row : Nat)
  | accept (row : Nat) (text : Text)
  | capture (row : Nat) (key : Option UInt8)
  | servers (row : Nat) (list : List Text)
  | reset (row : Nat)
  | save (level : Config.Level)
  deriving DecidableEq, Repr

inductive Command where
  | quit
  | sendHeld
  | dropHeld
  | config (cmd : ConfigCmd)
  | ask (ask : Ask)
  deriving DecidableEq, Repr

/-- Where one read's bytes go. A command ends the read. -/
structure Routed where
  toHost : List UInt8 := []
  toHold : List UInt8 := []
  command : Option Command := none
  deriving DecidableEq, Repr

inductive LinkChange where
  | wentSilent
  | back (outage : Nat)
  deriving DecidableEq, Repr

/-- `Ui`: the popup, and what it is told of the session. -/
structure Popup where
  mode : Mode := .closed
  /-- Closed by hand during the current outage. -/
  dismissed : Bool := false
  outageSince : Option Instant := none
  lastOutage : Nat := 0
  /-- When the current question about held input was first seen. -/
  askedAt : Option Instant := none
  key : Option UInt8 := some defaultKey
  linger : Nat := defaultLinger
  autoOpenAfter : Option Nat := some 0
  configDecided : Bool := false
  field : Field := {}
  servers : List Text := []
  proposed : Option (List Text) := none
  note : Option Text := none
  selector : Selector := {}
  lobby : Bool := false
  busy : Bool := false
  pasting : Option Matched := none
  deriving DecidableEq, Repr

namespace Popup

def setSwitcher (u : Popup) (lobby busy : Bool) : Popup := { u with lobby := lobby, busy := busy }

def retune (u : Popup) (key : Option UInt8) (linger : Nat) (autoOpenAfter : Option Nat) : Popup :=
  { u with key := key, linger := linger, autoOpenAfter := autoOpenAfter }

/-- Back from the config screen to the status view, dropping whatever field was open. -/
def leaveConfig (u : Popup) : Popup :=
  if u.mode.isConfig then
    { u with mode := .opened none, field := {}, proposed := none, note := none, pasting := none }
  else u

def leaveSessions (u : Popup) : Popup :=
  if u.mode = .sessions then { u with mode := .opened none } else u

def openSessions (u : Popup) : Popup :=
  { u.leaveConfig with selector := Selector.openAfresh, mode := .sessions }

def closePopup (u : Popup) : Popup := { u.leaveConfig with mode := .closed }

def autoDue (u : Popup) (since now : Instant) : Bool :=
  match u.autoOpenAfter with
  | some after => after ≤ now - since
  | none => false

/-- The question about held input is in the popup. -/
def visible (u : Popup) (phase : Phase) : Bool := u.mode != .closed || phase == .confirming

/-- Start the answer guard the first time the question is seen, and forget it once the
phase is anything else. -/
def noteQuestion (u : Popup) (phase : Phase) (now : Instant) : Popup :=
  { u with askedAt := if phase = .confirming then some (u.askedAt.getD now) else none }

/-- The question takes over the config screen and the selector. -/
def giveWay (u : Popup) (phase : Phase) : Popup :=
  if phase = .confirming then u.leaveConfig.leaveSessions else u

def tickOutage (u : Popup) (phase : Phase) (now : Instant) : Popup × Option LinkChange :=
  let (u, change) := match u.outageSince with
    | none =>
        let since := match phase with
          | .silent since => since
          | _ => now
        ({ u with outageSince := some since, dismissed := false, configDecided := false },
          some LinkChange.wentSilent)
    | some _ => (u, none)
  let due := match u.outageSince with
    | some since => u.autoDue since now
    | none => false
  match u.mode with
  | .closed => (if !u.dismissed && due then { u with mode := .auto } else u, change)
  | .lingering _ _ => (if due then { u with mode := .auto } else u, change)
  | .config _ editing =>
      if due && !u.configDecided then
        let u := { u with configDecided := true }
        (if editing.takesEveryByte then u else u.leaveConfig, change)
      else (u, change)
  | .opened _ | .auto | .sessions => (u, change)

/-- A lap while the link answers. -/
def tickAnswered (u : Popup) (phase : Phase) (now : Instant) : Popup × Option LinkChange :=
  let (u, change) := match u.outageSince with
    | some since =>
        ({ u with lastOutage := now - since, outageSince := none },
          some (LinkChange.back (now - since)))
    | none => (u, none)
  match u.mode with
  | .auto =>
      (if phase = .live then { u with mode := .lingering now u.lastOutage } else u, change)
  | .lingering since _ =>
      (if u.linger ≤ now - since then { u with mode := .closed } else u, change)
  | .closed | .opened _ | .config _ _ | .sessions => (u, change)

def tick (u : Popup) (phase : Phase) (now : Instant) : Popup × Option LinkChange :=
  let u := (u.noteQuestion phase now).giveWay phase
  if phase.isOutage then u.tickOutage phase now else u.tickAnswered phase now

/-- The host while the link answers, the held buffer during an outage. -/
def deliver (b : UInt8) (phase : Phase) (r : Routed) : Routed :=
  if phase.isOutage then { r with toHold := r.toHold ++ [b] }
  else { r with toHost := r.toHost ++ [b] }

/-- A key that does nothing still tells an outage's popup that someone is looking. -/
def touch (u : Popup) : Popup :=
  match u.mode with
  | .auto | .lingering _ _ => { u with mode := .opened none }
  | .closed | .opened _ | .config _ _ | .sessions => u

def answerable (u : Popup) (now : Instant) : Bool :=
  match u.askedAt with
  | some at_ => answerGuard ≤ now - at_
  | none => false

def dismiss (u : Popup) (phase : Phase) : Popup :=
  if phase.isOutage then { u with dismissed := true } else u

/-- The second press of a double one is that key for the host. -/
def isLiteral (u : Popup) (b : UInt8) (now : Instant) : Bool :=
  match u.mode with
  | .opened (some at_) => some b == u.key && now - at_ < doublePress
  | .opened none | .closed | .auto | .lingering _ _ | .config _ _ | .sessions => false

/-- Close the popup with `Esc` or the popup key. -/
def close (u : Popup) (b : UInt8) (phase : Phase) (now : Instant) (r : Routed) : Popup × Routed :=
  ({ u with mode := .closed }.dismiss phase, if u.isLiteral b now then deliver b phase r else r)

def statusCommand (u : Popup) (b : UInt8) (phase : Phase) (now : Instant) : Option Command :=
  if phase = .confirming ∧ u.answerable now = false then none
  else if b = 0x71 then some .quit
  else if b = 0x73 ∧ phase = .confirming then some .sendHeld
  else if b = 0x64 ∧ phase = .confirming then some .dropHeld
  else none

/-- A key while the popup is shown, and whether the read is over. -/
def shownKey (u : Popup) (b : UInt8) (phase : Phase) (now : Instant) (r : Routed) :
    Popup × Routed × Bool :=
  match u.statusCommand b phase now with
  | some command => (u, { r with command := some command }, true)
  | none =>
      if b = 0x73 ∧ phase ≠ .confirming then
        if phase = .live then (u.openSessions, { r with command := some (.ask .sessions) }, true)
        else (u.touch, r, false)
      else if b = 0x63 ∧ phase ≠ .confirming then
        let decided := match u.outageSince with
          | some since => u.autoDue since now
          | none => false
        ({ u with mode := .config 0 .none, configDecided := decided }, r, true)
      else if (b = esc ∨ some b = u.key) ∧ phase ≠ .confirming then
        ((u.close b phase now r).1, (u.close b phase now r).2, false)
      else (u.touch, r, false)

/-- A read on the status view, or with the popup closed. -/
def statusKeys (phase : Phase) (now : Instant) (loneEsc : Bool) :
    Popup → Routed → List UInt8 → Popup × Routed
  | u, r, [] => (u, r)
  | u, r, b :: rest =>
      if u.visible phase then
        -- an escape sequence: the rest of the read is one key the popup has no use for
        if b = esc ∧ loneEsc = false then (u.touch, r)
        else if (u.shownKey b phase now r).2.2 then
          ((u.shownKey b phase now r).1, (u.shownKey b phase now r).2.1)
        else
          statusKeys phase now loneEsc (u.shownKey b phase now r).1 (u.shownKey b phase now r).2.1
            rest
      else if some b = u.key then
        statusKeys phase now loneEsc { u with mode := .opened (some now) } r rest
      else statusKeys phase now loneEsc u (deliver b phase r) rest

def ctx (u : Popup) (phase : Phase) : Ctx where
  live := phase = .live
  lobby := u.lobby
  busy := u.busy

/-- Where the popup goes with what a key on the selector asked for. -/
def went (u : Popup) : Option Out → Popup × Routed
  | none => (u, {})
  | some (.ask ask) => (u, { command := some (.ask ask) })
  | some .back => ({ u with mode := .opened none }, {})
  | some .close => ({ u with mode := .closed }, {})
  | some .quit => (u, { command := some .quit })

/-- The popup key closes the selector, unless it is text. -/
def closesSelector (u : Popup) (bytes : List UInt8) : Prop :=
  u.key.isSome ∧ bytes.head? = u.key ∧ u.selector.rename = none ∧ u.selector.pasting = none

instance (u : Popup) (bytes : List UInt8) : Decidable (u.closesSelector bytes) :=
  inferInstanceAs (Decidable (_ ∧ _ ∧ _ ∧ _))

/-- One read on the selector. The popup key closes the popup, except in a lobby, where
there is nothing behind it. -/
def sessionsKeys (u : Popup) (bytes : List UInt8) (phase : Phase) (now : Instant) :
    Popup × Routed :=
  if u.closesSelector bytes then
    (if u.lobby then u else { u with mode := .closed }.dismiss phase, {})
  else
    let (selector, out) := u.selector.keys bytes (u.ctx phase) now
    { u with selector := selector }.went out

/-- The session took the change: the field closes, and the sub-list becomes what was
proposed. -/
def accepted (u : Popup) : Popup :=
  match u.mode with
  | .config cursor (.servers at_ _) =>
      let servers := u.proposed.getD u.servers
      { u with
        field := {}
        proposed := none
        servers := servers
        mode := .config cursor (.servers (min at_ (servers.length - 1)) false) }
  | .config cursor _ => { u with field := {}, mode := .config cursor .none }
  | .closed | .opened _ | .auto | .lingering _ _ | .sessions => u

def say (u : Popup) (note : Text) : Popup := { u with proposed := none, note := some note }

/-- What editing a row of the config screen opens. -/
def openOn (u : Popup) (editing : Editing) : Popup :=
  match u.mode with
  | .config cursor _ => { u with mode := .config cursor editing }
  | .closed | .opened _ | .auto | .lingering _ _ | .sessions => u

def openText (u : Popup) (text : Text) : Popup :=
  if u.mode.isConfig then { u with field := Field.set text }.openOn .text else u

def openCapture (u : Popup) : Popup := u.openOn .capture

def openServers (u : Popup) (list : List Text) : Popup :=
  if u.mode.isConfig then { u with servers := list }.openOn (.servers 0 false) else u

section ConfigScreen
variable (u : Popup) (cursor : Nat) (phase : Phase) (r : Routed)

/-- A command of the config screen ends the read. -/
def commanded (cmd : ConfigCmd) : (Popup × Routed) × Bool :=
  ((u, { r with command := some (.config cmd) }), true)

def edits (editing : Editing) : (Popup × Routed) × Bool :=
  (({ u with mode := .config cursor editing }, r), false)

/-- The sub-list with the entry at `at_` replaced by what was typed. -/
def proposeServers (at_ : Nat) (text : Text) : Option (List Text) :=
  if at_ < u.servers.length then
    some (if text = [] then u.servers.eraseIdx at_ else u.servers.set at_ text)
  else if text = [] then none
  else some (u.servers ++ [text])

/-- `⏎` in a text field: the read ends here, so that the rest of an unbracketed paste
is dropped. -/
def acceptField (editing : Editing) : (Popup × Routed) × Bool :=
  match editing with
  | .servers at_ _ =>
      match u.proposeServers at_ (Config.trim u.field.text) with
      | some list => commanded { u with proposed := some list } r (.servers cursor list)
      | none => ((u.accepted, r), true)
  | .none | .text | .capture | .save => commanded u r (.accept cursor (Config.trim u.field.text))

/-- What a text field goes back to on `Esc`. -/
def closeField (editing : Editing) : Editing :=
  match editing with
  | .servers at_ _ => .servers (min at_ (u.servers.length - 1)) false
  | .none | .text | .capture | .save => .none

def fieldKey (editing : Editing) (key : Key) : (Popup × Routed) × Bool :=
  if key = .byte esc then
    edits { u with field := {} } cursor r (u.closeField editing)
  else if Selector.isEnter key then u.acceptField cursor r editing
  else if Selector.isErase key then (({ u with field := u.field.erase }, r), false)
  else
    match key with
    | .byte b =>
        if 0x20 ≤ b then (({ u with field := u.field.typeByte b }, r), false) else ((u, r), false)
    | .up | .down => ((u, r), false)

def captureKey (key : Key) : (Popup × Routed) × Bool :=
  if key = .byte esc then u.edits cursor r .none
  else if Selector.isErase key then commanded u r (.capture cursor none)
  else
    match key with
    | .byte b => commanded u r (.capture cursor (some b))
    | .up | .down => ((u, r), false)

def serversKey (at_ : Nat) (key : Key) : (Popup × Routed) × Bool :=
  if key = .up ∨ key = .byte 0x6b then u.edits cursor r (.servers (at_ - 1) false)
  else if key = .down ∨ key = .byte 0x6a then
    u.edits cursor r (.servers (min (at_ + 1) (u.servers.length - 1)) false)
  else if Selector.isEnter key ∧ at_ < u.servers.length then
    edits { u with field := Field.set (u.servers.getD at_ []) } cursor r (.servers at_ true)
  else if key = .byte 0x2b then
    edits { u with field := {} } cursor r (.servers u.servers.length true)
  else if key = .byte 0x2d ∧ at_ < u.servers.length then
    commanded { u with proposed := some (u.servers.eraseIdx at_) } r
      (.servers cursor (u.servers.eraseIdx at_))
  else if key = .byte esc then u.edits cursor r .none
  else if key = .byte 0x71 then ((u, { r with command := some .quit }), true)
  else ((u, r), false)

def saveKey (key : Key) : (Popup × Routed) × Bool :=
  if key = .byte 0x61 then commanded u r (.save .global)
  else if key = .byte 0x68 then commanded u r (.save .host)
  else if key = .byte esc then u.edits cursor r .none
  else ((u, r), false)

def browseKey (key : Key) : (Popup × Routed) × Bool :=
  if key = .up ∨ key = .byte 0x6b then u.edits (cursor - 1) r .none
  else if key = .down ∨ key = .byte 0x6a then
    u.edits (min (cursor + 1) (Config.settings.length - 1)) r .none
  else if Selector.isEnter key then commanded u r (.edit cursor)
  else if key = .byte 0x78 then commanded u r (.reset cursor)
  else if key = .byte 0x77 then u.edits cursor r .save
  else if key = .byte 0x71 then ((u, { r with command := some .quit }), true)
  else if key = .byte esc then ((u.leaveConfig, r), false)
  else
    match key with
    | .byte b =>
        if some b = u.key then (({ u.leaveConfig with mode := .closed }.dismiss phase, r), true)
        else ((u, r), false)
    | .up | .down => ((u, r), false)

def configKey (key : Key) : (Popup × Routed) × Bool :=
  match u.mode with
  | .config cursor editing =>
      match editing with
      | .text | .servers _ true => u.fieldKey cursor r editing key
      | .capture => u.captureKey cursor r key
      | .servers at_ false => u.serversKey cursor r at_ key
      | .save => u.saveKey cursor r key
      | .none => u.browseKey cursor phase r key
  | .closed | .opened _ | .auto | .lingering _ _ | .sessions => ((u, r), true)

def fieldOpen : Bool :=
  match u.mode with
  | .config _ .text | .config _ (.servers _ true) => true
  | _ => false

/-- One byte of a paste: into the field, if one is open. -/
def pasteByte (b : UInt8) : Popup :=
  if u.fieldOpen then { u with field := u.field.typeByte b } else u

end ConfigScreen

def configReader (phase : Phase) : Reader (Popup × Routed) where
  up s := s.1.mode.isConfig
  key s k := s.1.configKey phase s.2 k
  pasted s b := (s.1.pasteByte b, s.2)
  pasting s := s.1.pasting
  setPasting s p := ({ s.1 with pasting := p }, s.2)

/-- One read on the config screen, or what a paste has left of it. -/
def configKeys (u : Popup) (bytes : List UInt8) (phase : Phase) : Popup × Routed :=
  ((configReader phase).read (bytes == [esc]) ({ u with note := none }, {}) bytes).1

/-- One read from the keyboard. -/
def keys (u : Popup) (bytes : List UInt8) (phase : Phase) (now : Instant) : Popup × Routed :=
  let u := (u.noteQuestion phase now).giveWay phase
  match u.mode with
  | .sessions => { u with pasting := none }.sessionsKeys bytes phase now
  | .config _ _ =>
      let (s, rest) := (configReader phase).resume (u, {}) bytes
      s.1.configKeys rest phase
  | .closed | .opened _ | .auto | .lingering _ _ =>
      statusKeys phase now (bytes == [esc]) { u with pasting := none } {} bytes

/-- Everything a key can do on the config screen. -/
inductive ConfigStep (u : Popup) (phase : Phase) (r : Routed) : (Popup × Routed) × Bool → Prop where
  | stays (mode : Mode) (field : Field) (up : mode.isConfig = true) :
      ConfigStep u phase r (({ u with mode := mode, field := field }, r), false)
  | leaves : ConfigStep u phase r ((u.leaveConfig, r), false)
  | asks (proposed : Option (List Text)) (command : Command)
      (own : command ≠ .sendHeld ∧ command ≠ .dropHeld) :
      ConfigStep u phase r (({ u with proposed := proposed }, { r with command := some command }), true)
  | accepts : ConfigStep u phase r ((u.accepted, r), true)
  | closes : ConfigStep u phase r (({ u.leaveConfig with mode := .closed }.dismiss phase, r), true)
  | elsewhere (down : u.mode.isConfig = false) : ConfigStep u phase r ((u, r), true)

section Steps
variable {u : Popup} {phase : Phase} {r : Routed} (up : u.mode.isConfig = true) (cursor : Nat) (k : Key)

theorem configStep_edits (field : Field) (editing : Editing) :
    ConfigStep u phase r (edits { u with field := field } cursor r editing) := .stays _ _ rfl

theorem configStep_quit : ConfigStep u phase r ((u, { r with command := some .quit }), true) :=
  .asks u.proposed .quit ⟨nofun, nofun⟩

theorem configStep_commanded (proposed : Option (List Text)) (cmd : ConfigCmd) :
    ConfigStep u phase r (commanded { u with proposed := proposed } r cmd) :=
  .asks proposed (.config cmd) ⟨nofun, nofun⟩

theorem configStep_acceptField (editing : Editing) :
    ConfigStep u phase r (u.acceptField cursor r editing) := by
  unfold acceptField
  split
  · split
    · exact configStep_commanded _ _
    · exact .accepts
  all_goals exact configStep_commanded u.proposed _

include up

theorem configStep_same : ConfigStep u phase r ((u, r), false) := .stays u.mode u.field up

theorem configStep_fieldKey (editing : Editing) :
    ConfigStep u phase r (u.fieldKey cursor r editing k) := by
  unfold fieldKey
  split
  · exact configStep_edits cursor {} _
  · split
    · exact configStep_acceptField cursor editing
    · split
      · exact .stays u.mode _ up
      · split
        · split
          · exact .stays u.mode _ up
          · exact configStep_same up
        all_goals exact configStep_same up

theorem configStep_captureKey : ConfigStep u phase r (u.captureKey cursor r k) := by
  unfold captureKey
  split
  · exact configStep_edits cursor u.field _
  · split
    · exact configStep_commanded u.proposed _
    · split
      · exact configStep_commanded u.proposed _
      all_goals exact configStep_same up

theorem configStep_serversKey (at_ : Nat) : ConfigStep u phase r (u.serversKey cursor r at_ k) := by
  unfold serversKey
  split
  · exact configStep_edits cursor u.field _
  · split
    · exact configStep_edits cursor u.field _
    · split
      · exact configStep_edits cursor _ _
      · split
        · exact configStep_edits cursor {} _
        · split
          · exact configStep_commanded _ _
          · split
            · exact configStep_edits cursor u.field _
            · split
              · exact configStep_quit
              · exact configStep_same up

theorem configStep_saveKey : ConfigStep u phase r (u.saveKey cursor r k) := by
  unfold saveKey
  split
  · exact configStep_commanded u.proposed _
  · split
    · exact configStep_commanded u.proposed _
    · split
      · exact configStep_edits cursor u.field _
      · exact configStep_same up

theorem configStep_browseKey : ConfigStep u phase r (u.browseKey cursor phase r k) := by
  unfold browseKey
  split
  · exact configStep_edits _ u.field _
  · split
    · exact configStep_edits _ u.field _
    · split
      · exact configStep_commanded u.proposed _
      · split
        · exact configStep_commanded u.proposed _
        · split
          · exact configStep_edits cursor u.field _
          · split
            · exact configStep_quit
            · split
              · exact .leaves
              · split
                · split
                  · exact .closes
                  · exact configStep_same up
                all_goals exact configStep_same up

omit up in
theorem configStep_configKey (u : Popup) (r : Routed) :
    ConfigStep u phase r (u.configKey phase r k) := by
  unfold configKey
  split
  · rename_i mode
    have up : u.mode.isConfig = true := by rw [mode]; rfl
    split
    · exact configStep_fieldKey up _ k _
    · exact configStep_fieldKey up _ k _
    · exact configStep_captureKey up _ k
    · exact configStep_serversKey up _ k _
    · exact configStep_saveKey up _ k
    · exact configStep_browseKey up _ k
  all_goals exact .elsewhere (by simp [*, Mode.isConfig])

end Steps

end Popup

end Oxutrm.Ui
