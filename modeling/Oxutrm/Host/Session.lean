import Oxutrm.Sync.Screen
import Oxutrm.Sync.Input

/-!
The host's end of a session: the client's keystrokes in, the screen out. The
pty and the emulator are parameters, and so is what the connection and the
clock decide about a turn.
-/
namespace Oxutrm.Host
open Proto Sync

/-- A `HostTerm`: the pty operations may fail, the emulator's may not. -/
structure TermOps (Term : Type) where
  writeInput : Term → Bytes → Except String Term
  ptyResize : Term → TermSize → Except String Term
  poll : Term → Except String (Term × Bool)
  snapshot : Term → UInt64 → Term × ScreenState
  clipboardDelivered : Term → UInt32 → Term × Bool
  childExited : Term → Term × Option Int

/-- The pty operations themselves succeed. -/
structure TermOps.Works {Term : Type} (ops : TermOps Term) : Prop where
  writeInput : ∀ t bytes, ∃ t', ops.writeInput t bytes = .ok t'
  ptyResize : ∀ t size, ∃ t', ops.ptyResize t size = .ok t'
  poll : ∀ t, ∃ t' moved, ops.poll t = .ok (t', moved)

/-- Why a turn ended the session. -/
inductive HostError where
  | refused (e : ApplyError)
  | pty (context why : String)
  deriving DecidableEq, Repr

variable {Term : Type}

/-- The session after an operation that succeeded; there is none after one that
did not. -/
def surviving {α : Type} (r : α × Except HostError Unit) : Option α :=
  match r.2 with
  | .ok _ => some r.1
  | .error _ => none

/-- The bound is checked before the ioctl, so a refused resize leaves the pty
and the emulator agreeing. -/
def TermOps.resize (ops : TermOps Term) (t : Term) (size : TermSize) : Except HostError Term :=
  match size.checkBounds with
  | .error e => .error (.refused e)
  | .ok _ =>
      match ops.ptyResize t size with
      | .error why => .error (.pty "resizing the pty" why)
      | .ok t => .ok t

structure HostSession (Term : Type) where
  term : Option Term
  screenTx : Sender ScreenState
  inputRx : Receiver InputState
  size : TermSize
  written : Nat
  screenStale : Bool

structure Turn where
  applied : Nat := 0
  rejected : Nat := 0
  sent : Option Frame := none
  detached : Bool := false
  exited : Option Int := none

/-- What the connection and the clock say about one turn. -/
structure Surroundings where
  attached : Bool
  due : Bool

def emptyInput (size : TermSize) : InputState := { seq := 1, pending := [], size := size }

/-- A blank screen that keeps the counters of the one before it. -/
def lobbyScreen (size : TermSize) (last : ScreenState) : Except ApplyError ScreenState := do
  let blank ← ScreenState.blank size.rows size.cols
  pure { blank with
    bell := last.bell
    scrollbackLen := last.scrollbackLen
    clipboard := last.clipboard.withoutText }

namespace HostSession

def lobby (size : TermSize) : Except ApplyError (HostSession Term) := do
  let blank ← ScreenState.blank size.rows size.cols
  pure
    { term := none
      screenTx := Sender.new blank
      inputRx := Receiver.new (emptyInput size)
      size := size
      written := 0
      screenStale := false }

/-- The shell starts on what `HostTerm::spawn_with` returned. -/
def startShell (s : HostSession Term) (term : Term) : HostSession Term :=
  { s with
    term := some term
    written := s.inputRx.state.pending.length
    screenStale := true }

/-- The shell's own screen, not the sender's, which may lag it. -/
def lastScreen (ops : TermOps Term) (s : HostSession Term) : ScreenState :=
  match s.term with
  | some term => (ops.snapshot term 1).2
  | none => s.screenTx.current

/-- The shell is gone on request. -/
def becomeLobby (ops : TermOps Term) (s : HostSession Term) :
    HostSession Term × Except HostError Unit :=
  match lobbyScreen s.size (s.lastScreen ops) with
  | .error e => ({ s with term := none }, .error (.refused e))
  | .ok screen =>
      ({ s with term := none, screenTx := s.screenTx.update screen, screenStale := false }, .ok ())

def resize (ops : TermOps Term) (s : HostSession Term) (size : TermSize) :
    HostSession Term × Except HostError Unit :=
  if size = s.size then (s, .ok ())
  else
    match s.term with
    | some term =>
        match ops.resize term size with
        | .error e => (s, .error e)
        | .ok term => ({ s with term := some term, size := size }, .ok ())
    | none =>
        match lobbyScreen size s.screenTx.current with
        | .error e => (s, .error (.refused e))
        | .ok blank => ({ s with screenTx := s.screenTx.update blank, size := size }, .ok ())

/-- Write newly acknowledged input to the pty, exactly once. -/
def drainInput (ops : TermOps Term) (s : HostSession Term) :
    HostSession Term × Except HostError Unit :=
  let pending := s.inputRx.state.pending
  let written := if s.written > pending.length then pending.length else s.written
  if written < pending.length then
    match s.term with
    | some term =>
        match ops.writeInput term (pending.drop written) with
        | .error why => ({ s with written := written }, .error (.pty "writing to the pty" why))
        | .ok term => ({ s with term := some term, written := pending.length }, .ok ())
    | none => ({ s with written := pending.length }, .ok ())
  else ({ s with written := written }, .ok ())

end HostSession

/-- A session in the middle of a turn. -/
structure Turning (Term : Type) where
  session : HostSession Term
  turn : Turn := {}

namespace Turning

def onSession (s : Turning Term) (r : HostSession Term × Except HostError Unit) :
    Turning Term × Except HostError Unit :=
  ({ s with session := r.1 }, r.2)

/-- One inbound frame. A refused one is counted, not fatal. -/
def takeFrame (codec : Codec InputDiff) (ops : TermOps Term) (s : Turning Term) (f : Frame) :
    Turning Term × Except HostError Unit :=
  match s.session.inputRx.onFrame codec f with
  | (rx, .ok true) =>
      let s := { s with
        session := { s.session with inputRx := rx }
        turn := { s.turn with applied := s.turn.applied + 1 } }
      s.onSession (s.session.drainInput ops)
  | (rx, .ok false) => ({ s with session := { s.session with inputRx := rx } }, .ok ())
  | (rx, .error _) =>
      ({ session := { s.session with inputRx := rx }
         turn := { s.turn with rejected := s.turn.rejected + 1 } }, .ok ())

def takeFrames (codec : Codec InputDiff) (ops : TermOps Term) (s : Turning Term) :
    List Frame → Turning Term × Except HostError Unit
  | [] => (s, .ok ())
  | f :: fs => andThen (s.takeFrame codec ops f) fun s => s.takeFrames codec ops fs

/-- A copy the client has acknowledged is dropped by the emulator. -/
def deliverClipboard (ops : TermOps Term) (s : Turning Term) : Turning Term :=
  let tx := s.session.screenTx.onAck s.session.inputRx.peerAck
  let acked := if tx.peerSaw = 0 then none else tx.base
  let session := { s.session with screenTx := tx }
  match session.term, acked with
  | some term, some acked =>
      if acked.clipboard.copy.isSome then
        let (term, delivered) := ops.clipboardDelivered term acked.clipboard.serial
        { s with session := { session with
            term := some term
            screenStale := session.screenStale || delivered } }
      else { s with session := session }
  | _, _ => { s with session := session }

/-- The size the client wants rides on its input state. -/
def honourSize (ops : TermOps Term) (s : Turning Term) : Turning Term × Except HostError Unit :=
  let wanted := s.session.inputRx.state.size
  if wanted ≠ s.session.size ∧ wanted.cols > 0 ∧ wanted.rows > 0 then
    s.onSession (s.session.resize ops wanted)
  else (s, .ok ())

def pollTerm (ops : TermOps Term) (around : Surroundings) (s : Turning Term) :
    Turning Term × Except HostError Unit :=
  match s.session.term with
  | none => (s, .ok ())
  | some term =>
      match ops.poll term with
      | .error why => (s, .error (.pty "draining the pty" why))
      | .ok (term, moved) =>
          let session := { s.session with term := some term }
          if around.attached then
            if moved || session.screenStale then
              let (term, screen) := ops.snapshot term 1
              ({ s with session := { session with
                  term := some term
                  screenTx := session.screenTx.update screen
                  screenStale := false } }, .ok ())
            else ({ s with session := session }, .ok ())
          else
            ({ s with session := { session with
                screenStale := session.screenStale || moved } }, .ok ())

/-- The outbound frame and the child's status; neither can fail. -/
def finish (codec : Codec ScreenDiff) (ops : TermOps Term) (around : Surroundings)
    (s : Turning Term) : Turning Term :=
  let (tx, sent) :=
    if around.attached && around.due then
      match (s.session.screenTx.onAck s.session.inputRx.peerAck).makeFrame codec
          s.session.inputRx.ack with
      | (tx, .ok sent) => (tx, sent)
      | (tx, .error _) => (tx, none)
    else (s.session.screenTx, none)
  let (term, exited) :=
    match s.session.term with
    | some term => (some (ops.childExited term).1, (ops.childExited term).2)
    | none => (none, none)
  { session := { s.session with screenTx := tx, term := term }
    turn := { s.turn with sent := sent, detached := !around.attached, exited := exited } }

end Turning

namespace HostSession
variable (codecIn : Codec InputDiff) (codecOut : Codec ScreenDiff) (ops : TermOps Term)

/-- One turn over everything the link had waiting. -/
def turnAt (around : Surroundings) (s : HostSession Term) (frames : List Frame) :
    Turning Term × Except HostError Unit :=
  andThen (Turning.takeFrames codecIn ops { session := s } frames) fun t =>
  andThen ((t.deliverClipboard ops).honourSize ops) fun t =>
  andThen (t.pollTerm ops around) fun t =>
  (t.finish codecOut ops around, .ok ())

/-- A new link: both channels restart at 1 and nothing of the new generation
has been written yet. -/
def adoptAs (s : HostSession Term) (size : TermSize) : HostSession Term × Except HostError Unit :=
  andThen (s.resize ops size) fun s =>
  let lobby : Except ApplyError (Option ScreenState) :=
    match s.term with
    | none => (lobbyScreen s.size s.screenTx.current).map some
    | some _ => .ok none
  match lobby with
  | .error e => (s, .error (.refused e))
  | .ok lobby =>
      match ScreenState.blank s.size.rows s.size.cols with
      | .error e => (s, .error (.refused e))
      | .ok blank =>
          let tx := Sender.new blank
          ({ s with
              screenTx := match lobby with
                | some screen => tx.update screen
                | none => tx
              inputRx := Receiver.new (emptyInput size)
              written := 0
              screenStale := true }, .ok ())

/-- The client's first frame on the parked standby: reset first, then feed it and what
else waits on that link. -/
def promoteStandby (around : Surroundings) (s : HostSession Term) (first : Frame)
    (frames : List Frame) : Turning Term × Except HostError Unit :=
  match s.adoptAs ops s.size with
  | (s, .error e) => ({ session := s }, .error e)
  | (s, .ok _) => s.turnAt codecIn codecOut ops around (first :: frames)

end HostSession
end Oxutrm.Host
