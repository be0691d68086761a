import Oxutrm.Host.Counting
import Oxutrm.Client.ClipboardRelay
import Oxutrm.Lib.Transition

/-!
A session's screen on its way to one client process, over one link after another. Links are
numbered in the order in which the host adopts them. The client has a receiver for every
link, and whatever was ever made on a link may still be heard on it, at any time and any
number of times. `applied`, `written` and `gone` record what the source does not keep.
-/
namespace Oxutrm.Host
open Proto Sync Transition
open Oxutrm.Ui (SessionId)
open Oxutrm.Client (ClipboardRelay Written)

/-- The shell's last screen goes out before the close. -/
def HostSession.finish {Term : Type} (codec : Codec ScreenDiff) (ops : TermOps Term)
    (s : HostSession Term) : HostSession Term × Option Frame :=
  let s := match s.term with
    | some term =>
        match ops.poll term with
        | .ok (term, true) =>
            let (term, screen) := ops.snapshot term 1
            { s with term := some term, screenTx := s.screenTx.update screen }
        | .ok (term, false) => { s with term := some term }
        | .error _ => s
    | none => s
  match (s.screenTx.onAck s.inputRx.peerAck).makeFrame codec s.inputRx.ack with
  | (tx, .ok sent) => ({ s with screenTx := tx }, sent)
  | (tx, .error _) => ({ s with screenTx := tx }, none)

/-- What both ends run on, and the client's name for the session. -/
structure Site (E κ : Type) where
  codecIn : Codec InputDiff
  codecOut : Codec ScreenDiff
  pty : Pty E κ
  base64 : Bytes → Bytes
  here : Option SessionId

structure Mirror (E : Type) where
  host : Nat
  session : HostSession (HostTerm E)
  rx : Nat → Receiver ScreenState
  up : List (Nat × Frame)
  down : List (Nat × Frame)
  relay : ClipboardRelay
  applied : List ScreenState
  written : List Written
  gone : Nat

inductive MirrorEvent (E : Type) where
  | hear (i : Nat) (enabled : Bool)
  | elsewhere (session : Option SessionId) (c : Clipboard) (enabled : Bool)
  | offer (link : Nat) (f : Frame)
  | turn (around : Surroundings) (picks : List Nat)
  | startShell (pty : E)
  | becomeLobby
  | finish
  | adopt (size : TermSize)
  | promote (around : Surroundings) (i : Nat) (picks : List Nat)

namespace Mirror
variable {E κ : Type}

/-- A lobby and a client that has shown nothing of it. -/
def start (sizes : Nat → TermSize) (session : HostSession (HostTerm E)) (osc52 : Bool) :
    Mirror E where
  host := 0
  session := session
  rx n := Receiver.new (ScreenState.blankState (sizes n).rows (sizes n).cols)
  up := []
  down := []
  relay := ClipboardRelay.new osc52
  applied := []
  written := []
  gone := 0

/-- The copies the session has taken. -/
def copies (m : Mirror E) : Nat := m.gone + m.session.copies

/-- The frames of the host's own link among those picked. -/
def arrived (m : Mirror E) (picks : List Nat) : List Frame :=
  picks.filterMap fun i => (m.up[i]?).bind fun q => if q.1 = m.host then some q.2 else none

/-- The host goes on with `session` and sends a frame, if any. -/
def after (m : Mirror E) (session : HostSession (HostTerm E)) (sent : Option Frame) : Mirror E :=
  { m with session := session, down := m.down ++ sent.toList.map fun f => (m.host, f) }

/-- The relay looks at a state of some session. -/
def onState (w : Site E κ) (m : Mirror E) (session : Option SessionId) (c : Clipboard)
    (enabled : Bool) : Mirror E :=
  let (relay, out) := m.relay.onState w.base64 session c enabled
  { m with relay := relay, written := m.written ++ Client.Rising.record session c out }

/-- The client takes in a frame of a link. -/
def hear (w : Site E κ) (m : Mirror E) (link : Nat) (f : Frame) (enabled : Bool) : Mirror E :=
  match (m.rx link).onFrame w.codecOut f with
  | (rx, .ok true) =>
      onState w
        { m with rx := Function.update m.rx link rx, applied := m.applied ++ [rx.state] }
        w.here rx.state.clipboard enabled
  | (rx, _) => { m with rx := Function.update m.rx link rx }

/-- A shell that does not start leaves the lobby as it is. -/
def step (w : Site E κ) (m : Mirror E) : MirrorEvent E → Option (Mirror E)
  | .hear i enabled => (m.down[i]?).map fun q => m.hear w q.1 q.2 enabled
  | .elsewhere session c enabled =>
      if session = w.here then none else some (m.onState w session c enabled)
  | .offer link f =>
      if f.ackState = (m.rx link).ack then some { m with up := m.up ++ [(link, f)] } else none
  | .turn around picks =>
      (surviving (m.session.turnAt w.codecIn w.codecOut (HostTerm.ops w.pty) around
        (m.arrived picks))).map fun t => m.after t.session t.turn.sent
  | .startShell pty =>
      match m.session.term with
      | some _ => none
      | none => (HostTerm.spawn pty m.session.size).map fun t =>
          { m with session := m.session.startShell (t.countOnFrom m.session.screenTx.current) }
  | .becomeLobby =>
      (surviving (m.session.becomeLobby (HostTerm.ops w.pty))).map fun session =>
        { m with session := session, gone := m.copies }
  | .finish =>
      let (session, sent) := m.session.finish w.codecOut (HostTerm.ops w.pty)
      some (m.after session sent)
  | .adopt size =>
      (surviving (m.session.adoptAs (HostTerm.ops w.pty) size)).map fun session =>
        { m with host := m.host + 1, session := session }
  | .promote around i picks =>
      (m.up[i]?).bind fun q =>
        if q.1 = m.host + 1 then
          let moved : Mirror E := { m with host := m.host + 1 }
          (surviving (m.session.promoteStandby w.codecIn w.codecOut (HostTerm.ops w.pty) around
            q.2 (moved.arrived picks))).map fun t => moved.after t.session t.turn.sent
        else none

end Mirror

end Oxutrm.Host
