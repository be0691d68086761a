import Oxutrm.Lib.Transition
import Oxutrm.Net.Plan
import Oxutrm.Proto.Types

/-!
An attach: the signalling by which a host and a client come to one connection. The pipes between
them keep the order and take all that is written; what the ladders find, and when, and what
fails, is an input. The host answers for the path, so its verdict is the last thing the client
reads.
-/
namespace Oxutrm.Exchange
open Transition
open Oxutrm.Net (Candidate FamilyNat NatType Rung SocketAddr)
open Oxutrm.Proto (Bytes Text TermSize)

structure HostHello where
  sessionId : Text
  attachId : UInt64
  certSpkiSha256 : Bytes
  psk : Bytes
  candidates : List Candidate
  nat : FamilyNat
  boundPort : UInt16
  detachable : Bool
  features : List Text
  deriving DecidableEq

structure ClientHello where
  certSpkiSha256 : Bytes
  candidates : List Candidate
  nat : FamilyNat
  size : TermSize
  features : List Text
  deriving DecidableEq

structure PathDescription where
  rung : Rung
  localAddr : SocketAddr
  remote : SocketAddr
  probesSent : UInt32
  natType : NatType
  rttMs : UInt32
  mtu : UInt16
  deriving DecidableEq

inductive Signal where
  | hostHello (hello : HostHello)
  | clientHello (hello : ClientHello)
  | candidateUpdate (candidates : List Candidate)
  | established (path : PathDescription)
  | failed (reason : Text)
  deriving DecidableEq

/-- Why an end gave up. -/
inductive Failure where
  /-- The stream ended, a deadline passed, or a call failed. -/
  | lost
  | clientGaveUp (reason : Text)
  | notAHello (answer : Signal)
  | badSize (size : TermSize)
  | noPath (report : Text)
  | hostRefused (reason : Text)
  | notAnOffer (answer : Signal)
  | notAVerdict (answer : Signal)
  deriving DecidableEq

/-- What a ladder ends with when it finds a path. -/
structure Nominated where
  rung : Rung
  localAddr : SocketAddr
  remote : SocketAddr
  probes : UInt32
  deriving DecidableEq

/-- The nominated path, with what the live connection says of it. -/
def pathDescription (n : Nominated) (nat : FamilyNat) (rtt : Nat) (mtu : UInt16) : PathDescription where
  rung := n.rung
  localAddr := n.localAddr
  remote := n.remote
  probesSent := n.probes
  natType := n.rung.family.elim .unknown nat.get
  rttMs := UInt32.ofNat (min rtt (2 ^ 32 - 1))
  mtu := mtu

/-- What a ladder's channel of the peer's candidates holds. -/
def channelSize : Nat := 32

structure Attached where
  path : PathDescription
  clientSize : TermSize
  deriving DecidableEq

structure Established where
  path : PathDescription
  sessionId : Text
  attachId : UInt64
  hostFeatures : List Text
  deriving DecidableEq

inductive HostStage where
  | offering
  | awaiting
  | racing (client : ClientHello)
  /-- The ladder is done, and what it learned is still being told. -/
  | draining (client : ClientHello) (outcome : Except Text Nominated)
  | failing (report : Text)
  | accepting (client : ClientHello) (n : Nominated)
  | announcing (client : ClientHello) (path : PathDescription)
  | ended (result : Except Failure Attached)
  deriving DecidableEq

inductive ClientStage where
  | offered
  | greeting (host : HostHello)
  | racing (host : HostHello)
  | draining (host : HostHello) (outcome : Except Text Nominated)
  | connecting (host : HostHello) (n : Nominated)
  | waiting (host : HostHello)
  /-- A path was declared before this end had nominated one. -/
  | panicked
  | ended (result : Except Failure Established)
  deriving DecidableEq

/-- `learned` waits to be told to the peer; `heard` is what the peer told, of which the ladder has
taken the first `taken` from its channel. -/
structure Host where
  hello : HostHello
  stage : HostStage := .offering
  learned : List Candidate := []
  heard : List Candidate := []
  taken : Nat := 0
  /-- The peer's candidates are still being read. -/
  pumping : Bool := true

/-- `dialled` says that it has come to bring up QUIC. -/
structure Client where
  hello : ClientHello
  stage : ClientStage := .offered
  learned : List Candidate := []
  heard : List Candidate := []
  taken : Nat := 0
  dialled : Bool := false

/-- What happens to an end besides reading and writing. -/
inductive Turn where
  | learns (c : Candidate)
  /-- The ladder takes what the peer told next. -/
  | takes
  | settles (outcome : Except Text Nominated)
  | drained
  /-- QUIC is up. -/
  | connects (rtt : Nat) (mtu : UInt16)
  /-- QUIC did not come up in time. -/
  | expires
  | fails

namespace Host

/-- The channel took all that was read before. -/
def Room (h : Host) : Prop := h.heard.length ≤ h.taken + channelSize

instance instDecidableRoom (h : Host) : Decidable h.Room := inferInstanceAs (Decidable (_ ≤ _))

def read (h : Host) (signal : Signal) : Option Host :=
  match h.stage with
  | .awaiting =>
      match signal with
      | .clientHello client =>
          if client.size.checkBounds = .ok () then some { h with stage := .racing client }
          else some { h with stage := .ended (.error (.badSize client.size)) }
      | .failed reason => some { h with stage := .ended (.error (.clientGaveUp reason)) }
      | other => some { h with stage := .ended (.error (.notAHello other)) }
  | .racing _ | .draining _ _ =>
      if h.pumping = true ∧ h.Room then
        match signal with
        | .candidateUpdate candidates => some { h with heard := h.heard ++ candidates }
        | _ => some { h with pumping := false }
      else none
  | _ => none

/-- The stream has ended. -/
def closed (h : Host) : Option Host :=
  match h.stage with
  | .awaiting => some { h with stage := .ended (.error .lost) }
  | .racing _ | .draining _ _ =>
      if h.pumping = true ∧ h.Room then some { h with pumping := false } else none
  | _ => none

/-- Tells the peer the first candidate that it has not been told. -/
def tell (h : Host) : Option (Host × Signal) :=
  match h.learned with
  | [] => none
  | c :: rest => some ({ h with learned := rest }, .candidateUpdate [c])

def write (h : Host) : Option (Host × Signal) :=
  match h.stage with
  | .offering => some ({ h with stage := .awaiting }, .hostHello h.hello)
  | .racing _ | .draining _ _ => h.tell
  | .failing report => some ({ h with stage := .ended (.error (.noPath report)) }, .failed report)
  | .announcing client path =>
      some ({ h with stage := .ended (.ok ⟨path, client.size⟩) }, .established path)
  | _ => none

/-- The pump is done when everything learned is told, and then the ladder's outcome counts. -/
def drained (h : Host) : Option Host :=
  match h.stage with
  | .draining client outcome =>
      if h.learned = [] then
        match outcome with
        | .ok n => some { h with stage := .accepting client n }
        | .error report => some { h with stage := .failing report }
      else none
  | _ => none

/-- Only the client is let in: it is known by the key its hello named. -/
def turn (h : Host) (dialled : Bool) : Turn → Option Host
  | .learns c =>
      match h.stage with
      | .racing _ => some { h with learned := h.learned ++ [c] }
      | _ => none
  | .takes =>
      match h.stage with
      | .racing _ => if h.taken < h.heard.length then some { h with taken := h.taken + 1 } else none
      | _ => none
  | .settles outcome =>
      match h.stage with
      | .racing client => some { h with stage := .draining client outcome }
      | _ => none
  | .drained => h.drained
  | .connects rtt mtu =>
      match h.stage with
      | .accepting client n =>
          if dialled then some { h with stage := .announcing client (pathDescription n h.hello.nat rtt mtu) }
          else none
      | _ => none
  | .expires =>
      match h.stage with
      | .accepting _ _ => some { h with stage := .ended (.error .lost) }
      | _ => none
  | .fails =>
      match h.stage with
      | .ended _ => none
      | _ => some { h with stage := .ended (.error .lost) }

/-- Its QUIC endpoint is there to be dialled. -/
def up (h : Host) : Bool :=
  match h.stage with
  | .accepting _ _ | .announcing _ _ | .ended (.ok _) => true
  | _ => false

def isOver (h : Host) : Bool :=
  match h.stage with
  | .ended _ => true
  | _ => false

end Host

namespace Client

def Room (c : Client) : Prop := c.heard.length ≤ c.taken + channelSize

instance instDecidableRoom (c : Client) : Decidable c.Room := inferInstanceAs (Decidable (_ ≤ _))

/-- The last signal of the host, as the verdict on the path. -/
def establishedPath (host : HostHello) : Signal → Except Failure Established
  | .established path => .ok ⟨path, host.sessionId, host.attachId, host.features⟩
  | .failed reason => .error (.hostRefused reason)
  | other => .error (.notAVerdict other)

/-- What came before the race was decided: it can only be the reason why there is none. -/
def early (host : HostHello) (signal : Signal) : ClientStage :=
  match establishedPath host signal with
  | .ok _ => .panicked
  | .error why => .ended (.error why)

def read (c : Client) (signal : Signal) : Option Client :=
  match c.stage with
  | .offered =>
      match signal with
      | .hostHello host => some { c with stage := .greeting host }
      | .failed reason => some { c with stage := .ended (.error (.hostRefused reason)) }
      | other => some { c with stage := .ended (.error (.notAnOffer other)) }
  | .racing host | .draining host _ =>
      if c.Room then
        match signal with
        | .candidateUpdate candidates => some { c with heard := c.heard ++ candidates }
        | other => some { c with stage := early host other }
      else none
  -- Nothing is taken from the channel any more, but it is still there to be filled.
  | .waiting host =>
      if c.Room then
        match signal with
        | .candidateUpdate candidates => some { c with heard := c.heard ++ candidates }
        | other => some { c with stage := .ended (establishedPath host other) }
      else none
  | _ => none

def closed (c : Client) : Option Client :=
  match c.stage with
  | .offered => some { c with stage := .ended (.error .lost) }
  | .racing _ | .draining _ _ | .waiting _ =>
      if c.Room then some { c with stage := .ended (.error .lost) } else none
  | _ => none

def tell (c : Client) : Option (Client × Signal) :=
  match c.learned with
  | [] => none
  | first :: rest => some ({ c with learned := rest }, .candidateUpdate [first])

def write (c : Client) : Option (Client × Signal) :=
  match c.stage with
  | .greeting host => some ({ c with stage := .racing host }, .clientHello c.hello)
  | .racing _ | .draining _ _ => c.tell
  | _ => none

def drained (c : Client) : Option Client :=
  match c.stage with
  | .draining host outcome =>
      if c.learned = [] then
        match outcome with
        | .ok n => some { c with stage := .connecting host n, dialled := true }
        | .error report => some { c with stage := .ended (.error (.noPath report)) }
      else none
  | _ => none

def turn (c : Client) (up : Bool) : Turn → Option Client
  | .learns found =>
      match c.stage with
      | .racing _ => some { c with learned := c.learned ++ [found] }
      | _ => none
  | .takes =>
      match c.stage with
      | .racing _ => if c.taken < c.heard.length then some { c with taken := c.taken + 1 } else none
      | _ => none
  | .settles outcome =>
      match c.stage with
      | .racing host => some { c with stage := .draining host outcome }
      | _ => none
  | .drained => c.drained
  | .connects _ _ =>
      match c.stage with
      | .connecting host _ => if up then some { c with stage := .waiting host } else none
      | _ => none
  | .expires =>
      match c.stage with
      | .connecting _ _ => some { c with stage := .ended (.error .lost) }
      | _ => none
  | .fails =>
      match c.stage with
      | .ended _ | .panicked => none
      | _ => some { c with stage := .ended (.error .lost) }

def isOver (c : Client) : Bool :=
  match c.stage with
  | .ended _ | .panicked => true
  | _ => false

end Client

/-- Both ends and the pipes between them. Beside them stand what was ever written into each pipe
and read from it, and all that each ladder learned. -/
structure Parties where
  host : Host
  client : Client
  down : List Signal := []
  up : List Signal := []
  sentDown : List Signal := []
  readDown : List Signal := []
  sentUp : List Signal := []
  readUp : List Signal := []
  hostFound : List Candidate := []
  clientFound : List Candidate := []

inductive Event where
  | hostReads
  | hostCloses
  | hostWrites
  | hostTurns (turn : Turn)
  | clientReads
  | clientCloses
  | clientWrites
  | clientTurns (turn : Turn)

def Turn.found : Turn → List Candidate
  | .learns c => [c]
  | _ => []

namespace Parties

def step (s : Parties) : Event → Option Parties
  | .hostReads =>
      match s.up with
      | [] => none
      | x :: rest => (s.host.read x).map fun h => { s with host := h, up := rest, readUp := s.readUp ++ [x] }
  | .hostCloses =>
      if s.up = [] ∧ s.client.isOver = true then s.host.closed.map fun h => { s with host := h } else none
  | .hostWrites =>
      s.host.write.map fun r =>
        { s with host := r.1, down := s.down ++ [r.2], sentDown := s.sentDown ++ [r.2] }
  | .hostTurns turn =>
      (s.host.turn s.client.dialled turn).map fun h =>
        { s with host := h, hostFound := s.hostFound ++ turn.found }
  | .clientReads =>
      match s.down with
      | [] => none
      | x :: rest =>
          (s.client.read x).map fun c => { s with client := c, down := rest, readDown := s.readDown ++ [x] }
  | .clientCloses =>
      if s.down = [] ∧ s.host.isOver = true then s.client.closed.map fun c => { s with client := c } else none
  | .clientWrites =>
      s.client.write.map fun r => { s with client := r.1, up := s.up ++ [r.2], sentUp := s.sentUp ++ [r.2] }
  | .clientTurns turn =>
      (s.client.turn s.host.up turn).map fun c =>
        { s with client := c, clientFound := s.clientFound ++ turn.found }

def start (host : HostHello) (client : ClientHello) : Parties :=
  { host := { hello := host }, client := { hello := client } }

end Parties

/-- The candidates that signals carry after the hellos. -/
def updates (signals : List Signal) : List Candidate :=
  signals.flatMap fun x =>
    match x with
    | .candidateUpdate candidates => candidates
    | _ => []

section Updates

@[simp] theorem updates_nil : updates [] = [] := rfl

theorem updates_append (a b : List Signal) : updates (a ++ b) = updates a ++ updates b := List.flatMap_append

@[simp] theorem updates_update (candidates : List Candidate) :
    updates [.candidateUpdate candidates] = candidates := List.append_nil candidates

@[simp] theorem updates_hostHello (hello : HostHello) : updates [.hostHello hello] = [] := rfl

@[simp] theorem updates_clientHello (hello : ClientHello) : updates [.clientHello hello] = [] := rfl

@[simp] theorem updates_established (path : PathDescription) : updates [.established path] = [] := rfl

@[simp] theorem updates_failed (reason : Text) : updates [.failed reason] = [] := rfl

end Updates

section Cases
variable {h h' : Host} {c c' : Client} {x : Signal} {turn : Turn} {dialled up : Bool}

/-- The ladder's time: it runs, or what it learned is still being told. -/
def HostStage.Open (client : ClientHello) (stage : HostStage) : Prop :=
  stage = .racing client ∨ ∃ outcome, stage = .draining client outcome

def ClientStage.Open (host : HostHello) (stage : ClientStage) : Prop :=
  stage = .racing host ∨ ∃ outcome, stage = .draining host outcome

inductive Host.Reads (h : Host) : Signal → Host → Prop where
  | met (client : ClientHello) (at_ : h.stage = .awaiting) (size : client.size.checkBounds = .ok ()) :
      h.Reads (.clientHello client) { h with stage := .racing client }
  | gone (x : Signal) (why : Failure) (at_ : h.stage = .awaiting) :
      h.Reads x { h with stage := .ended (.error why) }
  | told (client : ClientHello) (candidates : List Candidate) (at_ : h.stage.Open client) (room : h.Room) :
      h.Reads (.candidateUpdate candidates) { h with heard := h.heard ++ candidates }
  | deaf (client : ClientHello) (x : Signal) (at_ : h.stage.Open client) (on : h.pumping = true)
      (other : updates [x] = []) : h.Reads x { h with pumping := false }

theorem Host.reads (taken : h.read x = some h') : h.Reads x h' := by
  unfold read at taken
  split at taken
  next at_ =>
    split at taken
    next client =>
      split at taken
      next size =>
        obtain rfl := Option.some.inj taken
        exact .met client at_ size
      next =>
        obtain rfl := Option.some.inj taken
        exact .gone _ _ at_
    next =>
      obtain rfl := Option.some.inj taken
      exact .gone _ _ at_
    next =>
      obtain rfl := Option.some.inj taken
      exact .gone _ _ at_
  next client at_ =>
    split at taken
    next on =>
      cases x with
      | candidateUpdate candidates =>
          obtain rfl := Option.some.inj taken
          exact .told client candidates (.inl at_) on.2
      | clientHello _ | failed _ | hostHello _ | established _ =>
          obtain rfl := Option.some.inj taken
          exact .deaf client _ (.inl at_) on.1 rfl
    next => cases taken
  next client outcome at_ =>
    split at taken
    next on =>
      cases x with
      | candidateUpdate candidates =>
          obtain rfl := Option.some.inj taken
          exact .told client candidates (.inr ⟨outcome, at_⟩) on.2
      | clientHello _ | failed _ | hostHello _ | established _ =>
          obtain rfl := Option.some.inj taken
          exact .deaf client _ (.inr ⟨outcome, at_⟩) on.1 rfl
    next => cases taken
  next => cases taken

inductive Host.Closes (h : Host) : Host → Prop where
  | awaiting (at_ : h.stage = .awaiting) : h.Closes { h with stage := .ended (.error .lost) }
  | deaf (client : ClientHello) (at_ : h.stage.Open client) (on : h.pumping = true) :
      h.Closes { h with pumping := false }

theorem Host.closes (taken : h.closed = some h') : h.Closes h' := by
  unfold closed at taken
  split at taken
  next at_ =>
    obtain rfl := Option.some.inj taken
    exact .awaiting at_
  next client at_ =>
    split at taken
    next on =>
      obtain rfl := Option.some.inj taken
      exact .deaf client (.inl at_) on.1
    next => cases taken
  next client outcome at_ =>
    split at taken
    next on =>
      obtain rfl := Option.some.inj taken
      exact .deaf client (.inr ⟨outcome, at_⟩) on.1
    next => cases taken
  next => cases taken

inductive Host.Writes (h : Host) : Host × Signal → Prop where
  | offers (at_ : h.stage = .offering) : h.Writes ({ h with stage := .awaiting }, .hostHello h.hello)
  | tells (client : ClientHello) (c : Candidate) (rest : List Candidate) (at_ : h.stage.Open client)
      (learned : h.learned = c :: rest) : h.Writes ({ h with learned := rest }, .candidateUpdate [c])
  | givesUp (report : Text) (at_ : h.stage = .failing report) :
      h.Writes ({ h with stage := .ended (.error (.noPath report)) }, .failed report)
  | announces (client : ClientHello) (path : PathDescription) (at_ : h.stage = .announcing client path) :
      h.Writes ({ h with stage := .ended (.ok ⟨path, client.size⟩) }, .established path)

theorem Host.tells {client : ClientHello} {r : Host × Signal} (at_ : h.stage.Open client)
    (taken : h.tell = some r) : h.Writes r := by
  unfold tell at taken
  split at taken
  next => cases taken
  next c rest learned =>
    obtain rfl := Option.some.inj taken
    exact .tells client c rest at_ learned

theorem Host.writes {r : Host × Signal} (taken : h.write = some r) : h.Writes r := by
  unfold write at taken
  split at taken
  next at_ =>
    obtain rfl := Option.some.inj taken
    exact .offers at_
  next client at_ => exact Host.tells (.inl at_) taken
  next client outcome at_ => exact Host.tells (.inr ⟨outcome, at_⟩) taken
  next report at_ =>
    obtain rfl := Option.some.inj taken
    exact .givesUp report at_
  next client path at_ =>
    obtain rfl := Option.some.inj taken
    exact .announces client path at_
  next => cases taken

inductive Host.Turns (h : Host) (dialled : Bool) : Turn → Host → Prop where
  | learns (client : ClientHello) (c : Candidate) (at_ : h.stage = .racing client) :
      h.Turns dialled (.learns c) { h with learned := h.learned ++ [c] }
  | takes (client : ClientHello) (at_ : h.stage = .racing client) (some_ : h.taken < h.heard.length) :
      h.Turns dialled .takes { h with taken := h.taken + 1 }
  | settles (client : ClientHello) (outcome : Except Text Nominated) (at_ : h.stage = .racing client) :
      h.Turns dialled (.settles outcome) { h with stage := .draining client outcome }
  | nominates (client : ClientHello) (n : Nominated) (at_ : h.stage = .draining client (.ok n))
      (told : h.learned = []) : h.Turns dialled .drained { h with stage := .accepting client n }
  | despairs (client : ClientHello) (report : Text) (at_ : h.stage = .draining client (.error report))
      (told : h.learned = []) : h.Turns dialled .drained { h with stage := .failing report }
  | connects (client : ClientHello) (n : Nominated) (rtt : Nat) (mtu : UInt16)
      (at_ : h.stage = .accepting client n) (met : dialled = true) :
      h.Turns dialled (.connects rtt mtu)
        { h with stage := .announcing client (pathDescription n h.hello.nat rtt mtu) }
  | loses (turn : Turn) (at_ : h.isOver = false) (none_ : turn.found = []) :
      h.Turns dialled turn { h with stage := .ended (.error .lost) }

theorem Host.turns (taken : h.turn dialled turn = some h') : h.Turns dialled turn h' := by
  cases turn with
  | learns c =>
      simp only [Host.turn] at taken
      split at taken
      next client at_ =>
        obtain rfl := Option.some.inj taken
        exact .learns client c at_
      next => cases taken
  | takes =>
      simp only [Host.turn] at taken
      split at taken
      next client at_ =>
        split at taken
        next some_ =>
          obtain rfl := Option.some.inj taken
          exact .takes client at_ some_
        next => cases taken
      next => cases taken
  | settles outcome =>
      simp only [Host.turn] at taken
      split at taken
      next client at_ =>
        obtain rfl := Option.some.inj taken
        exact .settles client outcome at_
      next => cases taken
  | drained =>
      simp only [Host.turn, drained] at taken
      split at taken
      next client outcome at_ =>
        split at taken
        next told =>
          cases outcome with
          | ok n =>
              obtain rfl := Option.some.inj taken
              exact .nominates client n at_ told
          | error report =>
              obtain rfl := Option.some.inj taken
              exact .despairs client report at_ told
        next => cases taken
      next => cases taken
  | connects rtt mtu =>
      simp only [Host.turn] at taken
      split at taken
      next client n at_ =>
        split at taken
        next met =>
          obtain rfl := Option.some.inj taken
          exact .connects client n rtt mtu at_ met
        next => cases taken
      next => cases taken
  | expires =>
      simp only [Host.turn] at taken
      split at taken
      next client n at_ =>
        obtain rfl := Option.some.inj taken
        exact .loses .expires (by rw [isOver, at_]) rfl
      next => cases taken
  | fails =>
      simp only [Host.turn] at taken
      split at taken
      next => cases taken
      next stage others =>
        obtain rfl := Option.some.inj taken
        refine .loses .fails ?_ rfl
        unfold isOver
        split
        next r at_ => exact absurd at_ (others r)
        next => rfl

/-- It waits for the verdict behind a full channel, which nobody empties any more. -/
def Client.Wedged (c : Client) : Prop := (∃ host, c.stage = .waiting host) ∧ ¬ c.Room

inductive Client.Reads (c : Client) : Signal → Client → Prop where
  | met (host : HostHello) (at_ : c.stage = .offered) :
      c.Reads (.hostHello host) { c with stage := .greeting host }
  | gone (x : Signal) (why : Failure) (at_ : c.stage = .offered) :
      c.Reads x { c with stage := .ended (.error why) }
  | told (host : HostHello) (candidates : List Candidate) (at_ : c.stage.Open host ∨ c.stage = .waiting host)
      (room : c.Room) : c.Reads (.candidateUpdate candidates) { c with heard := c.heard ++ candidates }
  | early (host : HostHello) (x : Signal) (at_ : c.stage.Open host) (other : updates [x] = []) :
      c.Reads x { c with stage := early host x }
  | verdict (host : HostHello) (x : Signal) (at_ : c.stage = .waiting host) (room : c.Room)
      (other : updates [x] = []) : c.Reads x { c with stage := .ended (establishedPath host x) }

theorem Client.reads (taken : c.read x = some c') : c.Reads x c' := by
  unfold read at taken
  split at taken
  next at_ =>
    split at taken
    next host =>
      obtain rfl := Option.some.inj taken
      exact .met host at_
    next =>
      obtain rfl := Option.some.inj taken
      exact .gone _ _ at_
    next =>
      obtain rfl := Option.some.inj taken
      exact .gone _ _ at_
  next host at_ =>
    split at taken
    next room =>
      cases x with
      | candidateUpdate candidates =>
          obtain rfl := Option.some.inj taken
          exact .told host candidates (.inl (.inl at_)) room
      | clientHello _ | failed _ | hostHello _ | established _ =>
          obtain rfl := Option.some.inj taken
          exact .early host _ (.inl at_) rfl
    next => cases taken
  next host outcome at_ =>
    split at taken
    next room =>
      cases x with
      | candidateUpdate candidates =>
          obtain rfl := Option.some.inj taken
          exact .told host candidates (.inl (.inr ⟨outcome, at_⟩)) room
      | clientHello _ | failed _ | hostHello _ | established _ =>
          obtain rfl := Option.some.inj taken
          exact .early host _ (.inr ⟨outcome, at_⟩) rfl
    next => cases taken
  next host at_ =>
    split at taken
    next room =>
      cases x with
      | candidateUpdate candidates =>
          obtain rfl := Option.some.inj taken
          exact .told host candidates (.inr at_) room
      | clientHello _ | failed _ | hostHello _ | established _ =>
          obtain rfl := Option.some.inj taken
          exact .verdict host _ at_ room rfl
    next => cases taken
  next => cases taken

/-- The client hears that the stream has ended, and that nobody will say more. -/
theorem Client.closes (taken : c.closed = some c') :
    c.isOver = false ∧ ¬ c.Wedged ∧ c' = { c with stage := .ended (.error .lost) } := by
  unfold closed at taken
  split at taken
  next at_ =>
    have unwedged : ¬ c.Wedged := fun wedged => by
      obtain ⟨host, waiting⟩ := wedged.1
      rw [at_] at waiting
      cases waiting
    exact ⟨by rw [isOver, at_], unwedged, (Option.some.inj taken).symm⟩
  next at_ =>
    split at taken
    next room => exact ⟨by rw [isOver, at_], fun wedged => wedged.2 room, (Option.some.inj taken).symm⟩
    next => cases taken
  next at_ =>
    split at taken
    next room => exact ⟨by rw [isOver, at_], fun wedged => wedged.2 room, (Option.some.inj taken).symm⟩
    next => cases taken
  next at_ =>
    split at taken
    next room => exact ⟨by rw [isOver, at_], fun wedged => wedged.2 room, (Option.some.inj taken).symm⟩
    next => cases taken
  next => cases taken

inductive Client.Writes (c : Client) : Client × Signal → Prop where
  | greets (host : HostHello) (at_ : c.stage = .greeting host) :
      c.Writes ({ c with stage := .racing host }, .clientHello c.hello)
  | tells (host : HostHello) (found : Candidate) (rest : List Candidate) (at_ : c.stage.Open host)
      (learned : c.learned = found :: rest) : c.Writes ({ c with learned := rest }, .candidateUpdate [found])

theorem Client.tells {host : HostHello} {r : Client × Signal} (at_ : c.stage.Open host)
    (taken : c.tell = some r) : c.Writes r := by
  unfold tell at taken
  split at taken
  next => cases taken
  next found rest learned =>
    obtain rfl := Option.some.inj taken
    exact .tells host found rest at_ learned

theorem Client.writes {r : Client × Signal} (taken : c.write = some r) : c.Writes r := by
  unfold write at taken
  split at taken
  next host at_ =>
    obtain rfl := Option.some.inj taken
    exact .greets host at_
  next host at_ => exact Client.tells (.inl at_) taken
  next host outcome at_ => exact Client.tells (.inr ⟨outcome, at_⟩) taken
  next => cases taken

inductive Client.Turns (c : Client) (up : Bool) : Turn → Client → Prop where
  | learns (host : HostHello) (found : Candidate) (at_ : c.stage = .racing host) :
      c.Turns up (.learns found) { c with learned := c.learned ++ [found] }
  | takes (host : HostHello) (at_ : c.stage = .racing host) (some_ : c.taken < c.heard.length) :
      c.Turns up .takes { c with taken := c.taken + 1 }
  | settles (host : HostHello) (outcome : Except Text Nominated) (at_ : c.stage = .racing host) :
      c.Turns up (.settles outcome) { c with stage := .draining host outcome }
  | nominates (host : HostHello) (n : Nominated) (at_ : c.stage = .draining host (.ok n))
      (told : c.learned = []) :
      c.Turns up .drained { c with stage := .connecting host n, dialled := true }
  | connects (host : HostHello) (n : Nominated) (rtt : Nat) (mtu : UInt16)
      (at_ : c.stage = .connecting host n) (met : up = true) :
      c.Turns up (.connects rtt mtu) { c with stage := .waiting host }
  | loses (turn : Turn) (why : Failure) (at_ : c.isOver = false) (none_ : turn.found = []) :
      c.Turns up turn { c with stage := .ended (.error why) }

theorem Client.turns (taken : c.turn up turn = some c') : c.Turns up turn c' := by
  cases turn with
  | learns found =>
      simp only [Client.turn] at taken
      split at taken
      next host at_ =>
        obtain rfl := Option.some.inj taken
        exact .learns host found at_
      next => cases taken
  | takes =>
      simp only [Client.turn] at taken
      split at taken
      next host at_ =>
        split at taken
        next some_ =>
          obtain rfl := Option.some.inj taken
          exact .takes host at_ some_
        next => cases taken
      next => cases taken
  | settles outcome =>
      simp only [Client.turn] at taken
      split at taken
      next host at_ =>
        obtain rfl := Option.some.inj taken
        exact .settles host outcome at_
      next => cases taken
  | drained =>
      simp only [Client.turn, drained] at taken
      split at taken
      next host outcome at_ =>
        split at taken
        next told =>
          cases outcome with
          | ok n =>
              obtain rfl := Option.some.inj taken
              exact .nominates host n at_ told
          | error report =>
              obtain rfl := Option.some.inj taken
              exact .loses .drained (.noPath report) (by rw [isOver, at_]) rfl
        next => cases taken
      next => cases taken
  | connects rtt mtu =>
      simp only [Client.turn] at taken
      split at taken
      next host n at_ =>
        split at taken
        next met =>
          obtain rfl := Option.some.inj taken
          exact .connects host n rtt mtu at_ met
        next => cases taken
      next => cases taken
  | expires =>
      simp only [Client.turn] at taken
      split at taken
      next host n at_ =>
        obtain rfl := Option.some.inj taken
        exact .loses .expires .lost (by rw [isOver, at_]) rfl
      next => cases taken
  | fails =>
      simp only [Client.turn] at taken
      split at taken
      next => cases taken
      next => cases taken
      next stage others panics =>
        obtain rfl := Option.some.inj taken
        refine .loses .fails .lost ?_ rfl
        unfold isOver
        split
        next r at_ => exact absurd at_ (others r)
        next at_ => exact absurd at_ panics
        next => rfl

end Cases

end Oxutrm.Exchange
