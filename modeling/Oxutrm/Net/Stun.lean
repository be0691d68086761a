import Oxutrm.Net.Address

/-!
Connectivity checks: authenticated STUN Binding messages under two credentials,
one for each direction. The STUN crate is a parameter: how it encodes and signs
a message, and what it decodes from a datagram.
-/
namespace Oxutrm.Net

inductive IceRole where
  | controlling
  | controlled
  deriving DecidableEq

def IceRole.peer : IceRole → IceRole
  | controlling => controlled
  | controlled => controlling

inductive Direction where
  | clientToHost
  | hostToClient
  deriving DecidableEq

structure Credential where
  ufrag : String
  password : String
  deriving DecidableEq

structure IceCredentials where
  c2h : Credential
  h2c : Credential
  deriving DecidableEq

namespace IceCredentials

/-- The direction this role signs its own requests in. -/
def outbound : IceRole → Direction
  | .controlling => .clientToHost
  | .controlled => .hostToClient

/-- The direction this role expects the peer's requests in. -/
def inbound : IceRole → Direction
  | .controlling => .hostToClient
  | .controlled => .clientToHost

def cred (c : IceCredentials) : Direction → Credential
  | .clientToHost => c.c2h
  | .hostToClient => c.h2c

def password (c : IceCredentials) (d : Direction) : String := (c.cred d).password

def username (c : IceCredentials) (d : Direction) : String :=
  let (remote, here) := match d with
    | .clientToHost => (c.h2c, c.c2h)
    | .hostToClient => (c.c2h, c.h2c)
  remote.ufrag ++ ":" ++ here.ufrag

end IceCredentials

inductive MessageClass where
  | request
  | successResponse
  | errorResponse
  | indication
  deriving DecidableEq

/-- Twelve random bytes. -/
abbrev TransactionId := BitVec 96

/-- A message without its MESSAGE-INTEGRITY. -/
structure StunMessage where
  messageClass : MessageClass
  binding : Bool := true
  tid : TransactionId
  username : Option String := none
  xorMappedAddress : Option SocketAddr := none
  deriving DecidableEq

/-- XOR-MAPPED-ADDRESS carries neither a flow label nor a scope. -/
def SocketAddr.onWire : SocketAddr → SocketAddr
  | .v4 ip port => .v4 ip port
  | .v6 ip port _ _ => .v6 ip port 0 0

def StunMessage.onWire (m : StunMessage) : StunMessage :=
  { m with xorMappedAddress := m.xorMappedAddress.map SocketAddr.onWire }

/-- What a datagram decodes to: the message, and the check of its
MESSAGE-INTEGRITY against a password if it has one. -/
structure Decoded where
  message : StunMessage
  integrity : Option (String → Bool)

/-- The STUN crate. -/
structure StunCodec where
  /-- The message signed with the password and encoded. -/
  encode : StunMessage → String → Option (List UInt8)
  decode : List UInt8 → Option Decoded

/-- What is promised of it for the passwords of one session: a message it encodes is decoded as
the wire carries it, and of the two passwords its MESSAGE-INTEGRITY verifies under the one it was
made with. -/
def StunCodec.Faithful (codec : StunCodec) (c : IceCredentials) : Prop :=
  ∀ message d datagram, codec.encode message (c.password d) = some datagram →
    ∃ integrity, codec.decode datagram = some ⟨message.onWire, some integrity⟩ ∧
      ∀ other, integrity (c.password other) = true ↔ c.password other = c.password d

def stunHeaderLen : Nat := 20

/-- True when the datagram is STUN rather than QUIC. -/
def isStun (datagram : List UInt8) : Bool :=
  if datagram.length < stunHeaderLen then false
  else if datagram.getD 0 0 &&& 0xC0 ≠ 0 then false
  else if (datagram.drop 4).take 4 ≠ [0x21, 0x12, 0xA4, 0x42] then false
  else
    let len := (datagram.getD 2 0).toNat * 256 + (datagram.getD 3 0).toNat
    if len % 4 ≠ 0 then false
    else stunHeaderLen + len ≤ datagram.length

inductive CheckKind where
  | request
  | successResponse
  | nomination
  deriving DecidableEq

structure Check where
  kind : CheckKind
  tid : TransactionId
  reflexive : Option SocketAddr
  deriving DecidableEq

section Messages
variable (codec : StunCodec) (c : IceCredentials)

/-- A message on its way, with the remote it is for and what signs it. -/
structure Packet where
  remote : SocketAddr
  direction : Direction
  message : StunMessage
  bytes : List UInt8
  deriving DecidableEq

/-- Encode a message, signing it last. -/
def finish (remote : SocketAddr) (d : Direction) (message : StunMessage) : Option Packet :=
  (codec.encode message (c.password d)).map fun bytes => ⟨remote, d, message, bytes⟩

def buildCheckRequest (remote : SocketAddr) (d : Direction) (tid : TransactionId) :
    Option Packet :=
  finish codec c remote d { messageClass := .request, tid, username := some (c.username d) }

def buildCheckResponse (remote : SocketAddr) (d : Direction) (tid : TransactionId)
    (reflexive : SocketAddr) : Option Packet :=
  finish codec c remote d { messageClass := .successResponse, tid, xorMappedAddress := some reflexive }

def buildNomination (remote : SocketAddr) (d : Direction) (tid : TransactionId) : Option Packet :=
  finish codec c remote d { messageClass := .indication, tid, username := some (c.username d) }

def checkKind : MessageClass → Option CheckKind
  | .request => some .request
  | .successResponse => some .successResponse
  | .indication => some .nomination
  | .errorResponse => none

/-- The datagram carries a MESSAGE-INTEGRITY that verifies in this direction. -/
def Verifies (d : Direction) (datagram : List UInt8) : Prop :=
  ∃ message integrity, codec.decode datagram = some ⟨message, some integrity⟩ ∧
    integrity (c.password d) = true

def parseCheck (d : Direction) (datagram : List UInt8) : Option Check :=
  if isStun datagram then
    match codec.decode datagram with
    | some ⟨message, some integrity⟩ =>
        if message.binding && integrity (c.password d) then
          (checkKind message.messageClass).map fun kind =>
            ⟨kind, message.tid, message.xorMappedAddress.map unmap⟩
        else none
    | _ => none
  else none

variable {codec c}

theorem finish_eq_some {remote : SocketAddr} {d : Direction} {message : StunMessage} {p : Packet}
    (built : finish codec c remote d message = some p) :
    p.remote = remote ∧ p.direction = d ∧ p.message = message ∧
      codec.encode message (c.password d) = some p.bytes := by
  obtain ⟨bytes, encoded, rfl⟩ := Option.map_eq_some_iff.mp built
  exact ⟨rfl, rfl, rfl, encoded⟩

theorem parseCheck_eq_some {d : Direction} {datagram : List UInt8} {check : Check}
    (parsed : parseCheck codec c d datagram = some check) :
    ∃ message integrity, codec.decode datagram = some ⟨message, some integrity⟩ ∧
      integrity (c.password d) = true ∧ checkKind message.messageClass = some check.kind ∧
      message.tid = check.tid := by
  unfold parseCheck at parsed
  split at parsed
  next =>
    split at parsed
    next message integrity decoded =>
      split at parsed
      next verified =>
        obtain ⟨kind, known, rfl⟩ := Option.map_eq_some_iff.mp parsed
        exact ⟨message, integrity, decoded, (Bool.and_eq_true_iff.mp verified).2, known, rfl⟩
      next => cases parsed
    next => cases parsed
  next => cases parsed

theorem verifies_of_parseCheck {d : Direction} {datagram : List UInt8} {check : Check}
    (parsed : parseCheck codec c d datagram = some check) : Verifies codec c d datagram := by
  obtain ⟨message, integrity, decoded, verified, -, -⟩ := parseCheck_eq_some parsed
  exact ⟨message, integrity, decoded, verified⟩

end Messages
end Oxutrm.Net
