import Mathlib.Algebra.Group.Nat.Defs
import Mathlib.Data.List.Basic

/-!
Addresses, candidates and the rungs of the ladder. An IPv4 address that a
dual-stack socket reports in IPv6 clothing is the IPv4 address it is.
-/
namespace Oxutrm.Net

inductive IpAddr where
  | v4 (ip : BitVec 32)
  | v6 (ip : BitVec 128)
  deriving DecidableEq

inductive SocketAddr where
  | v4 (ip : BitVec 32) (port : BitVec 16)
  | v6 (ip : BitVec 128) (port : BitVec 16) (flowinfo scopeId : BitVec 32)
  deriving DecidableEq

/-- `Ipv6Addr::to_ipv4_mapped`: `::ffff:a.b.c.d`. -/
def toIpv4Mapped (ip : BitVec 128) : Option (BitVec 32) :=
  if ip >>> 32 = 0xffff#128 then some (ip.truncate 32) else none

def toIpv6Mapped (ip : BitVec 32) : BitVec 128 :=
  (0xffff#128 <<< 32) ||| ip.zeroExtend 128

namespace SocketAddr

def ip : SocketAddr → IpAddr
  | v4 ip _ => .v4 ip
  | v6 ip _ _ _ => .v6 ip

/-- The order of `SocketAddr`: IPv4 first, then field by field. -/
def key : SocketAddr → List Nat
  | v4 ip port => [0, ip.toNat, port.toNat]
  | v6 ip port flowinfo scopeId => [1, ip.toNat, port.toNat, flowinfo.toNat, scopeId.toNat]

end SocketAddr

/-- Undo IPv4-mapping, so a candidate carries the address a peer would dial. -/
def unmap : SocketAddr → SocketAddr
  | .v6 ip port flowinfo scopeId =>
      match toIpv4Mapped ip with
      | some v4 => .v4 v4 port
      | none => .v6 ip port flowinfo scopeId
  | .v4 ip port => .v4 ip port

/-- The peer's address as the socket can send to it. -/
def toSocketFamily : SocketAddr → SocketAddr → SocketAddr
  | .v6 _ _ _ _, .v4 ip port => .v6 (toIpv6Mapped ip) port 0 0
  | _, peer => peer

inductive Family where
  | v4
  | v6
  deriving DecidableEq

namespace Family

/-- Both families in ladder order. -/
def both : List Family := [v6, v4]

/-- The family of an address, by its canonical form. -/
def of (addr : SocketAddr) : Family :=
  match unmap addr with
  | .v4 _ _ => v4
  | .v6 _ _ _ _ => v6

def label : Family → String
  | v4 => "IPv4"
  | v6 => "IPv6"

end Family

inductive CandidateKind where
  | host
  | portMapped
  | serverReflexive
  | peerReflexive
  deriving DecidableEq

structure Candidate where
  addr : SocketAddr
  kind : CandidateKind
  priority : Nat
  deriving DecidableEq

/-- The priority of a candidate of this kind at this address. -/
def icePriority (kind : CandidateKind) (ip : IpAddr) : Nat :=
  let typePref := match kind, ip with
    | .host, .v6 _ => 126
    | .host, .v4 _ => 110
    | .portMapped, _ => 100
    | .serverReflexive, _ => 90
    | .peerReflexive, _ => 80
  let localPref := match ip with
    | .v6 _ => 65535
    | .v4 _ => 32768
  typePref * 2 ^ 24 + localPref * 2 ^ 8 + 255

/-- Which rung of the ladder a path belongs to: a method and the address family
it ran in. -/
inductive Rung where
  | direct (family : Family)
  | portMapped (family : Family)
  | punched (family : Family)
  | birthday (family : Family)
  | sshTunnel
  deriving DecidableEq

namespace Rung

/-- Every rung in ladder order. -/
def all : List Rung :=
  [direct .v6, direct .v4, portMapped .v6, portMapped .v4, punched .v6, punched .v4,
    birthday .v6, birthday .v4, sshTunnel]

def family : Rung → Option Family
  | direct f | portMapped f | punched f | birthday f => some f
  | sshTunnel => none

/-- The name shown to the user. -/
def text : Rung → String
  | direct f => f.label ++ " direct"
  | portMapped f => f.label ++ " port mapped"
  | punched f => f.label ++ " punched"
  | birthday f => f.label ++ " birthday"
  | sshTunnel => "SSH tunnel"

/-- The rung a nominated remote candidate belongs to. -/
def ofCandidate (kind : CandidateKind) (remote : SocketAddr) : Rung :=
  match kind with
  | .portMapped => portMapped (Family.of remote)
  | .host => direct (Family.of remote)
  | .serverReflexive | .peerReflexive => punched (Family.of remote)

theorem mem_all (rung : Rung) : rung ∈ all := by
  cases rung with
  | direct f | portMapped f | punched f | birthday f =>
      cases f with
      | v4 | v6 => simp [all]
  | sshTunnel => simp [all]

end Rung

theorem unmap_unmap (addr : SocketAddr) : unmap (unmap addr) = unmap addr := by
  cases addr with
  | v4 ip port => rfl
  | v6 ip port flowinfo scopeId =>
      cases mapped : toIpv4Mapped ip with
      | some v4 => simp only [unmap, mapped]
      | none => simp only [unmap, mapped]

end Oxutrm.Net
