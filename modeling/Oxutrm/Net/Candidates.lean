import Mathlib.Data.List.Lex
import Oxutrm.Lib.Distinct
import Oxutrm.Net.Ladder

/-!
The candidates an end has by itself: the addresses of its interfaces that a peer could reach, each
with the port of the session socket, each once and the best first.
-/
namespace Oxutrm.Net

/-- The same as `unmap`, for a bare address. -/
def unmapIp : IpAddr → IpAddr
  | .v6 ip => ((toIpv4Mapped ip).map IpAddr.v4).getD (.v6 ip)
  | .v4 ip => .v4 ip

def isUnspecified (ip : IpAddr) : Bool := ip = .v4 0 || ip = .v6 0

namespace IpAddr

def isLoopback : IpAddr → Bool
  | v4 ip => ip >>> 24 = 127
  | v6 ip => ip = 1

def isBroadcast : IpAddr → Bool
  | v4 ip => ip = 0xffffffff
  | v6 _ => false

def isMulticast : IpAddr → Bool
  | v4 ip => ip >>> 28 = 0xe
  | v6 ip => ip >>> 120 = 0xff

end IpAddr

/-- True for `169.254.0.0/16` and `fe80::/10`. -/
def isLinkLocal : IpAddr → Bool
  | .v4 ip => ip >>> 16 = 0xa9fe
  | .v6 ip => (ip >>> 112) &&& 0xffc0 = 0xfe80

def isNeverUseful (ip : IpAddr) : Bool := isUnspecified ip || ip.isBroadcast || ip.isMulticast

structure Interface where
  ipv6 : List (BitVec 128)
  ipv4 : List (BitVec 32)

def Interface.ips (iface : Interface) : List IpAddr :=
  iface.ipv6.map IpAddr.v6 ++ iface.ipv4.map IpAddr.v4

def SocketAddr.new : IpAddr → BitVec 16 → SocketAddr
  | .v4 ip, port => .v4 ip port
  | .v6 ip, port => .v6 ip port 0 0

/-- A candidate of this kind, with the priority that goes with it. -/
def Candidate.rated (kind : CandidateKind) (addr : SocketAddr) : Candidate :=
  { addr, kind, priority := icePriority kind addr.ip }

/-- The higher priority, and of equals the lower address. -/
def Candidate.Before (a b : Candidate) : Prop :=
  b.priority < a.priority ∨ b.priority = a.priority ∧ a.addr.key ≤ b.addr.key

instance Candidate.decidableBefore (a b : Candidate) : Decidable (a.Before b) :=
  inferInstanceAs (Decidable (_ ∨ _ ∧ _))

def bestFirst (candidates : List Candidate) : List Candidate :=
  candidates.insertionSort Candidate.Before

/-- An address of an interface that is worth offering. -/
def isOffered (includeLoopback : Bool) (ip : IpAddr) : Bool :=
  !(isNeverUseful ip || isLinkLocal ip) && !(ip.isLoopback && !includeLoopback)

def localCandidatesFiltered (bound : Option SocketAddr) (interfaces : List Interface)
    (includeLoopback : Bool) : List Candidate :=
  match bound with
  | none => []
  | some bound =>
      let ips := (interfaces.flatMap Interface.ips).map unmapIp
      let offered := (ips.filter (isOffered includeLoopback)).map fun ip =>
        Candidate.rated .host (.new ip bound.port)
      Distinct.dedupBy Candidate.addr (bestFirst offered)

def localCandidates (bound : Option SocketAddr) (interfaces : List Interface) : List Candidate :=
  localCandidatesFiltered bound interfaces false

namespace SocketAddr

theorem key_injective {a b : SocketAddr} (same : a.key = b.key) : a = b := by
  cases a with
  | v4 ip port =>
      cases b with
      | v4 ip' port' =>
          simp only [key, List.cons.injEq, BitVec.toNat_inj, and_true, true_and] at same
          rw [same.1, same.2]
      | v6 ip' port' flowinfo' scopeId' => simp [key] at same
  | v6 ip port flowinfo scopeId =>
      cases b with
      | v4 ip' port' => simp [key] at same
      | v6 ip' port' flowinfo' scopeId' =>
          simp only [key, List.cons.injEq, BitVec.toNat_inj, and_true, true_and] at same
          rw [same.1, same.2.1, same.2.2.1, same.2.2.2]

end SocketAddr

namespace Candidate
variable {a b c : Candidate}

theorem Before.trans (ab : a.Before b) (bc : b.Before c) : a.Before c := by
  rcases ab with higher | ⟨equal, le⟩
  · rcases bc with higher' | ⟨equal', -⟩
    · exact .inl (Nat.lt_trans higher' higher)
    · exact .inl (equal' ▸ higher)
  · rcases bc with higher' | ⟨equal', le'⟩
    · exact .inl (equal ▸ higher')
    · exact .inr ⟨equal'.trans equal, le_trans le le'⟩

theorem Before.total (a b : Candidate) : a.Before b ∨ b.Before a := by
  rcases Nat.lt_trichotomy a.priority b.priority with lower | equal | higher
  · exact .inr (.inl lower)
  · exact (le_total a.addr.key b.addr.key).imp (fun le => .inr ⟨equal.symm, le⟩) fun le => .inr ⟨equal, le⟩
  · exact .inl (.inl higher)

theorem Before.addr_eq (ab : a.Before b) (ba : b.Before a) : a.addr = b.addr := by
  rcases ab with higher | ⟨equal, le⟩
  · rcases ba with lower | ⟨equal, -⟩
    · exact absurd lower (Nat.lt_asymm higher)
    · exact absurd equal (Nat.ne_of_gt higher)
  · rcases ba with lower | ⟨-, le'⟩
    · exact absurd equal (Nat.ne_of_gt lower)
    · exact SocketAddr.key_injective (le_antisymm le le')

instance before_total : Std.Total Candidate.Before := ⟨Before.total⟩

instance before_trans : IsTrans Candidate Candidate.Before := ⟨fun _ _ _ => Before.trans⟩

/-- Of one kind, with the priorities that go with it. -/
def Rated (kind : CandidateKind) (c : Candidate) : Prop := c = rated kind c.addr

theorem rated_rated (kind : CandidateKind) (addr : SocketAddr) : (rated kind addr).Rated kind := rfl

theorem Rated.eq {kind : CandidateKind} (ra : a.Rated kind) (rb : b.Rated kind) (same : a.addr = b.addr) :
    a = b := by
  rw [ra, rb, same]

end Candidate

theorem mem_bestFirst {c : Candidate} {candidates : List Candidate} :
    c ∈ bestFirst candidates ↔ c ∈ candidates := List.mem_insertionSort _

theorem bestFirst_sorted (candidates : List Candidate) : (bestFirst candidates).Pairwise Candidate.Before :=
  List.pairwise_insertionSort _ _

/-- Best first, and no address twice. -/
def Ordered (candidates : List Candidate) : Prop :=
  candidates.Pairwise fun a b => a.Before b ∧ a.addr ≠ b.addr

section Local
variable {bound : SocketAddr} {interfaces : List Interface} {includeLoopback : Bool} {c : Candidate}

theorem mem_localCandidates :
    c ∈ localCandidatesFiltered (some bound) interfaces includeLoopback ↔
      ∃ iface ∈ interfaces, ∃ ip ∈ iface.ips, isOffered includeLoopback (unmapIp ip) = true ∧
        c = Candidate.rated .host (.new (unmapIp ip) bound.port) := by
  have one : ∀ a ∈ bestFirst ((((interfaces.flatMap Interface.ips).map unmapIp).filter
        (isOffered includeLoopback)).map fun ip => Candidate.rated .host (.new ip bound.port)),
      a.Rated .host := by
    intro a member
    obtain ⟨ip, -, rfl⟩ := List.mem_map.mp (mem_bestFirst.mp member)
    exact Candidate.rated_rated _ _
  unfold localCandidatesFiltered
  rw [Distinct.mem_dedupBy fun a first b second => (one a first).eq (one b second), mem_bestFirst]
  simp only [List.mem_map, List.mem_filter, List.mem_flatMap]
  constructor
  · rintro ⟨_, ⟨⟨ip, ⟨iface, among, mine⟩, rfl⟩, good⟩, rfl⟩
    exact ⟨iface, among, ip, mine, good, rfl⟩
  · rintro ⟨iface, among, ip, mine, good, rfl⟩
    exact ⟨unmapIp ip, ⟨⟨ip, ⟨iface, among, mine⟩, rfl⟩, good⟩, rfl⟩

theorem localCandidates_ordered : Ordered (localCandidatesFiltered (some bound) interfaces includeLoopback) := by
  refine Distinct.pairwise_dedupBy (fun _ _ _ => Candidate.Before.trans) (fun _ _ => Candidate.Before.addr_eq)
    (fun a first b second same => ?_) (bestFirst_sorted _)
  obtain ⟨ip, -, rfl⟩ := List.mem_map.mp (mem_bestFirst.mp first)
  obtain ⟨ip', -, rfl⟩ := List.mem_map.mp (mem_bestFirst.mp second)
  rw [(Candidate.rated_rated _ _).eq (Candidate.rated_rated _ _) same]
  exact (Candidate.Before.total _ _).elim id id

end Local
end Oxutrm.Net
