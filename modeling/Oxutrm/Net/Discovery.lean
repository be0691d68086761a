import Mathlib.Data.List.ReduceOption
import Oxutrm.Net.Candidates
import Oxutrm.Proto.Types

/-!
Finding out at what address the world sees the session socket, and what kind of NAT is in the
way. Each address family is probed and judged on its own.
-/
namespace Oxutrm.Net
open Oxutrm.Proto (Text)

/-- What discovery reads of the machine and of the network. No server is asked twice. -/
structure Surroundings where
  /-- The address of the session socket, if it has one. -/
  bound : Option SocketAddr
  interfaces : List Interface
  resolve : Text → Option (List SocketAddr)
  /-- What a Binding Request to this address brings back in time. -/
  answer : SocketAddr → Option SocketAddr

def SocketAddr.isIpv4 : SocketAddr → Bool
  | v4 _ _ => true
  | v6 _ _ _ _ => false

/-- The verdict on one family: what the first server saw, what it saw on its alternate port, and
what a server of another address saw. -/
def classify (sameIpSamePort sameIpAltPort otherIp : Option SocketAddr) (own : SocketAddr)
    (localIps : List IpAddr) : NatType :=
  match sameIpSamePort with
  | none => .unknown
  | some p1 =>
      let isOurs := p1.port = own.port && localIps.contains p1.ip
      let allAgree := [sameIpAltPort, otherIp].reduceOption.all fun p => p = p1
      if isOurs && allAgree && (sameIpAltPort.isSome || otherIp.isSome) then .none
      else
        match sameIpAltPort, otherIp with
        | some p2, some p3 =>
            if p2 ≠ p1 then .symmetric
            else if p3 = p1 then .endpointIndependent
            else .addressDependent
        | some p2, none => if p2 ≠ p1 then .symmetric else .unknown
        | none, some p3 => if p3 = p1 then .endpointIndependent else .symmetric
        | none, none => .unknown

/-- The first server of another address than the first's. -/
def otherServer (servers : List SocketAddr) (first : SocketAddr) : Option SocketAddr :=
  servers.find? fun s => s.ip ≠ first.ip

/-- The first that is a second port on the first server's address. -/
def alternateServer (servers : List SocketAddr) (first : SocketAddr) : Option SocketAddr :=
  servers.find? fun s => s.ip = first.ip && s.port ≠ first.port

/-- A name's first address of the wanted family, if it is new. -/
def pushServer (addrs : List SocketAddr) (wantV4 : Bool) (out : List SocketAddr) : List SocketAddr :=
  match addrs.find? fun a => a.isIpv4 = wantV4 with
  | some a => if out.contains a then out else out ++ [a]
  | none => out

namespace Surroundings

/-- One Binding Request, and the address it reported. -/
def probe (w : Surroundings) (server : SocketAddr) : Option SocketAddr :=
  let server := match w.bound with
    | some own => toSocketFamily own server
    | none => server
  (w.answer server).map unmap

def localIpSet (w : Surroundings) : List IpAddr := w.interfaces.flatMap Interface.ips

/-- The servers' addresses, split by family. -/
def resolveServers (w : Surroundings) (servers : List Text) : List SocketAddr × List SocketAddr :=
  servers.foldl (fun out s =>
    match w.resolve s with
    | none => out
    | some addrs => (pushServer addrs true out.1, pushServer addrs false out.2)) ([], [])

def discoverFamily (w : Surroundings) (servers : List SocketAddr) (own : SocketAddr) :
    List Candidate × NatType :=
  match servers.head? with
  | none => ([], .unknown)
  | some first =>
      let p1 := w.probe first
      let pOther := (otherServer servers first).bind w.probe
      let pAlt := (alternateServer servers first).bind w.probe
      let nat := classify p1 pAlt pOther own w.localIpSet
      let mapped := [p1, pOther, pAlt].reduceOption.map unmap
      ((mapped.map (Candidate.rated .serverReflexive)).foldl (Distinct.pushNew Candidate.addr) [], nat)

def stunDiscover (w : Surroundings) (stunServers : List Text) : List Candidate × FamilyNat :=
  match w.bound with
  | none => ([], ⟨.unknown, .unknown⟩)
  | some bound =>
      let own := unmap bound
      let servers := w.resolveServers stunServers
      let v6 := if bound.isIpv4 then [] else servers.2
      let (c4, nat4) := w.discoverFamily servers.1 own
      let (c6, nat6) := w.discoverFamily v6 own
      (bestFirst ((c4 ++ c6).foldl (Distinct.pushNew Candidate.addr) []), ⟨nat4, nat6⟩)

/-- The servers of a family that can be asked from the session socket. -/
def servers (w : Surroundings) (stunServers : List Text) : Family → List SocketAddr
  | .v4 => if w.bound = none then [] else (w.resolveServers stunServers).1
  | .v6 => if w.bound.all SocketAddr.isIpv4 then [] else (w.resolveServers stunServers).2

/-- What an end offers its peer. -/
def candidates (w : Surroundings) (stunServers : List Text) : List Candidate :=
  localCandidates w.bound w.interfaces ++ (w.stunDiscover stunServers).1

def nat (w : Surroundings) (stunServers : List Text) : FamilyNat := (w.stunDiscover stunServers).2

end Surroundings

/-- The servers of a list that are asked. -/
def asked (servers : List SocketAddr) : List SocketAddr :=
  match servers.head? with
  | none => []
  | some first => first :: ((otherServer servers first).toList ++ (alternateServer servers first).toList)

/-- How a NAT maps one socket, by the destination. -/
inductive Behaviour where
  /-- It does not: every destination sees an address of the machine. -/
  | untranslated
  | endpointIndependent
  | addressDependent
  | symmetric

/-- The mapping each destination sees, where `ours` says what the socket itself is bound to. -/
def Behaviour.Maps (ours : SocketAddr → Prop) (servers : List SocketAddr) (maps : SocketAddr → SocketAddr) :
    Behaviour → Prop
  | untranslated => ∀ s ∈ servers, ours (maps s) ∧ ∀ t ∈ servers, maps s = maps t
  | endpointIndependent => ∀ s ∈ servers, ¬ ours (maps s) ∧ ∀ t ∈ servers, maps s = maps t
  | addressDependent => ∀ s ∈ servers, ¬ ours (maps s) ∧ ∀ t ∈ servers, maps s = maps t ↔ s.ip = t.ip
  | symmetric => ∀ s ∈ servers, ∀ t ∈ servers, maps s = maps t ↔ s.ip = t.ip ∧ s.port = t.port

/-- The verdict each behaviour deserves. -/
def Behaviour.type : Behaviour → NatType
  | untranslated => .none
  | endpointIndependent => .endpointIndependent
  | addressDependent => .addressDependent
  | symmetric => .symmetric

/-- The verdicts that say the mapping moves with the destination. -/
def NatType.moves : NatType → Bool
  | addressDependent | symmetric => true
  | _ => false

section Verdicts
variable {p1 alt other : Option SocketAddr} {own : SocketAddr} {ips : List IpAddr}

/-- The socket's own port on an address of the machine. -/
def Ours (own : SocketAddr) (ips : List IpAddr) (p : SocketAddr) : Prop :=
  p.port = own.port ∧ ips.contains p.ip = true

instance decidableOurs (own : SocketAddr) (ips : List IpAddr) (p : SocketAddr) : Decidable (Ours own ips p) :=
  inferInstanceAs (Decidable (_ ∧ _))

/-- What each verdict rests on, where the first server told `p`. -/
inductive Judged (p : SocketAddr) (alt other : Option SocketAddr) (ours : Prop) : NatType → Prop where
  | none (own : ours) (agree : ∀ q, alt = some q ∨ other = some q → q = p) (told : alt ≠ none ∨ other ≠ none) :
      Judged p alt other ours .none
  | altMoved (q : SocketAddr) (told : alt = some q) (moved : q ≠ p) : Judged p alt other ours .symmetric
  | otherSame (still : ∀ q, alt = some q → q = p) (told : other = some p) (theirs : ¬ ours) :
      Judged p alt other ours .endpointIndependent
  | unknown (still : ∀ q, alt = some q → q = p) (silent : other = Option.none) : Judged p alt other ours .unknown
  | merged (silent : alt = Option.none) (q : SocketAddr) (told : other = some q) (moved : q ≠ p) :
      Judged p alt other ours .symmetric
  | otherMoved (still : alt = some p) (q : SocketAddr) (told : other = some q) (moved : q ≠ p) :
      Judged p alt other ours .addressDependent

theorem ours_eq (own : SocketAddr) (ips : List IpAddr) (p : SocketAddr) :
    (decide (p.port = own.port) && ips.contains p.ip) = decide (Ours own ips p) := by
  rw [Bool.eq_iff_iff, Bool.and_eq_true, decide_eq_true_iff, decide_eq_true_iff]
  exact Iff.rfl

theorem judged (p : SocketAddr) (alt other : Option SocketAddr) (own : SocketAddr) (ips : List IpAddr) :
    Judged p alt other (Ours own ips p) (classify (some p) alt other own ips) := by
  simp only [classify, ours_eq]
  cases alt with
  | none =>
      have still : ∀ q, none = some q → q = p := fun _ none_ => by cases none_
      cases other with
      | none => simpa using Judged.unknown still rfl
      | some p3 =>
          by_cases same : p3 = p
          · subst same
            have agree : ∀ q, none = some q ∨ some p3 = some q → q = p3 := fun q told =>
              told.elim (still q) fun told => (Option.some.inj told).symm
            by_cases ours : Ours own ips p3
            · simpa [ours] using Judged.none ours agree (.inr (Option.some_ne_none _))
            · simpa [ours] using Judged.otherSame still rfl ours
          · simpa [same] using Judged.merged rfl p3 rfl same
  | some p2 =>
      by_cases stays : p2 = p
      · subst stays
        have still : ∀ q, some p2 = some q → q = p2 := fun _ told => (Option.some.inj told).symm
        cases other with
        | none =>
            have agree : ∀ q, some p2 = some q ∨ none = some q → q = p2 := fun q told =>
              told.elim (still q) fun none_ => by cases none_
            by_cases ours : Ours own ips p2
            · simpa [ours] using Judged.none ours agree (.inl (Option.some_ne_none _))
            · simpa [ours] using Judged.unknown still rfl
        | some p3 =>
            by_cases same : p3 = p2
            · subst same
              have agree : ∀ q, some p3 = some q ∨ some p3 = some q → q = p3 := fun q told =>
                told.elim (still q) (still q)
              by_cases ours : Ours own ips p3
              · simpa [ours] using Judged.none ours agree (.inl (Option.some_ne_none _))
              · simpa [ours] using Judged.otherSame still rfl ours
            · simpa [same] using Judged.otherMoved rfl p3 rfl same
      · cases other with
        | none | some _ => simpa [stays] using Judged.altMoved p2 rfl stays

/-- The verdict that the mapping moves rests on two answers that differ. -/
theorem moves_classify :
    (classify p1 alt other own ips).moves = true ↔
      ∃ p, p1 = some p ∧ ∃ q, (alt = some q ∨ other = some q) ∧ q ≠ p := by
  cases p1 with
  | none => exact ⟨fun moved => (by cases moved), fun ⟨_, none_, _⟩ => (by cases none_)⟩
  | some p =>
      have single : (∃ p', some p = some p' ∧ ∃ q, (alt = some q ∨ other = some q) ∧ q ≠ p') ↔
          ∃ q, (alt = some q ∨ other = some q) ∧ q ≠ p := by simp
      rw [single]
      have rests := judged p alt other own ips
      generalize classify (some p) alt other own ips = verdict at rests
      cases rests with
      | none _ agree _ =>
          exact ⟨fun moved => (by cases moved), fun ⟨q, told, differs⟩ => absurd (agree q told) differs⟩
      | altMoved q told moved => exact ⟨fun _ => ⟨q, .inl told, moved⟩, fun _ => rfl⟩
      | otherSame still told _ =>
          refine ⟨fun moved => (by cases moved), fun ⟨q, heard, differs⟩ => absurd ?_ differs⟩
          exact heard.elim (still q) fun heard => Option.some.inj (heard.symm.trans told)
      | unknown still silent =>
          refine ⟨fun moved => (by cases moved), fun ⟨q, heard, differs⟩ => absurd ?_ differs⟩
          exact heard.elim (still q) fun heard => by
            rw [silent] at heard
            cases heard
      | merged _ q told moved | otherMoved _ q told moved => exact ⟨fun _ => ⟨q, .inr told, moved⟩, fun _ => rfl⟩

end Verdicts

section Asked
variable {w : Surroundings} {servers : List SocketAddr} {own first s q : SocketAddr} {c : Candidate}

theorem asked_first (head : servers.head? = some first) : first ∈ asked servers := by
  rw [asked, head]
  exact List.mem_cons_self

theorem asked_other (head : servers.head? = some first) (other : otherServer servers first = some s) :
    s ∈ asked servers ∧ s.ip ≠ first.ip := by
  have found := other
  unfold otherServer at found
  refine ⟨?_, by simpa using List.find?_some found⟩
  simp only [asked, head, other]
  exact List.mem_cons_of_mem _ List.mem_cons_self

theorem asked_alternate (head : servers.head? = some first) (alternate : alternateServer servers first = some s) :
    s ∈ asked servers ∧ s.ip = first.ip ∧ s.port ≠ first.port := by
  have found := alternate
  unfold alternateServer at found
  refine ⟨?_, by simpa using List.find?_some found⟩
  simp only [asked, head, alternate]
  exact List.mem_cons_of_mem _ (List.mem_append_right _ List.mem_cons_self)

theorem asked_cases (head : servers.head? = some first) :
    s ∈ asked servers ↔ s = first ∨ otherServer servers first = some s ∨ alternateServer servers first = some s := by
  rw [asked, head]
  simp only [List.mem_cons, List.mem_append, Option.mem_toList]

theorem asked_nil (none_ : servers.head? = none) : asked servers = [] := by
  rw [asked, none_]

theorem asked_distinct (servers : List SocketAddr) : (asked servers).Nodup ∧ (asked servers).length ≤ 3 := by
  cases head : servers.head? with
  | none =>
      rw [asked_nil head]
      exact ⟨List.nodup_nil, Nat.zero_le _⟩
  | some first =>
      simp only [asked, head]
      cases other : otherServer servers first with
      | none =>
          cases alternate : alternateServer servers first with
          | none => exact ⟨List.nodup_singleton first, by simp⟩
          | some s =>
              have apart : first ≠ s := fun same => (asked_alternate head alternate).2.2 (same ▸ rfl)
              exact ⟨by simpa using apart, by simp⟩
      | some t =>
          have apart : first ≠ t := fun same => (asked_other head other).2 (same ▸ rfl)
          cases alternate : alternateServer servers first with
          | none => exact ⟨by simpa using apart, by simp⟩
          | some s =>
              have mine := (asked_alternate head alternate).2
              have apart' : first ≠ s := fun same => mine.2 (same ▸ rfl)
              have apart'' : t ≠ s := fun same => (asked_other head other).2 (same ▸ mine.1)
              exact ⟨by simpa using ⟨⟨apart, apart'⟩, apart''⟩, by simp⟩

theorem Surroundings.probe_unmapped (told : w.probe s = some q) : unmap q = q := by
  obtain ⟨a, -, rfl⟩ := Option.map_eq_some_iff.mp told
  exact unmap_unmap a

theorem Surroundings.discoverFamily_nil (none_ : servers.head? = none) :
    w.discoverFamily servers own = ([], .unknown) := by
  rw [discoverFamily, none_]

theorem Surroundings.discoverFamily_first (head : servers.head? = some first) :
    w.discoverFamily servers own =
      ((([w.probe first, (otherServer servers first).bind w.probe,
          (alternateServer servers first).bind w.probe].reduceOption.map unmap).map
          (Candidate.rated .serverReflexive)).foldl (Distinct.pushNew Candidate.addr) [],
        classify (w.probe first) ((alternateServer servers first).bind w.probe)
          ((otherServer servers first).bind w.probe) own w.localIpSet) := by
  rw [discoverFamily, head]

theorem Surroundings.moves_discoverFamily :
    (w.discoverFamily servers own).2.moves = true ↔
      ∃ first p, servers.head? = some first ∧ w.probe first = some p ∧
        ∃ s ∈ asked servers, ∃ q, w.probe s = some q ∧ q ≠ p := by
  cases head : servers.head? with
  | none =>
      rw [discoverFamily_nil head]
      exact ⟨fun moved => (by cases moved), fun ⟨_, _, none_, _⟩ => (by cases none_)⟩
  | some first =>
      rw [discoverFamily_first head]
      refine moves_classify.trans ⟨?_, ?_⟩
      · rintro ⟨p, baseline, q, told, differs⟩
        refine ⟨first, p, rfl, baseline, ?_⟩
        rcases told with told | told
        · obtain ⟨s, found, answered⟩ := Option.bind_eq_some_iff.mp told
          exact ⟨s, (asked_alternate head found).1, q, answered, differs⟩
        · obtain ⟨s, found, answered⟩ := Option.bind_eq_some_iff.mp told
          exact ⟨s, (asked_other head found).1, q, answered, differs⟩
      · rintro ⟨_, p, same, baseline, s, among, q, answered, differs⟩
        obtain rfl := Option.some.inj same
        refine ⟨p, baseline, q, ?_, differs⟩
        rcases (asked_cases head).mp among with rfl | other | alternate
        · exact absurd (Option.some.inj (answered.symm.trans baseline)) differs
        · exact .inr (Option.bind_eq_some_iff.mpr ⟨s, other, answered⟩)
        · exact .inl (Option.bind_eq_some_iff.mpr ⟨s, alternate, answered⟩)

theorem Surroundings.mem_discoverFamily :
    c ∈ (w.discoverFamily servers own).1 ↔
      ∃ s ∈ asked servers, ∃ m, w.probe s = some m ∧ c = Candidate.rated .serverReflexive m := by
  cases head : servers.head? with
  | none =>
      rw [asked_nil head, discoverFamily_nil head]
      exact ⟨fun member => (by cases member), fun ⟨_, among, _⟩ => (by cases among)⟩
  | some first =>
      rw [discoverFamily_first head]
      have one : ∀ a ∈ ([w.probe first, (otherServer servers first).bind w.probe,
            (alternateServer servers first).bind w.probe].reduceOption.map unmap).map
            (Candidate.rated .serverReflexive), a.Rated .serverReflexive := by
        intro a member
        obtain ⟨m, -, rfl⟩ := List.mem_map.mp member
        exact Candidate.rated_rated _ _
      refine (Distinct.mem_pushed fun a one_a b one_b => (one a one_a).eq (one b one_b)).trans ?_
      simp only [List.mem_map, List.reduceOption_mem_iff, List.mem_cons, List.not_mem_nil, or_false]
      constructor
      · rintro ⟨_, ⟨m, told, rfl⟩, rfl⟩
        rcases told with told | told | told
        · exact ⟨first, asked_first head, m, told.symm, by rw [probe_unmapped told.symm]⟩
        · obtain ⟨s, found, answered⟩ := Option.bind_eq_some_iff.mp told.symm
          exact ⟨s, (asked_other head found).1, m, answered, by rw [probe_unmapped answered]⟩
        · obtain ⟨s, found, answered⟩ := Option.bind_eq_some_iff.mp told.symm
          exact ⟨s, (asked_alternate head found).1, m, answered, by rw [probe_unmapped answered]⟩
      · rintro ⟨s, among, m, answered, rfl⟩
        refine ⟨m, ⟨m, ?_, probe_unmapped answered⟩, rfl⟩
        rcases (asked_cases head).mp among with rfl | other | alternate
        · exact .inl answered.symm
        · exact .inr (.inl (Option.bind_eq_some_iff.mpr ⟨s, other, answered⟩).symm)
        · exact .inr (.inr (Option.bind_eq_some_iff.mpr ⟨s, alternate, answered⟩).symm)

end Asked

section Whole
variable {w : Surroundings} {bound : SocketAddr} {names : List Text} {f : Family} {c : Candidate}

theorem Surroundings.stunDiscover_eq (here : w.bound = some bound) :
    w.stunDiscover names =
      (bestFirst (((w.discoverFamily (w.servers names .v4) (unmap bound)).1 ++
          (w.discoverFamily (w.servers names .v6) (unmap bound)).1).foldl (Distinct.pushNew Candidate.addr) []),
        ⟨(w.discoverFamily (w.servers names .v4) (unmap bound)).2,
          (w.discoverFamily (w.servers names .v6) (unmap bound)).2⟩) := by
  unfold stunDiscover servers
  rw [here]
  rfl

theorem Surroundings.nat_get (here : w.bound = some bound) :
    (w.nat names).get f = (w.discoverFamily (w.servers names f) (unmap bound)).2 := by
  rw [nat, stunDiscover_eq here]
  cases f with
  | v4 | v6 => rfl

theorem Surroundings.mem_stunDiscover (here : w.bound = some bound) :
    c ∈ (w.stunDiscover names).1 ↔ ∃ f, ∃ s ∈ asked (w.servers names f), ∃ m, w.probe s = some m ∧
      c = Candidate.rated .serverReflexive m := by
  have both : ∀ c, c ∈ (w.discoverFamily (w.servers names .v4) (unmap bound)).1 ++
        (w.discoverFamily (w.servers names .v6) (unmap bound)).1 ↔
      ∃ f, ∃ s ∈ asked (w.servers names f), ∃ m, w.probe s = some m ∧
        c = Candidate.rated .serverReflexive m := by
    intro c
    rw [List.mem_append, mem_discoverFamily, mem_discoverFamily]
    constructor
    · rintro (four | six)
      · exact ⟨.v4, four⟩
      · exact ⟨.v6, six⟩
    · rintro ⟨f, heard⟩
      cases f with
      | v4 => exact .inl heard
      | v6 => exact .inr heard
  have rates : ∀ a ∈ (w.discoverFamily (w.servers names .v4) (unmap bound)).1 ++
      (w.discoverFamily (w.servers names .v6) (unmap bound)).1, a.Rated .serverReflexive := by
    intro a member
    obtain ⟨-, -, -, m, -, rfl⟩ := (both a).mp member
    exact Candidate.rated_rated _ _
  rw [← both c, ← Distinct.mem_pushed fun a one b two => (rates a one).eq (rates b two)]
  rw [stunDiscover_eq here]
  exact mem_bestFirst

theorem ordered_bestFirst {candidates : List Candidate}
    (apart : candidates.Pairwise fun a b => a.addr ≠ b.addr) : Ordered (bestFirst candidates) := by
  have symmetric : ∀ a b : Candidate, a.addr ≠ b.addr → b.addr ≠ a.addr := fun _ _ => Ne.symm
  have kept : (bestFirst candidates).Pairwise fun a b => a.addr ≠ b.addr :=
    (List.perm_insertionSort Candidate.Before candidates).symm.pairwise apart (symmetric _ _)
  exact (bestFirst_sorted candidates).and kept

theorem Surroundings.stunDiscover_ordered (here : w.bound = some bound) :
    Ordered (w.stunDiscover names).1 := by
  rw [stunDiscover_eq here]
  exact ordered_bestFirst (Distinct.pairwise_pushed List.Pairwise.nil)

end Whole

section Behaviours
variable {b : Behaviour} {ours : SocketAddr → Prop} {servers : List SocketAddr}
  {maps : SocketAddr → SocketAddr} {first q : SocketAddr} {probe : SocketAddr → Option SocketAddr}

theorem Behaviour.type_ne_unknown (b : Behaviour) : b.type ≠ .unknown := by
  cases b with
  | untranslated | endpointIndependent | addressDependent | symmetric => exact NatType.noConfusion

theorem answer_alternate (head : servers.head? = some first)
    (truthful : ∀ s ∈ asked servers, ∀ m, probe s = some m → m = maps s)
    (told : (alternateServer servers first).bind probe = some q) :
    ∃ s ∈ asked servers, s.ip = first.ip ∧ s.port ≠ first.port ∧ q = maps s := by
  obtain ⟨s, found, answered⟩ := Option.bind_eq_some_iff.mp told
  obtain ⟨among, ip, port⟩ := asked_alternate head found
  exact ⟨s, among, ip, port, truthful s among q answered⟩

theorem answer_other (head : servers.head? = some first)
    (truthful : ∀ s ∈ asked servers, ∀ m, probe s = some m → m = maps s)
    (told : (otherServer servers first).bind probe = some q) :
    ∃ s ∈ asked servers, s.ip ≠ first.ip ∧ q = maps s := by
  obtain ⟨s, found, answered⟩ := Option.bind_eq_some_iff.mp told
  obtain ⟨among, ip⟩ := asked_other head found
  exact ⟨s, among, ip, truthful s among q answered⟩

/-- A verdict that rests on a rule's own mappings is the rule's, but for what the answers that
did not come leave open. -/
theorem Behaviour.Maps.verdict {alt other : Option SocketAddr} {verdict : NatType}
    (rules : b.Maps ours servers maps) (baselined : first ∈ servers)
    (alternate : ∀ q, alt = some q →
      ∃ s ∈ servers, s.ip = first.ip ∧ s.port ≠ first.port ∧ q = maps s)
    (elsewhere : ∀ q, other = some q → ∃ s ∈ servers, s.ip ≠ first.ip ∧ q = maps s)
    (rests : Judged (maps first) alt other (ours (maps first)) verdict) :
    verdict = b.type ∨ (verdict = .unknown ∧ other = none) ∨
      (b.type = .addressDependent ∧ verdict = .symmetric ∧ alt = none) := by
  cases rests with
  | none own agree told =>
      refine .inl ?_
      cases b with
      | untranslated => rfl
      | endpointIndependent => exact absurd own (rules first baselined).1
      | addressDependent => exact absurd own (rules first baselined).1
      | symmetric =>
          exfalso
          rcases told with told | told
          · obtain ⟨q, told⟩ := Option.ne_none_iff_exists'.mp told
            obtain ⟨s, among, -, port, rfl⟩ := alternate q told
            exact port ((rules s among first baselined).mp (agree _ (.inl told))).2
          · obtain ⟨q, told⟩ := Option.ne_none_iff_exists'.mp told
            obtain ⟨s, among, ip, rfl⟩ := elsewhere q told
            exact ip ((rules s among first baselined).mp (agree _ (.inr told))).1
  | altMoved q told moved =>
      refine .inl ?_
      obtain ⟨s, among, ip, -, rfl⟩ := alternate q told
      cases b with
      | untranslated | endpointIndependent => exact absurd ((rules s among).2 first baselined) moved
      | addressDependent => exact absurd (((rules s among).2 first baselined).mpr ip) moved
      | symmetric => rfl
  | otherSame still told theirs =>
      refine .inl ?_
      obtain ⟨s, among, ip, same⟩ := elsewhere _ told
      cases b with
      | untranslated => exact absurd (rules first baselined).1 theirs
      | endpointIndependent => rfl
      | addressDependent => exact absurd (((rules first baselined).2 s among).mp same).symm ip
      | symmetric => exact absurd ((rules first baselined s among).mp same).1.symm ip
  | unknown still silent => exact .inr (.inl ⟨rfl, silent⟩)
  | merged silent q told moved =>
      obtain ⟨s, among, ip, rfl⟩ := elsewhere q told
      cases b with
      | untranslated | endpointIndependent => exact absurd ((rules s among).2 first baselined) moved
      | addressDependent => exact .inr (.inr ⟨rfl, rfl, silent⟩)
      | symmetric => exact .inl rfl
  | otherMoved still q told moved =>
      refine .inl ?_
      obtain ⟨s, among, ip, rfl⟩ := elsewhere q told
      cases b with
      | untranslated | endpointIndependent => exact absurd ((rules s among).2 first baselined) moved
      | addressDependent => rfl
      | symmetric =>
          obtain ⟨t, among', -, port, same⟩ := alternate _ still
          exact absurd ((rules first baselined t among').mp same).2.symm port

end Behaviours

/-- The verdict on a NAT that maps by one of the rules is the right one, or that nothing is
known, and that only if the first server or the other one did not answer. A mapping that moves
with the address alone is told from one that also moves with the port only by an answer from
the alternate port. -/
theorem nat_verdict_is_right {w : Surroundings} {bound : SocketAddr} {names : List Text} {f : Family}
    {b : Behaviour} {maps : SocketAddr → SocketAddr} (here : w.bound = some bound)
    (rules : b.Maps (Ours (unmap bound) w.localIpSet) (asked (w.servers names f)) maps)
    (truthful : ∀ s ∈ asked (w.servers names f), ∀ m, w.probe s = some m → m = maps s) :
    ((w.nat names).get f = b.type ∨ (w.nat names).get f = .unknown ∨
      (b.type = .addressDependent ∧ (w.nat names).get f = .symmetric ∧
        ∀ first s, (w.servers names f).head? = some first →
          alternateServer (w.servers names f) first = some s → w.probe s = none)) ∧
    ∀ first s, (w.servers names f).head? = some first → otherServer (w.servers names f) first = some s →
      w.probe first ≠ none → w.probe s ≠ none → (w.nat names).get f ≠ .unknown := by
  rw [Surroundings.nat_get here]
  generalize w.servers names f = servers at rules truthful ⊢
  cases head : servers.head? with
  | none =>
      rw [Surroundings.discoverFamily_nil head]
      exact ⟨.inr (.inl rfl), fun _ _ none_ => (by cases none_)⟩
  | some first =>
      rw [Surroundings.discoverFamily_first head]
      cases baseline : w.probe first with
      | none =>
          refine ⟨.inr (.inl rfl), fun _ _ same _ answered => ?_⟩
          obtain rfl := Option.some.inj same
          exact absurd baseline answered
      | some p =>
          obtain rfl : p = maps first := truthful first (asked_first head) p baseline
          have verdict := rules.verdict (asked_first head)
            (fun q told => answer_alternate head truthful told)
            (fun q told => answer_other head truthful told)
            (judged (maps first) _ _ (unmap bound) w.localIpSet)
          refine ⟨?_, ?_⟩
          · rcases verdict with right | ⟨unknown, -⟩ | ⟨address, merged, silent⟩
            · exact .inl right
            · exact .inr (.inl unknown)
            · refine .inr (.inr ⟨address, merged, fun first' s same found => ?_⟩)
              obtain rfl := Option.some.inj same
              rw [found] at silent
              exact silent
          · intro first' s same found _ answered unknown
            obtain rfl := Option.some.inj same
            rcases verdict with right | ⟨-, silent⟩ | ⟨-, merged, -⟩
            · exact b.type_ne_unknown (right.symm.trans unknown)
            · rw [found] at silent
              exact answered silent
            · exact absurd (merged.symm.trans unknown) NatType.noConfusion

section Plans
variable {w w' : Surroundings} {names names' : List Text} {l : Ladder} {f : Family}

theorem LadderPlan.family_of_mem_familySkips {ours theirs : EndFacts} {r : Rung} {why : String}
    (skipped : (r, why) ∈ familySkips ours theirs f) : r.family = some f := by
  unfold familySkips at skipped
  cases gap : missing ours theirs f with
  | some reason =>
      rw [gap] at skipped
      obtain ⟨_, member, same⟩ := List.mem_map.mp skipped
      obtain ⟨rfl, -⟩ := Prod.mk.inj same
      exact of_decide_eq_true (List.mem_filter.mp member).2
  | none =>
      rw [gap] at skipped
      rcases List.mem_append.mp skipped with punch | blast
      · obtain ⟨_, -, same⟩ := List.mem_map.mp punch
        obtain ⟨rfl, -⟩ := Prod.mk.inj same
        rfl
      · obtain ⟨_, -, same⟩ := List.mem_map.mp blast
        obtain ⟨rfl, -⟩ := Prod.mk.inj same
        rfl

theorem LadderPlan.skips_family {ours theirs : EndFacts} {r : Rung} (mine : r.family = some f) :
    (forEnds ours theirs).Skips r ↔ ∃ why, (r, why) ∈ familySkips ours theirs f := by
  constructor
  · rintro ⟨why, member⟩
    obtain ⟨g, -, skipped⟩ := List.mem_flatMap.mp member
    have same : f = g := Option.some.inj (mine.symm.trans (family_of_mem_familySkips skipped))
    exact ⟨why, same ▸ skipped⟩
  · rintro ⟨why, skipped⟩
    refine ⟨why, List.mem_flatMap.mpr ⟨f, ?_, skipped⟩⟩
    cases f with
    | v4 | v6 => simp [Family.both]

theorem LadderPlan.skips_punched {ours theirs : EndFacts} (reached : missing ours theirs f = none) :
    (forEnds ours theirs).Skips (.punched f) ↔ (ours.nat.get f).moves = true := by
  rw [skips_family rfl, familySkips, reached]
  simp only [List.mem_append, List.mem_map, Option.mem_toList, Prod.mk.injEq]
  have noPunch_iff : (∃ why, noPunch ours f = some why) ↔ (ours.nat.get f).moves = true := by
    unfold noPunch
    cases ours.nat.get f with
    | symmetric | addressDependent => exact ⟨fun _ => rfl, fun _ => ⟨_, rfl⟩⟩
    | none | endpointIndependent | unknown => exact ⟨fun ⟨_, no⟩ => (by cases no), fun no => (by cases no)⟩
  rw [← noPunch_iff]
  constructor
  · rintro ⟨why, ⟨reason, given, -, rfl⟩ | ⟨reason, -, other, -⟩⟩
    · exact ⟨reason, given⟩
    · cases other
  · rintro ⟨why, given⟩
    exact ⟨why, .inl ⟨why, given, trivial, rfl⟩⟩

theorem LadderPlan.birthday_planned {ours theirs : EndFacts} (reached : missing ours theirs f = none)
    (moves : (ours.nat.get f).moves = true) (mine : ours.hasSrflx f = true) (theirs_ : theirs.hasSrflx f = true) :
    Rung.birthday f ∈ (forEnds ours theirs).sequential := by
  refine mem_sequential.mpr (.inl ⟨rfl, fun skips => ?_⟩)
  obtain ⟨why, skipped⟩ := (skips_family rfl).mp skips
  have worth : noBlast ours theirs f = none := by
    unfold noBlast
    have might : mightNeedBlast (ours.nat.get f) = true := by
      revert moves
      cases ours.nat.get f with
      | symmetric | addressDependent => exact fun _ => rfl
      | none | endpointIndependent | unknown => exact fun no => (by cases no)
    rw [might, mine, theirs_]
    rfl
  rw [familySkips, reached, worth] at skipped
  simp at skipped

theorem EndFacts.has_fromCandidates {nat : FamilyNat} {candidates : List Candidate} :
    (fromCandidates nat candidates).has f = true ↔ ∃ c ∈ candidates, Family.of c.addr = f := by
  cases f with
  | v4 | v6 => simp [fromCandidates, has]

theorem EndFacts.hasSrflx_fromCandidates {nat : FamilyNat} {candidates : List Candidate} :
    (fromCandidates nat candidates).hasSrflx f = true ↔
      ∃ c ∈ candidates, c.kind = .serverReflexive ∧ Family.of c.addr = f := by
  cases f with
  | v4 | v6 => simp [fromCandidates, hasSrflx]

theorem maxBy_isSome {α : Type} (le : α → α → Bool) {xs : List α} (some_ : xs ≠ []) :
    ∃ x, maxBy le xs = some x := by
  cases xs with
  | nil => exact absurd rfl some_
  | cons a rest =>
      rw [maxBy, List.foldl_cons]
      refine List.foldlRecOn rest _ (motive := fun best => ∃ x, best = some x) ⟨a, rfl⟩ ?_
      rintro _ ⟨b, rfl⟩ x -
      dsimp only
      split
      · exact ⟨x, rfl⟩
      · exact ⟨b, rfl⟩

/-- In this family two servers were told different mappings of the socket. -/
def Surroundings.Moved (w : Surroundings) (names : List Text) (f : Family) : Prop :=
  ∃ first p, (w.servers names f).head? = some first ∧ w.probe first = some p ∧
    ∃ s ∈ asked (w.servers names f), ∃ q, w.probe s = some q ∧ q ≠ p

/-- In this family some server was told a mapping of that family. -/
def Surroundings.Heard (w : Surroundings) (names : List Text) (f : Family) : Prop :=
  ∃ s ∈ asked (w.servers names f), ∃ m, w.probe s = some m ∧ Family.of m = f

theorem Surroundings.Heard.bound (heard : w.Heard names f) : ∃ bound, w.bound = some bound := by
  obtain ⟨s, among, -⟩ := heard
  cases here : w.bound with
  | some bound => exact ⟨bound, rfl⟩
  | none =>
      have nobody : w.servers names f = [] := by
        cases f with
        | v4 | v6 => simp [servers, here]
      rw [nobody] at among
      cases among

theorem Surroundings.mem_candidates {bound : SocketAddr} {c : Candidate} (here : w.bound = some bound) :
    c ∈ w.candidates names ↔
      (∃ iface ∈ w.interfaces, ∃ ip ∈ iface.ips, isOffered false (unmapIp ip) = true ∧
        c = Candidate.rated .host (.new (unmapIp ip) bound.port)) ∨
      ∃ f, ∃ s ∈ asked (w.servers names f), ∃ m, w.probe s = some m ∧ c = Candidate.rated .serverReflexive m := by
  unfold candidates localCandidates
  rw [List.mem_append, here, mem_localCandidates, mem_stunDiscover here]

theorem Surroundings.Heard.offered (heard : w.Heard names f) :
    ∃ c ∈ w.candidates names, c.kind = .serverReflexive ∧ Family.of c.addr = f := by
  obtain ⟨bound, here⟩ := heard.bound
  obtain ⟨s, among, m, told, family⟩ := heard
  exact ⟨Candidate.rated .serverReflexive m, (mem_candidates here).mpr (.inr ⟨f, s, among, m, told, rfl⟩), rfl,
    family⟩

theorem Surroundings.told_of_candidate {c : Candidate} (member : c ∈ w.candidates names)
    (kind : c.kind = .serverReflexive) :
    ∃ f, ∃ s ∈ asked (w.servers names f), w.probe s = some c.addr := by
  cases here : w.bound with
  | none =>
      unfold candidates localCandidates stunDiscover at member
      rw [here] at member
      cases member
  | some bound =>
      rcases (mem_candidates here).mp member with ⟨-, -, ip, -, -, rfl⟩ | ⟨f, s, among, m, told, rfl⟩
      · cases kind
      · exact ⟨f, s, among, told⟩

end Plans

namespace Discovered

/-- A dual-stack socket on a machine with one private address, behind a NAT that maps it by the
destination's port. -/
def hotel : Surroundings where
  bound := some (.v6 0 443 0 0)
  interfaces := [⟨[], [0x0a000002]⟩]
  resolve name := some [.v4 (if name = ['a'] then 0x01010101 else 0x02020202) (if name = ['a'] then 3478 else 443)]
  answer server := some (.v4 0xcb007109 (server.port + 50000))

def office : Surroundings :=
  { hotel with answer := fun _ => some (.v4 0xc6336407 40000) }

def names : List Text := [['a'], ['b']]

def maps (server : SocketAddr) : SocketAddr := .v4 0xcb007109 (server.port + 50000)

def ladder : Ladder where
  role := .controlling
  nat := hotel.nat names
  peerNat := office.nat names
  gatherTimeout := 3000
  enableBirthday := true
  birthdaySockets := 256
  birthdayPorts := 256
  locals := hotel.candidates names
  remote := office.candidates names
  admitRemote := none

theorem nat_verdict_is_right_x : (hotel.nat names).get .v4 ≠ .unknown := by
  have here : hotel.bound = some (.v6 0 443 0 0) := rfl
  have rules : Behaviour.symmetric.Maps (Ours (unmap (.v6 0 443 0 0)) hotel.localIpSet)
      (asked (hotel.servers names .v4)) maps := by
    unfold Behaviour.Maps
    decide +kernel
  have truthful : ∀ s ∈ asked (hotel.servers names .v4), ∀ m, hotel.probe s = some m → m = maps s := by
    decide +kernel
  have first : (hotel.servers names .v4).head? = some (.v4 0x01010101 3478) := by decide +kernel
  have other : otherServer (hotel.servers names .v4) (.v4 0x01010101 3478) = some (.v4 0x02020202 443) := by
    decide +kernel
  exact (nat_verdict_is_right here rules truthful).2 _ _ first other (by decide +kernel) (by decide +kernel)

end Discovered
end Oxutrm.Net
