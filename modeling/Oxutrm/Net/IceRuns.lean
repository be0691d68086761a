import Mathlib.Data.List.Nodup
import Oxutrm.Lib.Transition
import Oxutrm.Net.IceSteps

/-!
Two agents and a network in the hands of somebody else. What is delivered is
anything at all from any source, except that a MESSAGE-INTEGRITY under one of the
two passwords only stands in a message one of the agents has made.
-/
namespace Oxutrm.Net
open Transition

structure IceWorld where
  agent : IceRole → IceAgent
  /-- Every message that was made, with its maker. -/
  sent : List (IceRole × Packet) := []
  /-- Every datagram that was read, with its reader and its source. -/
  heard : List (IceRole × SocketAddr × List UInt8) := []
  reports : List (IceRole × IceEvent) := []
  /-- The transaction ids drawn so far. -/
  drawn : List TransactionId := []

inductive IceInput where
  | addLocal (r : IceRole) (c : Candidate)
  | addRemote (r : IceRole) (c : Candidate)
  | turn (r : IceRole) (localAddr : SocketAddr) (now : Nat) (sends : List CheckSend)
      (tid : TransactionId)
  | datagram (r : IceRole) (localAddr : SocketAddr) (now : Nat) (source : SocketAddr)
      (bytes : List UInt8)

namespace IceWorld

/-- An agent is left as `b` says: what it sends and reports, and what was read and
drawn for it. -/
def record (w : IceWorld) (r : IceRole) (b : IceAgent × List Packet × Option IceEvent)
    (heard : List (IceRole × SocketAddr × List UInt8)) (drawn : List TransactionId) : IceWorld where
  agent q := if q = r then b.1 else w.agent q
  sent := w.sent ++ b.2.1.map fun p => (r, p)
  heard := w.heard ++ heard
  reports := w.reports ++ b.2.2.toList.map fun e => (r, e)
  drawn := w.drawn ++ drawn

section Step
variable (codec : StunCodec) (creds : IceCredentials)

def step (w : IceWorld) : IceInput → Option IceWorld
  | .addLocal r c => some (w.record r ((w.agent r).addLocal c, [], none) [] [])
  | .addRemote r c => some (w.record r ((w.agent r).addRemote c, [], none) [] [])
  | .turn r localAddr now sends tid =>
      some (w.record r ((w.agent r).turn codec creds localAddr now sends tid) []
        (tid :: sends.map CheckSend.tid))
  | .datagram r localAddr now source bytes =>
      if (w.agent r).done then none
      else some (w.record r ((w.agent r).onDatagram codec creds localAddr now (unmap source) bytes)
        [(r, unmap source, bytes)] [])

/-- No transaction id is drawn twice, and nobody else can sign. -/
def Unforged (w : IceWorld) : IceInput → Prop
  | .turn _ _ _ sends _ =>
      (sends.map CheckSend.tid).Nodup ∧ ∀ send ∈ sends, send.tid ∉ w.drawn
  | .datagram _ _ _ _ bytes =>
      (∃ d, Verifies codec creds d bytes) → ∃ p ∈ w.sent, p.2.bytes = bytes
  | _ => True

end Step

/-- Two agents that have not run yet, with whatever candidates and filters. -/
def Fresh (w : IceWorld) : Prop :=
  w.sent = [] ∧ w.heard = [] ∧ w.reports = [] ∧ w.drawn = [] ∧
    ∀ r, ∃ gatherTimeout remoteFilter, w.agent r = { role := r, gatherTimeout, remoteFilter }

/-- A request the peer made arrived from `remote`. -/
def Reached (w : IceWorld) (r : IceRole) (remote : SocketAddr) : Prop :=
  ∃ p ∈ w.sent, p.1 = r.peer ∧ p.2.message.messageClass = .request ∧
    (r, remote, p.2.bytes) ∈ w.heard

/-- The peer answered the very request that was sent to `remote`, and the answer
arrived. -/
def Answered (w : IceWorld) (r : IceRole) (remote : SocketAddr) : Prop :=
  ∃ q ∈ w.sent, q.1 = r ∧ q.2.message.messageClass = .request ∧ q.2.remote = remote ∧
    (∃ source, (r.peer, source, q.2.bytes) ∈ w.heard) ∧
    ∃ p ∈ w.sent, p.1 = r.peer ∧ p.2.message.messageClass = .successResponse ∧
      p.2.message.tid = q.2.message.tid ∧ ∃ source, (r, source, p.2.bytes) ∈ w.heard

/-- A nomination the controlling agent made arrived from `remote`. -/
def Told (w : IceWorld) (remote : SocketAddr) : Prop :=
  ∃ p ∈ w.sent, p.1 = .controlling ∧ p.2.message.messageClass = .indication ∧
    (.controlled, remote, p.2.bytes) ∈ w.heard

/-- What a message of an agent is signed in, by its class. -/
def Signed (p : IceRole × Packet) : Prop :=
  match p.2.message.messageClass with
  | .request => p.2.direction = IceCredentials.outbound p.1
  | .successResponse => p.2.direction = IceCredentials.inbound p.1
  | .indication => p.2.direction = IceCredentials.outbound p.1 ∧ p.1 = .controlling
  | .errorResponse => False

structure Sound (codec : StunCodec) (creds : IceCredentials) (w : IceWorld) : Prop where
  role : ∀ r, (w.agent r).role = r
  made : ∀ p ∈ w.sent, Signed p ∧
    codec.encode p.2.message (creds.password p.2.direction) = some p.2.bytes
  drawn : ∀ p ∈ w.sent, p.2.message.messageClass = .request → p.2.message.tid ∈ w.drawn
  unique : ∀ p ∈ w.sent, ∀ q ∈ w.sent, p.2.message.messageClass = .request →
    q.2.message.messageClass = .request → p.2.message.tid = q.2.message.tid → p = q
  answers : ∀ p ∈ w.sent, p.2.message.messageClass = .successResponse →
    ∃ q ∈ w.sent, q.1 = p.1.peer ∧ q.2.message.messageClass = .request ∧
      q.2.message.tid = p.2.message.tid ∧ ∃ source, (p.1, source, q.2.bytes) ∈ w.heard
  outstanding : ∀ r, ∀ e ∈ (w.agent r).outstanding, ∃ q ∈ w.sent, q.1 = r ∧
    q.2.message.messageClass = .request ∧ q.2.message.tid = e.1 ∧ q.2.remote = e.2.1
  pairs : ∀ r, ∀ pair ∈ (w.agent r).pairs,
    (pair.2.inboundOk = true → w.Reached r pair.1) ∧
    (pair.2.outboundOk = true → w.Answered r pair.1)
  controlling : ∀ here remote rung probes,
    (.controlling, IceEvent.nominated here remote rung probes) ∈ w.reports →
      w.Reached .controlling remote ∧ w.Answered .controlling remote ∧
      (w.agent .controlling).admits remote = true
  controlled : ∀ here remote rung probes,
    (.controlled, IceEvent.nominated here remote rung probes) ∈ w.reports → w.Told remote

section Keep
variable {codec : StunCodec} {creds : IceCredentials} {w w' : IceWorld}

theorem Reached.mono {r : IceRole} {remote : SocketAddr} (sent : ∀ p ∈ w.sent, p ∈ w'.sent)
    (heard : ∀ h ∈ w.heard, h ∈ w'.heard) (reached : w.Reached r remote) : w'.Reached r remote := by
  obtain ⟨p, there, by_, asks, arrived⟩ := reached
  exact ⟨p, sent p there, by_, asks, heard _ arrived⟩

theorem Answered.mono {r : IceRole} {remote : SocketAddr} (sent : ∀ p ∈ w.sent, p ∈ w'.sent)
    (heard : ∀ h ∈ w.heard, h ∈ w'.heard) (answered : w.Answered r remote) :
    w'.Answered r remote := by
  obtain ⟨q, there, by_, asks, to_, ⟨at_, got⟩, p, there', by', replies, same, source, arrived⟩ := answered
  exact ⟨q, sent q there, by_, asks, to_, ⟨at_, heard _ got⟩, p, sent p there', by', replies, same,
    source, heard _ arrived⟩

theorem Told.mono {remote : SocketAddr} (sent : ∀ p ∈ w.sent, p ∈ w'.sent)
    (heard : ∀ h ∈ w.heard, h ∈ w'.heard) (told : w.Told remote) : w'.Told remote := by
  obtain ⟨p, there, by_, replies, arrived⟩ := told
  exact ⟨p, sent p there, by_, replies, heard _ arrived⟩

/-- What one agent's step adds is all that has to be looked at. -/
structure Extends (codec : StunCodec) (creds : IceCredentials) (w w' : IceWorld) (r : IceRole) :
    Prop where
  others : ∀ q, q ≠ r → w'.agent q = w.agent q
  role : (w'.agent r).role = (w.agent r).role
  filter : (w'.agent r).remoteFilter = (w.agent r).remoteFilter
  sent : ∀ p ∈ w.sent, p ∈ w'.sent
  heard : ∀ h ∈ w.heard, h ∈ w'.heard
  drawn : ∀ tid ∈ w.drawn, tid ∈ w'.drawn
  made : ∀ p ∈ w'.sent, p ∈ w.sent ∨ (p.1 = r ∧ Signed p ∧
    codec.encode p.2.message (creds.password p.2.direction) = some p.2.bytes ∧
    (p.2.message.messageClass = .request →
      p.2.message.tid ∈ w'.drawn ∧ p.2.message.tid ∉ w.drawn ∧
      ∀ q ∈ w'.sent, q ∉ w.sent → q.2.message.messageClass = .request →
        p.2.message.tid = q.2.message.tid → p = q) ∧
    (p.2.message.messageClass = .successResponse →
      ∃ q ∈ w'.sent, q.1 = r.peer ∧ q.2.message.messageClass = .request ∧
        q.2.message.tid = p.2.message.tid ∧ ∃ source, (r, source, q.2.bytes) ∈ w'.heard))
  outstanding : ∀ e ∈ (w'.agent r).outstanding, e ∈ (w.agent r).outstanding ∨
    ∃ q ∈ w'.sent, q.1 = r ∧ q.2.message.messageClass = .request ∧
      q.2.message.tid = e.1 ∧ q.2.remote = e.2.1
  pairs : ∀ pair ∈ (w'.agent r).pairs,
    (pair.2.inboundOk = true → w'.Reached r pair.1 ∨
      ∃ s, (pair.1, s) ∈ (w.agent r).pairs ∧ s.inboundOk = true) ∧
    (pair.2.outboundOk = true → w'.Answered r pair.1 ∨
      ∃ s, (pair.1, s) ∈ (w.agent r).pairs ∧ s.outboundOk = true)
  reports : ∀ q here remote rung probes,
    (q, IceEvent.nominated here remote rung probes) ∈ w'.reports →
    (q, IceEvent.nominated here remote rung probes) ∈ w.reports ∨
    (q = r ∧ r = .controlling ∧ (w.agent r).admits remote = true ∧
      ∃ s, (remote, s) ∈ (w.agent r).pairs ∧ s.outboundOk = true ∧ s.inboundOk = true) ∨
    (q = r ∧ r = .controlled ∧ w'.Told remote)

theorem Extends.admits {r : IceRole} (extends_ : Extends codec creds w w' r) (q : IceRole)
    (remote : SocketAddr) : (w'.agent q).admits remote = (w.agent q).admits remote := by
  have filter : (w'.agent q).remoteFilter = (w.agent q).remoteFilter := by
    by_cases same : q = r
    · rw [same]
      exact extends_.filter
    · rw [extends_.others q same]
  rw [IceAgent.admits, IceAgent.admits, filter]

theorem Sound.extend (sound : Sound codec creds w) {r : IceRole}
    (extends_ : Extends codec creds w w' r) : Sound codec creds w' where
  role q := by
    by_cases same : q = r
    · rw [same, extends_.role]
      exact sound.role r
    · rw [extends_.others q same]
      exact sound.role q
  made p there := by
    rcases extends_.made p there with old | ⟨-, signed, encoded, -, -⟩
    · exact sound.made p old
    · exact ⟨signed, encoded⟩
  drawn p there asks := by
    rcases extends_.made p there with old | ⟨-, -, -, fresh, -⟩
    · exact extends_.drawn _ (sound.drawn p old asks)
    · exact (fresh asks).1
  unique p there q there' asks asks' same := by
    rcases extends_.made p there with old | ⟨-, -, -, fresh, -⟩
    · rcases extends_.made q there' with old' | ⟨-, -, -, fresh', -⟩
      · exact sound.unique p old q old' asks asks' same
      · have known := sound.drawn p old asks
        rw [same] at known
        exact absurd known (fresh' asks').2.1
    · obtain ⟨-, unknown, only⟩ := fresh asks
      by_cases old' : q ∈ w.sent
      · have known := sound.drawn q old' asks'
        rw [← same] at known
        exact absurd known unknown
      · exact only q there' old' asks' same
  answers p there replies := by
    rcases extends_.made p there with old | ⟨by_, -, -, -, answers⟩
    · obtain ⟨q, member, by', asks, same, source, arrived⟩ := sound.answers p old replies
      exact ⟨q, extends_.sent q member, by', asks, same, source, extends_.heard _ arrived⟩
    · rw [by_]
      exact answers replies
  outstanding q e there := by
    by_cases here : q = r
    · subst here
      rcases extends_.outstanding e there with old | new
      · obtain ⟨p, member, origin⟩ := sound.outstanding q e old
        exact ⟨p, extends_.sent p member, origin⟩
      · exact new
    · rw [extends_.others q here] at there
      obtain ⟨p, member, origin⟩ := sound.outstanding q e there
      exact ⟨p, extends_.sent p member, origin⟩
  pairs q pair there := by
    by_cases here : q = r
    · subst here
      obtain ⟨inbound, outbound⟩ := extends_.pairs pair there
      refine ⟨fun ok => ?_, fun ok => ?_⟩
      · rcases inbound ok with new | ⟨s, member, before⟩
        · exact new
        · exact ((sound.pairs q _ member).1 before).mono extends_.sent extends_.heard
      · rcases outbound ok with new | ⟨s, member, before⟩
        · exact new
        · exact ((sound.pairs q _ member).2 before).mono extends_.sent extends_.heard
    · rw [extends_.others q here] at there
      obtain ⟨inbound, outbound⟩ := sound.pairs q pair there
      exact ⟨fun ok => (inbound ok).mono extends_.sent extends_.heard,
        fun ok => (outbound ok).mono extends_.sent extends_.heard⟩
  controlling here remote rung probes said := by
    rw [extends_.admits]
    rcases extends_.reports _ here remote rung probes said with
      old | ⟨mine, -, admitted, s, member, outbound, inbound⟩ | ⟨mine, controlled, -⟩
    · obtain ⟨reached, answered, admitted⟩ := sound.controlling here remote rung probes old
      exact ⟨reached.mono extends_.sent extends_.heard, answered.mono extends_.sent extends_.heard,
        admitted⟩
    · subst mine
      obtain ⟨reached, answered⟩ := sound.pairs _ _ member
      exact ⟨(reached inbound).mono extends_.sent extends_.heard,
        (answered outbound).mono extends_.sent extends_.heard, admitted⟩
    · rw [← mine] at controlled
      cases controlled
  controlled here remote rung probes said := by
    rcases extends_.reports _ here remote rung probes said with
      old | ⟨mine, controlling, -⟩ | ⟨-, -, told⟩
    · exact (sound.controlled here remote rung probes old).mono extends_.sent extends_.heard
    · rw [← mine] at controlling
      cases controlling
    · exact told

end Keep

section Steps
variable {codec : StunCodec} {creds : IceCredentials} {w : IceWorld} {r : IceRole}
  {b : IceAgent × List Packet × Option IceEvent}
  {heard : List (IceRole × SocketAddr × List UInt8)} {drawn : List TransactionId}

theorem agent_record (w : IceWorld) (r : IceRole) : (w.record r b heard drawn).agent r = b.1 :=
  if_pos rfl

theorem sent_record : ∀ p ∈ w.sent, p ∈ (w.record r b heard drawn).sent :=
  fun _ there => List.mem_append_left _ there

theorem heard_record : ∀ h ∈ w.heard, h ∈ (w.record r b heard drawn).heard :=
  fun _ there => List.mem_append_left _ there

theorem extends_record (role : b.1.role = (w.agent r).role)
    (filter : b.1.remoteFilter = (w.agent r).remoteFilter)
    (made : ∀ p ∈ b.2.1, Signed (r, p) ∧
      codec.encode p.message (creds.password p.direction) = some p.bytes ∧
      (p.message.messageClass = .request → p.message.tid ∈ drawn ∧ p.message.tid ∉ w.drawn) ∧
      (p.message.messageClass = .successResponse →
        ∃ q ∈ w.sent, q.1 = r.peer ∧ q.2.message.messageClass = .request ∧
          q.2.message.tid = p.message.tid ∧ ∃ source, (r, source, q.2.bytes) ∈ heard))
    (once : ((b.2.1.filter fun p => p.message.messageClass = .request).map
      fun p => p.message.tid).Nodup)
    (outstanding : ∀ e ∈ b.1.outstanding, e ∈ (w.agent r).outstanding ∨
      ∃ p ∈ b.2.1, p.message.messageClass = .request ∧ p.message.tid = e.1 ∧ p.remote = e.2.1)
    (pairs : ∀ pair ∈ b.1.pairs,
      (pair.2.inboundOk = true → (w.record r b heard drawn).Reached r pair.1 ∨
        ∃ s, (pair.1, s) ∈ (w.agent r).pairs ∧ s.inboundOk = true) ∧
      (pair.2.outboundOk = true → (w.record r b heard drawn).Answered r pair.1 ∨
        ∃ s, (pair.1, s) ∈ (w.agent r).pairs ∧ s.outboundOk = true))
    (nominated : ∀ here remote rung probes, b.2.2 = some (.nominated here remote rung probes) →
      (r = .controlling ∧ (w.agent r).admits remote = true ∧
        ∃ s, (remote, s) ∈ (w.agent r).pairs ∧ s.outboundOk = true ∧ s.inboundOk = true) ∨
      (r = .controlled ∧ (w.record r b heard drawn).Told remote)) :
    Extends codec creds w (w.record r b heard drawn) r where
  others _ other := if_neg other
  role := (congrArg IceAgent.role (agent_record w r)).trans role
  filter := (congrArg IceAgent.remoteFilter (agent_record w r)).trans filter
  sent := sent_record
  heard := heard_record
  drawn _ there := List.mem_append_left _ there
  made p there := by
    rcases List.mem_append.mp there with old | new
    · exact Or.inl old
    obtain ⟨packet, member, rfl⟩ := List.mem_map.mp new
    obtain ⟨signed, encoded, fresh, answers⟩ := made packet member
    refine Or.inr ⟨rfl, signed, encoded, ?_, ?_⟩
    · intro asks
      obtain ⟨known, unknown⟩ := fresh asks
      refine ⟨List.mem_append_right _ known, unknown, ?_⟩
      intro q there' unsent asks' equal
      obtain ⟨packet', member', rfl⟩ :=
        List.mem_map.mp ((List.mem_append.mp there').resolve_left unsent)
      have listed : ∀ p ∈ b.2.1, p.message.messageClass = .request →
          p ∈ b.2.1.filter (fun p => p.message.messageClass = .request) :=
        fun p sent asks => List.mem_filter.mpr ⟨sent, decide_eq_true asks⟩
      rw [List.inj_on_of_nodup_map once (listed packet member asks) (listed packet' member' asks')
        equal]
    · intro replies
      obtain ⟨q, sent, by_, asks, same, source, arrived⟩ := answers replies
      exact ⟨q, sent_record q sent, by_, asks, same, source, List.mem_append_right _ arrived⟩
  outstanding e there := by
    rw [agent_record] at there
    rcases outstanding e there with old | ⟨p, sent, asks, origin⟩
    · exact Or.inl old
    · exact Or.inr ⟨(r, p), List.mem_append_right _ (List.mem_map_of_mem sent), rfl, asks, origin⟩
  pairs pair there := by
    rw [agent_record] at there
    exact pairs pair there
  reports q here remote rung probes there := by
    rcases List.mem_append.mp there with old | new
    · exact Or.inl old
    · obtain ⟨event, said, same⟩ := List.mem_map.mp new
      obtain ⟨rfl, rfl⟩ := Prod.mk.inj same
      rcases nominated here remote rung probes (Option.mem_toList.mp said) with
        ⟨controlling, admitted, good⟩ | ⟨controlled, told⟩
      · exact Or.inr (Or.inl ⟨rfl, controlling, admitted, good⟩)
      · exact Or.inr (Or.inr ⟨rfl, controlled, told⟩)

theorem Sound.add (sound : Sound codec creds w) {a : IceAgent}
    (role : a.role = (w.agent r).role) (filter : a.remoteFilter = (w.agent r).remoteFilter)
    (outstanding : a.outstanding = (w.agent r).outstanding)
    (pairs : ∀ pair ∈ a.pairs,
      (pair.2.inboundOk = true → ∃ s, (pair.1, s) ∈ (w.agent r).pairs ∧ s.inboundOk = true) ∧
      (pair.2.outboundOk = true → ∃ s, (pair.1, s) ∈ (w.agent r).pairs ∧ s.outboundOk = true)) :
    Sound codec creds (w.record r (a, [], none) [] []) := by
  refine sound.extend (extends_record role filter (fun _ there => absurd there List.not_mem_nil) List.nodup_nil
    (fun e there => Or.inl (outstanding ▸ there)) ?_ (fun _ _ _ _ said => by cases said))
  intro pair there
  obtain ⟨inbound, outbound⟩ := pairs pair there
  exact ⟨fun ok => Or.inr (inbound ok), fun ok => Or.inr (outbound ok)⟩

theorem Sound.addLocal (sound : Sound codec creds w) (r : IceRole) (c : Candidate) :
    Sound codec creds (w.record r ((w.agent r).addLocal c, [], none) [] []) := by
  have same : ((w.agent r).addLocal c).pairs = (w.agent r).pairs ∧
      ((w.agent r).addLocal c).role = (w.agent r).role ∧
      ((w.agent r).addLocal c).remoteFilter = (w.agent r).remoteFilter ∧
      ((w.agent r).addLocal c).outstanding = (w.agent r).outstanding := by
    unfold IceAgent.addLocal
    split <;> exact ⟨rfl, rfl, rfl, rfl⟩
  refine sound.add same.2.1 same.2.2.1 same.2.2.2 ?_
  intro pair there
  rw [same.1] at there
  exact ⟨fun ok => ⟨pair.2, there, ok⟩, fun ok => ⟨pair.2, there, ok⟩⟩

theorem Sound.addRemote (sound : Sound codec creds w) (r : IceRole) (c : Candidate) :
    Sound codec creds (w.record r ((w.agent r).addRemote c, [], none) [] []) := by
  refine sound.add rfl rfl rfl ?_
  intro pair there
  rcases Pairs.mem_entry there with old | ⟨s, same, origin⟩
  · exact ⟨fun ok => ⟨pair.2, old, ok⟩, fun ok => ⟨pair.2, old, ok⟩⟩
  · -- Priority and kind are all an offered candidate sets.
    have kept : pair.2.inboundOk = s.inboundOk ∧ pair.2.outboundOk = s.outboundOk := by
      rw [same]
      dsimp only
      split <;> exact ⟨rfl, rfl⟩
    have before : ∀ flag : PairState → Bool, flag {} = false → flag s = true →
        ∃ s, (pair.1, s) ∈ (w.agent r).pairs ∧ flag s = true := by
      intro flag clear set
      rcases origin with member | fresh
      · exact ⟨s, same ▸ member, set⟩
      · rw [fresh, clear] at set
        cases set
    refine ⟨fun ok => ?_, fun ok => ?_⟩
    · exact before PairState.inboundOk rfl (kept.1 ▸ ok)
    · exact before PairState.outboundOk rfl (kept.2 ▸ ok)

theorem Sound.turn (sound : Sound codec creds w) {localAddr : SocketAddr} {now : Nat}
    {sends : List CheckSend} {tid : TransactionId}
    (unforged : w.Unforged codec creds (.turn r localAddr now sends tid)) :
    Sound codec creds (w.record r ((w.agent r).turn codec creds localAddr now sends tid) []
      (tid :: sends.map CheckSend.tid)) := by
  obtain ⟨nodup, fresh⟩ := unforged
  have turned := @IceAgent.turned_turn codec creds (w.agent r) localAddr now sends tid
  have role := sound.role r
  refine sound.extend (extends_record turned.role turned.filter ?_ (turned.once.nodup nodup)
    turned.outstanding ?_ ?_)
  · intro p there
    rcases turned.packets p there with ⟨pair, -, send, drawn, built⟩ | ⟨controlling, remote, t, built⟩
    · obtain ⟨-, direction, message, encoded⟩ := finish_eq_some built
      refine ⟨?_, ?_, ?_, ?_⟩
      · simp only [Signed, message, direction, role]
      · rw [message, direction]
        exact encoded
      · intro _
        rw [message]
        exact ⟨List.mem_cons_of_mem _ (List.mem_map_of_mem drawn), fresh send drawn⟩
      · intro replies
        rw [message] at replies
        cases replies
    · obtain ⟨-, direction, message, encoded⟩ := finish_eq_some built
      rw [role] at controlling
      refine ⟨?_, ?_, ?_, ?_⟩
      · simp only [Signed, message, direction, role]
        exact ⟨trivial, controlling⟩
      · rw [message, direction]
        exact encoded
      · intro asks
        rw [message] at asks
        cases asks
      · intro replies
        rw [message] at replies
        cases replies
  · intro pair there
    obtain ⟨s, member, inbound, outbound⟩ := turned.pairs pair there
    exact ⟨fun ok => Or.inr ⟨s, member, inbound ▸ ok⟩, fun ok => Or.inr ⟨s, member, outbound ▸ ok⟩⟩
  · intro here remote rung probes said
    obtain ⟨controlling, admitted, good⟩ := turned.nominated here remote rung probes said
    rw [role] at controlling
    exact Or.inl ⟨controlling, admitted, good⟩

end Steps

section Crossed
variable {codec : StunCodec} {creds : IceCredentials} {w : IceWorld} {r : IceRole}

theorem password_injective (apart : creds.c2h.password ≠ creds.h2c.password) {d d' : Direction}
    (same : creds.password d = creds.password d') : d = d' := by
  cases d with
  | clientToHost =>
      cases d' with
      | clientToHost => rfl
      | hostToClient => exact absurd same apart
  | hostToClient =>
      cases d' with
      | clientToHost => exact absurd same.symm apart
      | hostToClient => rfl

/-- What parses is a message of one of the agents, in the direction it was signed. -/
theorem Sound.parsed (faithful : codec.Faithful creds) (apart : creds.c2h.password ≠ creds.h2c.password)
    (sound : Sound codec creds w) {p : IceRole × Packet} (sent : p ∈ w.sent) {d : Direction}
    {check : Check} (parsed : parseCheck codec creds d p.2.bytes = some check) :
    p.2.direction = d ∧ checkKind p.2.message.messageClass = some check.kind ∧
      p.2.message.tid = check.tid := by
  obtain ⟨message, integrity, decoded, verified, kind, tid⟩ := parseCheck_eq_some parsed
  obtain ⟨integrity', decoded', only⟩ := faithful _ _ _ (sound.made p sent).2
  rw [decoded] at decoded'
  simp only [Option.some.injEq, Decoded.mk.injEq] at decoded'
  obtain ⟨rfl, rfl⟩ := decoded'
  exact ⟨(password_injective apart ((only _).mp verified)).symm, kind, tid⟩

theorem checkKind_eq {c : MessageClass} {kind : CheckKind} (known : checkKind c = some kind) :
    (kind = .request → c = .request) ∧ (kind = .successResponse → c = .successResponse) ∧
      (kind = .nomination → c = .indication) := by
  cases c with
  | request | successResponse | indication =>
      cases known
      exact ⟨by simp, by simp, by simp⟩
  | errorResponse => cases known

/-- The crossed credentials: by direction and class a message tells its maker. -/
theorem maker_of_signed {p : IceRole × Packet} (signed : Signed p) :
    (p.2.message.messageClass = .request → p.2.direction = IceCredentials.inbound r →
      p.1 = r.peer) ∧
    (p.2.message.messageClass = .successResponse → p.2.direction = IceCredentials.outbound r →
      p.1 = r.peer) ∧
    (p.2.message.messageClass = .indication → p.1 = .controlling) := by
  have crossed : ∀ q r : IceRole, IceCredentials.outbound q = IceCredentials.inbound r →
      q = r.peer := by
    intro q r same
    cases q <;> cases r <;> first | rfl | cases same
  have crossed' : ∀ q r : IceRole, IceCredentials.inbound q = IceCredentials.outbound r →
      q = r.peer := by
    intro q r same
    cases q <;> cases r <;> first | rfl | cases same
  refine ⟨?_, ?_, ?_⟩
  · intro asks direction
    simp only [Signed, asks] at signed
    exact crossed _ _ (signed.symm.trans direction)
  · intro replies direction
    simp only [Signed, replies] at signed
    exact crossed' _ _ (signed.symm.trans direction)
  · intro nominates
    simp only [Signed, nominates] at signed
    exact signed.2

theorem mem_heard_record (source : SocketAddr) (bytes : List UInt8)
    (b : IceAgent × List Packet × Option IceEvent) :
    (r, source, bytes) ∈ (w.record r b [(r, source, bytes)] []).heard :=
  List.mem_append_right _ List.mem_cons_self

/-- A request of the peer is answered. -/
theorem Sound.heardRequest (faithful : codec.Faithful creds)
    (apart : creds.c2h.password ≠ creds.h2c.password) (sound : Sound codec creds w)
    {source : SocketAddr} {p : IceRole × Packet} {check : Check} (sent : p ∈ w.sent)
    (parsed : parseCheck codec creds (IceCredentials.inbound (w.agent r).role) p.2.bytes = some check)
    (kind : check.kind = .request) :
    Sound codec creds (w.record r (((w.agent r).onRequest codec creds source check).1,
      ((w.agent r).onRequest codec creds source check).2, none) [(r, source, p.2.bytes)] []) := by
  have role := sound.role r
  obtain ⟨direction, known, tid⟩ := sound.parsed faithful apart sent parsed
  have asks := (checkKind_eq known).1 kind
  rw [role] at direction
  have by_ : p.1 = r.peer := (maker_of_signed (sound.made p sent).1).1 asks direction
  refine sound.extend (extends_record rfl rfl ?_ ?_ (fun e there => Or.inl there) ?_
    (fun _ _ _ _ said => by cases said))
  · intro packet there
    have built := Option.mem_toList.mp there
    obtain ⟨-, direction', message, encoded⟩ := finish_eq_some built
    refine ⟨?_, ?_, ?_, ?_⟩
    · simp only [Signed, message, direction', role]
    · rw [message, direction']
      exact encoded
    · intro asks'
      rw [message] at asks'
      cases asks'
    · intro _
      refine ⟨p, sent, by_, asks, ?_, source, List.mem_cons_self⟩
      rw [message]
      exact tid
  · rw [List.filter_eq_nil_iff.mpr]
    · exact List.nodup_nil
    · intro packet there
      have built := Option.mem_toList.mp there
      simp [(finish_eq_some built).2.2.1]
  · intro pair there
    rcases Pairs.mem_entry there with old | ⟨s, same, origin⟩
    · exact ⟨fun ok => Or.inr ⟨pair.2, old, ok⟩, fun ok => Or.inr ⟨pair.2, old, ok⟩⟩
    · rw [same]
      refine ⟨fun _ => Or.inl ⟨p, sent_record p sent, by_, asks, mem_heard_record _ _ _⟩, fun ok => Or.inr ?_⟩
      rcases origin with member | fresh
      · exact ⟨s, member, ok⟩
      · rw [fresh] at ok
        cases ok

/-- The controlling agent's nomination is taken. -/
theorem Sound.heardNomination (faithful : codec.Faithful creds)
    (apart : creds.c2h.password ≠ creds.h2c.password) (sound : Sound codec creds w)
    {source : SocketAddr} {p : IceRole × Packet} {check : Check} (sent : p ∈ w.sent)
    {localAddr : SocketAddr}
    (parsed : parseCheck codec creds (IceCredentials.inbound (w.agent r).role) p.2.bytes = some check)
    (kind : check.kind = .nomination) (controlled : (w.agent r).role = .controlled) :
    Sound codec creds (w.record r ({ w.agent r with nominated := some source, done := true }, [],
      some ({ w.agent r with nominated := some source, done := true }.nominatedEvent localAddr source))
      [(r, source, p.2.bytes)] []) := by
  have role := sound.role r
  obtain ⟨-, known, -⟩ := sound.parsed faithful apart sent parsed
  have nominates := (checkKind_eq known).2.2 kind
  have by_ : p.1 = .controlling := (maker_of_signed (r := r) (sound.made p sent).1).2.2 nominates
  rw [role] at controlled
  subst controlled
  refine sound.extend (extends_record rfl rfl (fun _ there => absurd there List.not_mem_nil) List.nodup_nil
    (fun e there => Or.inl there) ?_ ?_)
  · intro pair there
    exact ⟨fun ok => Or.inr ⟨pair.2, there, ok⟩, fun ok => Or.inr ⟨pair.2, there, ok⟩⟩
  · intro here remote rung probes said
    simp only [IceAgent.nominatedEvent, Option.some.injEq, IceEvent.nominated.injEq] at said
    rw [← said.2.1]
    exact Or.inr ⟨rfl, p, sent_record p sent, by_, nominates, mem_heard_record _ _ _⟩

/-- An answer of the peer confirms the address the request went to. -/
theorem Sound.heardResponse (faithful : codec.Faithful creds)
    (apart : creds.c2h.password ≠ creds.h2c.password) (sound : Sound codec creds w)
    {source : SocketAddr} {p : IceRole × Packet} {check : Check} (sent : p ∈ w.sent)
    {now sentAt : Nat} {remote : SocketAddr}
    (parsed : parseCheck codec creds (IceCredentials.outbound (w.agent r).role) p.2.bytes = some check)
    (kind : check.kind = .successResponse)
    (member : (check.tid, remote, sentAt) ∈ (w.agent r).outstanding) :
    Sound codec creds (w.record r (((w.agent r).onResponse now check remote sentAt).1, [],
      ((w.agent r).onResponse now check remote sentAt).2) [(r, source, p.2.bytes)] []) := by
  have role := sound.role r
  obtain ⟨direction, known, tid⟩ := sound.parsed faithful apart sent parsed
  have replies := (checkKind_eq known).2.1 kind
  rw [role] at direction
  have by_ : p.1 = r.peer := (maker_of_signed (sound.made p sent).1).2.1 replies direction
  obtain ⟨q, asked, by', asks, same, to_⟩ := sound.outstanding r _ member
  -- The peer made its answer for this very request, since no other has its id.
  obtain ⟨q', asked', -, asks', same', at_, arrived⟩ := sound.answers p sent replies
  have equal : q' = q := by
    refine sound.unique q' asked' q asked asks' asks ?_
    rw [same', same, tid]
  subst equal
  rw [by_] at arrived
  obtain ⟨role', filter, outstanding, pairs, never⟩ :=
    (w.agent r).onResponse_fields now check remote sentAt
  refine sound.extend (extends_record role' filter (fun _ there => absurd there List.not_mem_nil) List.nodup_nil
    (fun e there => Or.inl (outstanding e there)) ?_
    (fun here there rung probes said => absurd said (never here there rung probes)))
  intro pair there
  have there' : pair ∈ (w.agent r).pairs.modify remote fun s => { s with outboundOk := true } :=
    pairs ▸ there
  rcases Pairs.mem_modify there' with old | ⟨s, same'', old⟩
  · exact ⟨fun ok => Or.inr ⟨pair.2, old, ok⟩, fun ok => Or.inr ⟨pair.2, old, ok⟩⟩
  · rw [same'']
    refine ⟨fun ok => Or.inr ⟨s, old, ok⟩, fun _ => Or.inl ?_⟩
    exact ⟨q', sent_record q' asked', by', asks, to_, ⟨at_, heard_record _ arrived⟩, p,
      sent_record p sent, by_, replies, tid.trans same.symm, source, mem_heard_record _ _ _⟩

theorem Sound.datagram (faithful : codec.Faithful creds)
    (apart : creds.c2h.password ≠ creds.h2c.password) (sound : Sound codec creds w)
    {localAddr : SocketAddr} {now : Nat} {source : SocketAddr} {bytes : List UInt8}
    (unforged : (∃ d, Verifies codec creds d bytes) → ∃ p ∈ w.sent, p.2.bytes = bytes) :
    Sound codec creds (w.record r ((w.agent r).onDatagram codec creds localAddr now source bytes)
      [(r, source, bytes)] []) := by
  rcases @IceAgent.onDatagram_cases codec creds (w.agent r) localAddr now source bytes with
    nothing | ⟨check, parsed, kind, result⟩ | ⟨check, parsed, kind, controlled, result⟩ |
    ⟨check, remote, sentAt, parsed, kind, member, result⟩
  · rw [nothing]
    refine sound.extend (extends_record rfl rfl (fun _ there => absurd there List.not_mem_nil) List.nodup_nil
      (fun e there => Or.inl there) ?_ (fun _ _ _ _ said => by cases said))
    intro pair there
    exact ⟨fun ok => Or.inr ⟨pair.2, there, ok⟩, fun ok => Or.inr ⟨pair.2, there, ok⟩⟩
  · rw [result]
    obtain ⟨p, sent, rfl⟩ := unforged ⟨_, verifies_of_parseCheck parsed⟩
    exact sound.heardRequest faithful apart sent parsed kind
  · rw [result]
    obtain ⟨p, sent, rfl⟩ := unforged ⟨_, verifies_of_parseCheck parsed⟩
    exact sound.heardNomination faithful apart sent parsed kind controlled
  · rw [result]
    obtain ⟨p, sent, rfl⟩ := unforged ⟨_, verifies_of_parseCheck parsed⟩
    exact sound.heardResponse faithful apart sent parsed kind member

theorem Sound.step (faithful : codec.Faithful creds) (apart : creds.c2h.password ≠ creds.h2c.password)
    (sound : Sound codec creds w) {e : IceInput} (unforged : w.Unforged codec creds e)
    {w' : IceWorld} (taken : w.step codec creds e = some w') : Sound codec creds w' := by
  cases e with
  | addLocal r c =>
      cases taken
      exact sound.addLocal r c
  | addRemote r c =>
      cases taken
      exact sound.addRemote r c
  | turn r localAddr now sends tid =>
      cases taken
      exact sound.turn unforged
  | datagram r localAddr now source bytes =>
      simp only [IceWorld.step] at taken
      split at taken
      next => cases taken
      next =>
        cases taken
        exact sound.datagram faithful apart unforged

theorem Fresh.sound (fresh : w.Fresh) : Sound codec creds w := by
  obtain ⟨sent, heard, reports, drawn, agents⟩ := fresh
  have unsent : ∀ p, p ∉ w.sent := by
    intro p
    rw [sent]
    exact List.not_mem_nil
  refine ⟨?_, ?_, ?_, ?_, ?_, ?_, ?_, ?_, ?_⟩
  · intro r
    obtain ⟨_, _, agent⟩ := agents r
    rw [agent]
  · exact fun p there => absurd there (unsent p)
  · exact fun p there => absurd there (unsent p)
  · exact fun p there => absurd there (unsent p)
  · exact fun p there => absurd there (unsent p)
  · intro r e there
    obtain ⟨_, _, agent⟩ := agents r
    rw [agent] at there
    cases there
  · intro r pair there
    obtain ⟨_, _, agent⟩ := agents r
    rw [agent] at there
    cases there
  · intro here remote rung probes there
    rw [reports] at there
    cases there
  · intro here remote rung probes there
    rw [reports] at there
    cases there

theorem Sound.reflected (faithful : codec.Faithful creds)
    (apart : creds.c2h.password ≠ creds.h2c.password) (sound : Sound codec creds w)
    {p : IceRole × Packet} (sent : p ∈ w.sent) (localAddr : SocketAddr) (now : Nat)
    (source : SocketAddr) :
    (w.agent p.1).onDatagram codec creds localAddr now source p.2.bytes = (w.agent p.1, [], none) := by
  have role := sound.role p.1
  have signed := (sound.made p sent).1
  have itself : p.1 ≠ p.1.peer := by
    cases p.1 with
    | controlling | controlled => exact nofun
  rcases @IceAgent.onDatagram_cases codec creds (w.agent p.1) localAddr now source p.2.bytes with
    nothing | ⟨check, parsed, kind, -⟩ | ⟨check, parsed, kind, controlled, -⟩ |
    ⟨check, remote, sentAt, parsed, kind, -, -⟩
  · exact nothing
  · obtain ⟨direction, known, -⟩ := sound.parsed faithful apart sent parsed
    rw [role] at direction
    exact absurd ((maker_of_signed signed).1 ((checkKind_eq known).1 kind) direction) itself
  · obtain ⟨-, known, -⟩ := sound.parsed faithful apart sent parsed
    rw [role, (maker_of_signed (r := p.1) signed).2.2 ((checkKind_eq known).2.2 kind)] at controlled
    cases controlled
  · obtain ⟨direction, known, -⟩ := sound.parsed faithful apart sent parsed
    rw [role] at direction
    exact absurd ((maker_of_signed signed).2.1 ((checkKind_eq known).2.1 kind) direction) itself

end Crossed

/-- A datagram as it is handed to an agent. -/
structure Delivery where
  localAddr : SocketAddr
  now : Nat
  source : SocketAddr
  bytes : List UInt8

/-- A number of datagrams one after the other, with all that is sent and reported. -/
def deliver (codec : StunCodec) (creds : IceCredentials) (a : IceAgent) :
    List Delivery → IceAgent × List Packet × List IceEvent
  | [] => (a, [], [])
  | d :: rest =>
      let (a, packets, event) := a.onDatagram codec creds d.localAddr d.now (unmap d.source) d.bytes
      let (a, further, events) := deliver codec creds a rest
      (a, packets ++ further, event.toList ++ events)

/-- The controlling agent nominates on a request and on an answer of its peer, the
controlled one on being told by the controlling one, and an agent's own messages
leave it as it is. -/
theorem ice_accepts_only_authenticated_paths {codec : StunCodec} {creds : IceCredentials}
    {start w : IceWorld} (faithful : codec.Faithful creds)
    (apart : creds.c2h.password ≠ creds.h2c.password) (fresh : start.Fresh)
    (run : Reaches (step codec creds) (Unforged codec creds) start w) :
    (∀ here remote rung probes,
      (.controlling, IceEvent.nominated here remote rung probes) ∈ w.reports →
        w.Reached .controlling remote ∧ w.Answered .controlling remote ∧
        (w.agent .controlling).admits remote = true) ∧
    (∀ here remote rung probes,
      (.controlled, IceEvent.nominated here remote rung probes) ∈ w.reports → w.Told remote) ∧
    ∀ r (copies : List Delivery),
      (∀ copy ∈ copies, ∃ p ∈ w.sent, p.1 = r ∧ p.2.bytes = copy.bytes) →
      deliver codec creds (w.agent r) copies = (w.agent r, [], []) := by
  have sound : Sound codec creds w :=
    run.invariant (fun _ _ _ sound unforged taken => Sound.step faithful apart sound unforged taken)
      fresh.sound
  refine ⟨sound.controlling, sound.controlled, ?_⟩
  intro r copies
  induction copies with
  | nil => exact fun _ => rfl
  | cons copy copies ih =>
      intro own
      obtain ⟨p, sent, rfl, same⟩ := own copy List.mem_cons_self
      rw [deliver, ← same, sound.reflected faithful apart sent]
      dsimp only
      rw [ih fun c there => own c (List.mem_cons_of_mem copy there)]
      rfl

/-- A network that only carries what the agents have made. -/
def Carried (w : IceWorld) : IceInput → Prop
  | .turn _ _ _ sends _ => (sends.map CheckSend.tid).Nodup ∧ ∀ send ∈ sends, send.tid ∉ w.drawn
  | .datagram _ _ _ _ bytes => ∃ p ∈ w.sent, p.2.bytes = bytes
  | _ => True

instance (w : IceWorld) (e : IceInput) : Decidable (w.Carried e) :=
  match e with
  | .turn _ _ _ sends _ => inferInstanceAs (Decidable (_ ∧ ∀ send ∈ sends, send.tid ∉ w.drawn))
  | .datagram _ _ _ _ bytes => inferInstanceAs (Decidable (∃ p ∈ w.sent, p.2.bytes = bytes))
  | .addLocal _ _ | .addRemote _ _ => .isTrue trivial

section Handshake

def creds : IceCredentials :=
  ⟨⟨"QkfXHXnI", "e8kNyxoYzhY4MfGSCI_6JDbuh-4bSwuAPMY"⟩,
    ⟨"QLoHHSaE", "VDsrX9Db9aKub0sD81h55yVXPgsCXuY3HIU"⟩⟩

structure Sample where
  message : StunMessage
  direction : Direction
  bytes : List UInt8

/-- The messages of one handshake as they are on the wire: each end's request and its answer, and
the nomination. -/
def samples : List Sample :=
  [⟨{ messageClass := .request, tid := 2, username := some "QkfXHXnI:QLoHHSaE" }, .hostToClient,
      [0, 1, 0, 48, 33, 18, 164, 66, 0, 0, 0, 0, 0, 0, 0, 0, 0, 0, 0, 2, 0, 6, 0, 17, 81,
      107, 102, 88, 72, 88, 110, 73, 58, 81, 76, 111, 72, 72, 83, 97, 69, 0, 0, 0, 0, 8, 0,
      20, 251, 221, 45, 87, 169, 118, 217, 54, 6, 115, 139, 146, 72, 119, 180, 42, 57, 53,
      185, 53]⟩,
    ⟨{ messageClass := .successResponse, tid := 2, xorMappedAddress := some (.v4 7 7) }, .hostToClient,
      [1, 1, 0, 36, 33, 18, 164, 66, 0, 0, 0, 0, 0, 0, 0, 0, 0, 0, 0, 2, 0, 32, 0, 8, 0, 1,
      33, 21, 33, 18, 164, 69, 0, 8, 0, 20, 67, 135, 253, 77, 203, 36, 171, 25, 216, 19, 19,
      161, 168, 49, 100, 19, 128, 127, 133, 9]⟩,
    ⟨{ messageClass := .request, tid := 1, username := some "QLoHHSaE:QkfXHXnI" }, .clientToHost,
      [0, 1, 0, 48, 33, 18, 164, 66, 0, 0, 0, 0, 0, 0, 0, 0, 0, 0, 0, 1, 0, 6, 0, 17, 81, 76,
      111, 72, 72, 83, 97, 69, 58, 81, 107, 102, 88, 72, 88, 110, 73, 0, 0, 0, 0, 8, 0, 20,
      62, 4, 139, 25, 6, 167, 58, 156, 87, 172, 135, 107, 126, 196, 28, 74, 114, 233, 63,
      110]⟩,
    ⟨{ messageClass := .successResponse, tid := 1, xorMappedAddress := some (.v4 5 5) }, .clientToHost,
      [1, 1, 0, 36, 33, 18, 164, 66, 0, 0, 0, 0, 0, 0, 0, 0, 0, 0, 0, 1, 0, 32, 0, 8, 0, 1,
      33, 23, 33, 18, 164, 71, 0, 8, 0, 20, 186, 197, 56, 245, 132, 224, 154, 32, 240, 5,
      252, 192, 131, 129, 135, 2, 154, 166, 29, 197]⟩,
    ⟨{ messageClass := .indication, tid := 3, username := some "QLoHHSaE:QkfXHXnI" }, .clientToHost,
      [0, 17, 0, 48, 33, 18, 164, 66, 0, 0, 0, 0, 0, 0, 0, 0, 0, 0, 0, 3, 0, 6, 0, 17, 81,
      76, 111, 72, 72, 83, 97, 69, 58, 81, 107, 102, 88, 72, 88, 110, 73, 0, 0, 0, 0, 8, 0,
      20, 94, 33, 166, 123, 35, 0, 224, 115, 112, 221, 202, 159, 36, 53, 250, 219, 218, 240,
      142, 181]⟩]

def datagram (i : Nat) : List UInt8 := (samples[i]?).elim [] Sample.bytes

def codec : StunCodec where
  encode message password :=
    (samples.find? fun s => decide (s.message = message) && decide (creds.password s.direction = password)).map
      Sample.bytes
  decode datagram :=
    (samples.find? fun s => decide (s.bytes = datagram)).map fun s =>
      ⟨s.message, some fun password => decide (password = creds.password s.direction)⟩

theorem codec_faithful : codec.Faithful creds := by
  intro message d datagram encoded
  obtain ⟨s, found, rfl⟩ := Option.map_eq_some_iff.mp encoded
  have known := List.mem_of_find?_eq_some found
  have own : ∀ s ∈ samples, codec.decode s.bytes =
      some ⟨s.message.onWire, some fun password => decide (password = creds.password s.direction)⟩ := by
    simp only [samples, List.forall_mem_cons, List.not_mem_nil, false_implies, implies_true, and_true]
    exact ⟨rfl, rfl, rfl, rfl, rfl⟩
  have made := List.find?_some found
  rw [Bool.and_eq_true, decide_eq_true_eq, decide_eq_true_eq] at made
  refine ⟨_, made.1 ▸ own s known, fun other => ?_⟩
  rw [decide_eq_true_iff, made.2]

def endpoints : IceWorld where
  agent r := { role := r, gatherTimeout := 4000 }

/-- Both ends check each other, the client at `7` and the host at `5`. -/
def handshake : List IceInput :=
  [.addRemote .controlling ⟨.v4 7 7, .host, 1⟩, .addRemote .controlled ⟨.v4 5 5, .host, 1⟩,
    .turn .controlled (.v4 7 7) 0 [⟨2, true⟩] 0,
    .datagram .controlling (.v4 5 5) 1 (.v4 7 7) (datagram 0),
    .turn .controlling (.v4 5 5) 2 [⟨1, true⟩] 0,
    .datagram .controlled (.v4 7 7) 3 (.v4 5 5) (datagram 2),
    .datagram .controlling (.v4 5 5) 4 (.v4 7 7) (datagram 3),
    .turn .controlling (.v4 5 5) 5 [] 3,
    .datagram .controlled (.v4 7 7) 6 (.v4 5 5) (datagram 4)]

theorem ice_accepts_only_authenticated_paths_handshake :
    ∃ w, Reaches (step codec creds) (Unforged codec creds) endpoints w ∧
      (.controlling, IceEvent.nominated (.v4 5 5) (.v4 7 7) (.direct .v4) 1) ∈ w.reports ∧
      (.controlled, IceEvent.nominated (.v4 7 7) (.v4 5 5) (.direct .v4) 1) ∈ w.reports ∧
      w.Reached .controlling (.v4 7 7) ∧ w.Answered .controlling (.v4 7 7) ∧ w.Told (.v4 5 5) ∧
      deliver codec creds (w.agent .controlling)
        [⟨.v4 5 5, 9, .v4 5 5, datagram 2⟩, ⟨.v4 5 5, 9, .v4 7 7, datagram 1⟩] =
          (w.agent .controlling, [], []) := by
  have outcome : ((runFrom (step codec creds) endpoints handshake).map fun w =>
      (decide ((.controlling, IceEvent.nominated (.v4 5 5) (.v4 7 7) (.direct .v4) 1) ∈ w.reports),
        decide ((.controlled, IceEvent.nominated (.v4 7 7) (.v4 5 5) (.direct .v4) 1) ∈ w.reports),
        decide (∀ bytes ∈ [datagram 2, datagram 1], ∃ p ∈ w.sent, p.1 = .controlling ∧
          p.2.bytes = bytes))) = some (true, true, true) := by decide +kernel
  obtain ⟨w, run, shown⟩ := Option.map_eq_some_iff.mp outcome
  simp only [Prod.mk.injEq, decide_eq_true_eq] at shown
  obtain ⟨client, host, own⟩ := shown
  have carried : Admits (step codec creds) Carried endpoints handshake := by decide +kernel
  have unforged : Admits (step codec creds) (Unforged codec creds) endpoints handshake := by
    refine carried.mono ?_
    intro w e carried
    cases e with
    | addLocal | addRemote => trivial
    | turn => exact carried
    | datagram => exact fun _ => carried
  have reached := reaches_of_runFrom handshake unforged run
  have fresh : endpoints.Fresh := ⟨rfl, rfl, rfl, rfl, fun r => ⟨4000, none, rfl⟩⟩
  obtain ⟨nominated, told, reflected⟩ :=
    ice_accepts_only_authenticated_paths codec_faithful (by decide) fresh reached
  obtain ⟨arrived, answered, -⟩ := nominated _ _ _ _ client
  refine ⟨w, reached, client, host, arrived, answered, told _ _ _ _ host, ?_⟩
  refine reflected .controlling _ ?_
  intro copy there
  refine own copy.bytes ?_
  simp only [List.mem_cons, List.not_mem_nil, or_false] at there
  rcases there with rfl | rfl
  · exact List.mem_cons_self
  · exact List.mem_cons_of_mem _ List.mem_cons_self

end Handshake

end IceWorld
end Oxutrm.Net
