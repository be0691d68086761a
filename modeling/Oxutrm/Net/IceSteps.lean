import Oxutrm.Net.Ice

/-!
What one turn and one datagram do to an agent: which messages go out, and where
each fact the agent records comes from.
-/
namespace Oxutrm.Net

theorem maxBy_mem {α : Type} (le : α → α → Bool) {xs : List α} {x : α}
    (best : maxBy le xs = some x) : x ∈ xs := by
  have kept : ∀ y, maxBy le xs = some y → y ∈ xs := by
    rw [maxBy]
    refine List.foldlRecOn xs _ (motive := fun best => ∀ y, best = some y → y ∈ xs) ?_ ?_
    · intro y nothing
      cases nothing
    · intro best kept next member y found
      cases best with
      | none =>
          obtain rfl := Option.some.inj found
          exact member
      | some b =>
          dsimp only at found
          split at found
          next =>
            obtain rfl := Option.some.inj found
            exact member
          next => exact kept y found
  exact kept x best

namespace Pairs

/-- An entry is one that was there, or the one that was asked for. -/
theorem mem_entry {addr : SocketAddr} {fresh : PairState} {f : PairState → PairState}
    {pairs : Pairs} {pair : SocketAddr × PairState} (there : pair ∈ pairs.entry addr fresh f) :
    pair ∈ pairs ∨
      ∃ s, pair = (addr, f s) ∧ ((addr, s) ∈ pairs ∨ s = fresh) := by
  induction pairs with
  | nil =>
      rw [entry, List.mem_singleton] at there
      exact Or.inr ⟨fresh, there, Or.inr rfl⟩
  | cons head rest ih =>
      obtain ⟨a, s⟩ := head
      rw [entry] at there
      split at there
      next same =>
        subst same
        rcases List.mem_cons.mp there with here | further
        · exact Or.inr ⟨s, here, Or.inl List.mem_cons_self⟩
        · exact Or.inl (List.mem_cons_of_mem _ further)
      next =>
        split at there
        next =>
          rcases List.mem_cons.mp there with here | further
          · exact Or.inr ⟨fresh, here, Or.inr rfl⟩
          · exact Or.inl further
        next =>
          rcases List.mem_cons.mp there with here | further
          · exact Or.inl (here ▸ List.mem_cons_self)
          · rcases ih further with old | ⟨s', same, origin⟩
            · exact Or.inl (List.mem_cons_of_mem _ old)
            · exact Or.inr ⟨s', same, origin.imp_left (List.mem_cons_of_mem _)⟩

theorem mem_modify {addr : SocketAddr} {f : PairState → PairState} {pairs : Pairs}
    {pair : SocketAddr × PairState} (there : pair ∈ pairs.modify addr f) :
    pair ∈ pairs ∨ ∃ s, pair = (addr, f s) ∧ (addr, s) ∈ pairs := by
  obtain ⟨old, member, rfl⟩ := List.mem_map.mp there
  split
  next same =>
    subst same
    exact Or.inr ⟨old.2, rfl, member⟩
  next => exact Or.inl member

end Pairs

namespace IceAgent
variable {codec : StunCodec} {creds : IceCredentials}

/-- What sending checks leaves of an agent, and which requests it sends. -/
structure Checked (codec : StunCodec) (creds : IceCredentials) (sends : List CheckSend)
    (a : IceAgent) (b : IceAgent × List Packet) : Prop where
  role : b.1.role = a.role
  filter : b.1.remoteFilter = a.remoteFilter
  nominated : b.1.nominated = a.nominated
  deadline : b.1.deadline = a.deadline
  packets : ∀ p ∈ b.2, ∃ pair ∈ a.pairs, ∃ send ∈ sends,
    buildCheckRequest codec creds pair.1 (IceCredentials.outbound a.role) send.tid = some p
  once : (b.2.map fun p => p.message.tid).Sublist (sends.map CheckSend.tid)
  outstanding : ∀ e ∈ b.1.outstanding, e ∈ a.outstanding ∨
    ∃ p ∈ b.2, p.message.tid = e.1 ∧ p.remote = e.2.1
  pairs : ∀ pair ∈ b.1.pairs, ∃ s, (pair.1, s) ∈ a.pairs ∧ pair.2.inboundOk = s.inboundOk ∧
    pair.2.outboundOk = s.outboundOk

theorem checked_nil (a : IceAgent) : Checked codec creds [] a (a, []) where
  role := rfl
  filter := rfl
  nominated := rfl
  deadline := rfl
  packets _ member := nomatch member
  once := List.Sublist.refl []
  outstanding _ member := Or.inl member
  pairs pair member := ⟨pair.2, member, rfl, rfl⟩

theorem Checked.send {sends : List CheckSend} {a : IceAgent} {b : IceAgent × List Packet}
    (checked : Checked codec creds sends a b) {pair : SocketAddr × PairState}
    (member : pair ∈ a.pairs) (now : Nat) (send : CheckSend) :
    Checked codec creds (sends ++ [send]) a (sendCheck codec creds now b pair.1 send) := by
  have grown : ∀ p ∈ b.2, ∃ pair ∈ a.pairs, ∃ s ∈ sends ++ [send],
      buildCheckRequest codec creds pair.1 (IceCredentials.outbound a.role) s.tid = some p := by
    intro p there
    obtain ⟨pair, member, s, drawn, built⟩ := checked.packets p there
    exact ⟨pair, member, s, List.mem_append_left _ drawn, built⟩
  have longer : (b.2.map fun p => p.message.tid).Sublist ((sends ++ [send]).map CheckSend.tid) := by
    rw [List.map_append]
    exact checked.once.trans (List.sublist_append_left _ _)
  unfold sendCheck
  split
  next => exact ⟨checked.role, checked.filter, checked.nominated, checked.deadline, grown, longer,
    checked.outstanding, checked.pairs⟩
  next packet built =>
    split
    next =>
      rw [checked.role] at built
      obtain ⟨remote, -, message, -⟩ := finish_eq_some built
      refine ⟨checked.role, checked.filter, checked.nominated, checked.deadline, ?_, ?_, ?_, ?_⟩
      · intro p there
        rcases List.mem_append.mp there with old | new
        · exact grown p old
        · obtain rfl := List.mem_singleton.mp new
          exact ⟨pair, member, send, List.mem_append_right _ List.mem_cons_self, built⟩
      · simp only [List.map_append, List.map_cons, List.map_nil, message]
        exact checked.once.append (List.Sublist.refl [send.tid])
      · intro e there
        rcases List.mem_cons.mp there with new | old
        · refine Or.inr ⟨packet, List.mem_append_right _ List.mem_cons_self, ?_, ?_⟩
          · rw [message, new]
          · rw [remote, new]
        · rcases checked.outstanding e (List.mem_of_mem_filter old) with before | ⟨p, sent, origin⟩
          · exact Or.inl before
          · exact Or.inr ⟨p, List.mem_append_left _ sent, origin⟩
      · intro pair' there
        have found : pair' ∈ b.1.pairs.modify pair.1 fun s => { s with lastSent := some now } := there
        rcases Pairs.mem_modify found with old | ⟨s, same, old⟩
        · exact checked.pairs pair' old
        · obtain ⟨s', origin, inbound, outbound⟩ := checked.pairs _ old
          rw [same]
          exact ⟨s', origin, inbound, outbound⟩
    next => exact ⟨checked.role, checked.filter, checked.nominated, checked.deadline, grown, longer,
      checked.outstanding, checked.pairs⟩

theorem mem_due {a : IceAgent} {now : Nat} {remote : SocketAddr} (due : remote ∈ a.due now) :
    ∃ s, (remote, s) ∈ a.pairs := by
  obtain ⟨pair, member, rfl⟩ := List.mem_map.mp due
  exact ⟨pair.2, List.mem_of_mem_filter member⟩

theorem checked_sendDueChecks (a : IceAgent) (now : Nat) (sends : List CheckSend) :
    Checked codec creds sends a (a.sendDueChecks codec creds now sends) := by
  have general : ∀ (work : List (SocketAddr × CheckSend)) (done : List CheckSend)
      (b : IceAgent × List Packet), (∀ item ∈ work, ∃ s, (item.1, s) ∈ a.pairs) →
      Checked codec creds done a b →
      Checked codec creds (done ++ work.map Prod.snd) a
        (work.foldl (fun acc pair => sendCheck codec creds now acc pair.1 pair.2) b) := by
    intro work
    induction work with
    | nil =>
        intro done b _ checked
        rw [List.map_nil, List.append_nil]
        exact checked
    | cons item work ih =>
        intro done b known checked
        obtain ⟨s, member⟩ := known item List.mem_cons_self
        have next := checked.send member now item.2
        have rest := ih (done ++ [item.2]) _ (fun i there => known i (List.mem_cons_of_mem _ there)) next
        rwa [List.append_assoc] at rest
  have known : ∀ item ∈ (a.due now).zip sends, ∃ s, (item.1, s) ∈ a.pairs :=
    fun item member => mem_due (List.of_mem_zip member).1
  have all := general ((a.due now).zip sends) [] (a, []) known (checked_nil a)
  rw [List.nil_append] at all
  have taken : (((a.due now).zip sends).map Prod.snd).Sublist sends := by
    rw [List.zip_eq_zip_take_min, List.map_snd_zip (by simp)]
    exact List.take_sublist _ _
  refine ⟨all.role, all.filter, all.nominated, all.deadline, ?_, all.once.trans (taken.map _),
    all.outstanding, all.pairs⟩
  intro p there
  obtain ⟨pair, member, send, drawn, built⟩ := all.packets p there
  exact ⟨pair, member, send, taken.subset drawn, built⟩

/-- When the socket takes every check, every pair that is due one gets it. -/
theorem sendDueChecks_reaches (encodes : ∀ message password, codec.encode message password ≠ none)
    (a : IceAgent) (now : Nat) {sends : List CheckSend} (enough : (a.due now).length ≤ sends.length)
    (taken : ∀ send ∈ sends, send.taken = true) {remote : SocketAddr} (due : remote ∈ a.due now) :
    ∃ p ∈ (a.sendDueChecks codec creds now sends).2, p.remote = remote := by
  have general : ∀ (work : List (SocketAddr × CheckSend)) (b : IceAgent × List Packet),
      (∀ item ∈ work, item.2.taken = true) →
      (∀ p ∈ b.2, p ∈ (work.foldl (fun acc pair =>
        sendCheck codec creds now acc pair.1 pair.2) b).2) ∧
      ∀ item ∈ work, ∃ p ∈ (work.foldl (fun acc pair =>
        sendCheck codec creds now acc pair.1 pair.2) b).2, p.remote = item.1 := by
    intro work
    induction work with
    | nil => exact fun b _ => ⟨fun _ there => there, fun _ there => nomatch there⟩
    | cons item work ih =>
        intro b all
        obtain ⟨keeps, reaches⟩ := ih (sendCheck codec creds now b item.1 item.2)
          fun i there => all i (List.mem_cons_of_mem _ there)
        obtain ⟨packet, built⟩ := Option.ne_none_iff_exists'.mp
          (show buildCheckRequest codec creds item.1 (IceCredentials.outbound b.1.role) item.2.tid
            ≠ none from Option.map_eq_none_iff.not.mpr (encodes _ _))
        have sent : (sendCheck codec creds now b item.1 item.2).2 = b.2 ++ [packet] := by
          simp only [sendCheck, built, all item List.mem_cons_self, if_true]
        refine ⟨?_, ?_⟩
        · intro p there
          refine keeps p ?_
          rw [sent]
          exact List.mem_append_left _ there
        · intro i there
          rcases List.mem_cons.mp there with rfl | there
          · refine ⟨packet, keeps packet ?_, (finish_eq_some built).1⟩
            rw [sent]
            exact List.mem_append_right _ List.mem_cons_self
          · exact reaches i there
  obtain ⟨-, reaches⟩ := general ((a.due now).zip sends) (a, [])
    fun item there => taken _ (List.of_mem_zip there).2
  have zipped : remote ∈ ((a.due now).zip sends).map Prod.fst := by
    rwa [List.map_fst_zip enough]
  obtain ⟨item, there, rfl⟩ := List.mem_map.mp zipped
  exact reaches item there

theorem bestValidated_mem {a : IceAgent} {remote : SocketAddr}
    (best : a.bestValidated = some remote) :
    ∃ s, (remote, s) ∈ a.pairs ∧ s.outboundOk = true ∧ s.inboundOk = true ∧
      a.admits remote = true := by
  obtain ⟨pair, found, rfl⟩ := Option.map_eq_some_iff.mp best
  obtain ⟨member, good⟩ := List.mem_filter.mp (maxBy_mem _ found)
  obtain ⟨valid, admitted⟩ := Bool.and_eq_true_iff.mp good
  obtain ⟨outbound, inbound⟩ := Bool.and_eq_true_iff.mp valid
  exact ⟨pair.2, member, outbound, inbound, admitted⟩

theorem mem_nominate {a : IceAgent} {localAddr remote : SocketAddr} {tid : TransactionId}
    {p : Packet} (sent : p ∈ (a.nominate codec creds localAddr remote tid).2.1) :
    buildNomination codec creds remote (IceCredentials.outbound a.role) tid = some p := by
  simp only [nominate] at sent
  split at sent
  next packet built =>
    simp only [List.mem_cons, List.not_mem_nil, or_false, or_self] at sent
    rw [built, sent]
  next => cases sent

theorem nominate_event {a : IceAgent} {localAddr remote : SocketAddr} {tid : TransactionId}
    {here there : SocketAddr} {rung : Rung} {probes : Nat}
    (said : (a.nominate codec creds localAddr remote tid).2.2 =
      some (.nominated here there rung probes)) : remote = there := by
  simp only [nominate, nominatedEvent, Option.some.injEq, IceEvent.nominated.injEq] at said
  exact said.2.1

/-- What a turn leaves of an agent, and which messages it sends. -/
structure Turned (codec : StunCodec) (creds : IceCredentials) (sends : List CheckSend)
    (a : IceAgent) (b : IceAgent × List Packet × Option IceEvent) : Prop where
  role : b.1.role = a.role
  filter : b.1.remoteFilter = a.remoteFilter
  packets : ∀ p ∈ b.2.1,
    (∃ pair ∈ a.pairs, ∃ send ∈ sends,
      buildCheckRequest codec creds pair.1 (IceCredentials.outbound a.role) send.tid = some p) ∨
    (a.role = .controlling ∧ ∃ remote tid,
      buildNomination codec creds remote (IceCredentials.outbound a.role) tid = some p)
  once : ((b.2.1.filter fun p => p.message.messageClass = .request).map
    fun p => p.message.tid).Sublist (sends.map CheckSend.tid)
  outstanding : ∀ e ∈ b.1.outstanding, e ∈ a.outstanding ∨
    ∃ p ∈ b.2.1, p.message.messageClass = .request ∧ p.message.tid = e.1 ∧ p.remote = e.2.1
  pairs : ∀ pair ∈ b.1.pairs, ∃ s, (pair.1, s) ∈ a.pairs ∧ pair.2.inboundOk = s.inboundOk ∧
    pair.2.outboundOk = s.outboundOk
  nominated : ∀ here remote rung probes, b.2.2 = some (.nominated here remote rung probes) →
    a.role = .controlling ∧ a.admits remote = true ∧
      ∃ s, (remote, s) ∈ a.pairs ∧ s.outboundOk = true ∧ s.inboundOk = true

theorem turned_idle {sends : List CheckSend} {a : IceAgent} (deadline : Option Nat) (done : Bool)
    (why : IceFailure) :
    Turned codec creds sends a ({ a with deadline, done }, [], some (.failed why)) where
  role := rfl
  filter := rfl
  packets _ member := nomatch member
  once := List.nil_sublist _
  outstanding _ member := Or.inl member
  pairs pair member := ⟨pair.2, member, rfl, rfl⟩
  nominated _ _ _ _ said := nomatch said

theorem isRequest_of_checked {sends : List CheckSend} {a : IceAgent} {b : IceAgent × List Packet}
    (checked : Checked codec creds sends a b) {p : Packet} (sent : p ∈ b.2) :
    p.message.messageClass = .request := by
  obtain ⟨pair, -, send, -, built⟩ := checked.packets p sent
  rw [(finish_eq_some built).2.2.1]

theorem Checked.turned {sends : List CheckSend} {a : IceAgent} {b : IceAgent × List Packet}
    (checked : Checked codec creds sends a b) (nominations : List Packet)
    (after : IceAgent) (event : Option IceEvent)
    (same : after.role = b.1.role ∧ after.remoteFilter = b.1.remoteFilter ∧
      after.outstanding = b.1.outstanding ∧ after.pairs = b.1.pairs)
    (built : ∀ p ∈ nominations, a.role = .controlling ∧ ∃ remote tid,
      buildNomination codec creds remote (IceCredentials.outbound a.role) tid = some p)
    (nominated : ∀ here remote rung probes, event = some (.nominated here remote rung probes) →
      a.role = .controlling ∧ b.1.bestValidated = some remote) :
    Turned codec creds sends a (after, b.2 ++ nominations, event) := by
  obtain ⟨role, filter, outstanding, pairs⟩ := same
  refine ⟨role.trans checked.role, filter.trans checked.filter, ?_, ?_, ?_, ?_, ?_⟩
  · intro p there
    rcases List.mem_append.mp there with check | nomination
    · exact Or.inl (checked.packets p check)
    · exact Or.inr (built p nomination)
  · have none_of_them : nominations.filter (fun p => p.message.messageClass = .request) = [] := by
      refine List.filter_eq_nil_iff.mpr ?_
      intro p nomination
      obtain ⟨-, remote, tid, made⟩ := built p nomination
      rw [(finish_eq_some made).2.2.1]
      exact nofun
    have all_of_them : b.2.filter (fun p => p.message.messageClass = .request) = b.2 := by
      refine List.filter_eq_self.mpr ?_
      intro p check
      exact decide_eq_true (isRequest_of_checked checked check)
    rw [List.filter_append, none_of_them, all_of_them, List.append_nil]
    exact checked.once
  · intro e there
    rw [show (after, b.2 ++ nominations, event).1 = after from rfl, outstanding] at there
    rcases checked.outstanding e there with before | ⟨p, sent, origin⟩
    · exact Or.inl before
    · exact Or.inr ⟨p, List.mem_append_left _ sent, isRequest_of_checked checked sent, origin⟩
  · intro pair there
    rw [show (after, b.2 ++ nominations, event).1 = after from rfl, pairs] at there
    exact checked.pairs pair there
  · intro here remote rung probes said
    obtain ⟨controlling, best⟩ := nominated here remote rung probes said
    obtain ⟨s, member, outbound, inbound, admitted⟩ := bestValidated_mem best
    obtain ⟨s', origin, inboundSame, outboundSame⟩ := checked.pairs _ member
    have admits : a.admits remote = true := by
      rw [← admitted, IceAgent.admits, IceAgent.admits, checked.filter]
    exact ⟨controlling, admits, s', origin, outboundSame ▸ outbound, inboundSame ▸ inbound⟩

theorem Turned.of_deadline {sends : List CheckSend} {a : IceAgent} (deadline : Option Nat)
    {b : IceAgent × List Packet × Option IceEvent}
    (turned : Turned codec creds sends { a with deadline } b) : Turned codec creds sends a b :=
  ⟨turned.role, turned.filter, turned.packets, turned.once, turned.outstanding, turned.pairs,
    turned.nominated⟩

theorem turned_turn (a : IceAgent) (localAddr : SocketAddr) (now : Nat) (sends : List CheckSend)
    (tid : TransactionId) :
    Turned codec creds sends a (a.turn codec creds localAddr now sends tid) := by
  unfold turn
  dsimp only
  split
  next => exact turned_idle _ a.done _
  next =>
    split
    next => exact turned_idle _ a.done _
    next =>
      split
      next => exact turned_idle _ true _
      next =>
        have checked := @checked_sendDueChecks codec creds
          { a with deadline := some (a.deadline.getD (now + a.gatherTimeout)) } now sends
        refine Turned.of_deadline (a := a) (some (a.deadline.getD (now + a.gatherTimeout))) ?_
        split
        next role _ best =>
          rw [checked.role] at role
          refine checked.turned _ _ _ ⟨rfl, rfl, rfl, rfl⟩ ?_ ?_
          · intro p there
            refine ⟨role, ?_⟩
            have built := mem_nominate there
            rw [checked.role] at built
            exact ⟨_, _, built⟩
          · intro here remote rung probes said
            rw [← nominate_event said]
            exact ⟨role, best⟩
        next =>
          rw [← List.append_nil (sendDueChecks _ _ _ _ _).2]
          exact checked.turned [] _ none ⟨rfl, rfl, rfl, rfl⟩ (fun _ member => nomatch member)
            (fun _ _ _ _ said => nomatch said)

theorem onDatagram_cases (a : IceAgent) (localAddr : SocketAddr) (now : Nat) (source : SocketAddr)
    (datagram : List UInt8) :
    a.onDatagram codec creds localAddr now source datagram = (a, [], none) ∨
    (∃ check, parseCheck codec creds (IceCredentials.inbound a.role) datagram = some check ∧
      check.kind = .request ∧
      a.onDatagram codec creds localAddr now source datagram =
        ((a.onRequest codec creds source check).1, (a.onRequest codec creds source check).2,
          none)) ∨
    (∃ check, parseCheck codec creds (IceCredentials.inbound a.role) datagram = some check ∧
      check.kind = .nomination ∧ a.role = .controlled ∧
      a.onDatagram codec creds localAddr now source datagram =
        ({ a with nominated := some source, done := true }, [],
          some ({ a with nominated := some source, done := true }.nominatedEvent localAddr
            source))) ∨
    (∃ check remote sentAt,
      parseCheck codec creds (IceCredentials.outbound a.role) datagram = some check ∧
      check.kind = .successResponse ∧ (check.tid, remote, sentAt) ∈ a.outstanding ∧
      a.onDatagram codec creds localAddr now source datagram =
        ((a.onResponse now check remote sentAt).1, [],
          (a.onResponse now check remote sentAt).2)) := by
  cases inbound : parseCheck codec creds (IceCredentials.inbound a.role) datagram with
  | some check =>
      cases kind : check.kind with
      | request => exact Or.inr (Or.inl ⟨check, rfl, kind, by simp only [onDatagram, inbound, kind]⟩)
      | nomination =>
          by_cases role : a.role = .controlled
          · refine Or.inr (Or.inr (Or.inl ⟨check, rfl, kind, role, ?_⟩))
            rw [onDatagram, inbound]
            simp only [kind]
            split
            next => rfl
            next controlling =>
              rw [role] at controlling
              cases controlling
          · refine Or.inl ?_
            rw [onDatagram, inbound]
            simp only [kind]
            split
            next controlled => exact absurd controlled role
            next => rfl
      | successResponse => exact Or.inl (by simp only [onDatagram, inbound, kind])
  | none =>
      cases outbound : parseCheck codec creds (IceCredentials.outbound a.role) datagram with
      | none => exact Or.inl (by simp only [onDatagram, inbound, outbound])
      | some check =>
          cases kind : check.kind with
          | request => exact Or.inl (by simp only [onDatagram, inbound, outbound, kind])
          | nomination => exact Or.inl (by simp only [onDatagram, inbound, outbound, kind])
          | successResponse =>
              cases found : a.outstanding.find? fun entry => entry.1 = check.tid with
              | none => exact Or.inl (by simp only [onDatagram, inbound, outbound, kind, found])
              | some entry =>
                  obtain ⟨tid, remote, sentAt⟩ := entry
                  have same : tid = check.tid := by simpa using List.find?_some found
                  subst same
                  exact Or.inr (Or.inr (Or.inr ⟨check, remote, sentAt, rfl, kind,
                    List.mem_of_find?_eq_some found,
                    by simp only [onDatagram, inbound, outbound, kind, found]⟩))

theorem onResponse_fields (a : IceAgent) (now : Nat) (check : Check) (remote : SocketAddr)
    (sentAt : Nat) :
    (a.onResponse now check remote sentAt).1.role = a.role ∧
    (a.onResponse now check remote sentAt).1.remoteFilter = a.remoteFilter ∧
    (∀ e ∈ (a.onResponse now check remote sentAt).1.outstanding, e ∈ a.outstanding) ∧
    (a.onResponse now check remote sentAt).1.pairs =
      a.pairs.modify remote (fun s => { s with outboundOk := true }) ∧
    ∀ here there rung probes, (a.onResponse now check remote sentAt).2 ≠
      some (.nominated here there rung probes) := by
  have shorter : ∀ e ∈ a.outstanding.filter (fun entry => entry.1 ≠ check.tid), e ∈ a.outstanding :=
    fun e member => List.mem_of_mem_filter member
  simp only [onResponse]
  split
  next => exact ⟨rfl, rfl, shorter, rfl, nofun⟩
  next =>
    split
    next => exact ⟨rfl, rfl, shorter, rfl, nofun⟩
    next =>
      split
      next => exact ⟨rfl, rfl, shorter, rfl, nofun⟩
      next => exact ⟨rfl, rfl, shorter, rfl, nofun⟩

end IceAgent
end Oxutrm.Net
