import Oxutrm.Host.Mirror
import Oxutrm.Sync.Coupling
import Oxutrm.Sync.ScreenLaws

/-!
The host's end of the link a session is on. What a session hands to its sender keeps the
two ends coupled, and every state the sender has held shows the clipboard as it once was.
-/
namespace Oxutrm.Host
open Proto Sync

variable {E κ : Type} {codec : Codec ScreenDiff} {invented : ScreenState}
  {s s' s'' : HostSession (HostTerm E)} {net net' net'' : Net ScreenState} {n m : Nat}

/-- The host's end of the link it is on. -/
structure Screened (codec : Codec ScreenDiff) (invented : ScreenState)
    (s : HostSession (HostTerm E)) (net : Net ScreenState) : Prop where
  coupled : Coupled codec invented net
  tx : net.tx = s.screenTx
  told : s.inputRx.peerAck = 0 ∨ s.inputRx.peerAck ∈ net.acks
  poised : Poised s

/-- The clipboard of `x` is one the session had on the way, while `n` copies were taken. -/
def OnTheWay (s s' : HostSession (HostTerm E)) (n : Nat) (x : ScreenState) : Prop :=
  ∃ k j, k + j = n ∧ Later s.clipboard k x.clipboard ∧ Later x.clipboard j s'.clipboard

/-- What the host does on its link leaves the client's end alone. -/
structure Goes (codec : Codec ScreenDiff) (invented : ScreenState)
    (s s' : HostSession (HostTerm E)) (net net' : Net ScreenState) (n : Nat)
    (sent : List Frame) : Prop where
  screened : Screened codec invented s' net'
  rx : net'.rx = net.rx
  acks : net'.acks = net.acks
  frames : net'.frames = net.frames ++ sent
  held : ∀ x ∈ net'.held, x ∈ net.held ∨ OnTheWay s s' n x
  kept : net.held ⊆ net'.held
  later : Later s.clipboard n s'.clipboard

namespace Goes
variable {sent sent' : List Frame}

theorem trans (first : Goes codec invented s s' net net' n sent)
    (second : Goes codec invented s' s'' net' net'' m sent') :
    Goes codec invented s s'' net net'' (n + m) (sent ++ sent') where
  screened := second.screened
  rx := second.rx.trans first.rx
  acks := second.acks.trans first.acks
  frames := by rw [second.frames, first.frames, List.append_assoc]
  held := by
    intro x member
    cases second.held x member with
    | inl early =>
        refine (first.held x early).imp_right ?_
        rintro ⟨k, j, whole, before, after⟩
        exact ⟨k, j + m, by omega, before, after.trans second.later⟩
    | inr late =>
        obtain ⟨k, j, whole, before, after⟩ := late
        exact Or.inr ⟨n + k, j, by omega, first.later.trans before, after⟩
  kept := List.Subset.trans first.kept second.kept
  later := first.later.trans second.later

theorem heard (screened : Screened codec invented s net) (tx : s'.screenTx = s.screenTx)
    (told : s'.inputRx.peerAck = 0 ∨ s'.inputRx.peerAck ∈ net.acks) (same : s'.tally = s.tally) :
    Goes codec invented s s' net net 0 [] where
  screened := by
    refine ⟨screened.coupled, screened.tx.trans tx.symm, told, ?_⟩
    intro t held
    rw [same] at held
    rw [tx]
    exact screened.poised t held
  rx := rfl
  acks := rfl
  frames := (List.append_nil _).symm
  held := fun _ => Or.inl
  kept := List.Subset.refl _
  later := by
    have clipboard : s'.clipboard = s.clipboard := by
      rw [HostSession.clipboard, HostSession.clipboard, same, tx]
    rw [clipboard]
    exact Later.refl

/-- What the sender shows afterwards has counts no lower than what it showed before. -/
theorem ahead (goes : Goes codec invented s s' net net' n sent)
    (screened : Screened codec invented s net) :
    s.screenTx.current.CountersLe s'.screenTx.current := by
  have member := goes.kept screened.coupled.current_mem
  have last := goes.screened.coupled.last
  have follows := goes.screened.coupled.history.follows
  rw [screened.tx] at member
  rw [goes.screened.tx] at last
  obtain ⟨front, whole⟩ := List.getLast?_eq_some_iff.mp last
  rw [whole] at follows member
  rcases List.mem_append.mp member with early | here
  · exact (List.pairwise_append.mp follows).2.2 _ early _ List.mem_cons_self
  · rw [List.mem_singleton.mp here]
    exact countersLe_refl _

end Goes

/-- States handed over one after the other, each with counts no lower than the last. -/
theorem Coupled.hand {net : Net ScreenState} (coupled : Coupled codec invented net)
    {new : List ScreenState} (valid : ∀ x ∈ new, x.validate = .ok ())
    (onward : (net.tx.current :: new).Pairwise ScreenState.CountersLe) :
    ∃ more, Coupled codec invented
        { net with tx := new.foldl Sender.update net.tx, held := net.held ++ more } ∧
      ∀ x ∈ more, ∃ y ∈ new, x.clipboard = y.clipboard := by
  induction new generalizing net with
  | nil => exact ⟨[], by rwa [List.append_nil], fun _ member => absurd member List.not_mem_nil⟩
  | cons x new ih =>
      obtain ⟨first, rest⟩ := List.pairwise_cons.mp onward
      have updated := coupled.update (valid x List.mem_cons_self) (first x List.mem_cons_self)
      have current := Sender.current_update net.tx x
      obtain ⟨more, coupled', shown⟩ := ih updated
        (fun y member => valid y (List.mem_cons_of_mem x member)) (by
          refine List.pairwise_cons.mpr ⟨?_, (List.pairwise_cons.mp rest).2⟩
          intro y member
          change (net.tx.update x).current.CountersLe y
          rw [current]
          exact (List.pairwise_cons.mp rest).1 y member)
      refine ⟨(net.tx.update x).current :: more, ?_, ?_⟩
      · rw [List.append_cons]
        exact coupled'
      · intro y member
        cases List.mem_cons.mp member with
        | inl here =>
            rw [here, current]
            exact ⟨x, List.mem_cons_self, rfl⟩
        | inr there =>
            obtain ⟨z, among, same⟩ := shown y there
            exact ⟨z, List.mem_cons_of_mem x among, same⟩

namespace Screened

theorem hands (screened : Screened codec invented s net) {new : List ScreenState}
    (hands : Hands s s' n new) : ∃ net', Goes codec invented s s' net net' n [] := by
  obtain ⟨more, coupled, shown⟩ := Coupled.hand screened.coupled hands.valid (by
    rw [screened.tx]
    exact hands.onward)
  refine ⟨_, ⟨coupled, ?_, ?_, hands.poised⟩, rfl, rfl, (List.append_nil _).symm, ?_,
    List.subset_append_left _ _, hands.later⟩
  · rw [hands.tx, ← screened.tx]
  · rw [hands.rx]
    exact screened.told
  · intro x member
    refine (List.mem_append.mp member).imp_right ?_
    intro late
    obtain ⟨y, among, same⟩ := shown x late
    rw [OnTheWay, same]
    exact hands.shown y among

theorem inform (screened : Screened codec invented s net) :
    Coupled codec invented { net with tx := net.tx.onAck s.inputRx.peerAck } := by
  cases screened.told with
  | inl zero =>
      have same : net.tx.onAck s.inputRx.peerAck = net.tx := by
        have max : max net.tx.peerSaw 0 = net.tx.peerSaw := by
          rw [← UInt64.toNat_inj, toNat_max]
          exact Nat.max_eq_left (Nat.zero_le _)
        rw [zero, Sender.onAck, max]
      rw [same]
      exact screened.coupled
  | inr member => exact screened.coupled.onAck member

/-- The sender looked at the acknowledgements and made the frame that is owed, if any. -/
theorem offer (screened : Screened codec invented s net) {tx : Sender ScreenState}
    {result : Except ApplyError (Option Frame)}
    (made : (s.screenTx.onAck s.inputRx.peerAck).makeFrame codec s.inputRx.ack = (tx, result)) :
    ∃ net', Coupled codec invented net' ∧ net'.tx = tx ∧ tx.current = s.screenTx.current ∧
      net'.rx = net.rx ∧ net'.acks = net.acks ∧ net'.held = net.held ∧
      net'.frames = net.frames ++ result.toOption.join.toList := by
  have informed := screened.inform
  rw [← screened.tx] at made ⊢
  rcases (net.tx.onAck s.inputRx.peerAck).makeFrame_cases codec s.inputRx.ack with
    ⟨-, -, same⟩ | ⟨e, same, -⟩ | ⟨payload, flags, -, encoded, same⟩
  · rw [same] at made
    cases made
    exact ⟨_, informed, rfl, rfl, rfl, rfl, rfl, (List.append_nil _).symm⟩
  · rw [same] at made
    cases made
    exact ⟨_, informed, rfl, rfl, rfl, rfl, rfl, (List.append_nil _).symm⟩
  · rw [same] at made
    cases made
    exact ⟨_, informed.makeFrame s.inputRx.ack rfl rfl encoded, rfl, rfl, rfl, rfl, rfl, rfl⟩

theorem sends (screened : Screened codec invented s net) {sent : List Frame}
    (coupled : Coupled codec invented net') (tx : net'.tx = s'.screenTx)
    (current : s'.screenTx.current = s.screenTx.current) (rx : net'.rx = net.rx)
    (acks : net'.acks = net.acks) (held : net'.held = net.held)
    (frames : net'.frames = net.frames ++ sent) (told : s'.inputRx = s.inputRx)
    (same : s'.tally = s.tally) : Goes codec invented s s' net net' 0 sent where
  screened := by
    refine ⟨coupled, tx, ?_, ?_⟩
    · rw [told, acks]
      exact screened.told
    · intro t here
      rw [same] at here
      rw [current]
      exact screened.poised t here
  rx := rx
  acks := acks
  frames := frames
  held := fun x member => Or.inl (held ▸ member)
  kept := fun x member => held.symm ▸ member
  later := by
    have clipboard : s'.clipboard = s.clipboard := by
      rw [HostSession.clipboard, HostSession.clipboard, same, current]
    rw [clipboard]
    exact Later.refl

/-- A state in the client's ring carries the copy. -/
def Acknowledged (net : Net ScreenState) (c : Clipboard) : Prop :=
  ∃ acked ∈ net.rx.ring, net.rx.appliedAny = true ∧ acked ∈ net.held ∧
    acked.clipboard.serial = c.serial

theorem deliver {t : Turning (HostTerm E)} (screened : Screened codec invented t.session net)
    (p : Pty E κ) :
    ∃ net', Goes codec invented t.session (t.deliverClipboard (HostTerm.ops p)).session net net' 0 [] ∧
      (t.deliverClipboard (HostTerm.ops p)).session.copies = t.session.copies ∧
      ∀ c ∈ (t.deliverClipboard (HostTerm.ops p)).session.drops, c ∈ t.session.drops ∨
        c = t.session.clipboard ∧ c.copy ≠ none ∧
          (rank t.session.screenTx.current < 2 ^ 64 - 1 → Acknowledged net c) := by
  obtain ⟨tx, rx, moved⟩ := Turning.deliverClipboard_spec p t
  have informed := screened.inform
  have current : (t.deliverClipboard (HostTerm.ops p)).session.screenTx.current =
      t.session.screenTx.current := by
    rw [tx]
    rfl
  rcases moved with same | ⟨held, acked, here, now, heard, found, serial, text⟩
  · refine ⟨_, screened.sends informed ?_ current rfl rfl rfl (List.append_nil _).symm rx same, ?_, ?_⟩
    · rw [tx, ← screened.tx]
    · rw [HostSession.copies, HostSession.copies, same]
    · intro c member
      rw [HostSession.drops, same] at member
      exact Or.inl member
  · have poised := screened.poised held here
    refine ⟨_, ⟨⟨informed, ?_, ?_, ?_⟩, rfl, rfl, (List.append_nil _).symm, fun _ => Or.inl,
      List.Subset.refl _, ?_⟩, ?_, ?_⟩
    · rw [tx, ← screened.tx]
    · rw [rx]
      exact screened.told
    · intro u after
      rw [now] at after
      cases after
      rw [current]
      exact ⟨poised.bell, poised.scrollbackLen, poised.serial⟩
    · rw [HostSession.clipboard_of_tally here, HostSession.clipboard_of_tally now]
      exact Later.refl.dropped
    · rw [HostSession.copies_of_tally here, HostSession.copies_of_tally now]
    · intro c member
      rw [HostSession.drops_of_tally now] at member
      rw [HostSession.drops_of_tally here, HostSession.clipboard_of_tally here]
      refine (List.mem_append.mp member).imp_right ?_
      intro last
      rw [List.mem_singleton.mp last]
      refine ⟨rfl, text, fun room => ?_⟩
      rw [← screened.tx] at heard found room
      obtain ⟨applied, present, among⟩ := informed.base_applied found heard room
      exact ⟨acked, present, applied, among, serial.symm⟩

theorem honourSize {t t' : Turning (HostTerm E)} (screened : Screened codec invented t.session net)
    {p : Pty E κ} (honoured : t.honourSize (HostTerm.ops p) = (t', .ok ())) :
    ∃ net', Goes codec invented t.session t'.session net net' 0 [] ∧
      t'.session.tally = t.session.tally := by
  unfold Turning.honourSize at honoured
  dsimp only at honoured
  split at honoured
  · obtain ⟨rfl, resized⟩ := Prod.mk.inj honoured
    obtain ⟨new, -, hands, same⟩ := HostSession.resize_hands screened.poised (Prod.ext rfl resized)
    obtain ⟨net', goes⟩ := screened.hands hands
    exact ⟨net', goes, same⟩
  · cases honoured
    exact ⟨net, Goes.heard screened rfl screened.told rfl, rfl⟩

theorem finish {t : Turning (HostTerm E)} (screened : Screened codec invented t.session net)
    (p : Pty E κ) (around : Surroundings) :
    ∃ net', Goes codec invented t.session (t.finish codec (HostTerm.ops p) around).session net net' 0
        (t.finish codec (HostTerm.ops p) around).turn.sent.toList ∧
      (t.finish codec (HostTerm.ops p) around).session.tally = t.session.tally := by
  have same : (t.finish codec (HostTerm.ops p) around).session.tally = t.session.tally := by
    unfold Turning.finish
    rw [HostSession.tally, HostSession.tally]
    cases t.session.term with
    | none => rfl
    | some term => rfl
  refine Exists.imp (fun net' goes => ⟨goes, same⟩) ?_
  by_cases offers : (around.attached && around.due) = true
  · rcases made : (t.session.screenTx.onAck t.session.inputRx.peerAck).makeFrame codec
      t.session.inputRx.ack with ⟨tx, result⟩
    obtain ⟨net', coupled, tx', current, rx, acks, held, frames⟩ := screened.offer made
    have shape : (t.finish codec (HostTerm.ops p) around).session.screenTx = tx ∧
        (t.finish codec (HostTerm.ops p) around).turn.sent = result.toOption.join := by
      unfold Turning.finish
      simp only [offers, if_true, made]
      cases result with
      | ok sent => exact ⟨rfl, rfl⟩
      | error e => exact ⟨rfl, rfl⟩
    rw [shape.2]
    refine ⟨net', screened.sends coupled ?_ ?_ rx acks held frames rfl same⟩
    · rw [shape.1]
      exact tx'
    · rw [shape.1]
      exact current
  · have shape : (t.finish codec (HostTerm.ops p) around).session.screenTx = t.session.screenTx ∧
        (t.finish codec (HostTerm.ops p) around).turn.sent = none := by
      unfold Turning.finish
      simp only [Bool.not_eq_true] at offers
      simp only [offers, Bool.false_eq_true, if_false]
      exact ⟨trivial, trivial⟩
    rw [shape.2]
    exact ⟨net, Goes.heard screened shape.1 screened.told same⟩

end Screened

theorem hear_peerAck {S D : Type} [SyncState S D] (codec : Codec D) (rx : Receiver S)
    (frames : List Frame) :
    (rx.hear codec frames).peerAck = rx.peerAck ∨
      ∃ f ∈ frames, (rx.hear codec frames).peerAck = f.ackState := by
  induction frames generalizing rx with
  | nil => exact Or.inl rfl
  | cons f frames ih =>
      rcases ih (rx.onFrame codec f).1 with kept | ⟨g, member, same⟩
      · have first := Receiver.onFrame_peerAck codec rx f
        change ((rx.onFrame codec f).1.hear codec frames).peerAck = rx.peerAck ∨
          ∃ g ∈ f :: frames, ((rx.onFrame codec f).1.hear codec frames).peerAck = g.ackState
        rw [kept, first]
        rcases max_cases rx.peerAck f.ackState with old | new
        · exact Or.inl old
        · exact Or.inr ⟨f, List.mem_cons_self, new⟩
      · exact Or.inr ⟨g, List.mem_cons_of_mem f member, same⟩

/-- One turn: what the client acknowledged is taken in, the text of a delivered copy goes,
the terminal moves and a frame goes out. -/
theorem Screened.turn {p : Pty E κ} {codecIn : Codec InputDiff} {around : Surroundings}
    {frames : List Frame} {t : Turning (HostTerm E)} (screened : Screened codec invented s net)
    (heard : ∀ f ∈ frames, f.ackState = 0 ∨ f.ackState ∈ net.acks)
    (ran : s.turnAt codecIn codec (HostTerm.ops p) around frames = (t, .ok ())) :
    ∃ net' n, Goes codec invented s t.session net net' n t.turn.sent.toList ∧
      t.session.copies = s.copies + n ∧
      ∀ c ∈ t.session.drops, c ∈ s.drops ∨
        c = s.clipboard ∧ c.copy ≠ none ∧
          (rank s.screenTx.current < 2 ^ 64 - 1 → Acknowledged net c) := by
  simp only [HostSession.turnAt, andThen_ok] at ran
  obtain ⟨t₁, took, t₃, honoured, t₄, polled, finished⟩ := ran
  cases finished
  obtain ⟨tx, rx, same⟩ := Turning.takeFrames_kept took
  have told : t₁.session.inputRx.peerAck = 0 ∨ t₁.session.inputRx.peerAck ∈ net.acks := by
    rw [rx]
    rcases hear_peerAck codecIn s.inputRx frames with kept | ⟨f, member, acked⟩
    · rw [kept]
      exact screened.told
    · rw [acked]
      exact heard f member
  have first := Goes.heard screened tx told same
  obtain ⟨net₂, second, copies₂, drops₂⟩ := first.screened.deliver p
  obtain ⟨net₃, third, tally₃⟩ := second.screened.honourSize honoured
  obtain ⟨n, new, -, hands, copies₄⟩ := Turning.pollTerm_hands third.screened.poised polled
  obtain ⟨net₄, fourth⟩ := third.screened.hands hands
  obtain ⟨net₅, fifth, tally₅⟩ := fourth.screened.finish p around
  have clipboard : t₁.session.clipboard = s.clipboard := by
    rw [HostSession.clipboard, HostSession.clipboard, same, tx]
  refine ⟨net₅, n, ?_, ?_, ?_⟩
  · have whole := first.trans (second.trans (third.trans (fourth.trans fifth)))
    simpa only [Nat.zero_add, Nat.add_zero, List.nil_append] using whole
  · have copies₁ : t₁.session.copies = s.copies := by
      rw [HostSession.copies, HostSession.copies, same]
    have copies₃ : t₃.session.copies = (t₁.deliverClipboard (HostTerm.ops p)).session.copies := by
      rw [HostSession.copies, HostSession.copies, tally₃]
    have copies₅ : (t₄.finish codec (HostTerm.ops p) around).session.copies = t₄.session.copies := by
      rw [HostSession.copies, HostSession.copies, tally₅]
    rw [copies₅, copies₄, copies₃, copies₂, copies₁]
  · intro c member
    have dropped₅ : (t₄.finish codec (HostTerm.ops p) around).session.drops = t₄.session.drops := by
      rw [HostSession.drops, HostSession.drops, tally₅]
    have dropped₃ : t₃.session.drops = (t₁.deliverClipboard (HostTerm.ops p)).session.drops := by
      rw [HostSession.drops, HostSession.drops, tally₃]
    have dropped₁ : t₁.session.drops = s.drops := by
      rw [HostSession.drops, HostSession.drops, same]
    rw [dropped₅] at member
    have earlier := hands.drops member
    rw [dropped₃] at earlier
    rw [← clipboard, ← dropped₁, ← tx]
    exact drops₂ c earlier

theorem Screened.lastFrame {p : Pty E κ} {sent : Option Frame}
    (screened : Screened codec invented s net)
    (finished : s.finish codec (HostTerm.ops p) = (s', sent)) :
    ∃ net' n, Goes codec invented s s' net net' n sent.toList ∧ s'.copies = s.copies + n ∧
      s'.drops ⊆ s.drops := by
  -- the terminal is looked at as in a turn with the client there
  have polled : ∃ u new n, Hands s u n new ∧ u.copies = s.copies + n ∧
      s.finish codec (HostTerm.ops p) = u.finish codec
        { HostTerm.ops p with poll := fun _ => .error "drained" } := by
    cases held : s.term with
    | none =>
        refine ⟨s, [], 0, Hands.none rfl rfl Later.refl screened.poised (List.Subset.refl _), rfl, ?_⟩
        simp only [HostSession.finish, held]
    | some term =>
        have here : s.tally = some term.toTally := by
          rw [HostSession.tally, held]
          rfl
        cases drained : (HostTerm.ops p).poll term with
        | error why =>
            refine ⟨s, [], 0, Hands.none rfl rfl Later.refl screened.poised (List.Subset.refl _),
              rfl, ?_⟩
            simp only [HostSession.finish, held, drained]
        | ok result =>
            obtain ⟨term', moved⟩ := result
            obtain ⟨n, count, kept, later, covers⟩ := HostTerm.poll_spec drained
            have ahead := covers (screened.poised _ here)
            rw [← HostSession.clipboard_of_tally here] at later
            rw [← HostSession.copies_of_tally here] at count
            rw [← HostSession.drops_of_tally here] at kept
            cases moved with
            | false =>
                refine ⟨{ s with term := some term' }, [], n,
                  Hands.unseen rfl rfl rfl ahead later kept, count, ?_⟩
                simp only [HostSession.finish, held, drained]
            | true =>
                have same := congrArg some (HostTerm.snapshot_tally p term' 1)
                have pictures := @HostTerm.snapshot_pictures _ _ p term' 1 (by decide)
                refine ⟨{ s with
                    term := some (term'.snapshot p 1).1
                    screenTx := s.screenTx.update (term'.snapshot p 1).2 }, _, n,
                  Hands.pictured rfl rfl same ahead later pictures kept,
                  Eq.trans (HostSession.copies_of_tally same) count, ?_⟩
                simp only [HostSession.finish, held, drained]
                rfl
  obtain ⟨u, new, n, hands, copies, same⟩ := polled
  obtain ⟨net₁, first⟩ := screened.hands hands
  rcases made : (u.screenTx.onAck u.inputRx.peerAck).makeFrame codec u.inputRx.ack with ⟨tx, result⟩
  obtain ⟨net₂, coupled, tx', current, rx, acks, held, frames⟩ := first.screened.offer made
  rw [same] at finished
  have shape : s'.term = u.term ∧ s'.inputRx = u.inputRx ∧ s'.screenTx = tx ∧
      sent = result.toOption.join := by
    unfold HostSession.finish at finished
    cases inside : u.term with
    | none =>
        simp only [inside, made] at finished
        cases result with
        | ok sent =>
            cases finished
            exact ⟨rfl, rfl, rfl, rfl⟩
        | error e =>
            cases finished
            exact ⟨rfl, rfl, rfl, rfl⟩
    | some term =>
        simp only [inside, made] at finished
        cases result with
        | ok sent =>
            cases finished
            exact ⟨rfl, rfl, rfl, rfl⟩
        | error e =>
            cases finished
            exact ⟨rfl, rfl, rfl, rfl⟩
  have tally : s'.tally = u.tally := by rw [HostSession.tally, HostSession.tally, shape.1]
  have second := first.screened.sends coupled (by rw [shape.2.2.1]; exact tx')
    (by rw [shape.2.2.1]; exact current) rx acks held frames shape.2.1 tally
  rw [← shape.2.2.2] at second
  refine ⟨net₂, n, ?_, ?_, ?_⟩
  · have whole := first.trans second
    simpa only [Nat.add_zero, List.nil_append] using whole
  · rw [← copies, HostSession.copies, HostSession.copies, tally]
  · have drops : s'.drops = u.drops := by rw [HostSession.drops, HostSession.drops, tally]
    rw [drops]
    exact hands.drops

theorem rank_begun {blank : ScreenState} {new : List ScreenState} (one : blank.seq = 1)
    (short : new.length ≤ 1) : rank (new.foldl Sender.update (Sender.new blank)).current ≤ 2 := by
  have first : rank (Sender.new blank).current = 1 := congrArg UInt64.toNat one
  rcases new with _ | ⟨x, _ | ⟨y, rest⟩⟩
  · exact first.le.trans (by decide)
  · have next : rank ((Sender.new blank).update x).current =
          (saturatingSucc (seq (Sender.new blank).current)).toNat := by
        rw [Sender.current_update]
        rfl
    change rank ((Sender.new blank).update x).current ≤ 2
    rw [next, toNat_saturatingSucc]
    change (seq (Sender.new blank).current).toNat = 1 at first
    rw [first]
    decide
  · exact absurd short (by simp)

theorem Adopts.screened {size : TermSize} {blank : ScreenState} {new : List ScreenState}
    (adopts : Adopts s s' size blank new) :
    ∃ net, Screened codec invented s' net ∧ net.rx = Receiver.new invented ∧ net.frames = [] ∧
      net.acks = [] ∧ ∀ x ∈ net.held, x.clipboard = {} ∨ x.clipboard = s'.clipboard := by
  have begun : Coupled codec invented (Net.start blank invented) :=
    Coupled.start adopts.sound adopts.one
  obtain ⟨more, coupled, shown⟩ := Coupled.hand begun adopts.valid adopts.onward
  refine ⟨_, ⟨coupled, ?_, ?_, adopts.poised⟩, rfl, rfl, rfl, ?_⟩
  · rw [adopts.tx]
    rfl
  · rw [adopts.rx]
    exact Or.inl rfl
  · intro x member
    rcases List.mem_append.mp member with first | late
    · rw [List.mem_singleton.mp first]
      exact Or.inl adopts.text
    · obtain ⟨y, among, same⟩ := shown x late
      exact Or.inr (same.trans (adopts.shown y among))

end Oxutrm.Host
