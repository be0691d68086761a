import Oxutrm.Sync.Duplex
import Oxutrm.Sync.Convergence

/-!
What one loss-free exchange achieves after arbitrary losses, when neither side
has anything new to say: the sender learns that its state has arrived, and both
fall silent.
-/
namespace Oxutrm.Sync.Duplex
open Proto Window Transition LawfulSyncState

variable {S T D E : Type} [SyncState S D] [SyncState T E]

/-- B has a reason to answer: news of its own that A has not acknowledged, or
an acknowledgement of A's current state that it has never put on the wire. -/
def AnswersB (d : Duplex S T) : Prop :=
  d.swap.informedA.stateMoved ∨ d.ba.tx.lastAckSent < seq d.ab.tx.current

instance instDecidableAnswersB (d : Duplex S T) : Decidable d.AnswersB :=
  inferInstanceAs (Decidable (d.swap.informedA.peerSaw ≠ seq d.swap.informedA.current ∨ _))

/-- Neither side would send anything. -/
def Silent (codecA : Codec D) (codecB : Codec E) (d : Duplex S T) : Prop :=
  (d.offerA codecA).2 = none ∧ (d.offerB codecB).2 = none

theorem offerA_quiet {codec : Codec D} (roundTrips : codec.RoundTrips) {d : Duplex S T}
    (heard : d.informedA.peerSaw = seq d.ab.tx.current)
    (paid : d.ba.rx.ack = d.ab.tx.lastAckSent) : (d.offerA codec).2 = none := by
  rcases offerA_cases roundTrips d with ⟨-, -, made⟩ | ⟨f, moved | owed, -⟩
  · rw [made]
  · exact absurd heard moved
  · rw [paid] at owed
    exact absurd owed (UInt64.lt_irrefl _)

variable [LawfulSyncState S] [LawfulSyncState T]
variable {codecA : Codec D} {codecB : Codec E} {inventedA : S} {inventedB : T} {d : Duplex S T}

/-- What the delivery of an honest frame of the current state requires. -/
structure Deliverable (codecA : Codec D) (inventedA : S) (held : List S) : Prop where
  sound : Sound inventedA
  early : seq inventedA = 1
  lowest : ∀ s ∈ held, Follows inventedA s
  readable : Readable codecA held

/-- The peer's knowledge cannot run ahead of the sender. -/
theorem Linked.informed_eq (linked : Linked codecA codecB inventedA inventedB d)
    (least : seq d.ab.tx.current ≤ d.ba.rx.peerAck) :
    d.informedA.peerSaw = seq d.ab.tx.current := by
  have upper := linked.informed.peerSaw_le
  have lower := UInt64.le_iff_toNat_le.mp least
  change d.informedA.peerSaw.toNat ≤ (seq d.ab.tx.current).toNat at upper
  refine UInt64.toNat_inj.mp (Nat.le_antisymm upper ?_)
  simp only [informedA, Sender.onAck, toNat_max]
  omega

/-- A frame of A reaches B: B holds A's current state and has heard what A
acknowledges. -/
theorem Linked.offer_deliver (linked : Linked codecA codecB inventedA inventedB d)
    (roundTrips : codecA.RoundTrips) (deliverable : Deliverable codecA inventedA d.ab.held)
    (reason : d.informedA.stateMoved ∨ d.informedA.ackOwed d.ba.rx.ack) :
    ∃ f d', d.offerA codecA = (d', some f) ∧
      Linked codecA codecB inventedA inventedB (d'.deliverB codecA f) ∧
      (d'.deliverB codecA f).ab.rx.ack = seq d.ab.tx.current ∧
      d.ba.rx.ack ≤ (d'.deliverB codecA f).ab.rx.peerAck ∧
      (d'.deliverB codecA f).ab.tx = { d.informedA with lastAckSent := d.ba.rx.ack } ∧
      (d'.deliverB codecA f).ba.tx = d.ba.tx ∧ (d'.deliverB codecA f).ba.rx = d.ba.rx ∧
      (d'.deliverB codecA f).ab.held = d.ab.held ∧
      (d'.deliverB codecA f).ba.held = d.ba.held := by
  rcases offerA_cases roundTrips d with
    ⟨quiet, paid, -⟩ | ⟨f, -, numbered, acked, -, -, made⟩
  · exact absurd reason (not_or.mpr ⟨quiet, paid⟩)
  · have linked' := linked.offerA roundTrips
    rw [made] at linked'
    have sent : f ∈ d.ab.frames ++ [f] := List.mem_append_right _ (List.mem_singleton_self _)
    refine ⟨f, _, made, linked'.deliverB roundTrips deliverable.sound sent, ?_, ?_, rfl, rfl, rfl,
      rfl, rfl⟩
    · exact linked'.ab.deliver_current deliverable.sound deliverable.early deliverable.lowest
        deliverable.readable sent numbered
    · change d.ba.rx.ack ≤ (d.ab.rx.onFrame codecA f).1.peerAck
      rw [Receiver.onFrame_peerAck, acked, UInt64.le_iff_toNat_le, toNat_max]
      exact Nat.le_max_right _ _

/-- A owes no more than an acknowledgement: one frame, and both are silent. -/
theorem Linked.closing (linked : Linked codecA codecB inventedA inventedB d)
    (roundTripsA : codecA.RoundTrips) (roundTripsB : codecB.RoundTrips)
    (deliverable : Deliverable codecA inventedA d.ab.held)
    (heard : seq d.ab.tx.current ≤ d.ba.rx.peerAck) (owed : d.ab.tx.lastAckSent < d.ba.rx.ack)
    (current : d.ba.rx.ack = seq d.ba.tx.current) (ackA : d.ab.rx.ack = seq d.ab.tx.current)
    (paidB : d.ab.rx.ack = d.ba.tx.lastAckSent) :
    ∃ f d', d.offerA codecA = (d', some f) ∧ Silent codecA codecB (d'.deliverB codecA f) := by
  obtain ⟨f, d', closing, linked', ackA', toldB, txA, txB, rxB, -, -⟩ :=
    linked.offer_deliver roundTripsA deliverable (Or.inr owed)
  refine ⟨f, d', closing, ?_⟩
  generalize d'.deliverB codecA f = e at *
  refine ⟨offerA_quiet roundTripsA (linked'.informed_eq ?_) ?_, ?_⟩
  · rw [txA, rxB]
    exact heard
  · rw [rxB, txA]
  · change (Duplex.offerA codecB e.swap).2 = none
    refine offerA_quiet roundTripsB (linked'.swap.informed_eq ?_) ?_
    · change seq e.ba.tx.current ≤ e.ab.rx.peerAck
      rw [txB, ← current]
      exact toldB
    · change e.ab.rx.ack = e.ba.tx.lastAckSent
      rw [ackA', txB, ← paidB, ackA]

/-- After any losses, one answered exchange tells A that its state arrived. If A
had acknowledged B's current state when it began, both sides are then silent;
otherwise A sends one more frame, to acknowledge what the answer brought. -/
theorem exchange_repairs_lost_acks (roundTripsA : codecA.RoundTrips)
    (roundTripsB : codecB.RoundTrips) {firstA : S} {firstB : T} (soundA : Sound firstA)
    (soundB : Sound firstB) (oneA : seq firstA = 1) (oneB : seq firstB = 1)
    (run : Reaches (step codecA codecB) Authored (start firstA inventedA firstB inventedB) d)
    (deliverableA : Deliverable codecA inventedA d.ab.held)
    (deliverableB : Deliverable codecB inventedB d.ba.held)
    (unheard : d.informedA.peerSaw ≠ seq d.ab.tx.current) :
    ∃ f d₁, d.offerA codecA = (d₁, some f) ∧
      ((d₁.deliverB codecA f).AnswersB →
        ∃ g d₂, (d₁.deliverB codecA f).offerB codecB = (d₂, some g) ∧
          (d₂.deliverA codecB g).informedA.peerSaw = seq d.ab.tx.current ∧
          (d₂.deliverA codecB g).ab.tx.current = d.ab.tx.current ∧
          (d.ba.rx.ack = seq d.ba.tx.current → Silent codecA codecB (d₂.deliverA codecB g)) ∧
          (d.ba.rx.ack ≠ seq d.ba.tx.current →
            ∃ h d₃, (d₂.deliverA codecB g).offerA codecA = (d₃, some h) ∧
              Silent codecA codecB (d₃.deliverB codecA h))) := by
  have linked := Linked.reaches roundTripsA roundTripsB soundA soundB oneA oneB
    deliverableA.sound deliverableB.sound run
  obtain ⟨f, d₁, offered, linked₁, ackA, toldB, txA, txB, rxB, heldA, heldB⟩ :=
    linked.offer_deliver roundTripsA deliverableA (Or.inl unheard)
  refine ⟨f, d₁, offered, fun answers => ?_⟩
  generalize d₁.deliverB codecA f = e₁ at *
  have currentA : e₁.ab.tx.current = d.ab.tx.current := by
    rw [txA]
    rfl
  have reasonB : e₁.swap.informedA.stateMoved ∨ e₁.swap.informedA.ackOwed e₁.swap.ba.rx.ack := by
    refine answers.imp_right fun owed => ?_
    change e₁.ba.tx.lastAckSent < e₁.ab.rx.ack
    rw [ackA, ← currentA]
    exact owed
  obtain ⟨g, d₂, answered, linked₂, ackB, toldA, txB₂, txA₂, rxA₂, heldB₂, heldA₂⟩ :=
    linked₁.swap.offer_deliver roundTripsB (show Deliverable codecB inventedB e₁.ba.held by
      rw [heldB]
      exact deliverableB) reasonB
  refine ⟨g, d₂.swap, by simp only [offerB, answered], ?_⟩
  change (d₂.deliverB codecB g).swap.informedA.peerSaw = _ ∧ _
  change _ ∧ (d₂.deliverB codecB g).swap.ab.tx.current = _ ∧
    (_ → Silent codecA codecB (d₂.deliverB codecB g).swap) ∧
    (_ → ∃ h d₃, (d₂.deliverB codecB g).swap.offerA codecA = (d₃, some h) ∧ _)
  generalize d₂.deliverB codecB g = e₂ at *
  have currentA₂ : e₂.ba.tx.current = d.ab.tx.current := by
    rw [txA₂]
    exact currentA
  have currentB₂ : e₂.ab.tx.current = d.ba.tx.current := by
    rw [txB₂]
    change e₁.ba.tx.current = _
    rw [txB]
  have heardA : e₂.swap.informedA.peerSaw = seq e₂.swap.ab.tx.current := by
    refine linked₂.swap.informed_eq ?_
    change seq e₂.ba.tx.current ≤ e₂.ab.rx.peerAck
    rw [currentA₂, ← ackA]
    exact toldA
  have ackB₂ : e₂.swap.ba.rx.ack = seq d.ba.tx.current := by
    change e₂.ab.rx.ack = _
    rw [ackB]
    change seq e₁.ba.tx.current = _
    rw [txB]
  have sentA : e₂.swap.ab.tx.lastAckSent = d.ba.rx.ack := by
    change e₂.ba.tx.lastAckSent = _
    rw [txA₂]
    change e₁.ab.tx.lastAckSent = _
    rw [txA]
  have paidB : e₂.ba.rx.ack = e₂.ab.tx.lastAckSent := by
    rw [rxA₂, txB₂]
  refine ⟨?_, currentA₂, ?_, ?_⟩
  · rw [heardA]
    exact congrArg seq currentA₂
  · intro known
    refine ⟨offerA_quiet roundTripsA heardA (by rw [ackB₂, sentA, known]), ?_⟩
    change (offerA codecB e₂).2 = none
    refine offerA_quiet roundTripsB (linked₂.informed_eq ?_) paidB
    rw [currentB₂, rxA₂, ← known]
    exact toldB
  · intro unknown
    have below : d.ba.rx.ack < seq d.ba.tx.current := by
      refine UInt64.lt_iff_toNat_lt.mpr (Nat.lt_of_le_of_ne linked.ba.ack_le ?_)
      exact fun same => unknown (UInt64.toNat_inj.mp same)
    have deliverable : Deliverable codecA inventedA e₂.ba.held := by
      rw [heldA₂]
      change Deliverable codecA inventedA e₁.ab.held
      rw [heldA]
      exact deliverableA
    have gotA : e₂.ba.rx.ack = seq e₂.ba.tx.current := by
      rw [rxA₂, currentA₂]
      exact ackA
    refine linked₂.swap.closing roundTripsA roundTripsB deliverable ?_ ?_ ?_ gotA paidB
    · change seq e₂.ba.tx.current ≤ e₂.ab.rx.peerAck
      rw [currentA₂, ← ackA]
      exact toldA
    · rw [sentA, ackB₂]
      exact below
    · rw [ackB₂]
      exact congrArg seq currentB₂.symm

/-- One exchange without loss: A offers, B answers. -/
def roundTrip (codecA : Codec D) (codecB : Codec E) (d : Duplex S T) : Option (Duplex S T) :=
  match d.offerA codecA with
  | (d₁, some f) =>
      match (d₁.deliverB codecA f).offerB codecB with
      | (d₂, some g) => some (d₂.deliverA codecB g)
      | (_, none) => none
  | (_, none) => none

/-- A client that has typed nothing. -/
def idleInput : InputState := { seq := 1, pending := [], size := { cols := 80, rows := 24 } }

/-- A client and a host that have only just met. -/
def meeting : Duplex InputState ScreenState := start idleInput idleInput dot dot

/-- A client that has typed an `h`. -/
def typedInput : InputState := { idleInput with seq := 2, pending := [104] }

/-- The client's first frame is lost, the second arrives, and the host's frame with the
acknowledgement is lost. -/
def losses : List (Exchange InputState ScreenState) :=
  [.updateA typedInput, .offerA, .offerA, .deliverB 1, .offerB]

/-- The client's next frame would be answered. -/
def answered (d : Duplex InputState ScreenState) : Bool :=
  match d.offerA inputCodec with
  | (d₁, some f) => decide ((d₁.deliverB inputCodec f).AnswersB)
  | (_, none) => false

theorem exchange_repairs_lost_acks_lossy :
    ∃ d, Reaches (step inputCodec screenCodec) Authored meeting d ∧ d.ba.acks = [0, 0] ∧
      d.ab.acks = [2] ∧ ∃ f d₁ g d₂, d.offerA inputCodec = (d₁, some f) ∧
        (d₁.deliverB inputCodec f).offerB screenCodec = (d₂, some g) ∧
        (d₂.deliverA screenCodec g).informedA.peerSaw = 2 := by
  have validDot : dot.validate = .ok () := by decide +kernel
  have soundInput : Sound idleInput := ⟨by decide, by decide⟩
  have outcome : (runFrom (step inputCodec screenCodec) meeting losses).map (fun d =>
      (d.ab.held, d.ba.acks, d.ab.acks,
        decide (d.informedA.peerSaw = seq d.ab.tx.current), seq d.ab.tx.current, answered d)) =
      some ([idleInput, typedInput], [0, 0], [2], false, 2, true) := by decide +kernel
  have screens : (runFrom (step inputCodec screenCodec) meeting losses).map (fun d => d.ba.held) =
      some [dot] := rfl
  obtain ⟨d, run, shown⟩ := Option.map_eq_some_iff.mp outcome
  simp only [Prod.mk.injEq, decide_eq_false_iff_not] at shown
  obtain ⟨heldA, acksB, acksA, unheard, current, replies⟩ := shown
  have heldB : d.ba.held = [dot] := by simpa [run] using screens
  have authored : Admits (step inputCodec screenCodec) Authored meeting losses :=
    ⟨⟨⟨by decide, by decide⟩, trivial⟩, trivial, trivial, trivial, trivial, trivial⟩
  have reached := reaches_of_runFrom losses authored run
  have deliverableInput : Deliverable inputCodec idleInput d.ab.held := by
    rw [heldA]
    exact ⟨soundInput, rfl, fun _ _ => trivial,
      input_readable (storedCodec_roundTrips _) (storedCodec_sized _) (by decide)⟩
  have deliverableScreen : Deliverable screenCodec dot d.ba.held := by
    rw [heldB]
    exact ⟨validDot, rfl, fun s _ => counters_lowest ⟨rfl, rfl, rfl⟩ s,
      screen_readable (storedCodec_roundTrips _) (storedCodec_sized _) (by
        intro s member
        rw [List.mem_singleton.mp member]
        exact validDot)⟩
  have readsInput : inputCodec.RoundTrips := storedCodec_roundTrips _
  have readsScreen : screenCodec.RoundTrips := storedCodec_roundTrips _
  obtain ⟨f, d₁, offered, rest⟩ := exchange_repairs_lost_acks readsInput readsScreen
    soundInput validDot rfl rfl reached deliverableInput deliverableScreen unheard
  rw [answered, offered] at replies
  obtain ⟨g, d₂, answer, heard, -⟩ := rest (of_decide_eq_true replies)
  exact ⟨d, reached, acksB, acksA, f, d₁, g, d₂, offered, answer, heard.trans current⟩

/-- The answer of a host with news of its own leaves the client owing it an
acknowledgement: one round trip is not always enough for silence. -/
theorem round_trip_not_always_silent :
    ¬ ∀ d, Reaches (step inputCodec screenCodec) Authored meeting d →
      d.informedA.peerSaw ≠ seq d.ab.tx.current →
      ∃ d', roundTrip inputCodec screenCodec d = some d' ∧
        d'.informedA.peerSaw = seq d'.ab.tx.current ∧ Silent inputCodec screenCodec d' := by
  intro claimed
  obtain ⟨d, happened, -, silent⟩ := claimed meeting Relation.ReflTransGen.refl (by decide)
  have facts : (roundTrip inputCodec screenCodec meeting).map (fun d =>
      (d.offerA inputCodec).2.isSome) = some true := by decide +kernel
  simp only [happened, Option.map_some, Option.some.injEq, silent.1] at facts
  cases facts

end Oxutrm.Sync.Duplex
