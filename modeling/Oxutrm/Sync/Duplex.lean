import Oxutrm.Sync.Coupling

/-!
Two peers, each with a sender and a receiver, driven as the session loops drive
them: the acknowledgement heard is taken in before a frame is offered. `ab`
holds A's sender and B's receiver, `ba` holds B's sender and A's receiver.
-/
namespace Oxutrm.Sync
open Proto Window Transition LawfulSyncState

structure Duplex (S T : Type) where
  ab : Net S
  ba : Net T

inductive Exchange (S T : Type) where
  | updateA (next : S)
  | updateB (next : T)
  | absorbA
  | absorbB
  | offerA
  | offerB
  | deliverA (i : Nat)
  | deliverB (i : Nat)

namespace Duplex
variable {S T D E : Type} [SyncState S D] [SyncState T E]

/-- The same exchange seen from the other side. -/
def swap (d : Duplex S T) : Duplex T S := { ab := d.ba, ba := d.ab }

def start (firstA inventedA : S) (firstB inventedB : T) : Duplex S T where
  ab := Net.start firstA inventedA
  ba := Net.start firstB inventedB

/-- A's sender once it has taken in what A's receiver heard. -/
def informedA (d : Duplex S T) : Sender S := d.ab.tx.onAck d.ba.rx.peerAck

def absorbA (d : Duplex S T) : Duplex S T := { d with ab := { d.ab with tx := d.informedA } }

/-- One `offer_frame` of A: the new exchange, and the frame if there is one.
The acknowledgement it carries counts as reported. -/
def offerA (codec : Codec D) (d : Duplex S T) : Duplex S T × Option Frame :=
  match d.informedA.makeFrame codec d.ba.rx.ack with
  | (tx, .ok (some f)) =>
      ({ ab := { d.ab with tx := tx, frames := d.ab.frames ++ [f] }
         ba := { d.ba with acks := d.ba.acks ++ [d.ba.rx.ack] } }, some f)
  | (tx, _) => ({ d with ab := { d.ab with tx := tx } }, none)

def deliverB (codec : Codec D) (d : Duplex S T) (f : Frame) : Duplex S T :=
  { d with ab := { d.ab with rx := (d.ab.rx.onFrame codec f).1 } }

def offerB (codec : Codec E) (d : Duplex S T) : Duplex S T × Option Frame :=
  ((offerA codec d.swap).1.swap, (offerA codec d.swap).2)

def deliverA (codec : Codec E) (d : Duplex S T) (f : Frame) : Duplex S T :=
  (deliverB codec d.swap f).swap

def updateA (d : Duplex S T) (next : S) : Duplex S T :=
  let tx := d.ab.tx.update next
  { d with ab := { d.ab with tx := tx, held := d.ab.held ++ [tx.current] } }

def step (codecA : Codec D) (codecB : Codec E) (d : Duplex S T) :
    Exchange S T → Option (Duplex S T)
  | .updateA next => some (d.updateA next)
  | .updateB next => some (d.swap.updateA next).swap
  | .absorbA => some d.absorbA
  | .absorbB => some d.swap.absorbA.swap
  | .offerA => some (d.offerA codecA).1
  | .offerB => some (d.offerB codecB).1
  | .deliverB i => d.ab.frames[i]?.map (d.deliverB codecA)
  | .deliverA i => d.ba.frames[i]?.map (d.deliverA codecB)

/-- Everything an offer can do, given that every diff can be encoded. -/
theorem offerA_cases {codec : Codec D} (roundTrips : codec.RoundTrips) (d : Duplex S T) :
    (¬ d.informedA.stateMoved ∧ ¬ d.informedA.ackOwed d.ba.rx.ack ∧
      d.offerA codec = (d.absorbA, none)) ∨
    ∃ f, (d.informedA.stateMoved ∨ d.informedA.ackOwed d.ba.rx.ack) ∧
      f.myState = seq d.ab.tx.current ∧ f.ackState = d.ba.rx.ack ∧
      f.fromState = d.informedA.pendingDiff.2 ∧
      encodeDiff codec d.informedA.pendingDiff.1 = .ok (f.payload, f.flags) ∧
      d.offerA codec =
        ({ ab := { d.ab with tx := { d.informedA with lastAckSent := d.ba.rx.ack },
                             frames := d.ab.frames ++ [f] }
           ba := { d.ba with acks := d.ba.acks ++ [d.ba.rx.ack] } }, some f) := by
  rcases d.informedA.makeFrame_cases codec d.ba.rx.ack with
    ⟨quiet, paid, made⟩ | ⟨e, -, failed⟩ | ⟨payload, flags, reason, encoded, made⟩
  · refine Or.inl ⟨quiet, paid, ?_⟩
    simp only [offerA, made, absorbA]
  · obtain ⟨payload, flags, encoded⟩ := encodeDiff_total roundTrips d.informedA.pendingDiff.1
    rw [failed] at encoded
    cases encoded
  · let f : Frame :=
      { myState := seq d.ab.tx.current
        fromState := d.informedA.pendingDiff.2
        ackState := d.ba.rx.ack
        flags := flags
        payload := payload }
    refine Or.inr ⟨f, reason, rfl, rfl, rfl, encoded, ?_⟩
    simp only [offerA, made]
    rfl

variable [LawfulSyncState S] [LawfulSyncState T]

def Authored (d : Duplex S T) : Exchange S T → Prop
  | .updateA next => Sound next ∧ Follows d.ab.tx.current next
  | .updateB next => Sound next ∧ Follows d.ba.tx.current next
  | _ => True

/-- Both directions are coupled, and every acknowledgement in one of them was
reported by the receiver of the other. -/
structure Linked (codecA : Codec D) (codecB : Codec E) (inventedA : S) (inventedB : T)
    (d : Duplex S T) : Prop where
  ab : Coupled codecA inventedA d.ab
  ba : Coupled codecB inventedB d.ba
  heardA : d.ba.rx.peerAck = 0 ∨ d.ba.rx.peerAck ∈ d.ab.acks
  heardB : d.ab.rx.peerAck = 0 ∨ d.ab.rx.peerAck ∈ d.ba.acks
  sentA : ∀ f ∈ d.ab.frames, f.ackState ∈ d.ba.acks
  sentB : ∀ f ∈ d.ba.frames, f.ackState ∈ d.ab.acks

namespace Linked
variable {codecA : Codec D} {codecB : Codec E} {inventedA : S} {inventedB : T} {d : Duplex S T}

theorem swap (linked : Linked codecA codecB inventedA inventedB d) :
    Linked codecB codecA inventedB inventedA d.swap :=
  ⟨linked.ba, linked.ab, linked.heardB, linked.heardA, linked.sentB, linked.sentA⟩

theorem start {firstA : S} {firstB : T} (soundA : Sound firstA) (soundB : Sound firstB)
    (oneA : seq firstA = 1) (oneB : seq firstB = 1) :
    Linked codecA codecB inventedA inventedB
      (Duplex.start firstA inventedA firstB inventedB) where
  ab := Coupled.start soundA oneA
  ba := Coupled.start soundB oneB
  heardA := Or.inl rfl
  heardB := Or.inl rfl
  sentA := by simp [Duplex.start, Net.start]
  sentB := by simp [Duplex.start, Net.start]

theorem updateA (linked : Linked codecA codecB inventedA inventedB d) {next : S}
    (sound : Sound next) (follows : Follows d.ab.tx.current next) :
    Linked codecA codecB inventedA inventedB (d.updateA next) :=
  ⟨linked.ab.update sound follows, linked.ba, linked.heardA, linked.heardB, linked.sentA,
    linked.sentB⟩

theorem informed (linked : Linked codecA codecB inventedA inventedB d) :
    Coupled codecA inventedA { d.ab with tx := d.informedA } := by
  rcases linked.heardA with zero | member
  · have same : d.informedA = d.ab.tx := by
      simp only [informedA, Sender.onAck, zero]
      have : max d.ab.tx.peerSaw 0 = d.ab.tx.peerSaw := by
        rw [← UInt64.toNat_inj, toNat_max]
        exact Nat.max_eq_left (Nat.zero_le _)
      rw [this]
    rw [same]
    exact linked.ab
  · exact linked.ab.onAck member

theorem absorbA (linked : Linked codecA codecB inventedA inventedB d) :
    Linked codecA codecB inventedA inventedB d.absorbA :=
  ⟨linked.informed, linked.ba, linked.heardA, linked.heardB, linked.sentA, linked.sentB⟩

theorem offerA (linked : Linked codecA codecB inventedA inventedB d)
    (roundTrips : codecA.RoundTrips) :
    Linked codecA codecB inventedA inventedB (d.offerA codecA).1 := by
  rcases offerA_cases roundTrips d with
    ⟨-, -, made⟩ | ⟨f, -, numbered, acked, base, encoded, made⟩
  · rw [made]
    exact linked.absorbA
  · rw [made]
    exact
      { ab := linked.informed.makeFrame d.ba.rx.ack numbered base encoded
        ba := linked.ba.report
        heardA := linked.heardA
        heardB := linked.heardB.imp_right (List.mem_append_left _)
        sentA := by
          intro g sent
          rcases List.mem_append.mp sent with old | new
          · exact List.mem_append_left _ (linked.sentA g old)
          · rw [List.mem_singleton.mp new, acked]
            exact List.mem_append_right _ (List.mem_singleton_self _)
        sentB := linked.sentB }

theorem deliverB (linked : Linked codecA codecB inventedA inventedB d)
    (roundTrips : codecA.RoundTrips) (sound : Sound inventedA) {f : Frame}
    (made : f ∈ d.ab.frames) :
    Linked codecA codecB inventedA inventedB (d.deliverB codecA f) where
  ab := linked.ab.deliver sound roundTrips made
  ba := linked.ba
  heardA := linked.heardA
  heardB := by
    have heard : ((d.ab.rx.onFrame codecA f).1).peerAck = max d.ab.rx.peerAck f.ackState :=
      d.ab.rx.onFrame_peerAck codecA f
    change ((d.ab.rx.onFrame codecA f).1).peerAck = 0 ∨
      ((d.ab.rx.onFrame codecA f).1).peerAck ∈ d.ba.acks
    rw [heard]
    rcases max_cases d.ab.rx.peerAck f.ackState with same | same
    · rw [same]
      exact linked.heardB
    · rw [same]
      exact Or.inr (linked.sentA f made)
  sentA := linked.sentA
  sentB := linked.sentB

theorem step (linked : Linked codecA codecB inventedA inventedB d)
    (roundTripsA : codecA.RoundTrips) (roundTripsB : codecB.RoundTrips)
    (soundA : Sound inventedA) (soundB : Sound inventedB) {e : Exchange S T} {d' : Duplex S T}
    (authored : d.Authored e) (taken : d.step codecA codecB e = some d') :
    Linked codecA codecB inventedA inventedB d' := by
  cases e with
  | updateA next =>
      cases taken
      exact linked.updateA authored.1 authored.2
  | updateB next =>
      cases taken
      exact (linked.swap.updateA authored.1 authored.2).swap
  | absorbA =>
      cases taken
      exact linked.absorbA
  | absorbB =>
      cases taken
      exact linked.swap.absorbA.swap
  | offerA =>
      cases taken
      exact linked.offerA roundTripsA
  | offerB =>
      cases taken
      exact (linked.swap.offerA roundTripsB).swap
  | deliverB i =>
      obtain ⟨f, found, rfl⟩ := Option.map_eq_some_iff.mp taken
      exact linked.deliverB roundTripsA soundA (List.mem_of_getElem? found)
  | deliverA i =>
      obtain ⟨f, found, rfl⟩ := Option.map_eq_some_iff.mp taken
      exact (linked.swap.deliverB roundTripsB soundB (List.mem_of_getElem? found)).swap

theorem reaches (roundTripsA : codecA.RoundTrips) (roundTripsB : codecB.RoundTrips)
    {firstA : S} {firstB : T} (soundA : Sound firstA) (soundB : Sound firstB)
    (oneA : seq firstA = 1) (oneB : seq firstB = 1)
    (soundInventedA : Sound inventedA) (soundInventedB : Sound inventedB)
    (run : Reaches (Duplex.step codecA codecB) Duplex.Authored
      (Duplex.start firstA inventedA firstB inventedB) d) :
    Linked codecA codecB inventedA inventedB d :=
  run.invariant (fun _ _ _ linked authored taken =>
    linked.step roundTripsA roundTripsB soundInventedA soundInventedB authored taken)
    (Linked.start soundA soundB oneA oneB)

end Linked
end Duplex
end Oxutrm.Sync
