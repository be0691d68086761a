import Oxutrm.Proto.Types
import Oxutrm.Lib.Window

/-!
The two ends of one replicated value. The serialiser and the compressor are
parameters; what the channel needs of them is stated in `Codec.RoundTrips`.
A frame is applied to a copy of the base it names, so every function that
mutates in the source returns here the value it leaves behind.
-/
namespace Oxutrm.Sync
open Proto Window

def stateRing : Nat := 32

def maxDecompressed : Nat := 64 * 1024 * 1024

def flagZstd : UInt8 := 0x01

structure Frame where
  myState : UInt64
  fromState : UInt64
  ackState : UInt64
  flags : UInt8
  payload : Bytes
  deriving DecidableEq, Repr

/-- A replicated value. `apply` returns what it leaves behind even when it
fails: nothing in the source rolls a partial application back. -/
class SyncState (S : Type) (D : outParam Type) where
  seq : S → UInt64
  setSeq : S → UInt64 → S
  validate : S → Checked
  validateTransition : S → S → Checked := fun s _ => validate s
  diffFrom : S → S → D
  apply : S → UInt64 → UInt64 → D → S × Checked
  fullDiff : S → D

export SyncState (seq setSeq)

/-- `postcard` and `ruzstd`. A streaming decoder yields the bytes it can read
and the error that ends them, if one does. -/
structure Codec (D : Type) where
  toStdvec : D → Except String Bytes
  fromBytes : Bytes → Except String D
  compressToVec : Bytes → Bytes
  streamingDecoder : Bytes → Except String (Bytes × Option String)

/-- What is documented of them: each reads back what it wrote. -/
structure Codec.RoundTrips {D : Type} (codec : Codec D) : Prop where
  postcard : ∀ d, ∃ raw, codec.toStdvec d = .ok raw ∧ codec.fromBytes raw = .ok d
  zstd : ∀ raw, codec.streamingDecoder (codec.compressToVec raw) = .ok (raw, none)

def saturatingSucc (n : UInt64) : UInt64 :=
  if n.toNat + 1 < 2 ^ 64 then n + 1 else n

theorem toNat_saturatingSucc (n : UInt64) :
    (saturatingSucc n).toNat = min (n.toNat + 1) (2 ^ 64 - 1) := by
  have bound := n.toNat_lt
  by_cases room : n.toNat + 1 < 2 ^ 64
  · simp only [saturatingSucc, room, if_true, UInt64.toNat_add, UInt64.toNat_one]
    omega
  · simp only [saturatingSucc, room, if_false]
    omega

theorem saturatingSucc_ne_zero (n : UInt64) : saturatingSucc n ≠ 0 := by
  intro zero
  have := toNat_saturatingSucc n
  rw [zero] at this
  simp only [UInt64.toNat_zero] at this
  omega

theorem toNat_max (a b : UInt64) : (max a b).toNat = max a.toNat b.toNat := by
  change (if a ≤ b then b else a).toNat = _
  split
  · next le => exact (Nat.max_eq_right (UInt64.le_iff_toNat_le.mp le)).symm
  · next gt =>
      have := UInt64.lt_iff_toNat_lt.mp (UInt64.not_le.mp gt)
      omega

theorem max_cases (a b : UInt64) : max a b = a ∨ max a b = b := by
  change (if a ≤ b then b else a) = a ∨ (if a ≤ b then b else a) = b
  split
  · exact Or.inr rfl
  · exact Or.inl rfl

variable {S D : Type} [SyncState S D]

section Payload
variable (codec : Codec D)

/-- The payload of a diff: compressed only when that shrinks it. -/
def encodeDiff (diff : D) : Except ApplyError (Bytes × UInt8) :=
  match codec.toStdvec diff with
  | .error e => .error (.decode ("encoding diff: " ++ e))
  | .ok raw =>
      let compressed := codec.compressToVec raw
      if compressed.length < raw.length then .ok (compressed, flagZstd) else .ok (raw, 0)

def decompress (payload : Bytes) : Except ApplyError Bytes :=
  match codec.streamingDecoder payload with
  | .error e => .error (.decode ("zstd: " ++ e))
  | .ok (out, ending) =>
      if out.length > maxDecompressed then
        .error (.decode
          ("compressed payload expands beyond " ++ toString maxDecompressed ++ " bytes"))
      else
        match ending with
        | some e => .error (.decode ("zstd: " ++ e))
        | none => .ok out

def decodeDiff (flags : UInt8) (payload : Bytes) : Except ApplyError D := do
  let raw ← if flags &&& flagZstd ≠ 0 then decompress codec payload else .ok payload
  match codec.fromBytes raw with
  | .error e => .error (.decode ("decoding diff: " ++ e))
  | .ok diff => .ok diff

end Payload

/-- Oldest first; the last entry is the current state. -/
structure Sender (S : Type) where
  ring : List S
  held : ring ≠ []
  peerSaw : UInt64
  lastAckSent : UInt64

namespace Sender

def new (initial : S) : Sender S :=
  { ring := [initial], held := List.cons_ne_nil _ _, peerSaw := 0, lastAckSent := 0 }

def current (tx : Sender S) : S := tx.ring.getLast tx.held

def update (tx : Sender S) (next : S) : Sender S :=
  { tx with
    ring := cap stateRing (tx.ring ++ [setSeq next (saturatingSucc (seq tx.current))])
    held := cap_ne_nil (by decide) (List.append_ne_nil_of_right_ne_nil _ (List.cons_ne_nil _ _)) }

def onAck (tx : Sender S) (peerSaw : UInt64) : Sender S :=
  { tx with peerSaw := max tx.peerSaw peerSaw }

/-- The peer's acknowledged state, while the ring still holds it. -/
def base (tx : Sender S) : Option S := tx.ring.find? fun s => seq s == tx.peerSaw

/-- The diff to send and the base it names. -/
def pendingDiff (tx : Sender S) : D × UInt64 :=
  match tx.base with
  | some base => (SyncState.diffFrom tx.current base, seq base)
  | none => (SyncState.fullDiff tx.current, 0)

def stateMoved (tx : Sender S) : Prop := tx.peerSaw ≠ seq tx.current

def ackOwed (tx : Sender S) (ackState : UInt64) : Prop := tx.lastAckSent < ackState

instance (tx : Sender S) : Decidable tx.stateMoved :=
  inferInstanceAs (Decidable (tx.peerSaw ≠ seq tx.current))

instance (tx : Sender S) (ackState : UInt64) : Decidable (tx.ackOwed ackState) :=
  inferInstanceAs (Decidable (tx.lastAckSent < ackState))

def makeFrame (codec : Codec D) (tx : Sender S) (ackState : UInt64) :
    Sender S × Except ApplyError (Option Frame) :=
  if ¬ tx.stateMoved ∧ ¬ tx.ackOwed ackState then (tx, .ok none)
  else
    match encodeDiff codec tx.pendingDiff.1 with
    | .error e => (tx, .error e)
    | .ok (payload, flags) =>
        ({ tx with lastAckSent := ackState },
          .ok (some
            { myState := seq tx.current
              fromState := tx.pendingDiff.2
              ackState := ackState
              flags := flags
              payload := payload }))

end Sender

/-- Oldest first; the last entry is the state actually held. -/
structure Receiver (S : Type) where
  ring : List S
  held : ring ≠ []
  peerAck : UInt64
  appliedAny : Bool
  diffsApplied : UInt64
  fullStatesApplied : UInt64

namespace Receiver

def new (initial : S) : Receiver S where
  ring := [initial]
  held := List.cons_ne_nil _ _
  peerAck := 0
  appliedAny := false
  diffsApplied := 0
  fullStatesApplied := 0

def state (rx : Receiver S) : S := rx.ring.getLast rx.held

def ack (rx : Receiver S) : UInt64 := if rx.appliedAny then seq rx.state else 0

def appliedKinds (rx : Receiver S) : UInt64 × UInt64 := (rx.diffsApplied, rx.fullStatesApplied)

def stale (rx : Receiver S) (f : Frame) : Bool :=
  if f.fromState = 0 ∧ ¬ rx.appliedAny then f.myState < seq rx.state
  else f.myState ≤ seq rx.state

def hearAck (rx : Receiver S) (f : Frame) : Receiver S :=
  { rx with peerAck := max rx.peerAck f.ackState }

/-- The ring entry a frame builds on. A base no longer held falls through to
the current state, where `apply` reports the mismatch. -/
def baseFor (rx : Receiver S) (fromState : UInt64) : S :=
  match rx.ring.find? (fun s => seq s == fromState) with
  | some base => if fromState ≠ 0 then base else rx.state
  | none => rx.state

/-- What a frame would make of the state, or why it is refused. -/
def next (codec : Codec D) (rx : Receiver S) (f : Frame) : Except ApplyError S := do
  let diff ← decodeDiff codec f.flags f.payload
  let (next, applied) :=
    SyncState.apply (rx.baseFor f.fromState) f.fromState f.myState diff
  applied
  SyncState.validateTransition next rx.state
  pure next

/-- The ring once `next` is accepted: nothing invented locally survives the
first frame, nothing older than the sender's base can be named again. -/
def advance (rx : Receiver S) (fromState : UInt64) (next : S) : List S :=
  cap (stateRing + 1)
    ((if rx.appliedAny then rx.ring else []).dropWhile (fun s => seq s < fromState) ++ [next])

def commit (rx : Receiver S) (fromState : UInt64) (next : S) : Receiver S where
  ring := rx.advance fromState next
  held := cap_ne_nil (Nat.succ_pos _)
    (List.append_ne_nil_of_right_ne_nil _ (List.cons_ne_nil _ _))
  peerAck := rx.peerAck
  appliedAny := true
  diffsApplied := if fromState = 0 then rx.diffsApplied else saturatingSucc rx.diffsApplied
  fullStatesApplied :=
    if fromState = 0 then saturatingSucc rx.fullStatesApplied else rx.fullStatesApplied

def onFrame (codec : Codec D) (rx : Receiver S) (f : Frame) :
    Receiver S × Except ApplyError Bool :=
  let rx := rx.hearAck f
  if rx.stale f then (rx, .ok false)
  else
    match rx.next codec f with
    | .error e => (rx, .error e)
    | .ok next => (rx.commit f.fromState next, .ok true)

/-- The receiver after any frames at all. -/
def hear (codec : Codec D) (rx : Receiver S) (frames : List Frame) : Receiver S :=
  frames.foldl (fun rx f => (rx.onFrame codec f).1) rx

end Receiver
end Oxutrm.Sync
