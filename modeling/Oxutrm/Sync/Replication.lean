import Oxutrm.Sync.Laws
import Oxutrm.Lib.Transition

/-!
One sender and one receiver over a network that may lose, duplicate, reorder
and delay. Every frame ever made and every acknowledgement ever reported stays
available: losing one is never picking it, duplicating one is picking it twice.
`held` records the states the sender has held, which the source does not keep.
-/
namespace Oxutrm.Sync
open Proto Window Transition

structure Net (S : Type) where
  tx : Sender S
  rx : Receiver S
  held : List S
  frames : List Frame
  acks : List UInt64

inductive Event (S : Type) where
  | update (next : S)
  | makeFrame (ackState : UInt64)
  | deliver (i : Nat)
  | report
  | onAck (i : Nat)

variable {S D : Type} [SyncState S D]

namespace Net

def start (first invented : S) : Net S where
  tx := Sender.new first
  rx := Receiver.new invented
  held := [first]
  frames := []
  acks := []

def step (codec : Codec D) (net : Net S) : Event S → Option (Net S)
  | .update next =>
      let tx := net.tx.update next
      some { net with tx := tx, held := net.held ++ [tx.current] }
  | .makeFrame ackState =>
      match net.tx.makeFrame codec ackState with
      | (tx, .ok (some f)) => some { net with tx := tx, frames := net.frames ++ [f] }
      | (tx, _) => some { net with tx := tx }
  | .deliver i => net.frames[i]?.map fun f => { net with rx := (net.rx.onFrame codec f).1 }
  | .report => some { net with acks := net.acks ++ [net.rx.ack] }
  | .onAck i => net.acks[i]?.map fun a => { net with tx := net.tx.onAck a }

end Net

variable [LawfulSyncState S]
open LawfulSyncState

/-- The only restriction on a run: what is handed to `update` is a legal
successor of the current state. -/
def Net.Authored (net : Net S) : Event S → Prop
  | .update next => Sound next ∧ Follows net.tx.current next
  | _ => True

theorem rank_pos {s : S} (sound : Sound s) : 0 < rank s := by
  have := sound_seq sound
  by_contra zero
  exact this (UInt64.toNat_inj.mp (by simp only [rank] at zero; simp; omega))

/-- The states a sender has held: legal, in order and numbered from 1. -/
structure History (held : List S) : Prop where
  sound : ∀ s ∈ held, Sound s
  follows : held.Pairwise Follows
  numbered : ∀ i s, held[i]? = some s → rank s = min (i + 1) (2 ^ 64 - 1)

namespace History
variable {held : List S}

theorem rank_le (history : History held) {s current : S} (member : s ∈ held)
    (last : held.getLast? = some current) : rank s ≤ rank current := by
  obtain ⟨i, found⟩ := List.mem_iff_getElem?.mp member
  obtain ⟨inside, -⟩ := List.getElem?_eq_some_iff.mp found
  rw [List.getLast?_eq_getElem?] at last
  rw [history.numbered i s found, history.numbered _ current last]
  omega

/-- A number below saturation, or in a history too short to saturate, is of one state. -/
theorem eq_of_seq (history : History held) {s t : S} (memberS : s ∈ held) (memberT : t ∈ held)
    (same : seq s = seq t) (below : rank s < 2 ^ 64 - 1 ∨ held.length < 2 ^ 64) : s = t := by
  obtain ⟨i, foundS⟩ := List.mem_iff_getElem?.mp memberS
  obtain ⟨j, foundT⟩ := List.mem_iff_getElem?.mp memberT
  have insideS := (List.getElem?_eq_some_iff.mp foundS).1
  have insideT := (List.getElem?_eq_some_iff.mp foundT).1
  have rankS := history.numbered i s foundS
  have rankT := history.numbered j t foundT
  have sameRank : rank s = rank t := congrArg UInt64.toNat same
  obtain rfl : i = j := by omega
  exact Option.some.inj (foundS.symm.trans foundT)

theorem unique (history : History held) {s t : S} (memberS : s ∈ held) (memberT : t ∈ held)
    (same : seq s = seq t) (unsaturated : rank s < 2 ^ 64 - 1) : s = t :=
  history.eq_of_seq memberS memberT same (Or.inl unsaturated)

theorem unique_of_short (history : History held) (short : held.length < 2 ^ 64) {s t : S}
    (memberS : s ∈ held) (memberT : t ∈ held) (same : seq s = seq t) : s = t :=
  history.eq_of_seq memberS memberT same (Or.inr short)

/-- What holds along the history holds from a lower number to a higher one. -/
theorem pairwise_of_lt (history : History held) {r : S → S → Prop} (ordered : held.Pairwise r)
    {s t : S} (memberS : s ∈ held) (memberT : t ∈ held) (lt : rank s < rank t) : r s t := by
  obtain ⟨i, foundS⟩ := List.mem_iff_getElem?.mp memberS
  obtain ⟨j, foundT⟩ := List.mem_iff_getElem?.mp memberT
  have rankS := history.numbered i s foundS
  have rankT := history.numbered j t foundT
  obtain ⟨insideS, rfl⟩ := List.getElem?_eq_some_iff.mp foundS
  obtain ⟨insideT, rfl⟩ := List.getElem?_eq_some_iff.mp foundT
  exact List.pairwise_iff_getElem.mp ordered i j insideS insideT (by omega)

/-- The sender still holds a state only while it is within one ring of it. -/
theorem near (history : History held) {s current : S} (member : s ∈ cap stateRing held)
    (last : held.getLast? = some current) : rank current ≤ rank s + 31 := by
  obtain ⟨i, inside, taken⟩ := List.mem_drop_iff_getElem.mp member
  have found := List.getElem?_eq_some_iff.mpr ⟨by omega, taken⟩
  rw [List.getLast?_eq_getElem?] at last
  rw [history.numbered _ s found, history.numbered _ current last]
  simp only [stateRing] at inside ⊢
  omega

theorem push (history : History held) {current next : S}
    (last : held.getLast? = some current) (sound : Sound next)
    (follows : Follows current next) :
    History (held ++ [setSeq next (saturatingSucc (seq current))]) := by
  have numberedLast := history.numbered _ current (List.getLast?_eq_getElem? ▸ last)
  have nonempty : held ≠ [] := by
    rintro rfl
    cases last
  have positive := List.length_pos_iff.mpr nonempty
  refine ⟨?_, ?_, ?_⟩
  · intro s member
    rcases List.mem_append.mp member with old | new
    · exact history.sound s old
    · rw [List.mem_singleton.mp new]
      exact sound_setSeq (saturatingSucc_ne_zero _) sound
  · refine List.pairwise_append.mpr ⟨history.follows, List.pairwise_singleton _ _, ?_⟩
    intro s old t new
    rw [List.mem_singleton.mp new]
    refine follows_setSeq _ ?_
    rw [← List.dropLast_append_getLast? current last] at old
    rcases List.mem_append.mp old with earlier | newest
    · have ordered := history.follows
      rw [← List.dropLast_append_getLast? current last] at ordered
      exact follows_trans
        ((List.pairwise_append.mp ordered).2.2 s earlier current (List.mem_singleton_self _))
        follows
    · rw [List.mem_singleton.mp newest]
      exact follows
  · intro i s found
    by_cases inside : i < held.length
    · rw [List.getElem?_append_left inside] at found
      exact history.numbered i s found
    · rw [List.getElem?_append_right (by omega)] at found
      obtain ⟨here, rfl⟩ := List.getElem?_eq_some_iff.mp found
      simp only [List.length_singleton] at here
      have index : i = held.length := by omega
      subst index
      simp only [Nat.sub_self, List.getElem_cons_zero, rank, seq_setSeq, toNat_saturatingSucc]
      change min (rank current + 1) _ = _
      omega

end History
end Oxutrm.Sync
