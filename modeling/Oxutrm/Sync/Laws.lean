import Oxutrm.Sync.Channel

/-!
What the channel relies on in the values it replicates, and what its functions
can do, one inversion lemma each. The protocol proofs use these and never
unfold the functions themselves.
-/
namespace Oxutrm.Sync
open Proto Window

/-- The laws of a replicated value. `Sound` is what every authored state
satisfies and `Follows` what two states of one history do. -/
class LawfulSyncState (S : Type) {D : outParam Type} [SyncState S D] where
  Sound : S → Prop
  Follows : S → S → Prop
  follows_trans : ∀ {a b c}, Follows a b → Follows b c → Follows a c
  follows_setSeq : ∀ {a b} (n : UInt64), Follows a b → Follows a (setSeq b n)
  seq_setSeq : ∀ (s : S) (n : UInt64), seq (setSeq s n) = n
  sound_setSeq : ∀ {s : S} {n : UInt64}, n ≠ 0 → Sound s → Sound (setSeq s n)
  sound_seq : ∀ {s : S}, Sound s → seq s ≠ 0
  accepts : ∀ {s previous : S}, Sound s → Follows previous s →
    SyncState.validateTransition s previous = .ok ()
  apply_seq : ∀ {s t : S} {base target : UInt64} {d : D},
    SyncState.apply s base target d = (t, .ok ()) → seq t = target
  apply_base : ∀ {s t : S} {base target : UInt64} {d : D},
    SyncState.apply s base target d = (t, .ok ()) → base = 0 ∨ base = seq s
  apply_diffFrom : ∀ {target base : S}, Sound target → Sound base →
    SyncState.apply base (seq base) (seq target) (SyncState.diffFrom target base) =
      (target, .ok ())
  apply_fullDiff : ∀ {target held : S}, Sound target → Sound held →
    SyncState.apply held 0 (seq target) (SyncState.fullDiff target) = (target, .ok ())

variable {S D : Type} [SyncState S D]

def rank (s : S) : Nat := (seq s).toNat

section Payload
variable {codec : Codec D}

theorem encodeDiff_total (roundTrips : codec.RoundTrips) (d : D) :
    ∃ payload flags, encodeDiff codec d = .ok (payload, flags) := by
  obtain ⟨raw, encoded, -⟩ := roundTrips.postcard d
  simp only [encodeDiff, encoded]
  split
  · exact ⟨_, _, rfl⟩
  · exact ⟨_, _, rfl⟩

private theorem decodeDiff_plain (codec : Codec D) {raw : Bytes} {d : D}
    (decoded : codec.fromBytes raw = .ok d) : decodeDiff codec 0 raw = .ok d := by
  simp [decodeDiff, decoded, bind, Except.bind]

/-- A payload comes back as the diff it was made from, or not at all. -/
theorem decodeDiff_encodeDiff (roundTrips : codec.RoundTrips) {d : D} {payload : Bytes}
    {flags : UInt8} (encoded : encodeDiff codec d = .ok (payload, flags)) {d' : D}
    (decoded : decodeDiff codec flags payload = .ok d') : d' = d := by
  obtain ⟨raw, written, read⟩ := roundTrips.postcard d
  simp only [encodeDiff, written] at encoded
  split at encoded
  · cases encoded
    have flagged : flagZstd &&& flagZstd ≠ 0 := by decide
    simp only [decodeDiff, flagged, decompress, roundTrips.zstd, ne_eq, not_false_eq_true,
      if_true] at decoded
    split at decoded
    · simp [bind, Except.bind] at decoded
    · simpa [bind, Except.bind, read] using decoded.symm
  · cases encoded
    rw [decodeDiff_plain codec read] at decoded
    exact (Except.ok.inj decoded).symm

/-- The diff comes back from its payload. -/
def Carries (codec : Codec D) (d : D) : Prop :=
  ∀ payload flags, encodeDiff codec d = .ok (payload, flags) →
    decodeDiff codec flags payload = .ok d

theorem carries_of_fits (roundTrips : codec.RoundTrips) {d : D}
    (fits : ∀ raw, codec.toStdvec d = .ok raw → raw.length ≤ maxDecompressed) :
    Carries codec d := by
  intro payload flags encoded
  obtain ⟨raw, written, read⟩ := roundTrips.postcard d
  have short := fits raw written
  simp only [encodeDiff, written] at encoded
  split at encoded
  · cases encoded
    have flagged : flagZstd ≠ 0 := by decide
    have inside : ¬ raw.length > maxDecompressed := by omega
    simp [decodeDiff, flagged, decompress, roundTrips.zstd, inside, bind, Except.bind, read]
  · cases encoded
    exact decodeDiff_plain codec read

end Payload

namespace Sender

@[simp] theorem current_onAck (tx : Sender S) (n : UInt64) :
    (tx.onAck n).current = tx.current := rfl

theorem current_update (tx : Sender S) (next : S) :
    (tx.update next).current = setSeq next (saturatingSucc (seq tx.current)) := by
  simp only [current, update, getLast_cap, List.getLast_append_singleton]

/-- A frame is made exactly when there is news or an acknowledgement is owed. -/
theorem makeFrame_cases (codec : Codec D) (tx : Sender S) (ackState : UInt64) :
    (¬ tx.stateMoved ∧ ¬ tx.ackOwed ackState ∧ tx.makeFrame codec ackState = (tx, .ok none)) ∨
    (∃ e, tx.makeFrame codec ackState = (tx, .error e) ∧
      encodeDiff codec tx.pendingDiff.1 = .error e) ∨
    (∃ payload flags, (tx.stateMoved ∨ tx.ackOwed ackState) ∧
      encodeDiff codec tx.pendingDiff.1 = .ok (payload, flags) ∧
      tx.makeFrame codec ackState = ({ tx with lastAckSent := ackState }, .ok (some
        { myState := seq tx.current, fromState := tx.pendingDiff.2, ackState := ackState,
          flags := flags, payload := payload }))) := by
  by_cases idle : ¬ tx.stateMoved ∧ ¬ tx.ackOwed ackState
  · exact Or.inl ⟨idle.1, idle.2, by simp only [makeFrame, idle, not_false_eq_true, and_self,
      if_true]⟩
  · right
    cases encoded : encodeDiff codec tx.pendingDiff.1 with
    | error e => exact Or.inl ⟨e, by simp only [makeFrame, idle, if_false, encoded], rfl⟩
    | ok made =>
        obtain ⟨payload, flags⟩ := made
        refine Or.inr ⟨payload, flags, ?_, rfl, ?_⟩
        · rw [not_and_or, not_not, not_not] at idle
          exact idle
        · simp only [makeFrame, idle, if_false, encoded]

/-- What a frame carries: a diff against the acknowledged base, or everything. -/
theorem pendingDiff_cases (tx : Sender S) :
    (∃ base ∈ tx.ring, seq base = tx.peerSaw ∧
      tx.pendingDiff = (SyncState.diffFrom tx.current base, tx.peerSaw)) ∨
    ((∀ s ∈ tx.ring, seq s ≠ tx.peerSaw) ∧
      tx.pendingDiff = (SyncState.fullDiff tx.current, 0)) := by
  cases found : tx.base with
  | some base =>
      have named : seq base = tx.peerSaw := by simpa using List.find?_some found
      exact Or.inl ⟨base, List.mem_of_find?_eq_some found, named,
        by simp only [pendingDiff, found, named]⟩
  | none =>
      refine Or.inr ⟨?_, by simp only [pendingDiff, found]⟩
      intro s member
      simpa using List.find?_eq_none.mp found s member

end Sender

namespace Receiver

theorem mem_state (rx : Receiver S) : rx.state ∈ rx.ring := List.getLast_mem rx.held

@[simp] theorem hearAck_ring (rx : Receiver S) (f : Frame) : (rx.hearAck f).ring = rx.ring := rfl

@[simp] theorem hearAck_state (rx : Receiver S) (f : Frame) :
    (rx.hearAck f).state = rx.state := rfl

@[simp] theorem hearAck_ack (rx : Receiver S) (f : Frame) : (rx.hearAck f).ack = rx.ack := rfl

@[simp] theorem hearAck_appliedAny (rx : Receiver S) (f : Frame) :
    (rx.hearAck f).appliedAny = rx.appliedAny := rfl

theorem state_commit (rx : Receiver S) (fromState : UInt64) (next : S) :
    (rx.commit fromState next).state = next := by
  simp only [state, commit, advance, getLast_cap, List.getLast_append_singleton]

theorem mem_advance {rx : Receiver S} {fromState : UInt64} {next s : S}
    (member : s ∈ rx.advance fromState next) :
    s = next ∨ rx.appliedAny = true ∧ s ∈ rx.ring := by
  rcases List.mem_append.mp (mem_of_mem_cap member) with old | new
  · have kept := (List.dropWhile_sublist _).mem old
    by_cases applied : rx.appliedAny
    · rw [if_pos applied] at kept
      exact Or.inr ⟨applied, kept⟩
    · rw [if_neg applied] at kept
      contradiction
  · exact Or.inl (List.mem_singleton.mp new)

theorem onFrame_cases (codec : Codec D) (rx : Receiver S) (f : Frame) :
    (rx.stale f = true ∧ rx.onFrame codec f = (rx.hearAck f, .ok false)) ∨
    (∃ e, rx.stale f = false ∧ rx.next codec f = .error e ∧
      rx.onFrame codec f = (rx.hearAck f, .error e)) ∨
    (∃ next, rx.stale f = false ∧ rx.next codec f = .ok next ∧
      rx.onFrame codec f = ((rx.hearAck f).commit f.fromState next, .ok true)) := by
  have sameStale : (rx.hearAck f).stale f = rx.stale f := rfl
  have sameNext : (rx.hearAck f).next codec f = rx.next codec f := rfl
  cases late : rx.stale f with
  | true => exact Or.inl ⟨rfl, by simp only [onFrame, sameStale, late, if_true]⟩
  | false =>
      right
      cases made : rx.next codec f with
      | error e =>
          exact Or.inl ⟨e, rfl, rfl, by simp [onFrame, sameStale, sameNext, late, made]⟩
      | ok next =>
          exact Or.inr ⟨next, rfl, rfl, by simp [onFrame, sameStale, sameNext, late, made]⟩

theorem onFrame_peerAck (codec : Codec D) (rx : Receiver S) (f : Frame) :
    (rx.onFrame codec f).1.peerAck = max rx.peerAck f.ackState := by
  rcases rx.onFrame_cases codec f with ⟨-, result⟩ | ⟨e, -, -, result⟩ | ⟨next, -, -, result⟩
  · rw [result]
    rfl
  · rw [result]
    rfl
  · rw [result]
    rfl

theorem next_ok {codec : Codec D} {rx : Receiver S} {f : Frame} {next : S} :
    rx.next codec f = .ok next ↔
      ∃ diff, decodeDiff codec f.flags f.payload = .ok diff ∧
        SyncState.apply (rx.baseFor f.fromState) f.fromState f.myState diff = (next, .ok ()) ∧
        SyncState.validateTransition next rx.state = .ok () := by
  cases decoded : decodeDiff codec f.flags f.payload with
  | error e => simp [Receiver.next, decoded, bind, Except.bind]
  | ok diff =>
      rcases made : SyncState.apply (rx.baseFor f.fromState) f.fromState f.myState diff
        with ⟨value, result⟩
      cases result with
      | error e => simp [Receiver.next, decoded, made, bind, Except.bind]
      | ok _ =>
          cases valid : SyncState.validateTransition value rx.state with
          | error e =>
              simp only [Receiver.next, decoded, made, valid, bind, Except.bind]
              constructor
              · intro impossible
                cases impossible
              · rintro ⟨diff', same, applied, accepted⟩
                cases same
                rw [made] at applied
                cases applied
                rw [valid] at accepted
                cases accepted
          | ok _ =>
              simp only [Receiver.next, decoded, made, valid, bind, Except.bind, pure,
                Except.pure]
              constructor
              · intro same
                cases same
                exact ⟨diff, rfl, made, valid⟩
              · rintro ⟨diff', same, applied, -⟩
                cases same
                rw [made] at applied
                cases applied
                rfl

/-- A base that is named and held is the one the frame builds on. -/
theorem baseFor_of_mem {rx : Receiver S} {fromState : UInt64} (named : fromState ≠ 0)
    (present : ∃ s ∈ rx.ring, seq s = fromState) :
    rx.baseFor fromState ∈ rx.ring ∧ seq (rx.baseFor fromState) = fromState := by
  obtain ⟨s, member, matching⟩ := present
  cases found : rx.ring.find? (fun s => seq s == fromState) with
  | none =>
      have := List.find?_eq_none.mp found s member
      simp only [matching, BEq.rfl, not_true_eq_false] at this
  | some base =>
      have isBase : rx.baseFor fromState = base := by
        simp only [baseFor, found, ne_eq, named, not_false_eq_true, if_true]
      rw [isBase]
      exact ⟨List.mem_of_find?_eq_some found, by simpa using List.find?_some found⟩

theorem baseFor_mem (rx : Receiver S) (fromState : UInt64) :
    rx.baseFor fromState ∈ rx.ring := by
  simp only [baseFor]
  split
  · next base found =>
      split
      · exact List.mem_of_find?_eq_some found
      · exact rx.mem_state
  · exact rx.mem_state

theorem lt_of_not_stale {rx : Receiver S} {f : Frame} (fresh : rx.stale f = false)
    (later : rx.appliedAny = true ∨ f.fromState ≠ 0) : seq rx.state < f.myState := by
  have usual : ¬ (f.fromState = 0 ∧ ¬ rx.appliedAny = true) := by
    rintro ⟨full, first⟩
    rcases later with applied | diff
    · exact first applied
    · exact diff full
  simp only [stale, usual, if_false, decide_eq_false_iff_not, UInt64.not_le] at fresh
  exact fresh

theorem le_of_not_stale {rx : Receiver S} {f : Frame} (fresh : rx.stale f = false) :
    seq rx.state ≤ f.myState := by
  simp only [stale] at fresh
  split at fresh
  · simpa only [decide_eq_false_iff_not, UInt64.not_lt] using fresh
  · simp only [decide_eq_false_iff_not, UInt64.not_le] at fresh
    exact UInt64.le_of_lt fresh

theorem not_stale_of_lt {rx : Receiver S} {f : Frame} (newer : seq rx.state < f.myState) :
    rx.stale f = false := by
  simp only [stale]
  split
  · rw [decide_eq_false_iff_not, UInt64.not_lt]
    exact UInt64.le_of_lt newer
  · rw [decide_eq_false_iff_not, UInt64.not_le]
    exact newer

theorem rank_le_state {rx : Receiver S}
    (increasing : rx.ring.Pairwise fun a b => rank a < rank b) {s : S} (member : s ∈ rx.ring) :
    rank s ≤ rank rx.state := by
  rw [← List.dropLast_append_getLast rx.held] at member increasing
  rcases List.mem_append.mp member with older | newest
  · exact Nat.le_of_lt
      ((List.pairwise_append.mp increasing).2.2 s older _ (List.mem_singleton_self _))
  · rw [List.mem_singleton.mp newest]
    exact Nat.le_refl _

private theorem increasing_pushed {rx : Receiver S} {fromState : UInt64} {next : S}
    (increasing : rx.ring.Pairwise fun a b => rank a < rank b)
    (newer : rx.appliedAny = true → rank rx.state < rank next) :
    ((if rx.appliedAny then rx.ring else []).dropWhile (fun s => seq s < fromState) ++
      [next]).Pairwise fun a b => rank a < rank b := by
  refine List.pairwise_append.mpr ⟨?_, List.pairwise_singleton _ _, ?_⟩
  · refine List.Pairwise.sublist (List.dropWhile_sublist _) ?_
    split
    · exact increasing
    · exact List.Pairwise.nil
  · intro s kept t new
    rw [List.mem_singleton.mp new]
    have member := (List.dropWhile_sublist _).mem kept
    split at member
    · next applied => exact Nat.lt_of_le_of_lt (rank_le_state increasing member) (newer applied)
    · contradiction

theorem increasing_advance {rx : Receiver S} {fromState : UInt64} {next : S}
    (increasing : rx.ring.Pairwise fun a b => rank a < rank b)
    (newer : rx.appliedAny = true → rank rx.state < rank next) :
    (rx.advance fromState next).Pairwise fun a b => rank a < rank b :=
  pairwise_cap (increasing_pushed increasing newer)

/-- An entry the sender can still name survives an accepted frame. -/
theorem mem_advance_of_near {rx : Receiver S} {fromState : UInt64} {next s : S}
    (applied : rx.appliedAny = true) (increasing : rx.ring.Pairwise fun a b => rank a < rank b)
    (member : s ∈ rx.ring) (above : fromState.toNat ≤ rank s)
    (newer : rank rx.state < rank next) (near : rank next ≤ rank s + stateRing) :
    s ∈ rx.advance fromState next := by
  refine mem_cap rank (increasing_pushed increasing fun _ => newer) (List.mem_append_left _ ?_) ?_
  · rw [if_pos applied]
    refine mem_dropWhile member ?_
    rw [decide_eq_false_iff_not, UInt64.not_lt]
    exact UInt64.le_iff_toNat_le.mpr above
  · intro t present
    rcases List.mem_append.mp present with old | new
    · rw [if_pos applied] at old
      have := rank_le_state increasing ((List.dropWhile_sublist _).mem old)
      omega
    · rw [List.mem_singleton.mp new]
      omega

end Receiver
end Oxutrm.Sync
