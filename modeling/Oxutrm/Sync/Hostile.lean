import Oxutrm.Sync.Wire

/-!
A receiver under arbitrary frames. Nothing is assumed of the codec or of what
the peer sends: a frame is applied whole or not at all, and the ring keeps its
shape.
-/
namespace Oxutrm.Sync
open Proto Window

variable {S D : Type} [SyncState S D]

/-- The shape a ring keeps whatever arrives. -/
structure Receiver.Shaped (rx : Receiver S) : Prop where
  increasing : rx.ring.Pairwise fun a b => rank a < rank b
  bounded : rx.ring.length ≤ stateRing + 1
  valid : ∀ s ∈ rx.ring, SyncState.validate s = .ok ()

namespace Receiver
variable {codec : Codec D}

theorem onFrame_unapplied {rx : Receiver S} {f : Frame}
    (unapplied : (rx.onFrame codec f).2 ≠ .ok true) : (rx.onFrame codec f).1 = rx.hearAck f := by
  rcases rx.onFrame_cases codec f with ⟨-, result⟩ | ⟨e, -, -, result⟩ | ⟨next, -, -, result⟩
  · rw [result]
  · rw [result]
  · rw [result] at unapplied
    exact absurd rfl unapplied

theorem onFrame_applied {rx : Receiver S} {f : Frame}
    (applied : (rx.onFrame codec f).2 = .ok true) :
    ∃ next, rx.stale f = false ∧ rx.next codec f = .ok next ∧
      (rx.onFrame codec f).1 = (rx.hearAck f).commit f.fromState next := by
  rcases rx.onFrame_cases codec f with
    ⟨-, result⟩ | ⟨e, -, -, result⟩ | ⟨next, fresh, made, result⟩
  · rw [result] at applied
    cases applied
  · rw [result] at applied
    cases applied
  · exact ⟨next, fresh, made, by rw [result]⟩

/-- Exactly one of the two counters grows, by the kind of the frame. -/
theorem commit_counters (rx : Receiver S) (fromState : UInt64) (next : S) :
    (fromState = 0 ∧ (rx.commit fromState next).appliedKinds =
        (rx.diffsApplied, saturatingSucc rx.fullStatesApplied)) ∨
      (fromState ≠ 0 ∧ (rx.commit fromState next).appliedKinds =
        (saturatingSucc rx.diffsApplied, rx.fullStatesApplied)) := by
  by_cases full : fromState = 0
  · exact Or.inl ⟨full, by simp [appliedKinds, commit, full]⟩
  · exact Or.inr ⟨full, by simp [appliedKinds, commit, full]⟩

theorem seq_rises {rx : Receiver S} {f : Frame} (fresh : rx.stale f = false) :
    seq rx.state < f.myState ∨
      (seq rx.state = f.myState ∧ rx.appliedAny = false ∧ f.fromState = 0) := by
  by_cases exception : rx.appliedAny = true ∨ f.fromState ≠ 0
  · exact Or.inl (lt_of_not_stale fresh exception)
  · rw [not_or, not_not, Bool.not_eq_true] at exception
    have atLeast := UInt64.le_iff_toNat_le.mp (le_of_not_stale fresh)
    by_cases same : seq rx.state = f.myState
    · exact Or.inr ⟨same, exception⟩
    · refine Or.inl (UInt64.lt_iff_toNat_lt.mpr (Nat.lt_of_le_of_ne atLeast ?_))
      exact fun equal => same (UInt64.toNat_inj.mp equal)

variable [LawfulSyncState S]

theorem Shaped.onFrame {rx : Receiver S} (shaped : rx.Shaped)
    (transition : ∀ s previous : S, SyncState.validateTransition s previous = .ok () →
      SyncState.validate s = .ok ()) (f : Frame) : (rx.onFrame codec f).1.Shaped := by
  by_cases applied : (rx.onFrame codec f).2 = .ok true
  · obtain ⟨next, fresh, made, result⟩ := onFrame_applied applied
    obtain ⟨diff, -, built, accepted⟩ := next_ok.mp made
    rw [result]
    refine ⟨increasing_advance shaped.increasing ?_, length_cap_le _ _, ?_⟩
    · intro before
      have newer := UInt64.lt_iff_toNat_lt.mp (lt_of_not_stale fresh (Or.inl before))
      rw [← LawfulSyncState.apply_seq built] at newer
      exact newer
    · intro s member
      rcases mem_advance member with rfl | ⟨-, old⟩
      · exact transition _ _ accepted
      · exact shaped.valid s old
  · rw [onFrame_unapplied applied]
    exact ⟨shaped.increasing, shaped.bounded, shaped.valid⟩

theorem Shaped.hear {rx : Receiver S} (shaped : rx.Shaped)
    (transition : ∀ s previous : S, SyncState.validateTransition s previous = .ok () →
      SyncState.validate s = .ok ()) (frames : List Frame) : (rx.hear codec frames).Shaped := by
  induction frames generalizing rx with
  | nil => exact shaped
  | cons f frames ih => exact ih (shaped.onFrame transition f)

end Receiver

theorem shaped_new {initial : S} (valid : SyncState.validate initial = .ok ()) :
    (Receiver.new initial).Shaped where
  increasing := List.pairwise_singleton _ _
  bounded := by simp [Receiver.new]
  valid s member := by rwa [List.mem_singleton.mp member]

/-- Whatever the peer sends, a frame is applied whole or not at all. -/
theorem frame_applied_whole_or_not_at_all {codec : Codec ScreenDiff} {initial : ScreenState}
    (valid : initial.validate = .ok ()) (frames : List Frame) (f : Frame)
    {rx after : Receiver ScreenState} {result : Except ApplyError Bool}
    (reached : rx = (Receiver.new initial).hear codec frames)
    (outcome : rx.onFrame codec f = (after, result)) :
    ((∃ e, result = .error e) ∨ result = .ok false →
        after = { rx with peerAck := max rx.peerAck f.ackState }) ∧
      (result = .ok true →
        after.state.validate = .ok () ∧ after.state.seq = f.myState ∧
        (rx.state.seq < after.state.seq ∨
          (rx.state.seq = after.state.seq ∧ rx.appliedAny = false ∧ f.fromState = 0)) ∧
        Proto.ScreenState.CountersLe rx.state after.state ∧
        after.peerAck = max rx.peerAck f.ackState ∧
        ((f.fromState = 0 ∧
            after.appliedKinds = (rx.diffsApplied, saturatingSucc rx.fullStatesApplied)) ∨
          (f.fromState ≠ 0 ∧
            after.appliedKinds = (saturatingSucc rx.diffsApplied, rx.fullStatesApplied)))) ∧
      rx.ring ≠ [] ∧ rx.ring.length ≤ stateRing + 1 ∧
      (rx.ring.Pairwise fun a b => a.seq < b.seq) ∧ ∀ s ∈ rx.ring, s.validate = .ok () := by
  have shaped : rx.Shaped := by
    rw [reached]
    exact (shaped_new valid).hear
      (fun s previous accepted => ((Proto.ScreenState.validateTransition_ok s previous).mp
        accepted).1) frames
  refine ⟨?_, ?_, rx.held, shaped.bounded, ?_, shaped.valid⟩
  · intro refused
    have unapplied : (rx.onFrame codec f).2 ≠ .ok true := by
      rw [outcome]
      rcases refused with ⟨e, rfl⟩ | rfl
      · simp
      · simp
    have same := Receiver.onFrame_unapplied unapplied
    rw [outcome] at same
    exact same
  · intro applied
    obtain ⟨next, fresh, made, same⟩ := Receiver.onFrame_applied
      (show (rx.onFrame codec f).2 = .ok true by rw [outcome, applied])
    obtain ⟨diff, -, built, accepted⟩ := Receiver.next_ok.mp made
    obtain ⟨nextValid, counters⟩ :=
      (Proto.ScreenState.validateTransition_ok next rx.state).mp accepted
    have numbered : next.seq = f.myState := LawfulSyncState.apply_seq built
    simp only [outcome] at same
    have shown : after.state = next := by
      rw [same]
      exact Receiver.state_commit _ _ _
    rw [shown]
    refine ⟨nextValid, numbered, ?_, counters, by rw [same]; rfl, ?_⟩
    · rw [numbered]
      exact Receiver.seq_rises fresh
    · rw [same]
      exact Receiver.commit_counters (rx.hearAck f) f.fromState next
  · exact shaped.increasing.imp fun lt => UInt64.lt_iff_toNat_lt.mpr lt

/-- The first frame a client hears, at the number it already holds. -/
def firstFrame : Frame where
  myState := 1
  fromState := 0
  ackState := 3
  flags := 0
  payload := screenDiffWire.put (SyncState.fullDiff { dot with bell := 1 })

theorem frame_applied_whole_or_not_at_all_first :
    ((Receiver.new dot).onFrame screenCodec firstFrame).2 = .ok true ∧
      ((Receiver.new dot).onFrame screenCodec firstFrame).1.state.seq = 1 := by
  have applied : ((Receiver.new dot).onFrame screenCodec firstFrame).2 = .ok true := by
    decide +kernel
  have valid : dot.validate = .ok () := by decide +kernel
  have start : Receiver.new dot = (Receiver.new dot).hear screenCodec [] := rfl
  have outcome : (Receiver.new dot).onFrame screenCodec firstFrame =
      (((Receiver.new dot).onFrame screenCodec firstFrame).1,
        ((Receiver.new dot).onFrame screenCodec firstFrame).2) := rfl
  exact ⟨applied,
    ((frame_applied_whole_or_not_at_all valid [] firstFrame start outcome).2.1 applied).2.1⟩

end Oxutrm.Sync
