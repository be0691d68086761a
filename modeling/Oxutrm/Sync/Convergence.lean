import Oxutrm.Sync.Coupling
import Oxutrm.Sync.Wire

/-!
Screens over a lossy link: what the receiver shows is always a screen the sender
held, and no frame of the sender is ever refused.
-/
namespace Oxutrm.Sync
open Proto Transition

instance (net : Net ScreenState) (e : Event ScreenState) : Decidable (net.Authored e) :=
  match e with
  | .update next =>
      inferInstanceAs (Decidable (next.validate = .ok () ∧
        (net.tx.current.bell ≤ next.bell ∧ net.tx.current.scrollbackLen ≤ next.scrollbackLen ∧
          net.tx.current.clipboard.serial ≤ next.clipboard.serial)))
  | .makeFrame _ | .deliver _ | .report | .onAck _ => .isTrue trivial

/-- An attach, an update diffed against the acknowledged screen, and the first
frame once more. -/
def attachRun : List (Event ScreenState) :=
  [.makeFrame 0, .deliver 0, .report, .onAck 0, .update { dot with title := ['$'], bell := 1 },
    .makeFrame 0, .deliver 1, .deliver 0]

def attached : Option (Net ScreenState) :=
  runFrom (Net.step screenCodec) (Net.start { dot with bell := 1 } dot) attachRun

theorem attached_reaches {net : Net ScreenState} (run : attached = some net) :
    Reaches (Net.step screenCodec) Net.Authored (Net.start { dot with bell := 1 } dot) net :=
  reaches_of_runFrom attachRun (by decide +kernel) run

/-- Once anything has been applied, the screen shown is a screen the sender held
under the acknowledged number; until the numbers saturate, it is the only one. -/
theorem shown_screen_was_held {codec : Codec ScreenDiff} (roundTrips : codec.RoundTrips)
    {first invented : ScreenState} (validFirst : first.validate = .ok ()) (one : first.seq = 1)
    (validInvented : invented.validate = .ok ()) {net : Net ScreenState}
    (run : Reaches (Net.step codec) Net.Authored (Net.start first invented) net)
    (applied : net.rx.appliedAny = true) :
    (∃ s ∈ net.held, s.seq = net.rx.ack ∧ net.rx.state = s) ∧
      (net.held.length < 2 ^ 64 → ∀ s ∈ net.held, s.seq = net.rx.ack → net.rx.state = s) := by
  have coupled := Coupled.reaches roundTrips validFirst one validInvented run
  obtain ⟨held, acked⟩ := coupled.agreement applied
  refine ⟨⟨net.rx.state, held, acked, rfl⟩, ?_⟩
  intro few s member same
  refine coupled.history.unique_of_short few held member ?_
  exact acked.trans same.symm

theorem shown_screen_was_held_attached :
    ∃ net, attached = some net ∧ net.rx.ack = 2 ∧
      ∃ s ∈ net.held, s.seq = net.rx.ack ∧ net.rx.state = s := by
  obtain ⟨net, run⟩ := Option.isSome_iff_exists.mp (show attached.isSome = true by decide +kernel)
  have facts : attached.map (fun n => (n.rx.appliedAny, n.rx.ack)) = some (true, 2) := by
    decide +kernel
  simp only [run, Option.map_some, Option.some.injEq, Prod.mk.injEq] at facts
  exact ⟨net, run, facts.2, (shown_screen_was_held (storedCodec_roundTrips _) (by decide +kernel)
    rfl (by decide +kernel) (attached_reaches run) facts.1).1⟩

theorem screen_readable {codec : Codec ScreenDiff} (roundTrips : codec.RoundTrips)
    (sized : codec.Sized screenDiffWire) {held : List ScreenState}
    (valid : ∀ s ∈ held, s.validate = .ok ()) : Readable codec held := by
  intro target member
  have targetValid := (Proto.ScreenState.validate_ok _).mp (valid target member)
  refine ⟨carries_of_fits roundTrips ?_, ?_⟩
  · intro raw written
    exact Nat.le_trans (sized.length_le _ _ written)
      (length_put_screenDiff targetValid (check_fullDiff targetValid) rfl)
  · intro base baseMember
    have baseValid := (Proto.ScreenState.validate_ok _).mp (valid base baseMember)
    refine carries_of_fits roundTrips ?_
    intro raw written
    exact Nat.le_trans (sized.length_le _ _ written)
      (length_put_screenDiff targetValid (check_diffFrom targetValid baseValid) rfl)

/-- Input stays readable while less than the decompression limit is pending. -/
theorem input_readable {codec : Codec InputDiff} (roundTrips : codec.RoundTrips)
    (sized : codec.Sized inputDiffWire) {held : List InputState}
    (short : ∀ s ∈ held, s.pending.length < 2 ^ 26 - 64) : Readable codec held := by
  intro target member
  have bound := short target member
  refine ⟨carries_of_fits roundTrips ?_, ?_⟩
  · intro raw written
    exact Nat.le_trans (sized.length_le _ _ written) (length_put_inputDiff bound)
  · intro base _
    refine carries_of_fits roundTrips ?_
    intro raw written
    refine Nat.le_trans (sized.length_le _ _ written) (length_put_inputDiff ?_)
    change (target.pending.drop (target.overlapWith base)).length < _
    rw [List.length_drop]
    omega

/-- The state a fresh client invents lies below every screen of a host. -/
theorem counters_lowest {invented : ScreenState}
    (zero : invented.bell = 0 ∧ invented.scrollbackLen = 0 ∧ invented.clipboard.serial = 0)
    (s : ScreenState) : Proto.ScreenState.CountersLe invented s := by
  simp only [Proto.ScreenState.CountersLe, zero]
  exact ⟨UInt32.zero_le, UInt64.zero_le, UInt32.zero_le⟩

/-- Every frame the sender ever made is applied or ignored as stale, however
late it arrives; one that is not stale names a base the receiver still holds. -/
theorem honest_frame_never_refused {codec : Codec ScreenDiff} (roundTrips : codec.RoundTrips)
    (sized : codec.Sized screenDiffWire) {first invented : ScreenState}
    (validFirst : first.validate = .ok ()) (one : first.seq = 1)
    (validInvented : invented.validate = .ok ())
    (zero : invented.bell = 0 ∧ invented.scrollbackLen = 0 ∧ invented.clipboard.serial = 0)
    {net : Net ScreenState}
    (run : Reaches (Net.step codec) Net.Authored (Net.start first invented) net)
    {f : Frame} (made : f ∈ net.frames) :
    (∃ advanced, (net.rx.onFrame codec f).2 = .ok advanced) ∧
      (net.rx.stale f = false → f.fromState = 0 ∨ ∃ s ∈ net.rx.ring, s.seq = f.fromState) := by
  have coupled := Coupled.reaches roundTrips validFirst one validInvented run
  have readable := screen_readable roundTrips sized coupled.history.sound
  refine ⟨coupled.accepts_frame validInvented (fun s _ => counters_lowest zero s) readable made,
    ?_⟩
  intro fresh
  by_cases full : f.fromState = 0
  · exact Or.inl full
  · refine Or.inr (coupled.named f made full ?_)
    exact UInt64.lt_iff_toNat_lt.mp (Receiver.lt_of_not_stale fresh (Or.inr full))

theorem honest_frame_never_refused_attached :
    ∃ net, attached = some net ∧ net.frames ≠ [] ∧
      ∀ f ∈ net.frames, ∃ advanced, (net.rx.onFrame screenCodec f).2 = .ok advanced := by
  obtain ⟨net, run⟩ := Option.isSome_iff_exists.mp (show attached.isSome = true by decide +kernel)
  have count : attached.map (fun n => n.frames.length) = some 2 := by decide +kernel
  simp only [run, Option.map_some, Option.some.injEq] at count
  refine ⟨net, run, fun empty => by simp [empty] at count, fun f made => ?_⟩
  exact (honest_frame_never_refused (storedCodec_roundTrips _) (storedCodec_sized _)
    (by decide +kernel) rfl (by decide +kernel) ⟨rfl, rfl, rfl⟩ (attached_reaches run) made).1

end Oxutrm.Sync
