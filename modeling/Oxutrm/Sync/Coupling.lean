import Oxutrm.Sync.Replication

/-!
The invariant that couples the two rings, the frames in flight and the
acknowledgements in flight. It holds along every run, whatever the network does
and whether or not the receiver accepts a frame.
-/
namespace Oxutrm.Sync
open Proto Window Transition LawfulSyncState

variable {S D : Type} [SyncState S D]

/-- A frame made by the sender of this history, and by nobody else. -/
def Honest (codec : Codec D) (held : List S) (f : Frame) : Prop :=
  ∃ target ∈ held, f.myState = seq target ∧
    ((f.fromState = 0 ∧
        encodeDiff codec (SyncState.fullDiff target) = .ok (f.payload, f.flags)) ∨
      ∃ base ∈ held, f.fromState = seq base ∧ rank target ≤ rank base + 31 ∧
        encodeDiff codec (SyncState.diffFrom target base) = .ok (f.payload, f.flags))

theorem Honest.mono {codec : Codec D} {held : List S} (s : S) {f : Frame}
    (honest : Honest codec held f) :
    Honest codec (held ++ [s]) f := by
  obtain ⟨target, member, numbered, full | ⟨base, baseMember, rest⟩⟩ := honest
  · exact ⟨target, List.mem_append_left _ member, numbered, Or.inl full⟩
  · exact ⟨target, List.mem_append_left _ member, numbered,
      Or.inr ⟨base, List.mem_append_left _ baseMember, rest⟩⟩

/-- Every payload of this history stays within what the receiver will read. -/
def Readable (codec : Codec D) (held : List S) : Prop :=
  ∀ target ∈ held, Carries codec (SyncState.fullDiff target) ∧
    ∀ base ∈ held, Carries codec (SyncState.diffFrom target base)

variable [LawfulSyncState S]

structure Coupled (codec : Codec D) (invented : S) (net : Net S) : Prop where
  history : History net.held
  ring : net.tx.ring = cap stateRing net.held
  honest : ∀ f ∈ net.frames, Honest codec net.held f
  below : ∀ f ∈ net.frames, f.fromState.toNat ≤ net.tx.peerSaw.toNat
  ordered : ∀ f ∈ net.frames, ∀ g ∈ net.frames, f.myState.toNat < g.myState.toNat →
    g.fromState = 0 ∨ f.fromState.toNat ≤ g.fromState.toNat
  heard : net.tx.peerSaw = 0 ∨ net.tx.peerSaw ∈ net.acks
  past : ∀ a ∈ net.acks, a.toNat ≤ rank net.tx.current
  silent : net.rx.appliedAny = false → ∀ a ∈ net.acks, a = 0
  untouched : net.rx.appliedAny = false → net.rx.ring = [invented]
  authored : net.rx.appliedAny = true → ∀ s ∈ net.rx.ring, s ∈ net.held
  increasing : net.rx.ring.Pairwise fun a b => rank a < rank b
  named : ∀ f ∈ net.frames, f.fromState ≠ 0 → rank net.rx.state < f.myState.toNat →
    ∃ s ∈ net.rx.ring, seq s = f.fromState
  reported : ∀ a ∈ net.acks, a ≠ 0 → net.tx.peerSaw.toNat ≤ a.toNat →
    rank net.tx.current ≤ a.toNat + 31 → ∃ s ∈ net.rx.ring, seq s = a

namespace Coupled
variable {codec : Codec D} {invented : S} {net : Net S}

theorem last (coupled : Coupled codec invented net) :
    net.held.getLast? = some net.tx.current := by
  have ring := coupled.ring
  have kept : cap stateRing net.held ≠ [] := ring ▸ net.tx.held
  have current : net.tx.current = (cap stateRing net.held).getLast kept := by
    simp only [Sender.current, ring]
  rw [current, getLast_cap kept]
  exact List.getLast?_eq_some_getLast _

theorem current_mem (coupled : Coupled codec invented net) : net.tx.current ∈ net.held :=
  List.mem_of_getLast? coupled.last

theorem rank_le_current (coupled : Coupled codec invented net) {s : S} (member : s ∈ net.held) :
    rank s ≤ rank net.tx.current :=
  coupled.history.rank_le member coupled.last

theorem myState_le (coupled : Coupled codec invented net) {f : Frame} (made : f ∈ net.frames) :
    f.myState.toNat ≤ rank net.tx.current := by
  obtain ⟨target, member, numbered, -⟩ := coupled.honest f made
  rw [numbered]
  exact coupled.rank_le_current member

theorem peerSaw_zero (coupled : Coupled codec invented net)
    (none : net.rx.appliedAny = false) : net.tx.peerSaw = 0 := by
  rcases coupled.heard with zero | member
  · exact zero
  · exact coupled.silent none _ member

theorem fromState_zero (coupled : Coupled codec invented net)
    (none : net.rx.appliedAny = false) {f : Frame} (made : f ∈ net.frames) :
    f.fromState = 0 := by
  have below := coupled.below f made
  rw [coupled.peerSaw_zero none] at below
  exact UInt64.toNat_inj.mp (Nat.le_zero.mp below)

theorem state_eq_invented (coupled : Coupled codec invented net)
    (none : net.rx.appliedAny = false) : net.rx.state = invented := by
  have ring := coupled.untouched none
  simp only [Receiver.state, ring, List.getLast_singleton]

theorem sound_ring (coupled : Coupled codec invented net) (sound : Sound invented) {s : S}
    (member : s ∈ net.rx.ring) : Sound s := by
  by_cases applied : net.rx.appliedAny = true
  · exact coupled.history.sound s (coupled.authored applied s member)
  · rw [coupled.untouched (Bool.eq_false_iff.mpr applied)] at member
    rw [List.mem_singleton.mp member]
    exact sound

/-- The base a fresh diff names is, in the receiver's ring, the very state the
sender diffed from: below the saturated number, numbers are unique. -/
theorem baseFor_eq (coupled : Coupled codec invented net) {f : Frame} {base : S}
    (applied : net.rx.appliedAny = true) (fresh : net.rx.stale f = false)
    (member : base ∈ net.held) (named : f.fromState = seq base)
    (present : f.fromState = seq (net.rx.baseFor f.fromState)) :
    net.rx.baseFor f.fromState = base := by
  have held := net.rx.baseFor_mem f.fromState
  have below := Receiver.rank_le_state coupled.increasing held
  have newer := UInt64.lt_iff_toNat_lt.mp (Receiver.lt_of_not_stale fresh (Or.inl applied))
  have bound := f.myState.toNat_lt
  refine coupled.history.unique (coupled.authored applied _ held) member ?_ ?_
  · rw [← present, named]
  · change rank net.rx.state < _ at newer
    omega

/-- Whatever an honest frame makes of the receiver is a state the sender held. -/
theorem next_held (coupled : Coupled codec invented net) (sound : Sound invented)
    (roundTrips : codec.RoundTrips) {f : Frame} (made : f ∈ net.frames)
    (fresh : net.rx.stale f = false) {next : S} (accepted : net.rx.next codec f = .ok next) :
    next ∈ net.held ∧ seq next = f.myState := by
  obtain ⟨diff, decoded, applied, -⟩ := Receiver.next_ok.mp accepted
  refine ⟨?_, apply_seq applied⟩
  obtain ⟨target, member, numbered, full | ⟨base, baseMember, named, -, encoded⟩⟩ :=
    coupled.honest f made
  · rw [decodeDiff_encodeDiff roundTrips full.2 decoded, numbered, full.1] at applied
    have whole := apply_fullDiff (coupled.history.sound target member)
      (coupled.sound_ring sound (net.rx.baseFor_mem 0))
    rw [applied] at whole
    rw [(Prod.mk.inj whole).1]
    exact member
  · have baseSound := coupled.history.sound base baseMember
    have nonzero : f.fromState ≠ 0 := named ▸ sound_seq baseSound
    have appliedAny : net.rx.appliedAny = true := by
      by_contra none
      exact nonzero (coupled.fromState_zero (Bool.eq_false_iff.mpr none) made)
    have matching := (apply_base applied).resolve_left nonzero
    rw [decodeDiff_encodeDiff roundTrips encoded decoded, numbered,
      coupled.baseFor_eq appliedAny fresh baseMember named matching, named,
      apply_diffFrom (coupled.history.sound target member) baseSound] at applied
    rw [← (Prod.mk.inj applied).1]
    exact member

theorem start {first : S} (sound : Sound first) (one : seq first = 1) :
    Coupled codec invented (Net.start first invented) where
  history := by
    refine ⟨by simpa [Net.start] using sound, List.pairwise_singleton _ _, ?_⟩
    intro i s found
    obtain ⟨inside, rfl⟩ := List.getElem?_eq_some_iff.mp found
    simp only [Net.start, List.length_singleton] at inside
    obtain rfl : i = 0 := by omega
    simp [Net.start, rank, one]
  ring := rfl
  honest := by simp [Net.start]
  below := by simp [Net.start]
  ordered := by simp [Net.start]
  heard := Or.inl rfl
  past := by simp [Net.start]
  silent := by simp [Net.start]
  untouched _ := rfl
  authored := by simp [Net.start, Receiver.new]
  increasing := List.pairwise_singleton _ _
  named := by simp [Net.start]
  reported := by simp [Net.start]

theorem rank_le_update (tx : Sender S) (next : S) :
    rank tx.current ≤ rank (tx.update next).current := by
  simp only [Sender.current_update, rank, seq_setSeq, toNat_saturatingSucc]
  have := (seq tx.current).toNat_lt
  omega

theorem update (coupled : Coupled codec invented net) {next : S} (sound : Sound next)
    (follows : Follows net.tx.current next) :
    Coupled codec invented
      { net with tx := net.tx.update next,
                 held := net.held ++ [(net.tx.update next).current] } where
  history := by
    rw [Sender.current_update]
    exact coupled.history.push coupled.last sound follows
  ring := by
    rw [Sender.current_update, ← cap_cap_append, ← coupled.ring]
    rfl
  honest f made := (coupled.honest f made).mono _
  below := coupled.below
  ordered := coupled.ordered
  heard := coupled.heard
  past a member := Nat.le_trans (coupled.past a member) (rank_le_update net.tx next)
  silent := coupled.silent
  untouched := coupled.untouched
  authored applied s member := List.mem_append_left _ (coupled.authored applied s member)
  increasing := coupled.increasing
  named := coupled.named
  reported a member nonzero above near :=
    coupled.reported a member nonzero above (Nat.le_trans (rank_le_update net.tx next) near)

/-- The frame that would be made now is honest, and the receiver can still
find the base it names. -/
theorem pending (coupled : Coupled codec invented net) {f : Frame}
    (numbered : f.myState = seq net.tx.current) (base : f.fromState = net.tx.pendingDiff.2)
    (encoded : encodeDiff codec net.tx.pendingDiff.1 = .ok (f.payload, f.flags)) :
    Honest codec net.held f ∧ (f.fromState = 0 ∨ f.fromState = net.tx.peerSaw) ∧
      (f.fromState ≠ 0 → ∃ s ∈ net.rx.ring, seq s = f.fromState) := by
  rcases net.tx.pendingDiff_cases with ⟨s, member, acknowledged, diff⟩ | ⟨-, diff⟩
  · rw [diff] at base encoded
    rw [coupled.ring] at member
    have near := coupled.history.near member coupled.last
    have held := mem_of_mem_cap member
    refine ⟨⟨net.tx.current, coupled.current_mem, numbered,
      Or.inr ⟨s, held, base.trans acknowledged.symm, near, encoded⟩⟩, Or.inr base, ?_⟩
    intro nonzero
    have acknowledgedOnce : f.fromState ∈ net.acks := by
      rcases coupled.heard with zero | heard
      · exact absurd (base.trans zero) nonzero
      · rw [base]
        exact heard
    refine coupled.reported _ acknowledgedOnce nonzero (by rw [base]) ?_
    rw [base, ← acknowledged]
    exact near
  · rw [diff] at base encoded
    exact ⟨⟨net.tx.current, coupled.current_mem, numbered, Or.inl ⟨base, encoded⟩⟩,
      Or.inl base, fun nonzero => absurd base nonzero⟩

theorem makeFrame (coupled : Coupled codec invented net) {f : Frame} (ackState : UInt64)
    (numbered : f.myState = seq net.tx.current) (base : f.fromState = net.tx.pendingDiff.2)
    (encoded : encodeDiff codec net.tx.pendingDiff.1 = .ok (f.payload, f.flags)) :
    Coupled codec invented
      { net with tx := { net.tx with lastAckSent := ackState },
                 frames := net.frames ++ [f] } := by
  obtain ⟨honest, fromPeerSaw, findable⟩ := coupled.pending numbered base encoded
  have below : f.fromState.toNat ≤ net.tx.peerSaw.toNat := by
    rcases fromPeerSaw with zero | acknowledged
    · simp [zero]
    · rw [acknowledged]
  have newest : f.myState.toNat = rank net.tx.current := congrArg UInt64.toNat numbered
  exact
    { history := coupled.history
      ring := coupled.ring
      honest := by
        intro g made
        rcases List.mem_append.mp made with old | new
        · exact coupled.honest g old
        · rw [List.mem_singleton.mp new]
          exact honest
      below := by
        intro g made
        rcases List.mem_append.mp made with old | new
        · exact coupled.below g old
        · rw [List.mem_singleton.mp new]
          exact below
      ordered := by
        intro g madeG h madeH earlier
        rcases List.mem_append.mp madeH with oldH | newH
        · have bound := coupled.myState_le oldH
          rcases List.mem_append.mp madeG with oldG | newG
          · exact coupled.ordered g oldG h oldH earlier
          · rw [List.mem_singleton.mp newG] at earlier
            omega
        · rw [List.mem_singleton.mp newH] at earlier ⊢
          rcases List.mem_append.mp madeG with oldG | newG
          · rcases fromPeerSaw with zero | acknowledged
            · exact Or.inl zero
            · rw [acknowledged]
              exact Or.inr (coupled.below g oldG)
          · rw [List.mem_singleton.mp newG] at earlier
            omega
      heard := coupled.heard
      past := coupled.past
      silent := coupled.silent
      untouched := coupled.untouched
      authored := coupled.authored
      increasing := coupled.increasing
      named := by
        intro g made nonzero newer
        rcases List.mem_append.mp made with old | new
        · exact coupled.named g old nonzero newer
        · rw [List.mem_singleton.mp new] at nonzero ⊢
          exact findable nonzero
      reported := coupled.reported }

theorem ack_le (coupled : Coupled codec invented net) :
    net.rx.ack.toNat ≤ rank net.tx.current := by
  simp only [Receiver.ack]
  split
  · next applied => exact coupled.rank_le_current (coupled.authored applied _ net.rx.mem_state)
  · exact Nat.zero_le _

theorem report (coupled : Coupled codec invented net) :
    Coupled codec invented { net with acks := net.acks ++ [net.rx.ack] } where
  history := coupled.history
  ring := coupled.ring
  honest := coupled.honest
  below := coupled.below
  ordered := coupled.ordered
  heard := coupled.heard.imp_right (List.mem_append_left _)
  past a member := by
    rcases List.mem_append.mp member with old | new
    · exact coupled.past a old
    · rw [List.mem_singleton.mp new]
      exact coupled.ack_le
  silent none a member := by
    rcases List.mem_append.mp member with old | new
    · exact coupled.silent none a old
    · rw [List.mem_singleton.mp new, Receiver.ack, none]
      rfl
  untouched := coupled.untouched
  authored := coupled.authored
  increasing := coupled.increasing
  named := coupled.named
  reported a member nonzero above near := by
    rcases List.mem_append.mp member with old | new
    · exact coupled.reported a old nonzero above near
    · rw [List.mem_singleton.mp new, Receiver.ack] at nonzero ⊢
      split at nonzero
      · next applied =>
          rw [if_pos applied]
          exact ⟨net.rx.state, net.rx.mem_state, rfl⟩
      · contradiction

theorem onAck (coupled : Coupled codec invented net) {a : UInt64} (member : a ∈ net.acks) :
    Coupled codec invented { net with tx := net.tx.onAck a } := by
  have higher : net.tx.peerSaw.toNat ≤ (net.tx.onAck a).peerSaw.toNat := by
    simp only [Sender.onAck, toNat_max]
    omega
  exact
    { history := coupled.history
      ring := coupled.ring
      honest := coupled.honest
      below := fun f made => Nat.le_trans (coupled.below f made) higher
      ordered := coupled.ordered
      heard := by
        change max net.tx.peerSaw a = 0 ∨ max net.tx.peerSaw a ∈ net.acks
        rcases max_cases net.tx.peerSaw a with same | same
        · rw [same]
          exact coupled.heard
        · rw [same]
          exact Or.inr member
      past := coupled.past
      silent := coupled.silent
      untouched := coupled.untouched
      authored := coupled.authored
      increasing := coupled.increasing
      named := coupled.named
      reported := fun b heard nonzero above near =>
        coupled.reported b heard nonzero (Nat.le_trans higher above) near }

theorem base_within (coupled : Coupled codec invented net) {f : Frame}
    (made : f ∈ net.frames) (nonzero : f.fromState ≠ 0) :
    f.myState.toNat ≤ f.fromState.toNat + 31 := by
  obtain ⟨target, -, numbered, ⟨full, -⟩ | ⟨base, -, named, near, -⟩⟩ := coupled.honest f made
  · exact absurd full nonzero
  · rw [numbered, named]
    exact near

theorem commit (coupled : Coupled codec invented net) {f : Frame} (made : f ∈ net.frames)
    (fresh : net.rx.stale f = false) {next : S} (member : next ∈ net.held)
    (numbered : seq next = f.myState) :
    Coupled codec invented
      { net with rx := (net.rx.hearAck f).commit f.fromState next } := by
  have rankNext : rank next = f.myState.toNat := congrArg UInt64.toNat numbered
  have newer : net.rx.appliedAny = true → rank net.rx.state < rank next := by
    intro applied
    rw [rankNext]
    exact UInt64.lt_iff_toNat_lt.mp (Receiver.lt_of_not_stale fresh (Or.inl applied))
  have survives : ∀ s ∈ net.rx.ring, net.rx.appliedAny = true →
      f.fromState.toNat ≤ rank s → f.myState.toNat ≤ rank s + stateRing →
      s ∈ (net.rx.hearAck f).advance f.fromState next := by
    intro s present applied above near
    exact Receiver.mem_advance_of_near applied coupled.increasing present above
      (newer applied) (rankNext ▸ near)
  exact
    { history := coupled.history
      ring := coupled.ring
      honest := coupled.honest
      below := coupled.below
      ordered := coupled.ordered
      heard := coupled.heard
      past := coupled.past
      silent := by simp [Receiver.commit]
      untouched := by simp [Receiver.commit]
      authored := by
        intro _ s present
        rcases Receiver.mem_advance present with rfl | ⟨applied, old⟩
        · exact member
        · exact coupled.authored applied s old
      increasing := Receiver.increasing_advance coupled.increasing newer
      named := by
        intro g madeG nonzero later
        simp only [Receiver.state_commit] at later
        have applied : net.rx.appliedAny = true := by
          by_contra none
          exact nonzero (coupled.fromState_zero (Bool.eq_false_iff.mpr none) madeG)
        obtain ⟨s, present, base⟩ :=
          coupled.named g madeG nonzero (Nat.lt_trans (newer applied) later)
        have above := (coupled.ordered f made g madeG (rankNext ▸ later)).resolve_left nonzero
        have within := coupled.base_within madeG nonzero
        have rankBase : rank s = g.fromState.toNat := congrArg UInt64.toNat base
        refine ⟨s, survives s present applied (rankBase ▸ above) ?_, base⟩
        simp only [stateRing]
        omega
      reported := by
        intro a heard nonzero above near
        have applied : net.rx.appliedAny = true := by
          by_contra none
          exact nonzero (coupled.silent (Bool.eq_false_iff.mpr none) a heard)
        obtain ⟨s, present, base⟩ := coupled.reported a heard nonzero above near
        have rankBase : rank s = a.toNat := congrArg UInt64.toNat base
        have lower := coupled.below f made
        have upper := coupled.myState_le made
        refine ⟨s, survives s present applied ?_ ?_, base⟩
        · exact rankBase ▸ Nat.le_trans lower above
        · simp only [stateRing]
          change rank net.tx.current ≤ a.toNat + 31 at near
          omega }

theorem hearAck (coupled : Coupled codec invented net) (f : Frame) :
    Coupled codec invented { net with rx := net.rx.hearAck f } :=
  ⟨coupled.history, coupled.ring, coupled.honest, coupled.below, coupled.ordered,
    coupled.heard, coupled.past, coupled.silent, coupled.untouched, coupled.authored, coupled.increasing,
    coupled.named, coupled.reported⟩

theorem deliver (coupled : Coupled codec invented net) (sound : Sound invented)
    (roundTrips : codec.RoundTrips) {f : Frame} (made : f ∈ net.frames) :
    Coupled codec invented { net with rx := (net.rx.onFrame codec f).1 } := by
  rcases net.rx.onFrame_cases codec f with
    ⟨-, result⟩ | ⟨e, -, -, result⟩ | ⟨next, fresh, accepted, result⟩
  · rw [result]
    exact coupled.hearAck f
  · rw [result]
    exact coupled.hearAck f
  · obtain ⟨member, numbered⟩ := coupled.next_held sound roundTrips made fresh accepted
    rw [result]
    exact coupled.commit made fresh member numbered

theorem step (coupled : Coupled codec invented net) (sound : Sound invented)
    (roundTrips : codec.RoundTrips) {e : Event S} {net' : Net S} (authored : net.Authored e)
    (taken : net.step codec e = some net') : Coupled codec invented net' := by
  cases e with
  | update next =>
      cases taken
      exact coupled.update authored.1 authored.2
  | makeFrame ackState =>
      rcases net.tx.makeFrame_cases codec ackState with
        ⟨-, -, made⟩ | ⟨e, made, -⟩ | ⟨payload, flags, -, encoded, made⟩
      · simp only [Net.step, made, Option.some.injEq] at taken
        exact taken ▸ coupled
      · simp only [Net.step, made, Option.some.injEq] at taken
        exact taken ▸ coupled
      · simp only [Net.step, made, Option.some.injEq] at taken
        exact taken ▸ coupled.makeFrame ackState rfl rfl encoded
  | deliver i =>
      obtain ⟨f, found, rfl⟩ := Option.map_eq_some_iff.mp taken
      exact coupled.deliver sound roundTrips (List.mem_of_getElem? found)
  | report =>
      cases taken
      exact coupled.report
  | onAck i =>
      obtain ⟨a, found, rfl⟩ := Option.map_eq_some_iff.mp taken
      exact coupled.onAck (List.mem_of_getElem? found)

theorem reaches (roundTrips : codec.RoundTrips) {first : S} (soundFirst : Sound first)
    (one : seq first = 1) (soundInvented : Sound invented)
    (run : Reaches (Net.step codec) Net.Authored (Net.start first invented) net) :
    Coupled codec invented net :=
  run.invariant (fun _ _ _ coupled authored taken =>
    coupled.step soundInvented roundTrips authored taken) (Coupled.start soundFirst one)

/-- Once a frame has been applied the receiver shows a state the sender held,
under the number it acknowledges. -/
theorem agreement (coupled : Coupled codec invented net)
    (applied : net.rx.appliedAny = true) :
    net.rx.state ∈ net.held ∧ seq net.rx.state = net.rx.ack := by
  refine ⟨coupled.authored applied _ net.rx.mem_state, ?_⟩
  simp only [Receiver.ack, applied, if_true]

/-- What a frame that is not stale carries applies to the base the receiver finds, and the
outcome follows what the receiver shows, if that started below every counter. -/
theorem fresh_applies (coupled : Coupled codec invented net) (sound : Sound invented)
    (lowest : ∀ s ∈ net.held, Follows invented s) {f : Frame} (made : f ∈ net.frames)
    (fresh : net.rx.stale f = false) :
    ∃ next ∈ net.held, seq next = f.myState ∧ ∃ diff,
      encodeDiff codec diff = .ok (f.payload, f.flags) ∧
      (diff = SyncState.fullDiff next ∨ ∃ base ∈ net.held, diff = SyncState.diffFrom next base) ∧
      SyncState.apply (net.rx.baseFor f.fromState) f.fromState f.myState diff = (next, .ok ()) ∧
      SyncState.validateTransition next net.rx.state = .ok () := by
  obtain ⟨target, member, numbered, source⟩ := coupled.honest f made
  refine ⟨target, member, numbered.symm, ?_⟩
  have targetSound := coupled.history.sound target member
  have follows : Follows net.rx.state target := by
    by_cases applied : net.rx.appliedAny = true
    · refine coupled.history.pairwise_of_lt coupled.history.follows
        (coupled.authored applied _ net.rx.mem_state) member ?_
      have := UInt64.lt_iff_toNat_lt.mp (Receiver.lt_of_not_stale fresh (Or.inl applied))
      rw [numbered] at this
      exact this
    · rw [coupled.state_eq_invented (Bool.eq_false_iff.mpr applied)]
      exact lowest target member
  rcases source with ⟨full, encoded⟩ | ⟨base, baseMember, named, -, encoded⟩
  · refine ⟨_, encoded, Or.inl rfl, ?_, accepts targetSound follows⟩
    rw [full, numbered]
    exact apply_fullDiff targetSound (coupled.sound_ring sound (net.rx.baseFor_mem 0))
  · refine ⟨_, encoded, Or.inr ⟨base, baseMember, rfl⟩, ?_, accepts targetSound follows⟩
    have baseSound := coupled.history.sound base baseMember
    have nonzero : f.fromState ≠ 0 := named ▸ sound_seq baseSound
    have applied : net.rx.appliedAny = true := by
      by_contra none
      exact nonzero (coupled.fromState_zero (Bool.eq_false_iff.mpr none) made)
    have newer := UInt64.lt_iff_toNat_lt.mp (Receiver.lt_of_not_stale fresh (Or.inl applied))
    have held := Receiver.baseFor_of_mem nonzero (coupled.named f made nonzero newer)
    rw [coupled.baseFor_eq applied fresh baseMember named held.2.symm, named, numbered]
    exact apply_diffFrom targetSound baseSound

/-- A frame that is not stale finds its base and is accepted, as long as its
payload is readable and the receiver started below every counter. -/
theorem accepts_fresh (coupled : Coupled codec invented net) (sound : Sound invented)
    (lowest : ∀ s ∈ net.held, Follows invented s) (readable : Readable codec net.held)
    {f : Frame} (made : f ∈ net.frames) (fresh : net.rx.stale f = false) :
    ∃ next ∈ net.held, seq next = f.myState ∧ net.rx.next codec f = .ok next := by
  obtain ⟨next, member, numbered, diff, encoded, source, applied, valid⟩ :=
    coupled.fresh_applies sound lowest made fresh
  have carries : Carries codec diff := by
    rcases source with rfl | ⟨base, baseMember, rfl⟩
    · exact (readable next member).1
    · exact (readable next member).2 base baseMember
  exact ⟨next, member, numbered,
    Receiver.next_ok.mpr ⟨diff, carries _ _ encoded, applied, valid⟩⟩

/-- A frame is refused for a payload that cannot be read, and for nothing else. -/
theorem refused_unread (coupled : Coupled codec invented net) (sound : Sound invented)
    (roundTrips : codec.RoundTrips) (lowest : ∀ s ∈ net.held, Follows invented s) {f : Frame}
    (made : f ∈ net.frames) {e : ApplyError} (refused : (net.rx.onFrame codec f).2 = .error e) :
    decodeDiff codec f.flags f.payload = .error e := by
  rcases net.rx.onFrame_cases codec f with
    ⟨-, result⟩ | ⟨e', fresh, unfit, result⟩ | ⟨next, -, -, result⟩
  · rw [result] at refused
    cases refused
  · rw [result] at refused
    cases refused
    cases decoded : decodeDiff codec f.flags f.payload with
    | error why =>
        simp only [Receiver.next, decoded, bind, Except.bind] at unfit
        exact congrArg Except.error (Except.error.inj unfit)
    | ok diff' =>
        obtain ⟨next, -, -, diff, encoded, -, applied, valid⟩ :=
          coupled.fresh_applies sound lowest made fresh
        rw [decodeDiff_encodeDiff roundTrips encoded decoded] at decoded
        rw [Receiver.next_ok.mpr ⟨diff, decoded, applied, valid⟩] at unfit
        cases unfit
  · rw [result] at refused
    cases refused

/-- The base a sender diffs from is one the receiver has applied, until the numbers run
out: from then on one number is of many states. -/
theorem base_applied (coupled : Coupled codec invented net) {base : S}
    (found : net.tx.base = some base) (heard : net.tx.peerSaw ≠ 0)
    (room : rank net.tx.current < 2 ^ 64 - 1) :
    net.rx.appliedAny = true ∧ base ∈ net.rx.ring ∧ base ∈ net.held := by
  have member := List.mem_of_find?_eq_some found
  have numbered : seq base = net.tx.peerSaw := by simpa using List.find?_some found
  rw [coupled.ring] at member
  have near := coupled.history.near member coupled.last
  have held := mem_of_mem_cap member
  have told := coupled.heard.resolve_left heard
  have applied : net.rx.appliedAny = true := by
    by_contra none
    exact heard (coupled.silent (Bool.eq_false_iff.mpr none) _ told)
  obtain ⟨shown, present, same⟩ := coupled.reported _ told heard (Nat.le_refl _) (by
    rw [← numbered]
    exact near)
  have mine := coupled.authored applied shown present
  have equal := coupled.history.unique mine held (same.trans numbered.symm)
    (Nat.lt_of_le_of_lt (coupled.rank_le_current mine) room)
  exact ⟨applied, equal ▸ present, held⟩

theorem accepts_frame (coupled : Coupled codec invented net) (sound : Sound invented)
    (lowest : ∀ s ∈ net.held, Follows invented s) (readable : Readable codec net.held)
    {f : Frame} (made : f ∈ net.frames) :
    ∃ advanced, (net.rx.onFrame codec f).2 = .ok advanced := by
  rcases net.rx.onFrame_cases codec f with
    ⟨-, result⟩ | ⟨e, fresh, refused, -⟩ | ⟨next, -, -, result⟩
  · exact ⟨false, by rw [result]⟩
  · obtain ⟨next, -, -, accepted⟩ := coupled.accepts_fresh sound lowest readable made fresh
    rw [refused] at accepted
    cases accepted
  · exact ⟨true, by rw [result]⟩

theorem freshSender (coupled : Coupled codec invented net) (none : net.rx.appliedAny = false)
    {first : S} (sound : Sound first) (one : seq first = 1) :
    Coupled codec invented
      { net with tx := Sender.new first, held := [first], frames := [] } := by
  have base : Coupled codec invented (Net.start first invented) := Coupled.start sound one
  exact
    { history := base.history
      ring := base.ring
      honest := base.honest
      below := base.below
      ordered := base.ordered
      heard := Or.inl rfl
      past := fun a member => by
        rw [coupled.silent none a member]
        exact Nat.zero_le _
      silent := coupled.silent
      untouched := coupled.untouched
      authored := fun applied => by
        change net.rx.appliedAny = true at applied
        rw [none] at applied
        cases applied
      increasing := coupled.increasing
      named := fun _ made => absurd made List.not_mem_nil
      reported := fun a member nonzero => absurd (coupled.silent none a member) nonzero }

theorem freshReceiver (coupled : Coupled codec invented net) (none : net.acks = []) (fresh : S) :
    Coupled codec fresh { net with rx := Receiver.new fresh } := by
  have unheard : net.tx.peerSaw = 0 := by
    cases coupled.heard with
    | inl zero => exact zero
    | inr member =>
        rw [none] at member
        cases member
  exact
    { history := coupled.history
      ring := coupled.ring
      honest := coupled.honest
      below := coupled.below
      ordered := coupled.ordered
      heard := coupled.heard
      past := coupled.past
      silent := fun _ a member => by
        change a ∈ net.acks at member
        rw [none] at member
        cases member
      untouched := fun _ => rfl
      authored := fun applied => by cases applied
      increasing := List.pairwise_singleton _ _
      named := fun f made nonzero => by
        have below := coupled.below f made
        rw [unheard] at below
        exact absurd (UInt64.toNat_inj.mp (Nat.le_zero.mp below)) nonzero
      reported := fun a member => by
        change a ∈ net.acks at member
        rw [none] at member
        cases member }

theorem peerSaw_le (coupled : Coupled codec invented net) :
    net.tx.peerSaw.toNat ≤ rank net.tx.current := by
  rcases coupled.heard with zero | member
  · rw [zero]
    exact Nat.zero_le _
  · exact coupled.past _ member

/-- Delivering a frame of the current state leaves the receiver holding it,
whether the frame was new to it or not. -/
theorem deliver_current (coupled : Coupled codec invented net) (sound : Sound invented)
    (early : seq invented = 1) (lowest : ∀ s ∈ net.held, Follows invented s)
    (readable : Readable codec net.held) {f : Frame} (made : f ∈ net.frames)
    (current : f.myState = seq net.tx.current) :
    (net.rx.onFrame codec f).1.ack = seq net.tx.current := by
  rcases net.rx.onFrame_cases codec f with
    ⟨late, result⟩ | ⟨e, fresh, refused, -⟩ | ⟨next, -, accepted, result⟩
  · rw [result, Receiver.hearAck_ack]
    simp only [Receiver.stale] at late
    by_cases applied : net.rx.appliedAny = true
    · simp only [applied, not_true_eq_false, and_false, if_false, decide_eq_true_eq] at late
      have upper := coupled.ack_le
      have lower := UInt64.le_iff_toNat_le.mp late
      simp only [Receiver.ack, applied, if_true] at upper ⊢
      rw [current] at lower
      exact UInt64.toNat_inj.mp (Nat.le_antisymm upper lower)
    · have none := Bool.eq_false_iff.mpr applied
      have full := coupled.fromState_zero none made
      simp only [full, none, Bool.false_eq_true, not_false_eq_true, and_self, if_true,
        decide_eq_true_eq, coupled.state_eq_invented none, early, current] at late
      have positive := rank_pos (coupled.history.sound _ coupled.current_mem)
      have below := UInt64.lt_iff_toNat_lt.mp late
      simp only [UInt64.toNat_one, rank] at below positive
      omega
  · obtain ⟨next, -, -, accepted⟩ := coupled.accepts_fresh sound lowest readable made fresh
    rw [refused] at accepted
    cases accepted
  · obtain ⟨diff, -, built, -⟩ := Receiver.next_ok.mp accepted
    rw [result, ← current, ← apply_seq built]
    simp only [Receiver.ack, Receiver.state_commit]
    rfl

end Coupled
end Oxutrm.Sync
