import Oxutrm.Host.Recording
import Oxutrm.Sync.Coupling
import Oxutrm.Sync.Wire

/-!
Keystrokes from the client's input state to the shell, across any number of
links. Both ends go through the links in one order, each at its own moment and
each possibly past some of them; a frame or an acknowledgement is heard only by
an end that is on its link. `held`, `typed`, `drained` and `appended` record
what the source does not keep.
-/
namespace Oxutrm.Host
open Proto Sync Transition

structure Keys (Term : Type) where
  client : Nat
  tx : Sender InputState
  host : Nat
  session : HostSession (Bytes × Term)
  frames : List (Nat × Frame)
  acks : List (Nat × UInt64)
  held : List InputState
  typed : Nat → Bytes
  drained : Nat → Bytes
  appended : Bytes

inductive KeyEvent where
  | append (bytes : Bytes) (size : TermSize)
  | makeFrame (ackState : UInt64)
  | turn (around : Surroundings) (picks : List Nat)
  | report
  | onAck (i : Nat)
  | swapIn (link : Nat) (size : TermSize)
  | adopt (link : Nat) (size : TermSize)
  | promote (link : Nat) (around : Surroundings) (i : Nat) (picks : List Nat)

namespace Keys
variable {Term : Type}

/-- The frames of the host's own link among those picked. -/
def arrived (k : Keys Term) (picks : List Nat) : List Frame :=
  picks.filterMap fun i => (k.frames[i]?).bind fun p => if p.1 = k.host then some p.2 else none

/-- What the shell was given from one session to the next. -/
def newlyWritten (before after : HostSession (Bytes × Term)) : Bytes :=
  (after.log.getD []).drop (before.log.getD []).length

/-- The host goes on with `session`, on the link it is on. -/
def after (k : Keys Term) (session : HostSession (Bytes × Term)) : Keys Term :=
  { k with
    session := session
    drained := Function.update k.drained k.host
      (k.drained k.host ++ newlyWritten k.session session) }

section
variable (codecIn : Codec InputDiff) (codecOut : Codec ScreenDiff) (ops : TermOps Term)

def step (k : Keys Term) : KeyEvent → Option (Keys Term)
  | .append bytes size =>
      let tx := k.tx.update (k.tx.current.append bytes size)
      some { k with
        tx := tx
        held := k.held ++ [tx.current]
        typed := Function.update k.typed k.client (k.typed k.client ++ bytes)
        appended := k.appended ++ bytes }
  | .makeFrame ackState =>
      match k.tx.makeFrame codecIn ackState with
      | (tx, .ok (some f)) => some { k with tx := tx, frames := k.frames ++ [(k.client, f)] }
      | (tx, _) => some { k with tx := tx }
  | .turn around picks =>
      (surviving (k.session.turnAt codecIn codecOut (recorder ops) around (k.arrived picks))).map
        fun t => k.after t.session
  | .report => some { k with acks := k.acks ++ [(k.host, k.session.inputRx.ack)] }
  | .onAck i => (k.acks[i]?).bind fun p =>
      if p.1 = k.client then some { k with tx := k.tx.onAck p.2 } else none
  | .swapIn link size =>
      if k.client < link then
        some { k with
          client := link
          tx := Sender.new (emptyInput size)
          held := [emptyInput size] }
      else none
  | .adopt link size =>
      if k.host < link then
        (surviving (k.session.adoptAs (recorder ops) size)).map fun session =>
          { k with host := link, session := session }
      else none
  | .promote link around i picks =>
      if k.host < link then (k.frames[i]?).bind fun p =>
        if p.1 = link then
          let moved : Keys Term := { k with host := link }
          (surviving (k.session.promoteStandby codecIn codecOut (recorder ops) around p.2
            (moved.arrived picks))).map fun t => moved.after t.session
        else none
      else none

end

/-- The only restriction on a run: the pending bytes fit a vector. -/
def Fits (k : Keys Term) : KeyEvent → Prop
  | .append bytes _ => (k.tx.current.pending ++ bytes).length < 2 ^ 63
  | _ => True

/-- A shell that has been given nothing, and both ends on their first link. -/
def start (size invented : TermSize) (session : HostSession (Bytes × Term)) (shell : Term) :
    Keys Term where
  client := 0
  tx := Sender.new (emptyInput size)
  host := 0
  session := { session with
    term := some ([], shell)
    inputRx := Receiver.new (emptyInput invented)
    written := 0 }
  frames := []
  acks := []
  held := [emptyInput size]
  typed := fun _ => []
  drained := fun _ => []
  appended := []

end Keys

/-- One link, seen from both ends: what was typed on it and what the shell has
been given of it. -/
structure Line (codec : Codec InputDiff) (net : Net InputState) (typed drained : Bytes) :
    Prop where
  coupled : ∃ size, Coupled codec (emptyInput size) net
  grows : net.held.Pairwise fun a b => a.pending <+: b.pending
  newest : net.tx.current.pending = typed
  shown : net.rx.state.pending = drained
  acked : ∀ a ∈ net.acks, a ≠ 0 → ∃ s ∈ net.held, s.seq = a ∧ s.pending <+: drained
  idle : net.frames = [] → net.rx.appliedAny = false

theorem sound_emptyInput (size : TermSize) : LawfulSyncState.Sound (emptyInput size) :=
  ⟨show (1 : UInt64) ≠ 0 by decide, show 0 < 2 ^ 64 by decide⟩

namespace Line
variable {Term : Type} {codec : Codec InputDiff} {net : Net InputState} {typed drained : Bytes}

theorem start (size invented : TermSize) :
    Line codec (Net.start (emptyInput size) (emptyInput invented)) [] [] where
  coupled := ⟨invented, Coupled.start (sound_emptyInput size) rfl⟩
  grows := List.pairwise_singleton _ _
  newest := rfl
  shown := rfl
  acked := fun _ member => absurd member List.not_mem_nil
  idle := fun _ => rfl

theorem held_typed (line : Line codec net typed drained) {s : InputState}
    (member : s ∈ net.held) : s.pending <+: typed := by
  obtain ⟨size, coupled⟩ := line.coupled
  have ordered := line.grows
  rw [← List.dropLast_append_getLast? _ coupled.last] at ordered member
  rw [← line.newest]
  cases List.mem_append.mp member with
  | inl earlier =>
      exact (List.pairwise_append.mp ordered).2.2 s earlier _ (List.mem_singleton_self _)
  | inr newest =>
      rw [List.mem_singleton.mp newest]

theorem drained_typed (line : Line codec net typed drained) : drained <+: typed := by
  obtain ⟨size, coupled⟩ := line.coupled
  rw [← line.shown]
  by_cases applied : net.rx.appliedAny = true
  · exact line.held_typed (coupled.authored applied _ net.rx.mem_state)
  · rw [coupled.state_eq_invented (Bool.eq_false_iff.mpr applied)]
    exact List.nil_prefix

theorem append (line : Line codec net typed drained) (bytes : Bytes) (size : TermSize)
    (fits : (net.tx.current.pending ++ bytes).length < 2 ^ 63) :
    Line codec
      { net with
        tx := net.tx.update (net.tx.current.append bytes size)
        held := net.held ++ [(net.tx.update (net.tx.current.append bytes size)).current] }
      (typed ++ bytes) drained := by
  obtain ⟨invented, coupled⟩ := line.coupled
  have legal := coupled.history.sound _ coupled.current_mem
  refine ⟨⟨invented, coupled.update ⟨legal.1, Nat.lt_trans fits (by decide)⟩ trivial⟩,
    ?_, ?_, line.shown, ?_, line.idle⟩
  · refine List.pairwise_append.mpr ⟨line.grows, List.pairwise_singleton _ _, ?_⟩
    intro s old t new
    rw [List.mem_singleton.mp new, Sender.current_update]
    refine (line.held_typed old).trans ?_
    rw [← line.newest]
    exact List.prefix_append _ _
  · simp only [Sender.current_update]
    change net.tx.current.pending ++ bytes = _
    rw [line.newest]
  · intro a member nonzero
    obtain ⟨s, old, numbered, written⟩ := line.acked a member nonzero
    exact ⟨s, List.mem_append_left _ old, numbered, written⟩

theorem made (line : Line codec net typed drained) (ackState : UInt64) {payload : Bytes}
    {flags : UInt8}
    (encoded : encodeDiff codec net.tx.pendingDiff.1 = .ok (payload, flags)) :
    Line codec
      { net with
        tx := { net.tx with lastAckSent := ackState }
        frames := net.frames ++
          [{ myState := seq net.tx.current, fromState := net.tx.pendingDiff.2,
             ackState := ackState, flags := flags, payload := payload }] }
      typed drained := by
  obtain ⟨invented, coupled⟩ := line.coupled
  exact ⟨⟨invented, coupled.makeFrame ackState rfl rfl encoded⟩, line.grows, line.newest,
    line.shown, line.acked, fun none => absurd none (List.append_ne_nil_of_right_ne_nil _
      (List.cons_ne_nil _ _))⟩

theorem deliver (line : Line codec net typed drained) (roundTrips : codec.RoundTrips) {f : Frame}
    (member : f ∈ net.frames) :
    drained <+: (net.rx.onFrame codec f).1.state.pending ∧
      Line codec { net with rx := (net.rx.onFrame codec f).1 } typed
        (net.rx.onFrame codec f).1.state.pending := by
  obtain ⟨invented, coupled⟩ := line.coupled
  have grown : drained <+: (net.rx.onFrame codec f).1.state.pending := by
    rw [← line.shown]
    rcases net.rx.onFrame_cases codec f with
      ⟨-, result⟩ | ⟨e, -, -, result⟩ | ⟨next, fresh, accepted, result⟩
    · rw [result]
      exact List.prefix_refl _
    · rw [result]
      exact List.prefix_refl _
    · rw [result, Receiver.state_commit]
      obtain ⟨memberNext, numbered⟩ :=
        coupled.next_held (sound_emptyInput invented) roundTrips member fresh accepted
      by_cases applied : net.rx.appliedAny = true
      · refine coupled.history.pairwise_of_lt line.grows
          (coupled.authored applied _ net.rx.mem_state) memberNext ?_
        have newer := UInt64.lt_iff_toNat_lt.mp (Receiver.lt_of_not_stale fresh (Or.inl applied))
        rw [← numbered] at newer
        exact newer
      · rw [coupled.state_eq_invented (Bool.eq_false_iff.mpr applied)]
        exact List.nil_prefix
  refine ⟨grown, ⟨invented, coupled.deliver (sound_emptyInput invented) roundTrips member⟩,
    line.grows, line.newest, rfl, ?_, fun none => absurd member (none ▸ List.not_mem_nil)⟩
  intro a reported nonzero
  obtain ⟨s, old, numbered, written⟩ := line.acked a reported nonzero
  exact ⟨s, old, numbered, written.trans grown⟩

theorem report (line : Line codec net typed drained) :
    Line codec { net with acks := net.acks ++ [net.rx.ack] } typed drained := by
  obtain ⟨invented, coupled⟩ := line.coupled
  refine ⟨⟨invented, coupled.report⟩, line.grows, line.newest, line.shown, ?_, line.idle⟩
  intro a member nonzero
  cases List.mem_append.mp member with
  | inl old => exact line.acked a old nonzero
  | inr new =>
      rw [List.mem_singleton.mp new] at nonzero ⊢
      have applied : net.rx.appliedAny = true := by
        by_contra none
        exact nonzero (by simp only [Receiver.ack, none, if_false, Bool.false_eq_true])
      obtain ⟨held, numbered⟩ := coupled.agreement applied
      exact ⟨net.rx.state, held, numbered, line.shown ▸ List.prefix_refl _⟩

theorem onAck (line : Line codec net typed drained) {a : UInt64} (member : a ∈ net.acks) :
    Line codec { net with tx := net.tx.onAck a } typed drained := by
  obtain ⟨invented, coupled⟩ := line.coupled
  exact ⟨⟨invented, coupled.onAck member⟩, line.grows, line.newest, line.shown, line.acked,
    line.idle⟩

theorem swapIn (line : Line codec net typed drained) (none : net.rx.appliedAny = false)
    (size : TermSize) :
    Line codec
      { net with tx := Sender.new (emptyInput size), held := [emptyInput size], frames := [] }
      [] drained := by
  obtain ⟨invented, coupled⟩ := line.coupled
  exact ⟨⟨invented, coupled.freshSender none (sound_emptyInput size) rfl⟩,
    List.pairwise_singleton _ _, rfl, line.shown,
    fun a member nonzero => absurd (coupled.silent none a member) nonzero, fun _ => none⟩

theorem adopt (line : Line codec net typed drained) (none : net.acks = []) (size : TermSize) :
    Line codec { net with rx := Receiver.new (emptyInput size) } typed [] := by
  obtain ⟨invented, coupled⟩ := line.coupled
  refine ⟨⟨size, coupled.freshReceiver none (emptyInput size)⟩, line.grows, line.newest, rfl, ?_,
    fun _ => rfl⟩
  intro a member
  change a ∈ net.acks at member
  rw [none] at member
  cases member

theorem heard (line : Line codec net typed drained) (nonzero : net.tx.peerSaw ≠ 0) :
    ∃ s ∈ net.held, s.seq = net.tx.peerSaw ∧ s.pending <+: drained := by
  obtain ⟨invented, coupled⟩ := line.coupled
  exact line.acked _ (coupled.heard.resolve_left nonzero) nonzero

theorem acknowledged (line : Line codec net typed drained) (short : net.held.length < 2 ^ 64)
    {s : InputState} (member : s ∈ net.held) (seen : s.seq ≤ net.tx.peerSaw) :
    s.pending <+: drained := by
  obtain ⟨invented, coupled⟩ := line.coupled
  have low := UInt64.le_iff_toNat_le.mp seen
  have positive : 0 < rank s := rank_pos (coupled.history.sound s member)
  have nonzero : net.tx.peerSaw ≠ 0 := by
    intro zero
    rw [zero] at low
    exact absurd positive (Nat.not_lt.mpr low)
  obtain ⟨t, memberT, numbered, written⟩ := line.heard nonzero
  rw [← numbered] at low
  cases Nat.lt_or_eq_of_le low with
  | inl lt =>
      exact (coupled.history.pairwise_of_lt line.grows member memberT lt).trans written
  | inr same =>
      rw [coupled.history.unique_of_short short member memberT (UInt64.toNat_inj.mp same)]
      exact written

/-- Whatever frames of the link are heard, the shell is given exactly what they
add to the receiver. -/
theorem takeFrames (ops : TermOps Term) (line : Line codec net typed drained)
    (roundTrips : codec.RoundTrips) {frames : List Frame} (members : ∀ f ∈ frames, f ∈ net.frames)
    {t t' : Turning (Bytes × Term)} {log : Bytes} (rx : t.session.inputRx = net.rx)
    (shell : t.session.log = some log)
    (level : t.session.written = t.session.inputRx.state.pending.length)
    (taken : t.takeFrames codec (recorder ops) frames = (t', .ok ())) :
    ∃ more, Line codec { net with rx := t'.session.inputRx } typed (drained ++ more) ∧
      t'.session.log = some (log ++ more) ∧
      t'.session.written = t'.session.inputRx.state.pending.length := by
  induction frames generalizing net drained t log with
  | nil =>
      obtain ⟨rfl, -⟩ := Prod.mk.inj taken
      refine ⟨[], ?_, ?_, level⟩
      · rw [rx, List.append_nil]
        exact line
      · rw [List.append_nil]
        exact shell
  | cons f frames ih =>
      simp only [Turning.takeFrames, andThen_ok] at taken
      obtain ⟨u, first, rest⟩ := taken
      obtain ⟨rxU, levelU, logU⟩ := Turning.takeFrame_typed ops first shell level
      obtain ⟨grown, heard⟩ := line.deliver roundTrips (members f List.mem_cons_self)
      rw [rx] at rxU
      rw [← rxU] at grown heard
      obtain ⟨more, lineT, logT, levelT⟩ :=
        ih heard (fun g member => members g (List.mem_cons_of_mem f member)) rfl logU levelU rest
      obtain ⟨added, same⟩ := grown
      rw [rx, line.shown, ← same, List.drop_left] at logT
      rw [← same] at lineT
      exact ⟨added ++ more, by rw [← List.append_assoc]; exact lineT,
        by rw [← List.append_assoc]; exact logT, levelT⟩

end Line
end Oxutrm.Host
