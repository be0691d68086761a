import Oxutrm.Host.Turns
import Oxutrm.Sync.Wire
import Oxutrm.Lib.Transition

/-!
The size a client asks for is looked at only where the terminal is resized, and
an error there ends the session. Frames whose sizes are within the bounds, or
which ask for nothing, never do.
-/
namespace Oxutrm.Host
open Proto Sync Transition

/-- A size the host ignores or can take on. -/
def Harmless (size : TermSize) : Prop :=
  size.cols = 0 ∨ size.rows = 0 ∨ size.checkBounds = .ok ()

theorem Harmless.bounds {size : TermSize} (harmless : Harmless size) (cols : size.cols > 0)
    (rows : size.rows > 0) : size.checkBounds = .ok () := by
  rcases harmless with none | none | within
  · rw [none] at cols
    exact absurd cols (UInt16.lt_irrefl 0)
  · rw [none] at rows
    exact absurd rows (UInt16.lt_irrefl 0)
  · exact within

/-- A frame the receiver would look into asks for a harmless size and does not
use up the last sequence number. -/
def MildFrame (codec : Codec InputDiff) (rx : Receiver InputState) (f : Frame) : Prop :=
  rx.stale f = false → ∀ diff, decodeDiff codec f.flags f.payload = .ok diff →
    f.myState.toNat < 2 ^ 64 - 1 ∧ ∀ size, diff.size = some size → Harmless size

/-- After the last sequence number every frame is stale: the session would hear
nothing any more. -/
theorem stale_after_last {rx : Receiver InputState} (applied : rx.appliedAny = true)
    (last : rx.state.seq.toNat = 2 ^ 64 - 1) (f : Frame) : rx.stale f = true := by
  by_contra fresh
  have newer := UInt64.lt_iff_toNat_lt.mp
    (Receiver.lt_of_not_stale (Bool.eq_false_iff.mpr fresh) (Or.inl applied))
  have bound := f.myState.toNat_lt
  change rx.state.seq.toNat < f.myState.toNat at newer
  omega

def MildFrames (codec : Codec InputDiff) : Receiver InputState → List Frame → Prop
  | _, [] => True
  | rx, f :: fs => MildFrame codec rx f ∧ MildFrames codec (rx.onFrame codec f).1 fs

/-- Any base a frame may build on is harmless too. -/
def Tame (rx : Receiver InputState) : Prop :=
  ∀ s ∈ rx.ring, Harmless s.size ∧ s.seq.toNat < 2 ^ 64 - 1

theorem Tame.onFrame {codec : Codec InputDiff} {rx : Receiver InputState} (tame : Tame rx)
    {f : Frame} (mild : MildFrame codec rx f) : Tame (rx.onFrame codec f).1 := by
  rcases rx.onFrame_cases codec f with
    ⟨-, result⟩ | ⟨e, -, -, result⟩ | ⟨next, fresh, made, result⟩
  · rw [result]
    exact tame
  · rw [result]
    exact tame
  · rw [result]
    intro s member
    rcases Receiver.mem_advance member with rfl | ⟨-, old⟩
    · obtain ⟨diff, decoded, built, -⟩ := Receiver.next_ok.mp made
      obtain ⟨numbered, sizes⟩ := mild fresh diff decoded
      obtain ⟨-, rfl⟩ := input_apply_ok.mp built
      refine ⟨?_, numbered⟩
      cases asked : diff.size with
      | none => exact (tame _ (rx.baseFor_mem f.fromState)).1
      | some size => exact sizes size asked
    · exact tame s old

theorem Tame.hear {codec : Codec InputDiff} {rx : Receiver InputState} (tame : Tame rx)
    {frames : List Frame} (mild : MildFrames codec rx frames) : Tame (rx.hear codec frames) := by
  induction frames generalizing rx with
  | nil => exact tame
  | cons f frames ih => exact ih (tame.onFrame mild.1) mild.2

theorem tame_new {size : TermSize} (harmless : Harmless size) :
    Tame (Receiver.new (emptyInput size)) := by
  intro s member
  rw [List.mem_singleton.mp member]
  exact ⟨harmless, show (1 : UInt64).toNat < 2 ^ 64 - 1 by decide⟩

/-- A full state, or a diff on a base the receiver still holds. -/
def Builds (rx : Receiver InputState) (f : Frame) : Prop :=
  f.fromState = 0 ∨ ∃ base ∈ rx.ring, base.seq = f.fromState

theorem Builds.base {rx : Receiver InputState} {f : Frame} (builds : Builds rx f) :
    f.fromState = 0 ∨ f.fromState = (rx.baseFor f.fromState).seq := by
  by_cases full : f.fromState = 0
  · exact Or.inl full
  · have present := builds.resolve_left full
    exact Or.inr (Receiver.baseFor_of_mem full present).2.symm

/-- What every reachable session keeps. -/
structure Sturdy {Term : Type} (s : HostSession Term) : Prop where
  tame : Tame s.inputRx
  bounds : s.size.checkBounds = .ok ()

inductive HostEvent (Term : Type) where
  | turn (around : Surroundings) (frames : List Frame)
  | startShell (term : Term)
  | becomeLobby
  | adopt (size : TermSize)

section Runs
variable {Term : Type} (codecIn : Codec InputDiff) (codecOut : Codec ScreenDiff)
  (ops : TermOps Term)

def HostSession.step (s : HostSession Term) : HostEvent Term → Option (HostSession Term)
  | .turn around frames =>
      (surviving (s.turnAt codecIn codecOut ops around frames)).map (·.session)
  | .startShell term => some (s.startShell term)
  | .becomeLobby => surviving (s.becomeLobby ops)
  | .adopt size => surviving (s.adoptAs ops size)

/-- Every turn's frames are mild; the size of an attach is checked before it. -/
def HostSession.Mild (s : HostSession Term) : HostEvent Term → Prop
  | .turn _ frames => MildFrames codecIn s.inputRx frames
  | .adopt size => size.checkBounds = .ok ()
  | _ => True

end Runs

section
variable {Term : Type} {codecIn : Codec InputDiff} {codecOut : Codec ScreenDiff}
  {ops : TermOps Term} {s : HostSession Term}

theorem Sturdy.turn (sturdy : Sturdy s) (works : ops.Works) (codecOut : Codec ScreenDiff)
    (around : Surroundings) {frames : List Frame} (mild : MildFrames codecIn s.inputRx frames) :
    ∃ t, s.turnAt codecIn codecOut ops around frames = (t, .ok ()) ∧ Sturdy t.session := by
  have tame := sturdy.tame.hear mild
  have harmless := (tame _ (Receiver.mem_state _)).1
  obtain ⟨t, turned, rx, size⟩ :=
    turnAt_works works codecIn codecOut around s frames harmless.bounds
  refine ⟨t, turned, rx ▸ tame, ?_⟩
  rw [size, Turning.settled]
  split
  · next wish => exact harmless.bounds wish.2.1 wish.2.2
  · exact sturdy.bounds

theorem Sturdy.step (sturdy : Sturdy s) (works : ops.Works) {e : HostEvent Term}
    {s' : HostSession Term} (mild : s.Mild codecIn e)
    (taken : s.step codecIn codecOut ops e = some s') : Sturdy s' := by
  cases e with
  | turn around frames =>
      obtain ⟨t, turned, kept⟩ := sturdy.turn works codecOut around mild
      simp only [HostSession.step, turned, surviving, Option.map_some] at taken
      cases taken
      exact kept
  | startShell term =>
      cases taken
      exact ⟨sturdy.tame, sturdy.bounds⟩
  | becomeLobby =>
      obtain ⟨tx, done⟩ := s.becomeLobby_works ops sturdy.bounds
      simp only [HostSession.step, done, surviving] at taken
      cases taken
      exact ⟨sturdy.tame, sturdy.bounds⟩
  | adopt size =>
      obtain ⟨term, tx, done⟩ := s.adoptAs_works works mild
      simp only [HostSession.step, done, surviving] at taken
      cases taken
      exact ⟨tame_new (Or.inr (Or.inr mild)), mild⟩

theorem sturdy_lobby {size : TermSize} (lobby : HostSession.lobby size = .ok s) : Sturdy s := by
  by_cases bounds : size.checkBounds = .ok ()
  · have blank : ScreenState.blank size.rows size.cols = .ok _ := ScreenState.blank_ok bounds
    simp only [HostSession.lobby, blank, bind, Except.bind, pure, Except.pure,
      Except.ok.injEq] at lobby
    subst lobby
    exact ⟨tame_new (Or.inr (Or.inr bounds)), bounds⟩
  · have blank : ScreenState.blank size.rows size.cols = .error _ :=
      ScreenState.blank_error bounds
    simp [HostSession.lobby, blank, bind, Except.bind] at lobby

/-- A usable size in a full state, or in a diff on a base still held, is taken on,
whatever was heard before. -/
theorem turnAt_honours (works : ops.Works) (around : Surroundings)
    {f : Frame} {diff : InputDiff} {wanted : TermSize} (newer : s.inputRx.state.seq < f.myState)
    (builds : Builds s.inputRx f) (decoded : decodeDiff codecIn f.flags f.payload = .ok diff)
    (asked : diff.size = some wanted) (cols : wanted.cols > 0) (rows : wanted.rows > 0)
    (bounds : wanted.checkBounds = .ok ()) :
    ∃ t, s.turnAt codecIn codecOut ops around [f] = (t, .ok ()) ∧ t.session.size = wanted := by
  have fresh : s.inputRx.stale f = false := Receiver.not_stale_of_lt newer
  have numbered : f.myState ≠ 0 := by
    intro zero
    rw [zero] at newer
    exact absurd newer UInt64.not_lt_zero
  have made : s.inputRx.next codecIn f = .ok
      { seq := f.myState
        pending := (s.inputRx.baseFor f.fromState).pending.drop
          (min diff.consumed.toNat (s.inputRx.baseFor f.fromState).pending.length) ++
            diff.appended
        size := wanted } := by
    refine Receiver.next_ok.mpr ⟨diff, decoded, ?_, (refuse_ok _ _).mpr numbered⟩
    refine input_apply_ok.mpr ⟨builds.base, ?_⟩
    rw [asked, Option.getD_some]
  have heard : (s.inputRx.hear codecIn [f]).state.size = wanted := by
    rcases s.inputRx.onFrame_cases codecIn f with
      ⟨late, -⟩ | ⟨e, -, refused, -⟩ | ⟨next, -, accepted, result⟩
    · rw [fresh] at late
      cases late
    · rw [made] at refused
      cases refused
    · rw [made] at accepted
      simp only [Receiver.hear, List.foldl_cons, List.foldl_nil, result, Receiver.state_commit]
      rw [← Except.ok.inj accepted]
  obtain ⟨t, turned, -, size⟩ := turnAt_works works codecIn codecOut around s [f]
    (by rw [heard]; exact fun _ _ => bounds)
  refine ⟨t, turned, ?_⟩
  rw [size, heard, Turning.settled]
  by_cases same : wanted = s.size
  · simp [same]
  · simp only [ne_eq, same, not_false_eq_true, cols, rows, and_self, if_true]

/-- In every run of mild frames each turn succeeds, the session keeps a size
within the bounds, and a later frame with a usable size is honoured. -/
theorem mild_frames_never_end_the_session (works : ops.Works) {size : TermSize}
    {first : HostSession Term} (lobby : HostSession.lobby size = .ok first)
    (run : Reaches (HostSession.step codecIn codecOut ops) (HostSession.Mild codecIn) first s)
    (around : Surroundings) (frames : List Frame) (mild : MildFrames codecIn s.inputRx frames) :
    ∃ t, s.turnAt codecIn codecOut ops around frames = (t, .ok ()) ∧
      t.session.size.checkBounds = .ok () ∧
      t.session.inputRx.state.seq.toNat < 2 ^ 64 - 1 ∧
      ∀ (later : Surroundings) (f : Frame) (diff : InputDiff) (wanted : TermSize),
        t.session.inputRx.state.seq < f.myState → Builds t.session.inputRx f →
        decodeDiff codecIn f.flags f.payload = .ok diff → diff.size = some wanted →
        wanted.cols > 0 → wanted.rows > 0 → wanted.checkBounds = .ok () →
        ∃ t', t.session.turnAt codecIn codecOut ops later [f] = (t', .ok ()) ∧
          t'.session.size = wanted := by
  have sturdy : Sturdy s := run.invariant
    (fun _ _ _ sturdy mild taken => sturdy.step works mild taken) (sturdy_lobby lobby)
  obtain ⟨t, turned, kept⟩ := sturdy.turn works codecOut around mild
  refine ⟨t, turned, kept.bounds, (kept.tame _ (Receiver.mem_state _)).2, ?_⟩
  intro later f diff wanted newer builds decoded asked cols rows bounds
  exact turnAt_honours works later newer builds decoded asked cols rows bounds

end

/-- A terminal that takes everything and shows nothing. -/
def quietTerm : TermOps Unit where
  writeInput _ _ := .ok ()
  ptyResize _ _ := .ok ()
  poll _ := .ok ((), false)
  snapshot _ _ := ((), dot)
  clipboardDelivered _ _ := ((), false)
  childExited _ := ((), none)

theorem quietTerm_works : quietTerm.Works where
  writeInput _ _ := ⟨(), rfl⟩
  ptyResize _ _ := ⟨(), rfl⟩
  poll _ := ⟨(), false, rfl⟩

/-- A client's whole state, asking for `size`. -/
def sizeFrame (seq : UInt64) (size : TermSize) : Frame where
  myState := seq
  fromState := 0
  ackState := 0
  flags := 0
  payload := inputDiffWire.put (InputState.fullDiff { emptyInput size with seq := seq })

def standard : TermSize := { cols := 80, rows := 24 }

def attentive : Surroundings := { attached := true, due := true }

def quietLobby : HostSession Unit :=
  { term := none
    screenTx := Sender.new (Proto.ScreenState.blankState 24 80)
    inputRx := Receiver.new (emptyInput standard)
    size := standard
    written := 0
    screenStale := false }

theorem lobby_standard : HostSession.lobby standard = .ok quietLobby := by
  have blank : ScreenState.blank standard.rows standard.cols = .ok _ :=
    ScreenState.blank_ok (by decide)
  simp only [HostSession.lobby, blank, bind, Except.bind, pure, Except.pure]
  rfl

theorem sizeFrame_decodes :
    decodeDiff inputCodec (sizeFrame 2 { cols := 12, rows := 3 }).flags
        (sizeFrame 2 { cols := 12, rows := 3 }).payload =
      .ok (InputState.fullDiff { emptyInput { cols := 12, rows := 3 } with seq := 2 }) := by
  decide +kernel

/-- What turns the second state into a third that asks for 120 columns. -/
def widening : InputDiff :=
  { consumed := 0, appended := [], size := some { cols := 120, rows := 40 } }

def wideningFrame : Frame where
  myState := 3
  fromState := 2
  ackState := 0
  flags := 0
  payload := inputDiffWire.put widening

theorem mild_frames_never_end_the_session_lobby :
    ∃ t, quietLobby.turnAt inputCodec screenCodec quietTerm attentive
        [sizeFrame 2 { cols := 12, rows := 3 }] = (t, .ok ()) ∧
      t.session.size.checkBounds = .ok () ∧
      ∃ t', t.session.turnAt inputCodec screenCodec quietTerm attentive [wideningFrame] =
        (t', .ok ()) ∧ t'.session.size = { cols := 120, rows := 40 } := by
  have mild : MildFrames inputCodec quietLobby.inputRx
      [sizeFrame 2 { cols := 12, rows := 3 }] := by
    refine ⟨?_, trivial⟩
    intro _ diff decoded
    rw [sizeFrame_decodes] at decoded
    rw [← Except.ok.inj decoded]
    refine ⟨by decide, ?_⟩
    intro size asked
    rw [← Option.some.inj asked]
    exact Or.inr (Or.inr (by decide))
  have run : Reaches (HostSession.step inputCodec screenCodec quietTerm)
      (HostSession.Mild inputCodec) quietLobby quietLobby := Relation.ReflTransGen.refl
  obtain ⟨t, turned, bounds, -, honours⟩ := mild_frames_never_end_the_session quietTerm_works
    lobby_standard run attentive _ mild
  have heard : (quietLobby.turnAt inputCodec screenCodec quietTerm attentive
      [sizeFrame 2 { cols := 12, rows := 3 }]).1.session.inputRx.ring.map (·.seq) = [2] := by
    decide +kernel
  rw [turned] at heard
  obtain ⟨base, ring, number⟩ := List.map_eq_singleton_iff.mp heard
  have current : t.session.inputRx.state = base := by
    have member := t.session.inputRx.mem_state
    rw [ring] at member
    exact List.mem_singleton.mp member
  have newer : t.session.inputRx.state.seq < wideningFrame.myState := by
    rw [current, number]
    decide
  have builds : Builds t.session.inputRx wideningFrame :=
    Or.inr ⟨base, by rw [ring]; exact List.mem_singleton_self base, number⟩
  have decoded : decodeDiff inputCodec wideningFrame.flags wideningFrame.payload =
      .ok widening := by decide +kernel
  exact ⟨t, turned, bounds, honours attentive _ _ _ newer builds decoded rfl (by decide)
    (by decide) (by decide)⟩

/-- One frame that asks for 3000 columns ends the turn with an error, in a lobby
and with a shell alike, although the terminal itself works. -/
theorem oversized_request_ends_the_session :
    quietTerm.Works ∧
      (quietLobby.turnAt inputCodec screenCodec quietTerm attentive
        [sizeFrame 2 { cols := 3000, rows := 24 }]).2 =
          .error (.refused (.screenTooLarge 24 3000)) ∧
      ((quietLobby.startShell ()).turnAt inputCodec screenCodec quietTerm attentive
        [sizeFrame 2 { cols := 3000, rows := 24 }]).2 =
          .error (.refused (.screenTooLarge 24 3000)) := by
  refine ⟨quietTerm_works, ?_, ?_⟩
  · decide +kernel
  · decide +kernel

end Oxutrm.Host
