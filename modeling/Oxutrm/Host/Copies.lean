import Oxutrm.Host.Delivery
import Oxutrm.Sync.Wire

/-!
What a session and a client process can rely on over all their links: counters that never
go back, copies that are written once, and text that stays until it has been delivered.
-/
namespace Oxutrm.Host
open Proto Sync Transition
open Oxutrm.Client (Written oscCopy Rising)

variable {E κ : Type} {w : Site E κ} {sizes : Nat → TermSize} {size : TermSize}
  {session : HostSession (HostTerm E)} {osc52 : Bool} {m m₀ : Mirror E}

/-- A shell that copies an `x`, on a terminal of one cell. -/
def copying : Pty (List Signals) Unit where
  writeInput e _ := .ok e
  resize e _ := .ok e
  poll e := .ok (e.tail, e.headD {})
  emulator _ :=
    { lines := 1
      columns := 1
      grid := fun _ _ => { c := ' ', zerowidth := [], fg := (), bg := (), flags := {}, hyperlink := none }
      blinking := fun _ _ => false
      cursorLine := 0
      cursorColumn := 0
      mode := {}
      cursorShape := .block }
  childExited e := (e, none)
  toProtoColor _ := .default

/-- The one text that is copied here is `eA==` in base 64. -/
def copySite : Site (List Signals) Unit where
  codecIn := inputCodec
  codecOut := screenCodec
  pty := copying
  base64 text := if text = [0x78] then [0x65, 0x41, 0x3d, 0x3d] else []
  here := none

def copySession : HostSession (HostTerm (List Signals)) where
  term := none
  screenTx := Sender.new dot
  inputRx := Receiver.new (emptyInput ⟨1, 1⟩)
  size := ⟨1, 1⟩
  written := 0
  screenStale := false

theorem copySession_begins : HostSession.lobby ⟨1, 1⟩ = .ok copySession := rfl

def shownFirst : List (MirrorEvent (List Signals)) := [.turn ⟨true, true⟩ [], .hear 0 true]

/-- A shell starts and copies, its screen is shown and acknowledged, and the session moves to
another link. -/
def copiedThen : List (MirrorEvent (List Signals)) :=
  [.startShell [{ clipboard := [(.clipboard, ['x'])], damaged := true }], .turn ⟨true, true⟩ [],
    .hear 1 true,
    .offer 0
      { myState := 1, fromState := 0, ackState := 2, flags := 0,
        payload := inputDiffWire.put (SyncState.fullDiff (emptyInput ⟨1, 1⟩)) },
    .turn ⟨true, true⟩ [0], .adopt ⟨1, 1⟩]

def shownLobby : Option (Mirror (List Signals)) :=
  runFrom (Mirror.step copySite) (Mirror.start (fun _ => ⟨1, 1⟩) copySession true) shownFirst

def shownCopy : Option (Mirror (List Signals)) :=
  shownLobby.bind fun m => runFrom (Mirror.step copySite) m copiedThen

instance (m : Mirror E) (e : MirrorEvent E) : Decidable (m.Roomy e) :=
  inferInstanceAs (Decidable (rank m.session.screenTx.current < 2 ^ 64 - 1))

instance (e : MirrorEvent E) : Decidable e.Enabled :=
  match e with
  | .hear _ enabled => inferInstanceAs (Decidable (enabled = true))
  | .elsewhere _ _ _ | .offer _ _ | .turn _ _ | .startShell _ | .becomeLobby | .finish | .adopt _
  | .promote _ _ _ => .isTrue trivial

theorem shownLobby_reaches {m : Mirror (List Signals)} (run : shownLobby = some m) :
    Reaches (Mirror.step copySite) Mirror.Roomy (Mirror.start (fun _ => ⟨1, 1⟩) copySession true) m :=
  reaches_of_runFrom shownFirst (by decide +kernel) run

theorem shownCopy_reaches {m₀ m : Mirror (List Signals)} (first : shownLobby = some m₀)
    (run : shownCopy = some m) :
    Reaches (Mirror.step copySite) (fun m e => m.Roomy e ∧ e.Enabled) m₀ m := by
  have admitted : ∀ m ∈ shownLobby,
      Admits (Mirror.step copySite) (fun m e => m.Roomy e ∧ e.Enabled) m copiedThen := by
    decide +kernel
  rw [shownCopy, first, Option.bind_some] at run
  exact reaches_of_runFrom copiedThen (admitted m₀ (by rw [first]; rfl)) run

def copyOfX : Clipboard := { serial := 1, copy := some ⟨.clipboard, ['x']⟩ }

/-- Where the two runs end. -/
structure CopyShown (m₀ m : Mirror (List Signals)) : Prop where
  before : Reaches (Mirror.step copySite) Mirror.Roomy
    (Mirror.start (fun _ => ⟨1, 1⟩) copySession true) m₀
  run : Reaches (Mirror.step copySite) (fun m e => m.Roomy e ∧ e.Enabled) m₀ m
  applied : m₀.applied ≠ []
  serial : m₀.session.clipboard.serial = 0
  drops : m.session.drops = [copyOfX]
  copies : m.copies = 1

theorem copyShown : ∃ m₀ m, CopyShown m₀ m := by
  obtain ⟨m₀, first⟩ := Option.isSome_iff_exists.mp (show shownLobby.isSome = true by decide +kernel)
  obtain ⟨m, last⟩ := Option.isSome_iff_exists.mp (show shownCopy.isSome = true by decide +kernel)
  have early : shownLobby.map (fun m => (m.applied.isEmpty, m.session.clipboard.serial)) =
      some (false, 0) := by decide +kernel
  have late : shownCopy.map (fun m => (m.session.drops, m.copies)) = some ([copyOfX], 1) := by
    decide +kernel
  simp only [first, Option.map_some, Option.some.injEq, Prod.mk.injEq] at early
  simp only [last, Option.map_some, Option.some.injEq, Prod.mk.injEq] at late
  exact ⟨m₀, m, shownLobby_reaches first, shownCopy_reaches first last,
    fun none_ => by simp [none_] at early, early.2, late.1, late.2⟩

theorem CopyShown.whole {m₀ m : Mirror (List Signals)} (shown : CopyShown m₀ m) :
    Reaches (Mirror.step copySite) Mirror.Roomy
      (Mirror.start (fun _ => ⟨1, 1⟩) copySession true) m :=
  shown.before.trans (Mirror.reaches_mono (fun _ _ both => both.1) shown.run)

/-- In every run the host drops the text of a copy as delivered only after the client has applied
a state with that very text. A lobby's screen and a newer copy take a text's place as well; those
are not deliveries. -/
theorem dropped_copy_was_applied (roundTrips : w.codecOut.RoundTrips)
    (bounds : ∀ n, (sizes n).checkBounds = .ok ()) (begun : HostSession.lobby size = .ok session)
    (run : Reaches (Mirror.step w) Mirror.Roomy (Mirror.start sizes session osc52) m)
    (few : m.copies < 2 ^ 32) {c : Clipboard} (dropped : c ∈ m.session.drops) :
    c.copy ≠ none ∧ ∃ x ∈ m.applied, x.clipboard = c :=
  delivered_reaches roundTrips bounds run (Right.start w begun) (Delivered.start begun) few c dropped

theorem dropped_copy_was_applied_x :
    ∃ m : Mirror (List Signals), copyOfX ∈ m.session.drops ∧ copyOfX.copy ≠ none ∧
      ∃ x ∈ m.applied, x.clipboard = copyOfX := by
  obtain ⟨m₀, m, shown⟩ := copyShown
  have dropped : copyOfX ∈ m.session.drops := by
    rw [shown.drops]
    exact List.mem_cons_self
  exact ⟨m, dropped, dropped_copy_was_applied (storedCodec_roundTrips _) (fun _ => rfl) copySession_begins
    shown.whole (by rw [shown.copies]; decide) dropped⟩

/-- What a client is told that has shown something of the session. -/
theorem told_since (roundTrips : w.codecOut.RoundTrips)
    (bounds : ∀ n, (sizes n).checkBounds = .ok ()) (begun : HostSession.lobby size = .ok session)
    (before : Reaches (Mirror.step w) Mirror.Roomy (Mirror.start sizes session true) m₀)
    (applied : m₀.applied ≠ [])
    (run : Reaches (Mirror.step w) (fun m e => m.Roomy e ∧ e.Enabled) m₀ m)
    (few : m.copies < 2 ^ 32) : Told w m₀.session.clipboard.serial m ∧ Noted w m := by
  have right := right_reaches roundTrips bounds before (Right.start w begun)
  have delivered := delivered_reaches roundTrips bounds before (Right.start w begun) (Delivered.start begun)
  have noted := noted_reaches before (Noted.start w session)
  have capable : m₀.relay.osc52 = true :=
    before.invariant (I := fun m => m.relay.osc52 = true)
      (fun _ _ _ on _ taken => (Mirror.step_looks taken).capable.trans on) rfl
  have few₀ : m₀.copies < 2 ^ 32 := Nat.lt_of_le_of_lt (copies_grow roundTrips bounds run right) few
  have told : Told w m₀.session.clipboard.serial m₀ := by
    refine ⟨capable, applied, ?_, ?_⟩
    · intro x _ same _ late
      rw [same] at late
      exact absurd late (UInt32.lt_irrefl _)
    · intro d member late
      obtain ⟨-, x, shown, rfl⟩ := delivered few₀ d member
      exact absurd (UInt32.lt_of_lt_of_le late (right.elder few₀ x shown).le) (UInt32.lt_irrefl _)
  exact ⟨told_reaches roundTrips bounds run right noted told few, noted_reaches run noted⟩

theorem Told.once {k : UInt32} (told : Told w k m) (noted : Noted w m) {c : Clipboard}
    (dropped : c ∈ m.session.drops) (made : k < c.serial) :
    ∃ v, m.written.filter (fun v => v.session = w.here ∧ v.serial = c.serial) = [v] ∧
      c.copy.map (oscCopy w.base64) = some v.bytes := by
  obtain ⟨v, member, here, serial, bytes⟩ := told.dropped c dropped made
  refine ⟨v, ?_, bytes⟩
  rw [← here, ← serial]
  exact noted.rising.only member

section Exhaustion

/-- A shell on a terminal of one cell that draws at every poll and copies what it is told. -/
def drawing (copied : Nat → List (ClipboardType × Text)) : Pty Nat Unit where
  writeInput e _ := .ok e
  resize e _ := .ok e
  poll e := .ok (e + 1, { clipboard := copied e, damaged := true })
  emulator _ := copying.emulator []
  childExited e := (e, none)
  toProtoColor _ := .default

def drawSite (copied : Nat → List (ClipboardType × Text)) : Site Nat Unit where
  codecIn := inputCodec
  codecOut := screenCodec
  pty := drawing copied
  base64 := copySite.base64
  here := none

def drawLobby : HostSession (HostTerm Nat) where
  term := none
  screenTx := Sender.new dot
  inputRx := Receiver.new (emptyInput ⟨1, 1⟩)
  size := ⟨1, 1⟩
  written := 0
  screenStale := false

/-- The terminal of such a shell after some polls. -/
def drawn (polls : Nat) (c : Clipboard) (capped : checkClipboard c = .ok ()) (copies : Nat) :
    HostTerm Nat where
  clipboard := c
  copies := copies
  pty := polls
  size := ⟨1, 1⟩
  bounds := rfl
  capped := capped
  lawful := LinkTable.sound_empty

theorem assign_empty : LinkTable.empty.assign [none] = some ([0], LinkTable.empty) := by
  have retained : LinkTable.empty.retain ∅ = LinkTable.empty := by
    simp only [LinkTable.retain, LinkTable.empty, LinkTable.mk.injEq]
    refine ⟨?_, ?_⟩
    · ext
      simp
    · ext
      simp
  simp only [LinkTable.assign, LinkTable.survey, List.reduceOption_cons_of_none,
    List.reduceOption_nil, List.foldl_nil, retained]
  rfl

theorem table_empty : LinkTable.empty.table = ∅ := by
  unfold LinkTable.table LinkTable.empty
  ext
  simp

variable {copied : Nat → List (ClipboardType × Text)} {polls copies : Nat} {c : Clipboard}
  {capped : checkClipboard c = .ok ()}

theorem drawn_state : screenStateOf (drawing copied).toProtoColor ((drawing copied).emulator polls)
    ⟨1, 1⟩ ((drawn polls c capped copies).metaOf 1) (some .empty) =
      some ({ dot with clipboard := c }, some .empty) := by
  have found : foundLinks ((drawing copied).emulator polls) (points ⟨1, 1⟩) = [none] := rfl
  simp only [screenStateOf, found, assign_empty, Option.bind_eq_bind, Option.bind_some, table_empty]
  have blank : layLinks ((points ⟨1, 1⟩).map
      (cellOf (drawing copied).toProtoColor (copying.emulator []))) [0] = dot.cells := by rfl
  exact congrArg (fun cells => some
    (stateOf (copying.emulator []) ⟨1, 1⟩ ((drawn polls c capped copies).metaOf 1) cells ∅,
      some LinkTable.empty)) blank

theorem drawn_snapshot : (drawn polls c capped copies).snapshot (drawing copied) 1 =
    (drawn polls c capped copies, { dot with clipboard := c }) := by
  unfold HostTerm.snapshot
  split
  · rename_i s links built
    cases built.symm.trans drawn_state
    rfl
  · rename_i s built
    cases built.symm.trans drawn_state
  · rename_i built
    cases built.symm.trans drawn_state

theorem drawn_poll : (drawn polls c capped copies).poll (drawing copied) =
    .ok (drawn (polls + 1) (recordCopies c (copied polls)) (recordCopies_ok capped _)
      (copies + taken (copied polls)), true) := rfl

/-- A session with such a shell, whose client has been silent so far. -/
def drawSession (tx : Sender ScreenState) (term : HostTerm Nat) (stale : Bool) :
    HostSession (HostTerm Nat) where
  term := some term
  screenTx := tx
  inputRx := Receiver.new (emptyInput ⟨1, 1⟩)
  size := ⟨1, 1⟩
  written := 0
  screenStale := stale

def quietly : Surroundings := { attached := true, due := false }

theorem drawSession_turn {tx : Sender ScreenState} (unheard : tx.peerSaw = 0) (stale : Bool) :
    (drawSession tx (drawn polls c capped copies) stale).turnAt inputCodec screenCodec
        (HostTerm.ops (drawing copied)) quietly [] =
      ({ session := drawSession
          (tx.update { dot with clipboard := recordCopies c (copied polls) })
          (drawn (polls + 1) (recordCopies c (copied polls)) (recordCopies_ok capped _)
            (copies + taken (copied polls))) false }, .ok ()) := by
  obtain ⟨ring, held, peerSaw, lastAckSent⟩ := tx
  subst unheard
  generalize term : drawn polls c capped copies = t
  simp only [HostSession.turnAt, Turning.takeFrames, andThen]
  have delivered : ({ session := drawSession ⟨ring, held, 0, lastAckSent⟩ t stale } :
      Turning _).deliverClipboard (HostTerm.ops (drawing copied)) =
        { session := drawSession ⟨ring, held, 0, lastAckSent⟩ t stale } := rfl
  rw [delivered]
  have honoured : ({ session := drawSession ⟨ring, held, 0, lastAckSent⟩ t stale } :
      Turning _).honourSize (HostTerm.ops (drawing copied)) =
        ({ session := drawSession ⟨ring, held, 0, lastAckSent⟩ t stale }, .ok ()) := rfl
  rw [honoured, ← term]
  simp only [Turning.pollTerm, drawSession, HostTerm.ops, drawn_poll, quietly, Bool.true_or, if_true,
    drawn_snapshot]
  rfl

def drawMirror (session : HostSession (HostTerm Nat)) : Mirror Nat :=
  Mirror.start (fun _ => ⟨1, 1⟩) session true

theorem drawMirror_started : (drawMirror drawLobby).step (drawSite copied) (.startShell 0) =
    some (drawMirror (drawSession drawLobby.screenTx (drawn 0 {} rfl 0) true)) := rfl

theorem drawMirror_turn {tx : Sender ScreenState} (unheard : tx.peerSaw = 0) (stale : Bool) :
    (drawMirror (drawSession tx (drawn polls c capped copies) stale)).step (drawSite copied)
        (.turn quietly []) =
      some (drawMirror (drawSession
        (tx.update { dot with clipboard := recordCopies c (copied polls) })
        (drawn (polls + 1) (recordCopies c (copied polls)) (recordCopies_ok capped _)
          (copies + taken (copied polls))) false)) := by
  have ran := @drawSession_turn copied polls copies c capped tx unheard stale
  have arrived : (drawMirror (drawSession tx (drawn polls c capped copies) stale)).arrived [] = [] := rfl
  simp only [Mirror.step, arrived]
  rw [show (drawMirror (drawSession tx (drawn polls c capped copies) stale)).session =
      drawSession tx (drawn polls c capped copies) stale from rfl,
    show (drawSite copied).codecIn = inputCodec from rfl,
    show (drawSite copied).codecOut = screenCodec from rfl,
    show (drawSite copied).pty = drawing copied from rfl, ran]
  rfl

/-- The sender after some draws without a copy, as long as it has numbers left. -/
def drawTx (draws : Nat) : Sender ScreenState where
  ring := Window.cap stateRing ((List.range (draws + 1)).map fun i => setSeq dot (UInt64.ofNat (i + 1)))
  held := Window.cap_ne_nil (by decide) (by simp)
  peerSaw := 0
  lastAckSent := 0

theorem drawTx_current (draws : Nat) : (drawTx draws).current = setSeq dot (UInt64.ofNat (draws + 1)) := by
  unfold Sender.current
  simp only [drawTx, Window.getLast_cap]
  simp

theorem drawTx_update {draws : Nat} (room : draws + 2 < 2 ^ 64) :
    (drawTx draws).update dot = drawTx (draws + 1) := by
  have next : saturatingSucc (seq (drawTx draws).current) = UInt64.ofNat (draws + 2) := by
    rw [drawTx_current, ← UInt64.toNat_inj, toNat_saturatingSucc]
    change min ((UInt64.ofNat (draws + 1)).toNat + 1) _ = _
    rw [UInt64.toNat_ofNat_of_lt' (show draws + 1 < 2 ^ 64 by omega), UInt64.toNat_ofNat_of_lt' room]
    omega
  unfold Sender.update
  simp only [next]
  simp only [drawTx, Sender.mk.injEq, and_true]
  rw [Window.cap_cap_append, List.range_succ (n := draws + 1), List.map_append]
  rfl

/-- A single copy, at the last poll before the numbers run out. -/
def lastly (polls : Nat) : List (ClipboardType × Text) :=
  if polls = 18446744073709551614 then [(.clipboard, ['x'])] else []

theorem drawn_reaches {draws : Nat} (room : draws + 2 < 2 ^ 64) :
    Reaches (Mirror.step (drawSite lastly)) free (drawMirror drawLobby)
      (drawMirror (drawSession (drawTx (draws + 1)) (drawn (draws + 1) {} rfl 0) false)) := by
  have turn : ∀ n stale, n + 2 < 2 ^ 64 →
      (drawMirror (drawSession (drawTx n) (drawn n {} rfl 0) stale)).step (drawSite lastly)
        (.turn quietly []) =
      some (drawMirror (drawSession (drawTx (n + 1)) (drawn (n + 1) {} rfl 0) false)) := by
    intro n stale small
    have none_ : lastly n = [] := if_neg (by omega)
    have moved := @drawMirror_turn lastly n 0 {} rfl (drawTx n) rfl stale
    simp only [none_] at moved
    rw [← drawTx_update small]
    exact moved
  induction draws with
  | zero =>
      have started : (drawMirror drawLobby).step (drawSite lastly) (.startShell 0) =
          some (drawMirror (drawSession (drawTx 0) (drawn 0 {} rfl 0) true)) := drawMirror_started
      exact Relation.ReflTransGen.trans (Reaches.single _ trivial started)
        (Reaches.single _ trivial (turn 0 true room))
  | succ n ih =>
      exact Relation.ReflTransGen.trans (ih (by omega))
        (Reaches.single _ trivial (turn (n + 1) false (by omega)))

/-- The ring when the next number is the last. -/
def fullTx : Sender ScreenState where
  ring := (List.range' 18446744073709551582 32).map fun i => setSeq dot (UInt64.ofNat (i + 1))
  held := by simp
  peerSaw := 0
  lastAckSent := 0

theorem drawTx_full : drawTx (18446744073709551582 + 31) = fullTx := by
  have drop : ∀ n, Window.cap stateRing ((List.range (n + 31 + 1)).map fun i =>
      setSeq dot (UInt64.ofNat (i + 1))) =
      (List.range' n 32).map fun i => setSeq dot (UInt64.ofNat (i + 1)) := by
    intro n
    have dropped : n + 31 + 1 - stateRing = n := Nat.add_sub_cancel n 32
    have kept : n + 31 + 1 - n = 32 := by omega
    rw [Window.cap, ← List.map_drop, List.length_map, List.length_range, List.range_eq_range',
      List.drop_range', dropped, kept, Nat.zero_add, Nat.mul_one]
  have ring := drop 18446744073709551582
  simp only [drawTx, fullTx, ring]

/-- The state with the last number is heard and acknowledged, a copy is made under the same
number, and the ring turns over once. -/
def runOut : List (MirrorEvent Nat) :=
  [.turn ⟨true, true⟩ [], .hear 0 true,
    .offer 0
      { myState := 1, fromState := 0, ackState := 18446744073709551615, flags := 0,
        payload := inputDiffWire.put (SyncState.fullDiff (emptyInput ⟨1, 1⟩)) },
    .turn quietly [0]] ++ List.replicate 32 (.turn quietly [])

end Exhaustion

theorem ring_in_order (roundTrips : w.codecOut.RoundTrips)
    (bounds : ∀ n, (sizes n).checkBounds = .ok ()) (begun : HostSession.lobby size = .ok session)
    (run : Reaches (Mirror.step w) free (Mirror.start sizes session osc52) m) :
    m.session.screenTx.ring.Pairwise ScreenState.CountersLe := by
  have right := right_reaches roundTrips bounds run (Right.start w begun)
  obtain ⟨net, linked, screened⟩ := right.links m.host (Nat.le_refl _)
  have ring := linked.coupled.ring
  rw [(screened rfl).tx] at ring
  rw [ring]
  exact linked.coupled.history.follows.sublist (List.drop_sublist _ _)

theorem refused_is_unreadable (roundTrips : w.codecOut.RoundTrips)
    (bounds : ∀ n, (sizes n).checkBounds = .ok ()) (begun : HostSession.lobby size = .ok session)
    (run : Reaches (Mirror.step w) free (Mirror.start sizes session osc52) m) {link : Nat}
    {f : Frame} {e : ApplyError} (made : (link, f) ∈ m.down)
    (refused : ((m.rx link).onFrame w.codecOut f).2 = .error e) :
    decodeDiff w.codecOut f.flags f.payload = .error e := by
  have right := right_reaches roundTrips bounds run (Right.start w begun)
  have within : link ≤ m.host := by
    by_contra beyond
    exact (right.ahead link (Nat.lt_of_not_le beyond)).unsent f made
  obtain ⟨net, linked, -⟩ := right.links link within
  rw [← linked.rx] at refused
  exact linked.coupled.refused_unread (blanks_valid bounds link) roundTrips
    (fun s _ => ⟨UInt32.zero_le, UInt64.zero_le, UInt32.zero_le⟩) (linked.frames f made) refused

theorem new_copy_above (roundTrips : w.codecOut.RoundTrips)
    (bounds : ∀ n, (sizes n).checkBounds = .ok ()) (begun : HostSession.lobby size = .ok session)
    (run : Reaches (Mirror.step w) free (Mirror.start sizes session osc52) m)
    {e : MirrorEvent E} {m' : Mirror E} (taken : m.step w e = some m')
    (more : m.copies < m'.copies) (few : m'.copies < 2 ^ 32) {x : ScreenState}
    (member : x ∈ m.applied) : x.clipboard.serial < m'.session.clipboard.serial := by
  have right := right_reaches roundTrips bounds run (Right.start w begun)
  obtain ⟨right', onward⟩ := right.step roundTrips (blanks_valid bounds) taken
  have elder := (right.elder (by omega) x member).le
  have before := right.counts
  have after := right'.counts
  refine UInt32.lt_of_le_of_lt elder (UInt32.lt_iff_toNat_lt.mpr ?_)
  rw [before, after]
  omega

/-- The counters of a session never go back: the states its sender holds have counts in
order, a frame the client refuses is one it cannot read, and a new copy has a higher number
than anything the client has seen. -/
theorem counters_never_go_back (roundTrips : w.codecOut.RoundTrips)
    (bounds : ∀ n, (sizes n).checkBounds = .ok ()) (begun : HostSession.lobby size = .ok session)
    (run : Reaches (Mirror.step w) Mirror.Roomy (Mirror.start sizes session osc52) m) :
    m.session.screenTx.ring.Pairwise ScreenState.CountersLe ∧
      (∀ link f e, (link, f) ∈ m.down → ((m.rx link).onFrame w.codecOut f).2 = .error e →
        decodeDiff w.codecOut f.flags f.payload = .error e) ∧
      ∀ e m', m.Roomy e → m.step w e = some m' → m.copies < m'.copies → m'.copies < 2 ^ 32 →
        ∀ x ∈ m.applied, x.clipboard.serial < m'.session.clipboard.serial := by
  have anyhow : Reaches (Mirror.step w) free (Mirror.start sizes session osc52) m :=
    Mirror.reaches_mono (fun _ _ _ => trivial) run
  refine ⟨ring_in_order roundTrips bounds begun anyhow, ?_, ?_⟩
  · intro link f e made refused
    exact refused_is_unreadable roundTrips bounds begun anyhow made refused
  · intro e m' _ taken more few x member
    exact new_copy_above roundTrips bounds begun anyhow taken more few member

theorem counters_never_go_back_x : ∃ m : Mirror (List Signals), m.session.drops = [copyOfX] ∧
    m.session.screenTx.ring.Pairwise ScreenState.CountersLe := by
  obtain ⟨m₀, m, shown⟩ := copyShown
  exact ⟨m, shown.drops, (counters_never_go_back (storedCodec_roundTrips _) (fun _ => rfl) copySession_begins
    shown.whole).1⟩

/-- Over any run, on one link the states a session hands to its sender have counts in order, so a
frame the client refuses is one it cannot read; and a new copy, also the first of a shell started
in a lobby that moved to another link, has a higher number than anything applied on any link. -/
theorem counters_keep_their_order (roundTrips : w.codecOut.RoundTrips)
    (bounds : ∀ n, (sizes n).checkBounds = .ok ()) (begun : HostSession.lobby size = .ok session)
    (run : Reaches (Mirror.step w) free (Mirror.start sizes session osc52) m) :
    m.session.screenTx.ring.Pairwise ScreenState.CountersLe ∧
      (∀ e m', m.step w e = some m' → m'.host = m.host →
        m.session.screenTx.current.CountersLe m'.session.screenTx.current) ∧
      (∀ link f e, (link, f) ∈ m.down → ((m.rx link).onFrame w.codecOut f).2 = .error e →
        decodeDiff w.codecOut f.flags f.payload = .error e) ∧
      ∀ e m', m.step w e = some m' → m.copies < m'.copies → m'.copies < 2 ^ 32 →
        ∀ x ∈ m.applied, x.clipboard.serial < m'.session.clipboard.serial := by
  refine ⟨ring_in_order roundTrips bounds begun run, ?_, ?_, ?_⟩
  · intro e m' taken same
    have right := right_reaches roundTrips bounds run (Right.start w begun)
    exact (right.step roundTrips (blanks_valid bounds) taken).2.ahead same
  · intro link f e made refused
    exact refused_is_unreadable roundTrips bounds begun run made refused
  · intro e m' taken more few x member
    exact new_copy_above roundTrips bounds begun run taken more few member

section Serials

def copyX : ClipboardType × Text := (.clipboard, ['x'])

/-- Drawn and heard; then the shell is gone, another client attaches to the lobby and a shell
starts there. -/
def movedOn : List (MirrorEvent Nat) :=
  [.turn ⟨true, true⟩ [], .hear 0 true, .becomeLobby, .adopt ⟨1, 1⟩, .startShell 1]

theorem counters_keep_their_order_moved : ∃ m m' : Mirror Nat,
    m.step (drawSite fun _ => [copyX]) (.turn quietly []) = some m' ∧ m.session.copies = 0 ∧
      m.applied.map (·.clipboard.serial) = [1] ∧
      ∀ x ∈ m.applied, x.clipboard.serial < m'.session.clipboard.serial := by
  have outcome : ((runFrom (Mirror.step (drawSite fun _ => [copyX])) (drawMirror drawLobby)
      (.startShell 0 :: movedOn)).bind fun m =>
        (m.step (drawSite fun _ => [copyX]) (.turn quietly [])).map fun m' =>
          (m.session.copies, m.copies, m.applied.map (·.clipboard.serial), m'.copies)) =
      some (0, 1, [1], 2) := by decide +kernel
  obtain ⟨m, run, shown⟩ := Option.bind_eq_some_iff.mp outcome
  obtain ⟨m', taken, shown⟩ := Option.map_eq_some_iff.mp shown
  simp only [Prod.mk.injEq] at shown
  obtain ⟨none_, copies, applied, copies'⟩ := shown
  have reached := reaches_of_runFrom (.startShell 0 :: movedOn) (admits_free _ _ _) run
  refine ⟨m, m', taken, none_, applied, ?_⟩
  exact (@counters_keep_their_order _ _ (drawSite fun _ => [copyX]) (fun _ => ⟨1, 1⟩) ⟨1, 1⟩ drawLobby true m
    (storedCodec_roundTrips _) (fun _ => rfl) rfl reached).2.2.2 _ m' taken (by rw [copies, copies']; decide)
    (by rw [copies']; decide)

/-- As many copies at the first poll as there are numbers. -/
def flood (polls : Nat) : List (ClipboardType × Text) :=
  if polls = 0 then List.replicate 4294967295 copyX else [copyX]

theorem recordCopies_replicate {copies : Nat} (few : copies + 1 < 2 ^ 32) :
    recordCopies {} (List.replicate (copies + 1) copyX) =
      { serial := UInt32.ofNat (copies + 1), copy := some ⟨.clipboard, ['x']⟩ } := by
  induction copies with
  | zero => rfl
  | succ n ih =>
      have small := UInt32.toNat_ofNat_of_lt' (show n + 1 < 2 ^ 32 by omega)
      have later : recordCopies {} (List.replicate (n + 1) copyX ++ [copyX]) =
          (recordCopy (recordCopies {} (List.replicate (n + 1) copyX)) copyX.1 copyX.2).1 := by
        simp only [recordCopies, List.foldl_append, List.foldl_cons, List.foldl_nil]
      have next : (recordCopy { serial := UInt32.ofNat (n + 1), copy := some ⟨.clipboard, ['x']⟩ }
          copyX.1 copyX.2).1 =
          { serial := if (UInt32.ofNat (n + 1)).toNat + 1 < 2 ^ 32 then UInt32.ofNat (n + 1) + 1
              else UInt32.ofNat (n + 1)
            copy := some ⟨.clipboard, ['x']⟩ } := rfl
      rw [List.replicate_succ', later, ih (by omega), next, small, if_pos few, UInt32.ofNat_add (n + 1) 1]
      rfl

def lastCopy : Clipboard := { serial := 4294967295, copy := some ⟨.clipboard, ['x']⟩ }

/-- Once the serials have run out a new copy has the number of an old one. -/
theorem serials_run_out : (drawSite flood).codecOut.RoundTrips ∧
    HostSession.lobby ⟨1, 1⟩ = .ok drawLobby ∧
    ∃ m m', Reaches (Mirror.step (drawSite flood)) free
        (Mirror.start (fun _ => ⟨1, 1⟩) drawLobby true) m ∧
      m.step (drawSite flood) (.turn quietly []) = some m' ∧ m.session.copies = 0 ∧
      m.copies < m'.copies ∧ ∃ x ∈ m.applied, ¬ x.clipboard.serial < m'.session.clipboard.serial := by
  refine ⟨storedCodec_roundTrips _, rfl, ?_⟩
  have flooded : (drawMirror (drawSession drawLobby.screenTx (drawn 0 {} rfl 0) true)).step
      (drawSite flood) (.turn quietly []) =
      some (drawMirror (drawSession (drawLobby.screenTx.update { dot with clipboard := lastCopy })
        (drawn 1 lastCopy rfl 4294967295) false)) := by
    have moved := @drawMirror_turn flood 0 0 {} rfl drawLobby.screenTx rfl true
    have brought : flood 0 = List.replicate (4294967294 + 1) copyX := rfl
    have count : taken (List.replicate (4294967294 + 1) copyX) = 4294967295 := by
      rw [taken, List.countP_replicate]
      rfl
    have last : recordCopies {} (List.replicate (4294967294 + 1) copyX) = lastCopy :=
      recordCopies_replicate (by decide)
    simp only [brought, last, count] at moved
    exact moved
  have started : Reaches (Mirror.step (drawSite flood)) free (drawMirror drawLobby) _ :=
    Reaches.single _ trivial drawMirror_started
  have before := Relation.ReflTransGen.trans started (Reaches.single _ trivial flooded)
  have outcome : ((runFrom (Mirror.step (drawSite flood))
      (drawMirror (drawSession (drawLobby.screenTx.update { dot with clipboard := lastCopy })
        (drawn 1 lastCopy rfl 4294967295) false)) movedOn).bind fun m =>
        (m.step (drawSite flood) (.turn quietly [])).map fun m' =>
          (m.session.copies, m.copies, m.applied.map (·.clipboard.serial), m'.copies,
            m'.session.clipboard.serial)) =
      some (0, 4294967296, [4294967295], 4294967297, 4294967295) := by decide +kernel
  obtain ⟨m, run, shown⟩ := Option.bind_eq_some_iff.mp outcome
  obtain ⟨m', taken, shown⟩ := Option.map_eq_some_iff.mp shown
  simp only [Prod.mk.injEq] at shown
  obtain ⟨none_, copies, applied, copies', serial⟩ := shown
  have shown : 4294967295 ∈ m.applied.map (·.clipboard.serial) := applied ▸ List.mem_cons_self
  obtain ⟨x, member, number⟩ := List.mem_map.mp shown
  refine ⟨m, m', Relation.ReflTransGen.trans before (reaches_of_runFrom movedOn (admits_free _ _ _) run),
    taken, none_, ?_, x, member, ?_⟩
  · rw [copies, copies']
    decide
  · rw [number, serial]
    decide

end Serials

end Oxutrm.Host
