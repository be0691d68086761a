import Oxutrm.Host.Keystrokes
import Oxutrm.Host.Sizes
import Oxutrm.Lib.Segments

/-!
The links of a run side by side: every link is a `Line`, the shell's log is
what the lines have drained, one after another, and what was appended is what
was typed on them, one after another.
-/
namespace Oxutrm.Host
open Proto Sync Transition Segments

structure Wired {Term : Type} (codec : Codec InputDiff) (k : Keys Term)
    (nets : Nat → Net InputState) : Prop where
  lines : ∀ n, Line codec (nets n) (k.typed n) (k.drained n)
  tx : (nets k.client).tx = k.tx
  held : (nets k.client).held = k.held
  rx : (nets k.host).rx = k.session.inputRx
  frames : ∀ p ∈ k.frames, p.2 ∈ (nets p.1).frames
  acks : ∀ p ∈ k.acks, p.2 ∈ (nets p.1).acks
  unsent : ∀ n, k.client < n → (nets n).frames = [] ∧ k.typed n = []
  unheard : ∀ n, k.host < n → (nets n).acks = [] ∧ k.drained n = []
  level : k.session.written = k.session.inputRx.state.pending.length
  log : k.session.log = some (upTo k.drained k.host)
  appended : k.appended = upTo k.typed k.client

namespace Wired
variable {Term : Type} {codec : Codec InputDiff} {k : Keys Term} {nets : Nat → Net InputState}

theorem start (size invented : TermSize) (session : HostSession (Bytes × Term)) (shell : Term) :
    Wired codec (Keys.start size invented session shell)
      fun _ => Net.start (emptyInput size) (emptyInput invented) where
  lines _ := Line.start size invented
  tx := rfl
  held := rfl
  rx := rfl
  frames := fun _ member => absurd member List.not_mem_nil
  acks := fun _ member => absurd member List.not_mem_nil
  unsent := fun _ _ => ⟨rfl, rfl⟩
  unheard := fun _ _ => ⟨rfl, rfl⟩
  level := rfl
  log := rfl
  appended := rfl

/-- The client acts on its own link: it may type and it may make frames. -/
theorem clientActs (wired : Wired codec k nets) {net : Net InputState}
    {frames : List (Nat × Frame)} {typed : Nat → Bytes} {appended : Bytes}
    (line : Line codec net (typed k.client) (k.drained k.client))
    (others : ∀ n, n ≠ k.client → typed n = k.typed n) (whole : appended = upTo typed k.client)
    (rx : net.rx = (nets k.client).rx) (acks : net.acks = (nets k.client).acks)
    (kept : ∀ f ∈ (nets k.client).frames, f ∈ net.frames)
    (made : ∀ p ∈ frames, p ∈ k.frames ∨ p.1 = k.client ∧ p.2 ∈ net.frames) :
    Wired codec
      { k with
        tx := net.tx
        held := net.held
        frames := frames
        typed := typed
        appended := appended }
      (Function.update nets k.client net) where
  lines n := by
    by_cases here : n = k.client
    · subst here
      simpa only [Function.update_self] using line
    · simpa only [Function.update_of_ne here, others n here] using wired.lines n
  tx := by simp only [Function.update_self]
  held := by simp only [Function.update_self]
  rx := by
    change (Function.update nets k.client net k.host).rx = _
    rw [← wired.rx]
    by_cases here : k.host = k.client
    · rw [here, Function.update_self]
      exact rx
    · rw [Function.update_of_ne here]
  frames p member := by
    by_cases here : p.1 = k.client
    · rw [here, Function.update_self]
      cases made p member with
      | inl old => exact kept _ (here ▸ wired.frames p old)
      | inr new => exact new.2
    · rw [Function.update_of_ne here]
      cases made p member with
      | inl old => exact wired.frames p old
      | inr new => exact absurd new.1 here
  acks p member := by
    by_cases here : p.1 = k.client
    · rw [here, Function.update_self, acks]
      exact here ▸ wired.acks p member
    · rw [Function.update_of_ne here]
      exact wired.acks p member
  unsent n later := by
    have here : n ≠ k.client := Nat.ne_of_gt later
    simp only [Function.update_of_ne here, others n here]
    exact wired.unsent n later
  unheard n later := by
    by_cases here : n = k.client
    · subst here
      simp only [Function.update_self, acks]
      exact wired.unheard k.client later
    · simp only [Function.update_of_ne here]
      exact wired.unheard n later
  level := wired.level
  log := wired.log
  appended := whole

/-- The host acts on its own link: it may write and it may report. -/
theorem hostActs (wired : Wired codec k nets) {net : Net InputState}
    {session : HostSession (Bytes × Term)} {acks : List (Nat × UInt64)}
    {drained : Nat → Bytes} (line : Line codec net (k.typed k.host) (drained k.host))
    (others : ∀ n, n ≠ k.host → drained n = k.drained n)
    (tx : net.tx = (nets k.host).tx) (held : net.held = (nets k.host).held)
    (frames : net.frames = (nets k.host).frames)
    (kept : ∀ a ∈ (nets k.host).acks, a ∈ net.acks)
    (told : ∀ p ∈ acks, p ∈ k.acks ∨ p.1 = k.host ∧ p.2 ∈ net.acks)
    (rx : net.rx = session.inputRx)
    (level : session.written = session.inputRx.state.pending.length)
    (log : session.log = some (upTo drained k.host)) :
    Wired codec { k with session := session, acks := acks, drained := drained }
      (Function.update nets k.host net) where
  lines n := by
    by_cases here : n = k.host
    · subst here
      simpa only [Function.update_self] using line
    · simpa only [Function.update_of_ne here, others n here] using wired.lines n
  tx := by
    change (Function.update nets k.host net k.client).tx = k.tx
    rw [← wired.tx]
    by_cases here : k.client = k.host
    · rw [here, Function.update_self]
      exact tx
    · rw [Function.update_of_ne here]
  held := by
    change (Function.update nets k.host net k.client).held = k.held
    rw [← wired.held]
    by_cases here : k.client = k.host
    · rw [here, Function.update_self]
      exact held
    · rw [Function.update_of_ne here]
  rx := by
    rw [Function.update_self]
    exact rx
  frames p member := by
    by_cases here : p.1 = k.host
    · rw [here, Function.update_self, frames]
      exact here ▸ wired.frames p member
    · rw [Function.update_of_ne here]
      exact wired.frames p member
  acks p member := by
    by_cases here : p.1 = k.host
    · rw [here, Function.update_self]
      cases told p member with
      | inl old => exact kept _ (here ▸ wired.acks p old)
      | inr new => exact new.2
    · rw [Function.update_of_ne here]
      cases told p member with
      | inl old => exact wired.acks p old
      | inr new => exact absurd new.1 here
  unsent n later := by
    by_cases here : n = k.host
    · subst here
      simp only [Function.update_self, frames]
      exact wired.unsent k.host later
    · simp only [Function.update_of_ne here]
      exact wired.unsent n later
  unheard n later := by
    have here : n ≠ k.host := Nat.ne_of_gt later
    simp only [Function.update_of_ne here, others n here]
    exact wired.unheard n later
  level := level
  log := log
  appended := wired.appended

theorem append (wired : Wired codec k nets) {bytes : Bytes} (size : TermSize)
    (fits : (k.tx.current.pending ++ bytes).length < 2 ^ 63) :
    ∃ nets', Wired codec
      { k with
        tx := k.tx.update (k.tx.current.append bytes size)
        held := k.held ++ [(k.tx.update (k.tx.current.append bytes size)).current]
        typed := Function.update k.typed k.client (k.typed k.client ++ bytes)
        appended := k.appended ++ bytes } nets' := by
  have line := (wired.lines k.client).append bytes size (wired.tx ▸ fits)
  rw [wired.tx, wired.held,
    ← Function.update_self k.client (k.typed k.client ++ bytes) k.typed] at line
  refine ⟨_, wired.clientActs line (fun n other => Function.update_of_ne other _ _) ?_ rfl rfl
    (fun _ member => member) fun _ member => Or.inl member⟩
  rw [upTo_update, wired.appended]

theorem makeFrame (wired : Wired codec k nets) (ackState : UInt64) {payload : Bytes}
    {flags : UInt8} (encoded : encodeDiff codec k.tx.pendingDiff.1 = .ok (payload, flags)) :
    ∃ nets', Wired codec
      { k with
        tx := { k.tx with lastAckSent := ackState }
        frames := k.frames ++ [(k.client,
          { myState := seq k.tx.current, fromState := k.tx.pendingDiff.2,
            ackState := ackState, flags := flags, payload := payload })] } nets' := by
  have line := (wired.lines k.client).made ackState (wired.tx ▸ encoded)
  rw [wired.tx, wired.held] at line
  refine ⟨_, wired.clientActs line (fun _ _ => rfl) wired.appended rfl rfl
    (fun _ member => List.mem_append_left _ member) ?_⟩
  intro p member
  cases List.mem_append.mp member with
  | inl old => exact Or.inl old
  | inr new =>
      rw [List.mem_singleton.mp new]
      exact Or.inr ⟨rfl, List.mem_append_right _ (List.mem_singleton_self _)⟩

theorem onAck (wired : Wired codec k nets) {a : UInt64} (told : (k.client, a) ∈ k.acks) :
    ∃ nets', Wired codec { k with tx := k.tx.onAck a } nets' := by
  have line := (wired.lines k.client).onAck (wired.acks _ told)
  rw [wired.tx, wired.held] at line
  exact ⟨_, wired.clientActs line (fun _ _ => rfl) wired.appended rfl rfl
    (fun _ member => member) fun _ member => Or.inl member⟩

theorem report (wired : Wired codec k nets) :
    ∃ nets', Wired codec { k with acks := k.acks ++ [(k.host, k.session.inputRx.ack)] } nets' := by
  have line := (wired.lines k.host).report
  rw [wired.rx] at line
  refine ⟨_, wired.hostActs line (fun _ _ => rfl) rfl rfl rfl
    (fun _ member => List.mem_append_left _ member) ?_ rfl wired.level wired.log⟩
  intro p member
  cases List.mem_append.mp member with
  | inl old => exact Or.inl old
  | inr new =>
      rw [List.mem_singleton.mp new]
      exact Or.inr ⟨rfl, List.mem_append_right _ (List.mem_singleton_self _)⟩

theorem mem_arrived {k : Keys Term} {picks : List Nat} {f : Frame} (member : f ∈ k.arrived picks) :
    (k.host, f) ∈ k.frames := by
  obtain ⟨i, -, picked⟩ := List.mem_filterMap.mp member
  obtain ⟨p, found, here⟩ := Option.bind_eq_some_iff.mp picked
  by_cases own : p.1 = k.host
  · rw [if_pos own] at here
    rw [← Option.some.inj here, ← own]
    exact List.mem_of_getElem? found
  · rw [if_neg own] at here
    cases here

theorem arrived_made (wired : Wired codec k nets) (picks : List Nat) {f : Frame}
    (member : f ∈ k.arrived picks) : f ∈ (nets k.host).frames :=
  wired.frames _ (mem_arrived member)

/-- A turn over frames of the link gives the shell what they add. -/
theorem turn (wired : Wired codec k nets) (roundTrips : codec.RoundTrips)
    {codecOut : Codec ScreenDiff} {ops : TermOps Term} {around : Surroundings}
    {frames : List Frame} {t : Turning (Bytes × Term)}
    (members : ∀ f ∈ frames, f ∈ (nets k.host).frames)
    (turned : k.session.turnAt codec codecOut (recorder ops) around frames = (t, .ok ())) :
    ∃ nets', Wired codec (k.after t.session) nets' := by
  obtain ⟨heard, taken, untyped⟩ := turnAt_typed ops turned
  obtain ⟨more, line, log, level⟩ := (wired.lines k.host).takeFrames ops roundTrips members
    wired.rx.symm wired.log wired.level taken
  rw [← untyped.rx] at line level
  rw [← untyped.written] at level
  rw [← untyped.log] at log
  have added : Keys.newlyWritten k.session t.session = more := by
    simp only [Keys.newlyWritten, wired.log, log, Option.getD_some, List.drop_left]
  rw [← added] at line
  rw [← Function.update_self k.host (k.drained k.host ++ Keys.newlyWritten k.session t.session)
    k.drained] at line
  refine ⟨_, wired.hostActs line (fun n other => Function.update_of_ne other _ _) rfl rfl rfl
    (fun _ member => member) (fun _ member => Or.inl member) rfl level ?_⟩
  rw [upTo_update, added]
  exact log

theorem swapIn (wired : Wired codec k nets) {link : Nat} (later : k.client < link)
    (size : TermSize) :
    ∃ nets', Wired codec
      { k with client := link, tx := Sender.new (emptyInput size), held := [emptyInput size] }
      nets' := by
  obtain ⟨unsent, untyped⟩ := wired.unsent link later
  have line := (wired.lines link).swapIn ((wired.lines link).idle unsent) size
  rw [← untyped] at line
  refine ⟨Function.update nets link
    { nets link with
      tx := Sender.new (emptyInput size), held := [emptyInput size], frames := [] }, ?_⟩
  exact
    { lines := fun n => by
        by_cases here : n = link
        · subst here
          rw [Function.update_self]
          exact line
        · rw [Function.update_of_ne here]
          exact wired.lines n
      tx := by simp only [Function.update_self]
      held := by simp only [Function.update_self]
      rx := by
        change (Function.update nets link _ k.host).rx = _
        by_cases here : k.host = link
        · rw [here, Function.update_self, ← wired.rx, here]
        · rw [Function.update_of_ne here]
          exact wired.rx
      frames := fun p member => by
        by_cases here : p.1 = link
        · have made := wired.frames p member
          rw [here, unsent] at made
          cases made
        · rw [Function.update_of_ne here]
          exact wired.frames p member
      acks := fun p member => by
        by_cases here : p.1 = link
        · rw [here, Function.update_self, ← here]
          exact wired.acks p member
        · rw [Function.update_of_ne here]
          exact wired.acks p member
      unsent := fun n after => by
        have here : n ≠ link := Nat.ne_of_gt after
        rw [Function.update_of_ne here]
        exact wired.unsent n (Nat.lt_trans later after)
      unheard := fun n after => by
        by_cases here : n = link
        · subst here
          rw [Function.update_self]
          exact wired.unheard n after
        · rw [Function.update_of_ne here]
          exact wired.unheard n after
      level := wired.level
      log := wired.log
      appended := by
        rw [upTo_extend (Nat.le_of_lt later) fun i after => (wired.unsent i after).2]
        exact wired.appended }

theorem adopt (wired : Wired codec k nets) {link : Nat} (later : k.host < link)
    {size : TermSize} {session : HostSession (Bytes × Term)}
    (rx : session.inputRx = Receiver.new (emptyInput size)) (written : session.written = 0)
    (log : session.log = k.session.log) :
    Wired codec { k with host := link, session := session }
      (Function.update nets link { nets link with rx := Receiver.new (emptyInput size) }) := by
  obtain ⟨unheard, undrained⟩ := wired.unheard link later
  have line := (wired.lines link).adopt unheard size
  rw [← undrained] at line
  exact
    { lines := fun n => by
        by_cases here : n = link
        · subst here
          rw [Function.update_self]
          exact line
        · rw [Function.update_of_ne here]
          exact wired.lines n
      tx := by
        change (Function.update nets link _ k.client).tx = _
        by_cases here : k.client = link
        · rw [here, Function.update_self, ← wired.tx, here]
        · rw [Function.update_of_ne here]
          exact wired.tx
      held := by
        change (Function.update nets link _ k.client).held = _
        by_cases here : k.client = link
        · rw [here, Function.update_self, ← wired.held, here]
        · rw [Function.update_of_ne here]
          exact wired.held
      rx := by rw [Function.update_self, rx]
      frames := fun p member => by
        by_cases here : p.1 = link
        · rw [here, Function.update_self, ← here]
          exact wired.frames p member
        · rw [Function.update_of_ne here]
          exact wired.frames p member
      acks := fun p member => by
        by_cases here : p.1 = link
        · have told := wired.acks p member
          rw [here, unheard] at told
          cases told
        · rw [Function.update_of_ne here]
          exact wired.acks p member
      unsent := fun n after => by
        by_cases here : n = link
        · subst here
          rw [Function.update_self]
          exact wired.unsent n after
        · rw [Function.update_of_ne here]
          exact wired.unsent n after
      unheard := fun n after => by
        have here : n ≠ link := Nat.ne_of_gt after
        rw [Function.update_of_ne here]
        exact wired.unheard n (Nat.lt_trans later after)
      level := by rw [written, rx]; rfl
      log := by
        rw [upTo_extend (Nat.le_of_lt later) fun i after => (wired.unheard i after).2, log]
        exact wired.log
      appended := wired.appended }

variable {codecOut : Codec ScreenDiff} {ops : TermOps Term}

theorem promote (wired : Wired codec k nets) (roundTrips : codec.RoundTrips) {link : Nat}
    (later : k.host < link) {around : Surroundings} {f : Frame} {rest : List Frame}
    {t : Turning (Bytes × Term)} (member : ∀ g ∈ f :: rest, (link, g) ∈ k.frames)
    (promoted :
      k.session.promoteStandby codec codecOut (recorder ops) around f rest = (t, .ok ())) :
    ∃ nets', Wired codec (({ k with host := link } : Keys Term).after t.session) nets' := by
  simp only [HostSession.promoteStandby] at promoted
  split at promoted
  · cases (Prod.mk.inj promoted).2
  · next session _ adopted =>
      obtain ⟨rx, written, log⟩ := HostSession.adoptAs_log ops adopted
      have moved := wired.adopt later rx written log
      have made : ∀ g ∈ f :: rest, g ∈ (Function.update nets link
          { nets link with rx := Receiver.new (emptyInput k.session.size) } link).frames := by
        intro g here
        rw [Function.update_self]
        exact wired.frames _ (member g here)
      have heard := moved.turn roundTrips made promoted
      simp only [Keys.after, Keys.newlyWritten, log] at heard ⊢
      exact heard

theorem step (wired : Wired codec k nets) (roundTrips : codec.RoundTrips) {e : KeyEvent}
    {k' : Keys Term} (fits : k.Fits e) (taken : k.step codec codecOut ops e = some k') :
    ∃ nets', Wired codec k' nets' := by
  cases e with
  | append bytes size =>
      cases taken
      exact wired.append size fits
  | makeFrame ackState =>
      rcases k.tx.makeFrame_cases codec ackState with
        ⟨-, -, made⟩ | ⟨e, made, -⟩ | ⟨payload, flags, -, encoded, made⟩
      · simp only [Keys.step, made, Option.some.injEq] at taken
        exact ⟨nets, taken ▸ wired⟩
      · simp only [Keys.step, made, Option.some.injEq] at taken
        exact ⟨nets, taken ▸ wired⟩
      · simp only [Keys.step, made, Option.some.injEq] at taken
        exact taken ▸ wired.makeFrame ackState encoded
  | turn around picks =>
      obtain ⟨t, survived, rfl⟩ := Option.map_eq_some_iff.mp taken
      exact wired.turn roundTrips (fun _ member => wired.arrived_made picks member)
        (surviving_eq_some.mp survived)
  | report =>
      cases taken
      exact wired.report
  | onAck i =>
      obtain ⟨⟨link, a⟩, found, heard⟩ := Option.bind_eq_some_iff.mp taken
      simp only at heard
      split at heard
      · next here =>
          cases heard
          exact wired.onAck (here ▸ List.mem_of_getElem? found)
      · cases heard
  | swapIn link size =>
      simp only [Keys.step] at taken
      split at taken
      · next later =>
          cases taken
          exact wired.swapIn later size
      · cases taken
  | adopt link size =>
      simp only [Keys.step] at taken
      split at taken
      · next later =>
          obtain ⟨session, survived, rfl⟩ := Option.map_eq_some_iff.mp taken
          obtain ⟨rx, written, log⟩ := HostSession.adoptAs_log ops (surviving_eq_some.mp survived)
          exact ⟨_, wired.adopt later rx written log⟩
      · cases taken
  | promote link around i picks =>
      simp only [Keys.step] at taken
      split at taken
      · next later =>
          obtain ⟨⟨own, f⟩, found, heard⟩ := Option.bind_eq_some_iff.mp taken
          simp only at heard
          split at heard
          · next here =>
              obtain ⟨t, survived, rfl⟩ := Option.map_eq_some_iff.mp heard
              refine wired.promote roundTrips later (fun g member => ?_)
                (surviving_eq_some.mp survived)
              rcases List.mem_cons.mp member with rfl | rest
              · exact here ▸ List.mem_of_getElem? found
              · exact mem_arrived rest
          · cases heard
      · cases taken

/-- What the shell was given is a subsequence of what was appended. -/
theorem log_sublist (wired : Wired codec k nets) :
    (upTo k.drained k.host).Sublist k.appended := by
  have drained : upTo k.drained (max k.host k.client) = upTo k.drained k.host :=
    upTo_extend (Nat.le_max_left _ _) fun i after => (wired.unheard i after).2
  have typed : upTo k.typed (max k.host k.client) = upTo k.typed k.client :=
    upTo_extend (Nat.le_max_right _ _) fun i after => (wired.unsent i after).2
  rw [wired.appended, ← drained, ← typed]
  exact upTo_sublist (fun n => (wired.lines n).drained_typed.sublist) _

end Wired

section
variable {Term : Type} {codecIn : Codec InputDiff} {codecOut : Codec ScreenDiff}
  {ops : TermOps Term}

/-- Whatever the links lose, repeat, reorder or delay and however often they are
replaced, the shell has been given a subsequence of what was appended; of each
link, a prefix of what was appended on it; and all of whatever the client knows
to be acknowledged. -/
theorem keystrokes_reach_the_shell_once (roundTrips : codecIn.RoundTrips)
    (size invented : TermSize) (session : HostSession (Bytes × Term)) (shell : Term)
    {k : Keys Term} (run : Reaches (Keys.step codecIn codecOut ops) Keys.Fits
      (Keys.start size invented session shell) k) :
    (k.session.log = some (upTo k.drained k.host) ∧
        (upTo k.drained k.host).Sublist k.appended) ∧
      (∀ link, k.drained link <+: k.typed link) ∧
      (k.tx.peerSaw ≠ 0 →
        ∃ s ∈ k.held, s.seq = k.tx.peerSaw ∧ s.pending <+: k.drained k.client) ∧
      (k.held.length < 2 ^ 64 → ∀ s ∈ k.held, s.seq ≤ k.tx.peerSaw →
        s.pending <+: k.drained k.client) := by
  obtain ⟨nets, wired⟩ : ∃ nets, Wired codecIn k nets := by
    refine run.invariant (I := fun k => ∃ nets, Wired codecIn k nets) ?_
      ⟨_, Wired.start size invented session shell⟩
    intro before e after wired fits taken
    obtain ⟨nets, wired⟩ := wired
    exact wired.step roundTrips fits taken
  have line := wired.lines k.client
  refine ⟨⟨wired.log, wired.log_sublist⟩, fun n => (wired.lines n).drained_typed, ?_, ?_⟩
  · rw [← wired.held, ← wired.tx]
    exact line.heard
  · rw [← wired.held, ← wired.tx]
    exact fun short s member seen => line.acknowledged short member seen

end

instance {Term : Type} (k : Keys Term) : DecidablePred k.Fits
  | .append bytes _ => inferInstanceAs (Decidable ((k.tx.current.pending ++ bytes).length < _))
  | .makeFrame _ | .turn _ _ | .report | .onAck _ | .swapIn _ _ | .adopt _ _ | .promote _ _ _ _ =>
      .isTrue trivial

def tiny : TermSize := { cols := 1, rows := 1 }

def quietSession : HostSession (Bytes × Unit) :=
  { term := none
    screenTx := Sender.new dot
    inputRx := Receiver.new (emptyInput tiny)
    size := tiny
    written := 0
    screenStale := false }

/-- Typing, a duplicated frame, a lost one, a failover and typing again. -/
def failover : List KeyEvent :=
  [.append [97, 98] tiny, .makeFrame 0, .turn attentive [0, 0], .report, .onAck 0,
    .append [99] tiny, .makeFrame 0, .swapIn 1 tiny, .append [100] tiny,
    .makeFrame 0, .promote 1 attentive 2 [], .report, .onAck 1]

def failedOver : Option (Keys Unit) :=
  runFrom (Keys.step inputCodec screenCodec quietTerm)
    (Keys.start tiny tiny quietSession ()) failover

theorem failedOver_reaches {k : Keys Unit} (run : failedOver = some k) :
    Reaches (Keys.step inputCodec screenCodec quietTerm) Keys.Fits
      (Keys.start tiny tiny quietSession ()) k :=
  reaches_of_runFrom failover (by decide +kernel) run

theorem failedOver_outcome :
    failedOver.map (fun k => (k.session.log, k.appended, k.tx.peerSaw, k.held.length)) =
      some (some [97, 98, 100], [97, 98, 99, 100], 2, 2) := by
  decide +kernel

theorem keystrokes_reach_the_shell_once_failover :
    ∃ k, failedOver = some k ∧ k.session.log = some [97, 98, 100] ∧
      [97, 98, 100].Sublist k.appended ∧ k.appended = [97, 98, 99, 100] ∧
      k.tx.peerSaw = 2 ∧
      ∀ s ∈ k.held, s.seq ≤ k.tx.peerSaw → s.pending <+: k.drained k.client := by
  have outcome := failedOver_outcome
  obtain ⟨k, run, shown⟩ := Option.map_eq_some_iff.mp outcome
  simp only [Prod.mk.injEq] at shown
  obtain ⟨log, appended, seen, count⟩ := shown
  obtain ⟨⟨written, within⟩, -, -, acknowledged⟩ :=
    keystrokes_reach_the_shell_once (storedCodec_roundTrips _) tiny tiny quietSession ()
      (failedOver_reaches run)
  rw [log] at written
  rw [← Option.some.inj written] at within
  exact ⟨k, run, log, within, appended, seen, acknowledged (by rw [count]; decide)⟩

section Trimmed
variable {Term : Type} {ops : TermOps Term} {s drained again : HostSession (Bytes × Term)}
  {log : Bytes} {base target : UInt64} {d : InputDiff} {rx : Receiver InputState}

/-- The mark is a length into a buffer whose front has moved: as many bytes of the new
input are skipped as were trimmed. -/
theorem drainInput_after_apply (first : s.drainInput (recorder ops) = (drained, .ok ()))
    (shell : s.log = some log)
    (applied : InputState.apply drained.inputRx.state base target d = (rx.state, .ok ()))
    (next : HostSession.drainInput (recorder ops) { drained with inputRx := rx } =
      (again, .ok ())) :
    again.log = drained.log.map
      (· ++ d.appended.drop (min d.consumed.toNat drained.inputRx.state.pending.length)) := by
  obtain ⟨same, level, wrote⟩ := HostSession.drainInput_log ops first shell
  obtain ⟨-, state⟩ := input_apply_ok.mp applied
  have marked : HostSession.log { drained with inputRx := rx } =
      some (log ++ s.inputRx.state.pending.drop s.written) := wrote
  obtain ⟨-, -, more⟩ := HostSession.drainInput_log ops next marked
  rw [more, wrote, Option.map_some, state]
  simp only [level, ← same]
  have short := Nat.min_le_right d.consumed.toNat drained.inputRx.state.pending.length
  generalize min d.consumed.toNat drained.inputRx.state.pending.length = k at *
  rw [List.drop_append, List.drop_drop, List.length_drop]
  have front : drained.inputRx.state.pending.drop
      (k + drained.inputRx.state.pending.length) = [] :=
    List.drop_eq_nil_of_le (Nat.le_add_left _ _)
  have back : drained.inputRx.state.pending.length -
      (drained.inputRx.state.pending.length - k) = k := by
    omega
  rw [front, back, List.nil_append]

/-- What was appended reaches the shell whole exactly when nothing was trimmed, by a
diff or by a full state, or nothing was appended. -/
theorem trimmed_input_is_written_iff (first : s.drainInput (recorder ops) = (drained, .ok ()))
    (shell : s.log = some log)
    (applied : InputState.apply drained.inputRx.state base target d = (rx.state, .ok ()))
    (next : HostSession.drainInput (recorder ops) { drained with inputRx := rx } =
      (again, .ok ())) :
    again.log = drained.log.map (· ++ d.appended) ↔
      min d.consumed.toNat drained.inputRx.state.pending.length = 0 ∨ d.appended = [] := by
  obtain ⟨-, -, wrote⟩ := HostSession.drainInput_log ops first shell
  rw [drainInput_after_apply first shell applied next, wrote]
  simp only [Option.map_some, Option.some.injEq, List.append_cancel_left_eq]
  constructor
  · intro whole
    have lengths := congrArg List.length whole
    rw [List.length_drop] at lengths
    by_cases none_ : d.appended = []
    · exact Or.inr none_
    · have some_ := List.length_pos_iff.mpr none_
      exact Or.inl (by omega)
  · rintro (kept | none_)
    · rw [kept, List.drop_zero]
    · rw [none_, List.drop_nil]

/-- A shell, and two bytes typed and not yet written. -/
def typedTwo : HostSession (Bytes × Unit) :=
  { quietSession with
    term := some ([], ())
    inputRx := Receiver.new { seq := 1, pending := [97, 98], size := tiny } }

def typedTwoDrained : HostSession (Bytes × Unit) :=
  { typedTwo with term := some ([97, 98], ()), written := 2 }

def heldInput (pending : Bytes) : Receiver InputState :=
  Receiver.new { seq := 2, pending := pending, size := tiny }

theorem trimmed_input_is_written_iff_untrimmed :
    (HostSession.drainInput (recorder quietTerm)
      { typedTwoDrained with inputRx := heldInput [97, 98, 99] }).1.log = some [97, 98, 99] := by
  have whole := (@trimmed_input_is_written_iff Unit quietTerm typedTwo typedTwoDrained _ [] 1 2
    { consumed := 0, appended := [99], size := none } (heldInput [97, 98, 99]) rfl rfl rfl
    rfl).mpr (Or.inl rfl)
  exact whole

/-- Both bytes trimmed and two others appended: neither is written. -/
theorem trimmed_input_is_skipped :
    typedTwo.drainInput (recorder quietTerm) = (typedTwoDrained, .ok ()) ∧
    InputState.apply typedTwoDrained.inputRx.state 1 2
      { consumed := 2, appended := [120, 121], size := none } =
        ((heldInput [120, 121]).state, .ok ()) ∧
    (HostSession.drainInput (recorder quietTerm)
      { typedTwoDrained with inputRx := heldInput [120, 121] }).1.log = some [97, 98] :=
  ⟨rfl, rfl, rfl⟩

end Trimmed

end Oxutrm.Host
