import Oxutrm.Host.Turns

/-!
A terminal that also remembers every byte written to it. Only `drainInput`
writes: every other stage of a turn leaves the log, the receiver and the mark
of what has been written as they were.
-/
namespace Oxutrm.Host
open Proto Sync

variable {Term : Type}

def recorder (ops : TermOps Term) : TermOps (Bytes × Term) where
  writeInput t bytes := (ops.writeInput t.2 bytes).map fun u => (t.1 ++ bytes, u)
  ptyResize t size := (ops.ptyResize t.2 size).map fun u => (t.1, u)
  poll t := (ops.poll t.2).map fun r => ((t.1, r.1), r.2)
  snapshot t seq := ((t.1, (ops.snapshot t.2 seq).1), (ops.snapshot t.2 seq).2)
  clipboardDelivered t serial :=
    ((t.1, (ops.clipboardDelivered t.2 serial).1), (ops.clipboardDelivered t.2 serial).2)
  childExited t := ((t.1, (ops.childExited t.2).1), (ops.childExited t.2).2)

/-- What the shell has been given; there is none without a shell. -/
def HostSession.log (s : HostSession (Bytes × Term)) : Option Bytes := s.term.map Prod.fst

/-- Nothing of the input side moved. -/
structure Untyped (s s' : HostSession (Bytes × Term)) : Prop where
  rx : s'.inputRx = s.inputRx
  written : s'.written = s.written
  log : s'.log = s.log

namespace Untyped
variable {s s' s'' : HostSession (Bytes × Term)}

theorem refl (s : HostSession (Bytes × Term)) : Untyped s s := ⟨rfl, rfl, rfl⟩

theorem trans (first : Untyped s s') (second : Untyped s' s'') : Untyped s s'' :=
  ⟨second.rx.trans first.rx, second.written.trans first.written, second.log.trans first.log⟩

end Untyped

variable (ops : TermOps Term)

namespace HostSession

theorem resize_untyped (s : HostSession (Bytes × Term)) (size : TermSize) :
    Untyped s (s.resize (recorder ops) size).1 := by
  simp only [resize]
  by_cases same : size = s.size
  · simp only [same, if_true]
    exact Untyped.refl s
  · simp only [same, if_false]
    cases held : s.term with
    | none =>
        cases lobbyScreen size s.screenTx.current with
        | error e => exact Untyped.refl s
        | ok blank => exact ⟨rfl, rfl, by simp only [log, held]⟩
    | some term =>
        simp only [TermOps.resize, recorder]
        cases size.checkBounds with
        | error e => exact Untyped.refl s
        | ok _ =>
            cases ops.ptyResize term.2 size with
            | error why => exact Untyped.refl s
            | ok term' => exact ⟨rfl, rfl, by simp only [log, held]; rfl⟩

/-- Only what lies past the mark is written, and the mark moves to the end. -/
theorem drainInput_log {s s' : HostSession (Bytes × Term)} {log : Bytes}
    (drained : s.drainInput (recorder ops) = (s', .ok ())) (shell : s.log = some log) :
    s'.inputRx = s.inputRx ∧ s'.written = s.inputRx.state.pending.length ∧
      s'.log = some (log ++ s.inputRx.state.pending.drop s.written) := by
  obtain ⟨term, held, rfl⟩ := Option.map_eq_some_iff.mp shell
  simp only [drainInput, held, recorder] at drained
  by_cases past : s.written > s.inputRx.state.pending.length
  · simp only [past, if_true, Nat.lt_irrefl, if_false, Prod.mk.injEq, and_true] at drained
    subst drained
    refine ⟨rfl, rfl, ?_⟩
    rw [List.drop_eq_nil_of_le (Nat.le_of_lt past), List.append_nil]
    rfl
  · simp only [past, if_false] at drained
    by_cases behind : s.written < s.inputRx.state.pending.length
    · simp only [behind, if_true] at drained
      cases wrote : ops.writeInput term.2 (s.inputRx.state.pending.drop s.written) with
      | error why =>
          rw [wrote] at drained
          cases (Prod.mk.inj drained).2
      | ok term' =>
          rw [wrote] at drained
          obtain ⟨rfl, -⟩ := Prod.mk.inj drained
          exact ⟨rfl, rfl, rfl⟩
    · simp only [behind, if_false, Prod.mk.injEq, and_true] at drained
      subst drained
      have level : s.written = s.inputRx.state.pending.length := by omega
      refine ⟨rfl, level, ?_⟩
      rw [level, List.drop_length, List.append_nil]
      rfl

theorem adoptAs_log {s s' : HostSession (Bytes × Term)} {size : TermSize}
    (adopted : s.adoptAs (recorder ops) size = (s', .ok ())) :
    s'.inputRx = Receiver.new (emptyInput size) ∧ s'.written = 0 ∧ s'.log = s.log := by
  have resized := s.resize_untyped ops size
  simp only [adoptAs, andThen_ok] at adopted
  obtain ⟨t, done, rest⟩ := adopted
  rw [done] at resized
  have same := resized.log
  split at rest
  · cases (Prod.mk.inj rest).2
  · split at rest
    · cases (Prod.mk.inj rest).2
    · obtain ⟨rfl, -⟩ := Prod.mk.inj rest
      exact ⟨rfl, rfl, same⟩

end HostSession

namespace Turning

theorem deliverClipboard_untyped (t : Turning (Bytes × Term)) :
    Untyped t.session (t.deliverClipboard (recorder ops)).session := by
  simp only [deliverClipboard]
  split
  · next term acked held found =>
      change t.session.term = some term at held
      split
      · exact ⟨rfl, rfl, by simp only [HostSession.log, held]; rfl⟩
      · exact ⟨rfl, rfl, rfl⟩
  · exact ⟨rfl, rfl, rfl⟩

theorem honourSize_untyped (t : Turning (Bytes × Term)) :
    Untyped t.session (t.honourSize (recorder ops)).1.session := by
  simp only [honourSize]
  split
  · exact t.session.resize_untyped ops _
  · exact Untyped.refl _

theorem pollTerm_untyped (t : Turning (Bytes × Term)) (around : Surroundings) :
    Untyped t.session (t.pollTerm (recorder ops) around).1.session := by
  simp only [pollTerm]
  cases held : t.session.term with
  | none => exact Untyped.refl _
  | some term =>
      simp only [recorder]
      cases ops.poll term.2 with
      | error why => exact Untyped.refl _
      | ok polled =>
          simp only [Except.map]
          split
          · split
            · exact ⟨rfl, rfl, by simp only [HostSession.log, held]; rfl⟩
            · exact ⟨rfl, rfl, by simp only [HostSession.log, held]; rfl⟩
          · exact ⟨rfl, rfl, by simp only [HostSession.log, held]; rfl⟩

theorem finish_untyped (codec : Codec ScreenDiff) (t : Turning (Bytes × Term))
    (around : Surroundings) :
    Untyped t.session (t.finish codec (recorder ops) around).session := by
  refine ⟨rfl, rfl, ?_⟩
  simp only [finish, HostSession.log]
  cases t.session.term with
  | none => rfl
  | some term => rfl

/-- Of a session that has written all it holds, a frame writes what it adds. -/
theorem takeFrame_typed {codec : Codec InputDiff} {t t' : Turning (Bytes × Term)} {f : Frame}
    {log : Bytes} (taken : t.takeFrame codec (recorder ops) f = (t', .ok ()))
    (shell : t.session.log = some log)
    (level : t.session.written = t.session.inputRx.state.pending.length) :
    t'.session.inputRx = (t.session.inputRx.onFrame codec f).1 ∧
      t'.session.written = t'.session.inputRx.state.pending.length ∧
      t'.session.log = some (log ++
        t'.session.inputRx.state.pending.drop t.session.inputRx.state.pending.length) := by
  rcases t.session.inputRx.onFrame_cases codec f with
    ⟨-, result⟩ | ⟨e, -, -, result⟩ | ⟨next, -, -, result⟩
  · simp only [takeFrame, result, Prod.mk.injEq, and_true] at taken
    subst taken
    refine ⟨by rw [result], level, ?_⟩
    rw [Receiver.hearAck_state, List.drop_length, List.append_nil]
    exact shell
  · simp only [takeFrame, result, Prod.mk.injEq, and_true] at taken
    subst taken
    refine ⟨by rw [result], level, ?_⟩
    rw [Receiver.hearAck_state, List.drop_length, List.append_nil]
    exact shell
  · simp only [takeFrame, result, onSession] at taken
    obtain ⟨rfl, drained⟩ := Prod.mk.inj taken
    obtain ⟨rx, written, given⟩ := HostSession.drainInput_log ops
      (Prod.ext rfl drained) (show HostSession.log _ = some log from shell)
    refine ⟨by rw [result]; exact rx, by rw [written, rx], ?_⟩
    rw [given, rx, level]

end Turning

theorem turnAt_typed {codecIn : Codec InputDiff} {codecOut : Codec ScreenDiff}
    {around : Surroundings} {s : HostSession (Bytes × Term)} {frames : List Frame}
    {t : Turning (Bytes × Term)}
    (turned : s.turnAt codecIn codecOut (recorder ops) around frames = (t, .ok ())) :
    ∃ heard : Turning (Bytes × Term),
      Turning.takeFrames codecIn (recorder ops) { session := s } frames = (heard, .ok ()) ∧
      Untyped heard.session t.session := by
  simp only [HostSession.turnAt, andThen_ok] at turned
  obtain ⟨heard, taken, sized, honoured, polled, drained, rest⟩ := turned
  obtain ⟨rfl, -⟩ := Prod.mk.inj rest
  have first := heard.deliverClipboard_untyped ops
  have second := (heard.deliverClipboard (recorder ops)).honourSize_untyped ops
  have third := sized.pollTerm_untyped ops around
  rw [honoured] at second
  rw [drained] at third
  exact ⟨heard, taken,
    first.trans (second.trans (third.trans (polled.finish_untyped ops codecOut around)))⟩

end Oxutrm.Host
