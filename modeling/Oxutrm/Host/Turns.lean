import Oxutrm.Host.Session
import Oxutrm.Sync.Laws

/-!
What a turn does to a session whose pty works: one lemma for each stage. Only
`honourSize` can fail, and only on a size outside the bounds.
-/
namespace Oxutrm.Host
open Proto Sync

variable {Term : Type} {ops : TermOps Term}

theorem surviving_eq_some {α : Type} {r : α × Except HostError Unit} {a : α} :
    surviving r = some a ↔ r = (a, .ok ()) := by
  obtain ⟨b, result⟩ := r
  cases result with
  | error e => simp [surviving]
  | ok u => simp [surviving]

theorem lobbyScreen_ok {size : TermSize} (bounds : size.checkBounds = .ok ())
    (last : ScreenState) : ∃ screen, lobbyScreen size last = .ok screen := by
  have made : ScreenState.blank size.rows size.cols = .ok _ := ScreenState.blank_ok bounds
  simp only [lobbyScreen, made]
  exact ⟨_, rfl⟩

namespace HostSession

theorem drainInput_works (works : ops.Works) (s : HostSession Term) :
    ∃ term written, s.drainInput ops = ({ s with term := term, written := written }, .ok ()) ∧
      term.isSome = s.term.isSome := by
  simp only [drainInput]
  generalize (if s.written > s.inputRx.state.pending.length then s.inputRx.state.pending.length
    else s.written) = written
  by_cases behind : written < s.inputRx.state.pending.length
  · simp only [behind, if_true]
    cases held : s.term with
    | none => exact ⟨none, s.inputRx.state.pending.length, rfl, rfl⟩
    | some term =>
        obtain ⟨term', wrote⟩ := works.writeInput term (s.inputRx.state.pending.drop written)
        simp only [wrote]
        exact ⟨some term', s.inputRx.state.pending.length, rfl, rfl⟩
  · simp only [behind, if_false]
    exact ⟨s.term, written, rfl, rfl⟩

theorem resize_works (works : ops.Works) (s : HostSession Term) {size : TermSize}
    (bounds : size.checkBounds = .ok ()) :
    ∃ term tx, s.resize ops size =
      ({ s with term := term, screenTx := tx, size := size }, .ok ()) := by
  by_cases same : size = s.size
  · exact ⟨s.term, s.screenTx, by simp only [resize, same, if_true]⟩
  · cases held : s.term with
    | none =>
        obtain ⟨screen, made⟩ := lobbyScreen_ok bounds s.screenTx.current
        exact ⟨none, s.screenTx.update screen, by
          simp only [resize, same, if_false, held, made]⟩
    | some term =>
        obtain ⟨term', resized⟩ := works.ptyResize term size
        exact ⟨some term', s.screenTx, by
          simp only [resize, same, if_false, held, TermOps.resize, bounds, resized]⟩

theorem adoptAs_works (works : ops.Works) (s : HostSession Term) {size : TermSize}
    (bounds : size.checkBounds = .ok ()) :
    ∃ term tx, s.adoptAs ops size =
      ({ s with term := term, screenTx := tx, inputRx := Receiver.new (emptyInput size),
                size := size, written := 0, screenStale := true }, .ok ()) := by
  obtain ⟨term, tx, resized⟩ := s.resize_works works bounds
  have blank : ScreenState.blank size.rows size.cols = .ok _ := ScreenState.blank_ok bounds
  cases term with
  | none =>
      obtain ⟨screen, made⟩ := lobbyScreen_ok bounds tx.current
      simp only [adoptAs, resized, andThen, made, Except.map, blank]
      exact ⟨_, _, rfl⟩
  | some term =>
      simp only [adoptAs, resized, andThen, blank]
      exact ⟨_, _, rfl⟩

theorem becomeLobby_works (ops : TermOps Term) (s : HostSession Term)
    (bounds : s.size.checkBounds = .ok ()) :
    ∃ tx, s.becomeLobby ops =
      ({ s with term := none, screenTx := tx, screenStale := false }, .ok ()) := by
  obtain ⟨screen, made⟩ := lobbyScreen_ok bounds (s.lastScreen ops)
  simp only [becomeLobby, made]
  exact ⟨_, rfl⟩

end HostSession

namespace Turning

theorem takeFrame_works (works : ops.Works) (codec : Codec InputDiff) (t : Turning Term) (f : Frame) :
    ∃ t', t.takeFrame codec ops f = (t', .ok ()) ∧
      t'.session.inputRx = (t.session.inputRx.onFrame codec f).1 ∧
      t'.session.size = t.session.size := by
  rcases made : t.session.inputRx.onFrame codec f with ⟨rx, result⟩
  cases result with
  | error e =>
      simp only [takeFrame, made]
      exact ⟨_, rfl, rfl, rfl⟩
  | ok advanced =>
      cases advanced with
      | false =>
          simp only [takeFrame, made]
          exact ⟨_, rfl, rfl, rfl⟩
      | true =>
          obtain ⟨term, written, drained, -⟩ :=
            HostSession.drainInput_works works { t.session with inputRx := rx }
          simp only [takeFrame, made, onSession, drained]
          exact ⟨_, rfl, rfl, rfl⟩

theorem takeFrames_works (works : ops.Works) (codec : Codec InputDiff) (t : Turning Term) (frames : List Frame) :
    ∃ t', t.takeFrames codec ops frames = (t', .ok ()) ∧
      t'.session.inputRx = t.session.inputRx.hear codec frames ∧
      t'.session.size = t.session.size := by
  induction frames generalizing t with
  | nil => exact ⟨t, rfl, rfl, rfl⟩
  | cons f frames ih =>
      obtain ⟨t₁, taken, rx₁, size₁⟩ := takeFrame_works works codec t f
      obtain ⟨t₂, rest, rx₂, size₂⟩ := ih t₁
      refine ⟨t₂, ?_, ?_, size₂.trans size₁⟩
      · simp only [takeFrames, andThen_ok]
        exact ⟨t₁, taken, rest⟩
      · rw [rx₂, rx₁]
        rfl

theorem deliverClipboard_frame (ops : TermOps Term) (t : Turning Term) :
    (t.deliverClipboard ops).session.inputRx = t.session.inputRx ∧
      (t.deliverClipboard ops).session.size = t.session.size := by
  simp only [deliverClipboard]
  split
  · split
    · exact ⟨rfl, rfl⟩
    · exact ⟨rfl, rfl⟩
  · exact ⟨rfl, rfl⟩

/-- The size the session has after the client's wish has been looked at. -/
def settled (size wanted : TermSize) : TermSize :=
  if wanted ≠ size ∧ wanted.cols > 0 ∧ wanted.rows > 0 then wanted else size

theorem honourSize_works (works : ops.Works) (t : Turning Term)
    (bounds : t.session.inputRx.state.size.cols > 0 → t.session.inputRx.state.size.rows > 0 →
      t.session.inputRx.state.size.checkBounds = .ok ()) :
    ∃ t', t.honourSize ops = (t', .ok ()) ∧ t'.session.inputRx = t.session.inputRx ∧
      t'.session.size = settled t.session.size t.session.inputRx.state.size := by
  by_cases wish : t.session.inputRx.state.size ≠ t.session.size ∧
      t.session.inputRx.state.size.cols > 0 ∧ t.session.inputRx.state.size.rows > 0
  · obtain ⟨term, tx, resized⟩ :=
      HostSession.resize_works works t.session (bounds wish.2.1 wish.2.2)
    simp only [honourSize, settled, wish, ne_eq, not_false_eq_true, and_self, if_true, onSession,
      resized]
    exact ⟨_, rfl, rfl, rfl⟩
  · exact ⟨t, by simp only [honourSize, wish, if_false], rfl, by
      simp only [settled, wish, if_false]⟩

theorem pollTerm_works (works : ops.Works) (around : Surroundings) (t : Turning Term) :
    ∃ t', t.pollTerm ops around = (t', .ok ()) ∧ t'.session.inputRx = t.session.inputRx ∧
      t'.session.size = t.session.size := by
  cases held : t.session.term with
  | none => exact ⟨t, by simp only [pollTerm, held], rfl, rfl⟩
  | some term =>
      obtain ⟨term', moved, polled⟩ := works.poll term
      simp only [pollTerm, held, polled]
      split
      · split
        · exact ⟨_, rfl, rfl, rfl⟩
        · exact ⟨_, rfl, rfl, rfl⟩
      · exact ⟨_, rfl, rfl, rfl⟩

end Turning

/-- A turn succeeds as long as the size the frames leave wanted is one the host
can take on; it leaves the receiver with the frames and the session with that
size. -/
theorem turnAt_works (works : ops.Works) (codecIn : Codec InputDiff)
    (codecOut : Codec ScreenDiff) (around : Surroundings) (s : HostSession Term)
    (frames : List Frame)
    (bounds : (s.inputRx.hear codecIn frames).state.size.cols > 0 →
      (s.inputRx.hear codecIn frames).state.size.rows > 0 →
      (s.inputRx.hear codecIn frames).state.size.checkBounds = .ok ()) :
    ∃ t, s.turnAt codecIn codecOut ops around frames = (t, .ok ()) ∧
      t.session.inputRx = s.inputRx.hear codecIn frames ∧
      t.session.size = Turning.settled s.size (s.inputRx.hear codecIn frames).state.size := by
  obtain ⟨t₁, taken, rx₁, size₁⟩ :=
    Turning.takeFrames_works works codecIn { session := s } frames
  obtain ⟨rx₂, size₂⟩ := Turning.deliverClipboard_frame ops t₁
  have wanted : (t₁.deliverClipboard ops).session.inputRx = s.inputRx.hear codecIn frames :=
    rx₂.trans rx₁
  obtain ⟨t₃, honoured, rx₃, size₃⟩ := (t₁.deliverClipboard ops).honourSize_works works
    (by rw [wanted]; exact bounds)
  obtain ⟨t₄, polled, rx₄, size₄⟩ := t₃.pollTerm_works works around
  refine ⟨t₄.finish codecOut ops around, ?_, ?_, ?_⟩
  · simp only [HostSession.turnAt, andThen_ok]
    exact ⟨t₁, taken, t₃, honoured, t₄, polled, rfl⟩
  · change t₄.session.inputRx = _
    rw [rx₄, rx₃, wanted]
  · change t₄.session.size = _
    rw [size₄, size₃, wanted, size₂, size₁]

end Oxutrm.Host
