import Oxutrm.Client.Rebuild

/-!
What the client knows about where it is: the session its identity names, whether
that is a lobby, where a rebuild would go, and the links it holds. A link is
named by the session, or the lobby, it leads to.
-/
namespace Oxutrm.Client

/-- What came of a switcher request. -/
inductive Answered (Id : Type) where
  | sessions
  | landed (established : Id)
  | started (id : Id)
  | killed (id : Id)
  | renamed
  | failed (why : String)
  deriving DecidableEq, Repr

def Answered.isStarted {Id : Type} : Answered Id → Bool
  | .started _ => true
  | .sessions | .landed _ | .killed _ | .renamed | .failed _ => false

structure ClientSession (Id : Type) where
  link : Id
  standby : Option Id
  sessionId : Id
  inLobby : Bool
  rebuild : Rebuild Id

namespace ClientSession
variable {Id : Type}

/-- Where the client is, as a rebuild sees it. -/
def whereabouts (s : ClientSession Id) : Aim Id :=
  if s.inLobby then .lobby else .session s.sessionId

/-- Point a rebuild at where the client now is. -/
def aimRebuild [DecidableEq Id] (s : ClientSession Id) : ClientSession Id :=
  { s with rebuild := s.rebuild.retarget s.whereabouts }

/-- The displacement latch is not cleared here. -/
def swapInAs (s : ClientSession Id) (link : Id) : ClientSession Id := { s with link := link }

/-- A rebuilt link: the latch is cleared and the standby forgotten. -/
def swapIn (s : ClientSession Id) (link : Id) : ClientSession Id :=
  { s.swapInAs link with rebuild := s.rebuild.swapped, standby := none }

/-- Move to the session a switch reached. -/
def moved [DecidableEq Id] (s : ClientSession Id) (established : Id) : ClientSession Id :=
  aimRebuild
    { swapInAs { s with rebuild := s.rebuild.stoodDown } established with
      standby := none
      inLobby := false
      sessionId := established }

/-- True when the loop must follow a change of link or standby. -/
def takeAnswer [DecidableEq Id] (s : ClientSession Id) : Answered Id → ClientSession Id × Bool
  | .landed established => (s.moved established, true)
  | .started id => (aimRebuild { s with inLobby := false, sessionId := id }, false)
  | .killed id =>
      if id ≠ s.sessionId then (s, false)
      else ({ aimRebuild { s with inLobby := true } with standby := none }, true)
  | .sessions | .renamed | .failed _ => (s, false)

/-- From a lobby a rebuild lands in a fresh one, with an id of its own. -/
def rebuildLanded (s : ClientSession Id) (established : Id) : ClientSession Id :=
  let s := s.swapIn established
  if s.inLobby then { s with sessionId := established } else s

def rebuildReported (s : ClientSession Id) (report : Report Id) :
    ClientSession Id × Except String Bool :=
  match s.rebuild.accept report with
  | (rebuild, none) => ({ s with rebuild := rebuild }, .ok false)
  | (rebuild, some (.landed established)) =>
      (rebuildLanded { s with rebuild := rebuild } established, .ok true)
  | (rebuild, some (.retry _)) => ({ s with rebuild := rebuild }, .ok false)
  | (rebuild, some (.definite why)) =>
      ({ s with rebuild := rebuild }, .error ("this session cannot be resumed: " ++ why))

/-- Swap the standby in for a primary that stopped answering. -/
def failOver (s : ClientSession Id) : ClientSession Id × Bool :=
  match s.standby with
  | none => (s, false)
  | some standby =>
      match s.rebuild.makeWay with
      | (rebuild, false) => ({ s with rebuild := rebuild }, false)
      | (rebuild, true) =>
          (swapInAs { s with rebuild := rebuild, standby := none } standby, true)

/-- A report is dropped or noted, or it lands, or it ends the session. -/
theorem rebuildReported_cases (s : ClientSession Id) (report : Report Id) :
    s.rebuildReported report =
        ({ s with rebuild := (s.rebuild.accept report).1 }, .ok false) ∨
      (∃ e, report.outcome = .landed e ∧ s.rebuildReported report =
        (rebuildLanded { s with rebuild := (s.rebuild.accept report).1 } e, .ok true)) ∨
      ∃ session why, s.rebuildReported report = (session, .error why) := by
  have landing : ∀ e, (s.rebuild.accept report).2 = some (.landed e) →
      report.outcome = .landed e := fun _ => Rebuild.accept_landed
  cases given : s.rebuild.accept report with
  | mk rebuild handed =>
      rw [given] at landing
      cases handed with
      | none => exact Or.inl (by simp only [rebuildReported, given])
      | some outcome =>
          cases outcome with
          | landed e =>
              exact Or.inr (Or.inl ⟨e, landing e rfl, by simp only [rebuildReported, given]⟩)
          | retry why => exact Or.inl (by simp only [rebuildReported, given])
          | definite why =>
              exact Or.inr (Or.inr ⟨{ s with rebuild := rebuild },
                "this session cannot be resumed: " ++ why, by
                  simp only [rebuildReported, given]⟩)

/-- A failover is refused, or the standby takes the place of the link. -/
theorem failOver_cases (s : ClientSession Id) :
    s.failOver = (s, false) ∨ s.failOver = ({ s with rebuild := s.rebuild.makeWay.1 }, false) ∨
      ∃ standby, s.standby = some standby ∧ s.failOver =
        ({ s with rebuild := s.rebuild.makeWay.1, standby := none, link := standby }, true) := by
  cases held : s.standby with
  | none => exact Or.inl (by simp only [failOver, held])
  | some standby =>
      cases given : s.rebuild.makeWay with
      | mk rebuild made =>
          cases made with
          | false => exact Or.inr (Or.inl (by simp only [failOver, held, given]))
          | true =>
              exact Or.inr (Or.inr ⟨standby, rfl, by simp only [failOver, held, given, swapInAs]⟩)

section
variable [DecidableEq Id] (s : ClientSession Id)

theorem takeAnswer_killed_other {id : Id} (other : id ≠ s.sessionId) :
    s.takeAnswer (.killed id) = (s, false) := if_pos other

theorem takeAnswer_killed_here :
    s.takeAnswer (.killed s.sessionId) =
      ({ aimRebuild { s with inLobby := true } with standby := none }, true) :=
  if_neg (not_not.mpr rfl)

end
end ClientSession
end Oxutrm.Client
