import Oxutrm.Client.Standby

/-!
Whether the host is still answering, and what was typed while it was not. Every
function takes the current instant.
-/
namespace Oxutrm.Client

def silentAfter : Nat := seconds 2

def rebuildAfter : Nat := seconds 20

def heartbeatIdle : Nat := seconds 5

/-- How much blind typing is kept. -/
def maxHeld : Nat := 64 * 1024

/-- The delay that belongs to an attempt: 1, 2, 4, 8, and 8 for ever after. -/
def backoff (attempt : UInt32) : Nat := seconds (2 ^ min attempt.toNat 3)

/-- `u32::saturating_add(1)`. -/
def nextAttempt (attempt : UInt32) : UInt32 :=
  if attempt.toNat + 1 < 2 ^ 32 then attempt + 1 else attempt

def Phase.isRecovering : Phase → Bool
  | .recovering _ _ => true
  | .live | .silent _ | .confirming => false

structure LinkState where
  phase : Phase
  lastHeard : Instant
  owedSince : Option Instant
  lastSent : Instant
  held : List UInt8
  silentAfter : Nat
  rebuildAfter : Nat

namespace LinkState

def new (now : Instant) : LinkState where
  phase := .live
  lastHeard := now
  owedSince := none
  lastSent := now
  held := []
  silentAfter := Client.silentAfter
  rebuildAfter := Client.rebuildAfter

def retune (s : LinkState) (silentAfter rebuildAfter : Nat) : LinkState :=
  { s with silentAfter := silentAfter, rebuildAfter := rebuildAfter }

/-- Coming back with something typed blind is a question, not a resumption. -/
def heard (s : LinkState) (now : Instant) : LinkState :=
  { s with
    lastHeard := now
    owedSince := none
    phase := if s.held.isEmpty then .live else .confirming }

def sent (s : LinkState) (now : Instant) : LinkState := { s with lastSent := now }

def heartbeatDue (s : LinkState) (now : Instant) : Bool :=
  decide (now - max s.lastHeard s.lastSent ≥ heartbeatIdle)

/-- When the reply now owed began to be owed. -/
def owing (s : LinkState) (now : Instant) (replyOwed : Bool) : Option Instant :=
  match replyOwed, s.owedSince with
  | true, none => some now
  | false, _ => none
  | true, some since => some since

/-- One lap's worth of judgement. -/
def evaluate (s : LinkState) (now : Instant) (replyOwed : Bool) : LinkState :=
  match s.phase with
  | .recovering _ _ => s
  | .silent since =>
      if now - since ≥ s.rebuildAfter then { s with phase := .recovering 0 now } else s
  | .live | .confirming =>
      let s := { s with owedSince := s.owing now replyOwed }
      if s.owedSince.any fun since => decide (now - since ≥ s.silentAfter) then
        { s with phase := .silent s.lastHeard }
      else s

def beginAttempt (s : LinkState) (now : Instant) : LinkState :=
  match s.phase with
  | .recovering attempt _ => { s with phase := .recovering attempt (now + backoff attempt) }
  | .live | .silent _ | .confirming => s

/-- A link is in place, but nothing has arrived on it yet. -/
def rebuilt (s : LinkState) (now : Instant) : LinkState :=
  match s.phase with
  | .recovering _ _ => { s with phase := .recovering 0 (now + backoff 0) }
  | .live | .silent _ | .confirming => s

def attemptFailed (s : LinkState) (now : Instant) : LinkState :=
  match s.phase with
  | .recovering attempt _ =>
      { s with phase := .recovering (nextAttempt attempt) (now + backoff (nextAttempt attempt)) }
  | .live | .silent _ | .confirming => s

def heldIsFull (s : LinkState) : Bool := decide (s.held.length ≥ maxHeld)

/-- Deliver the held input, emptying the buffer. -/
def takeHeld (s : LinkState) : LinkState × List UInt8 :=
  ({ s with phase := .live, held := [] }, s.held)

def dropHeld (s : LinkState) : LinkState := { s with phase := .live, held := [] }

/-- Beyond `maxHeld` the buffer stops accepting; it never drops the oldest. -/
def holdKeys (s : LinkState) (bytes : List UInt8) : LinkState :=
  { s with held := s.held ++ bytes.take (min bytes.length (maxHeld - s.held.length)) }

end LinkState

theorem toNat_nextAttempt (attempt : UInt32) :
    (nextAttempt attempt).toNat = min (attempt.toNat + 1) (2 ^ 32 - 1) := by
  have bound := attempt.toNat_lt
  by_cases room : attempt.toNat + 1 < 2 ^ 32
  · simp only [nextAttempt, room, if_true, UInt32.toNat_add, UInt32.toNat_one]
    omega
  · simp only [nextAttempt, room, if_false]
    omega

namespace LinkState

theorem evaluate_cases (s : LinkState) (now : Instant) (replyOwed : Bool) :
    s.evaluate now replyOwed = s ∨
      (∃ since, s.phase = .silent since ∧ now - since ≥ s.rebuildAfter ∧
        s.evaluate now replyOwed = { s with phase := .recovering 0 now }) ∨
      ((s.phase = .live ∨ s.phase = .confirming) ∧
        (s.evaluate now replyOwed = { s with owedSince := s.owing now replyOwed } ∨
          s.evaluate now replyOwed =
            { s with owedSince := s.owing now replyOwed, phase := .silent s.lastHeard })) := by
  have calm : (s.phase = .live ∨ s.phase = .confirming) →
      s.evaluate now replyOwed = { s with owedSince := s.owing now replyOwed } ∨
        s.evaluate now replyOwed =
          { s with owedSince := s.owing now replyOwed, phase := .silent s.lastHeard } := by
    intro calm
    cases calm with
    | inl live =>
        simp only [evaluate, live]
        split
        · exact Or.inr rfl
        · exact Or.inl rfl
    | inr confirming =>
        simp only [evaluate, confirming]
        split
        · exact Or.inr rfl
        · exact Or.inl rfl
  cases standing : s.phase with
  | recovering attempt nextTry => exact Or.inl (by simp only [evaluate, standing])
  | silent since =>
      by_cases due : now - since ≥ s.rebuildAfter
      · exact Or.inr (Or.inl ⟨since, rfl, due, by simp only [evaluate, standing, due, if_true]⟩)
      · exact Or.inl (by simp only [evaluate, standing, due, if_false])
  | live =>
      refine Or.inr (Or.inr ⟨Or.inl rfl, ?_⟩)
      rw [← standing]
      exact calm (Or.inl standing)
  | confirming =>
      refine Or.inr (Or.inr ⟨Or.inr rfl, ?_⟩)
      rw [← standing]
      exact calm (Or.inr standing)

end LinkState
end Oxutrm.Client
