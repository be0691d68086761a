import Oxutrm.Client.Rebuild

/-!
The client's standby: whether it has one, when to look for one, and where this
outage's probe of it stands. State only: the searches and the probes run in tasks
the session loop holds. Instants and durations are counts of nanoseconds.
-/
namespace Oxutrm.Client

abbrev Instant := Nat

def seconds (n : Nat) : Nat := n * 1000000000

def failoverGrace : Nat := seconds 1

def probeRetry : Nat := seconds 5

def standbyDelay : Nat := seconds 5

/-- The wait before standby search number `failures + 1`. -/
def standbyBackoff (failures : UInt32) : Nat :=
  seconds (if failures = 0 then 30 else if failures = 1 then 60 else if failures = 2 then 120
    else 300)

inductive Phase where
  | live
  | silent (since : Instant)
  | recovering (attempt : UInt32) (nextTry : Instant)
  | confirming
  deriving DecidableEq, Repr

def Phase.isOutage : Phase → Bool
  | .silent _ | .recovering _ _ => true
  | .live | .confirming => false

inductive ProbeState where
  | idle
  | pending (sent : Instant)
  | answered (sent : Instant)
  | failed (since : Instant)
  deriving DecidableEq, Repr

/-- Only on an answer from the standby, never on the absence of one. -/
def failoverDue (phase : Phase) (probe : ProbeState) (now : Instant) : Bool :=
  match probe with
  | .answered sent => phase.isOutage && decide (now - sent ≥ failoverGrace)
  | .idle | .pending _ | .failed _ => false

inductive StandbyAction where
  | nothing
  | search (search : UInt64)
  | probe (nonce : UInt64)
  | failOver
  deriving DecidableEq, Repr

/-- Why the standby's connection closed. -/
inductive CloseReason where
  | shellExited
  | takenOver
  | other
  deriving DecidableEq, Repr

/-- `Link` is what a search establishes. -/
structure Standby (Link : Type) where
  link : Option Link
  searching : Bool
  search : UInt64
  failures : UInt32
  nextSearch : Instant
  probe : ProbeState
  probing : Bool
  nonce : UInt64
  lastFailure : Option String
  enabled : Bool

namespace Standby
variable {Link : Type}

def new (now : Instant) : Standby Link where
  link := none
  searching := false
  search := 0
  failures := 0
  nextSearch := now + standbyDelay
  probe := .idle
  probing := false
  nonce := 0
  lastFailure := none
  enabled := true

/-- The primary changed under any search in flight. -/
def newPrimary (s : Standby Link) : Standby Link :=
  { s with searching := false, search := s.search + 1 }

def backoff (s : Standby Link) (now : Instant) : Standby Link :=
  { s with
    nextSearch := now + standbyBackoff s.failures
    failures := if s.failures.toNat + 1 < 2 ^ 32 then s.failures + 1 else s.failures }

/-- Off: the search in flight is disowned, the probe forgotten and the parked
standby closed. On: a search is due once the link has settled. -/
def setEnabled (s : Standby Link) (on : Bool) (now : Instant) : Standby Link :=
  if on = s.enabled then s
  else if on then { s with enabled := true, nextSearch := now + standbyDelay }
  else { newPrimary { s with enabled := false } with
    probing := false, probe := .idle, link := none }

def mayProbe (probe : ProbeState) (now : Instant) : Bool :=
  match probe with
  | .idle => true
  | .failed since => decide (now - since ≥ probeRetry)
  | .pending _ | .answered _ => false

/-- One decision per lap. -/
def step (s : Standby Link) (phase : Phase) (now : Instant) (rebuild : RebuildStage) :
    Standby Link × StandbyAction :=
  if !s.enabled then (s, .nothing)
  else if !phase.isOutage then
    let s := { s with probe := .idle }
    if s.link.isNone && !s.searching && decide (now ≥ s.nextSearch) then
      ({ s with searching := true, search := s.search + 1 }, .search (s.search + 1))
    else (s, .nothing)
  else if s.link.isNone then (s, .nothing)
  else if rebuild = .committed then ({ s with probe := .idle }, .nothing)
  else if failoverDue phase s.probe now then (s, .failOver)
  else if mayProbe s.probe now && !s.probing then
    ({ s with probing := true, nonce := s.nonce + 1, probe := .pending now },
      .probe (s.nonce + 1))
  else (s, .nothing)

/-- A search finished with a link; one for an earlier primary is not kept. -/
def found (s : Standby Link) (search : UInt64) (established : Link) : Standby Link × Bool :=
  if !s.enabled || decide (search ≠ s.search) then (s, false)
  else
    ({ s with searching := false, failures := 0, lastFailure := none, link := some established },
      true)

def notFound (s : Standby Link) (search : UInt64) (now : Instant) (reason : String) :
    Standby Link × Bool :=
  if search ≠ s.search then (s, false)
  else (backoff { s with searching := false, lastFailure := some reason } now, true)

/-- Whatever a probe found. A result whose outage has ended is dropped. -/
def probed (s : Standby Link) (answered : Bool) (now : Instant) : Standby Link × Bool :=
  let s := { s with probing := false }
  match s.probe with
  | .pending sent =>
      ({ s with probe := if answered then .answered sent else .failed now }, true)
  | .idle | .answered _ | .failed _ => (s, false)

/-- The standby's connection closed on its own. -/
def lost (s : Standby Link) (now : Instant) (reason : CloseReason) : Standby Link × Bool :=
  (backoff { s with link := none, probe := .idle } now, reason = .other)

def routeMoved (s : Standby Link) (now : Instant) : Standby Link := { s with nextSearch := now }

def takeForFailover (s : Standby Link) (now : Instant) : Standby Link × Option Link :=
  ({ newPrimary { s with
      probe := .idle, failures := 0, nextSearch := now + standbyDelay } with link := none },
    s.link)

/-- The primary was replaced and ours is a corpse. `probing` is left as it is. -/
def forget (s : Standby Link) (now : Instant) : Standby Link :=
  newPrimary { s with link := none, probe := .idle, nextSearch := now + standbyDelay }

theorem step_cases (s : Standby Link) (phase : Phase) (now : Instant) (rebuild : RebuildStage) :
    ((s.enabled = true → s.link.isSome = true → phase.isOutage = true ∧ rebuild ≠ .committed) ∧
        (s.enabled = true → phase.isOutage = true) ∧
        s.step phase now rebuild = (s, .nothing)) ∨
      s.step phase now rebuild = ({ s with probe := .idle }, .nothing) ∨
      (s.link = none ∧ s.step phase now rebuild =
        ({ s with probe := .idle, searching := true, search := s.search + 1 },
          .search (s.search + 1))) ∨
      (s.link.isSome = true ∧ phase.isOutage = true ∧ rebuild ≠ .committed ∧
        failoverDue phase s.probe now = true ∧ s.step phase now rebuild = (s, .failOver)) ∨
      (s.link.isSome = true ∧ s.probing = false ∧ phase.isOutage = true ∧ rebuild ≠ .committed ∧
        s.step phase now rebuild =
          ({ s with probing := true, nonce := s.nonce + 1, probe := .pending now },
            .probe (s.nonce + 1))) := by
  simp only [step]
  split
  · next off =>
      have off : s.enabled = false := by simpa using off
      refine Or.inl ⟨fun on => ?_, fun on => ?_, rfl⟩
      · rw [off] at on
        cases on
      · rw [off] at on
        cases on
  · split
    · split
      · next ready =>
          simp only [Bool.and_eq_true, Option.isNone_iff_eq_none] at ready
          exact Or.inr (Or.inr (Or.inl ⟨ready.1.1, rfl⟩))
      · exact Or.inr (Or.inl rfl)
    · next outage =>
        have outage : phase.isOutage = true := by simpa using outage
        split
        · next none =>
            refine Or.inl ⟨fun _ some => ?_, fun _ => outage, rfl⟩
            rw [Option.isNone_iff_eq_none.mp none] at some
            cases some
        · next held =>
            have held : s.link.isSome = true :=
              Option.isSome_iff_ne_none.mpr (by simpa using held)
            split
            · exact Or.inr (Or.inl rfl)
            · next free =>
                split
                · next due =>
                    exact Or.inr (Or.inr (Or.inr (Or.inl ⟨held, outage, free, due, rfl⟩)))
                · split
                  · next ready =>
                      simp only [Bool.and_eq_true, Bool.not_eq_true'] at ready
                      exact Or.inr (Or.inr (Or.inr (Or.inr ⟨held, ready.2, outage, free, rfl⟩)))
                  · exact Or.inl ⟨fun _ _ => ⟨outage, free⟩, fun _ => outage, rfl⟩

theorem probed_cases (s : Standby Link) (answered : Bool) (now : Instant) :
    (∃ sent, s.probe = .pending sent ∧ (s.probed answered now).1 =
        { s with probing := false, probe := if answered then .answered sent else .failed now }) ∨
      ((∀ sent, s.probe ≠ .pending sent) ∧
        (s.probed answered now).1 = { s with probing := false }) := by
  cases standing : s.probe with
  | pending sent => exact Or.inl ⟨sent, rfl, by simp only [probed, standing]⟩
  | idle | answered _ | failed _ =>
      exact Or.inr ⟨fun sent same => (by cases same), by simp only [probed, standing]⟩

theorem probed_eq (s : Standby Link) (answered : Bool) (now : Instant) :
    ∃ probe, (s.probed answered now).1 = { s with probing := false, probe := probe } ∧
      ∀ sent, probe ≠ .pending sent := by
  cases s.probed_cases answered now with
  | inl counted =>
      obtain ⟨sent, -, result⟩ := counted
      refine ⟨_, result, fun other same => ?_⟩
      cases answered with
      | true => cases same
      | false => cases same
  | inr stale => exact ⟨s.probe, stale.2, stale.1⟩

end Standby
end Oxutrm.Client
