import Mathlib.Algebra.Group.Nat.Defs
import Mathlib.Data.List.Basic

/-!
The client's ssh rebuild: the attempts it has begun and what the session loop
does to them. An attempt is a task of its own on another thread. An abort takes
effect at its next yield: at once if the task is parked at one, and only after
the poll it is in otherwise.
-/
namespace Oxutrm.Client

/-- Where a rebuild goes: the session the client is in, or a fresh lobby. -/
inductive Aim (Id : Type) where
  | session (id : Id)
  | lobby
  deriving DecidableEq, Repr

inductive RebuildStage where
  | idle
  | connecting
  | committed
  deriving DecidableEq, Repr

/-- The line between connecting and committed, moved by a compare-and-swap. -/
inductive Commitment where
  | connecting
  | committed
  | abandoned
  deriving DecidableEq, Repr

namespace Commitment

def claim (c next : Commitment) : Commitment × Bool :=
  if c = .connecting then (next, true) else (c, false)

def commit (c : Commitment) : Commitment × Bool := c.claim .committed

def abandon (c : Commitment) : Commitment × Bool := c.claim .abandoned

def isCommitted (c : Commitment) : Bool := c = .committed

end Commitment

/-- Where an attempt stands: before its claim, between the claim and the `Choose`,
after the `Choose`, with nothing left to do but report, or gone. -/
inductive Progress where
  | connecting
  | claimed
  | chosen
  | returned
  | finished
  deriving DecidableEq, Repr

structure Attempt (Id : Type) where
  generation : UInt64
  aim : Aim Id
  commitment : Commitment := .connecting
  progress : Progress := .connecting
  sent : Bool := false
  polling : Bool := false
  aborted : Bool := false
  deriving DecidableEq, Repr

/-- `E` is what a landing hands over. -/
inductive AttemptOutcome (E : Type) where
  | landed (established : E)
  | retry (why : String)
  | definite (why : String)
  deriving DecidableEq, Repr

def AttemptOutcome.isLanded {E : Type} : AttemptOutcome E → Bool
  | .landed _ => true
  | .retry _ | .definite _ => false

/-- What an attempt reports. `attempt` is the task that sent it, which the source
does not tell the loop. -/
structure Report (E : Type) where
  attempt : Nat
  generation : UInt64
  outcome : AttemptOutcome E
  deriving DecidableEq, Repr

namespace Attempt
variable {Id : Type}

def abort (a : Attempt Id) : Attempt Id :=
  if a.polling then { a with aborted := true }
  else { a with aborted := true, progress := .finished }

/-- The runtime takes the task up; an aborted one is dropped instead. -/
def poll (a : Attempt Id) : Option (Attempt Id) :=
  if a.polling ∨ a.aborted ∨ a.progress = .finished then none else some { a with polling := true }

/-- The task yields, and an abort asked for meanwhile takes effect. -/
def suspend (a : Attempt Id) : Option (Attempt Id) :=
  if a.polling then
    some { a with polling := false, progress := if a.aborted then .finished else a.progress }
  else none

/-- The offer has been read: claim the right to send, or stop. -/
def commit (a : Attempt Id) : Option (Attempt Id) :=
  if a.polling ∧ a.progress = .connecting then
    match a.commitment.commit with
    | (commitment, true) => some { a with commitment := commitment, progress := .claimed }
    | (_, false) => some { a with progress := .returned }
  else none

def choose (a : Attempt Id) : Option (Attempt Id) :=
  if a.polling ∧ a.progress = .claimed then some { a with progress := .chosen, sent := true }
  else none

inductive TaskStep where
  | poll
  | suspend
  | commit
  | choose
  deriving DecidableEq, Repr

def step (a : Attempt Id) : TaskStep → Option (Attempt Id)
  | .poll => a.poll
  | .suspend => a.suspend
  | .commit => a.commit
  | .choose => a.choose

/-- The task reports and ends. -/
def finish (a : Attempt Id) : Option (Attempt Id) :=
  if a.polling then some { a with polling := false, progress := .finished } else none

end Attempt

/-- `attempts` are the tasks spawned so far, which the source leaves to the
runtime; `inFlight` is the one whose handle is held. -/
structure Rebuild (Id : Type) where
  aim : Aim Id
  inFlight : Option Nat := none
  generation : UInt64 := 0
  displacing : Bool := false
  attempts : List (Attempt Id) := []

namespace Rebuild
variable {Id : Type}

def aimed (aim : Aim Id) : Rebuild Id := { aim := aim }

def isRunning (r : Rebuild Id) : Bool := r.inFlight.isSome

/-- The attempt whose handle is held. -/
def current (r : Rebuild Id) : Option (Attempt Id) := r.inFlight.bind fun i => r.attempts[i]?

def stage (r : Rebuild Id) : RebuildStage :=
  match r.current with
  | none => .idle
  | some a => if a.commitment.isCommitted then .committed else .connecting

/-- Given up: the handle is dropped and the task aborted. -/
def cancel (r : Rebuild Id) : Rebuild Id :=
  match r.inFlight with
  | none => r
  | some i => { r with inFlight := none, attempts := r.attempts.modify i Attempt.abort }

def retarget [DecidableEq Id] (r : Rebuild Id) (aim : Aim Id) : Rebuild Id :=
  { (if aim ≠ r.aim then r.cancel else r) with aim := aim }

/-- Give up an attempt that has not committed, for a standby that answered. -/
def abandon (r : Rebuild Id) : Rebuild Id × Bool :=
  match r.inFlight with
  | none => (r, false)
  | some i =>
      match r.attempts[i]? with
      | none => (r, false)
      | some a =>
          match a.commitment.abandon with
          | (_, false) => (r, false)
          | (commitment, true) =>
              (cancel { r with
                attempts := r.attempts.set i { a with commitment := commitment } }, true)

def mayHaveDisplacedUs (r : Rebuild Id) : Bool := r.displacing

def swapped (r : Rebuild Id) : Rebuild Id := { r with displacing := r.inFlight.isSome }

def stoodDown (r : Rebuild Id) : Rebuild Id := { r.cancel with displacing := false }

def begin (r : Rebuild Id) : Rebuild Id :=
  { r with
    generation := r.generation + 1
    displacing := true
    inFlight := some r.attempts.length
    attempts := r.attempts ++ [{ generation := r.generation + 1, aim := r.aim }] }

def finished (r : Rebuild Id) : Rebuild Id := { r with inFlight := none }

/-- A failure of an attempt given up since is dropped; a landing never is. -/
def accept {E : Type} (r : Rebuild Id) (report : Report E) :
    Rebuild Id × Option (AttemptOutcome E) :=
  if r.inFlight.isSome ∧ report.generation = r.generation then
    (r.finished, some report.outcome)
  else
    match report.outcome with
    | .landed established => (r, some (.landed established))
    | .retry _ | .definite _ => (r, none)

/-- The first half of a failover: an attempt still connecting is abandoned, and
one that has committed keeps the standby from being promoted. -/
def makeWay (r : Rebuild Id) : Rebuild Id × Bool :=
  if r.isRunning then r.abandon else (r, true)

/-- One step of task `i`'s own. -/
def task (r : Rebuild Id) (i : Nat) (f : Attempt Id → Option (Attempt Id)) :
    Option (Rebuild Id) :=
  (r.attempts[i]?).bind fun a => (f a).map fun a => { r with attempts := r.attempts.set i a }

section
variable (r : Rebuild Id)

@[simp] theorem cancel_aim : r.cancel.aim = r.aim := by
  cases held : r.inFlight with
  | none => simp only [cancel, held]
  | some i => simp only [cancel, held]

@[simp] theorem cancel_inFlight : r.cancel.inFlight = none := by
  cases held : r.inFlight with
  | none => simp only [cancel, held]
  | some i => simp only [cancel, held]

@[simp] theorem cancel_displacing : r.cancel.displacing = r.displacing := by
  cases held : r.inFlight with
  | none => simp only [cancel, held]
  | some i => simp only [cancel, held]

theorem cancel_attempt (j : Nat) :
    r.cancel.attempts[j]? =
      if r.inFlight = some j then (r.attempts[j]?).map Attempt.abort else r.attempts[j]? := by
  cases held : r.inFlight with
  | none => simp only [cancel, held, reduceCtorEq, if_false]
  | some i =>
      simp only [cancel, held, Option.some.injEq, List.getElem?_modify]
      by_cases here : i = j
      · simp only [here, if_true]
        rfl
      · simp only [here, if_false]
        exact id_map _

theorem retarget_same [DecidableEq Id] : r.retarget r.aim = r := by
  simp only [retarget, ne_eq, not_true_eq_false, if_false]

theorem retarget_other [DecidableEq Id] {aim : Aim Id} (other : aim ≠ r.aim) :
    r.retarget aim = { r.cancel with aim := aim } := by
  simp only [retarget, if_pos other]

@[simp] theorem retarget_aim [DecidableEq Id] (aim : Aim Id) : (r.retarget aim).aim = aim := rfl

end

/-- What giving way can do: nothing, or abandon the attempt in flight. -/
theorem abandon_cases (r : Rebuild Id) :
    r.abandon = (r, false) ∨
      ∃ i a, r.inFlight = some i ∧ r.attempts[i]? = some a ∧ a.commitment = .connecting ∧
        r.abandon = (cancel { r with
          attempts := r.attempts.set i { a with commitment := .abandoned } }, true) := by
  cases held : r.inFlight with
  | none => exact Or.inl (by simp only [abandon, held])
  | some i =>
      cases found : r.attempts[i]? with
      | none => exact Or.inl (by simp only [abandon, held, found])
      | some a =>
          by_cases free : a.commitment = .connecting
          · refine Or.inr ⟨i, a, rfl, found, free, ?_⟩
            simp only [abandon, held, found, Commitment.abandon, Commitment.claim, free, if_true]
          · refine Or.inl ?_
            simp only [abandon, held, found, Commitment.abandon, Commitment.claim, free, if_false]

/-- What taking a report in can do: end the attempt in flight, or nothing. -/
theorem accept_cases {E : Type} (r : Rebuild Id) (report : Report E) :
    (r.inFlight.isSome ∧ report.generation = r.generation ∧
        r.accept report = (r.finished, some report.outcome)) ∨
      (r.accept report).1 = r ∧ ((r.accept report).2 = none ∨
        ∃ e, report.outcome = .landed e ∧ (r.accept report).2 = some (.landed e)) := by
  by_cases wanted : r.inFlight.isSome ∧ report.generation = r.generation
  · exact Or.inl ⟨wanted.1, wanted.2, by simp only [accept, wanted, and_self, if_true]⟩
  · refine Or.inr ?_
    simp only [accept, wanted, if_false]
    cases report.outcome with
    | landed e => exact ⟨rfl, Or.inr ⟨e, rfl, rfl⟩⟩
    | retry why => exact ⟨rfl, Or.inl rfl⟩
    | definite why => exact ⟨rfl, Or.inl rfl⟩

theorem accept_frame {E : Type} (r : Rebuild Id) (report : Report E) :
    (r.accept report).1.aim = r.aim ∧ (r.accept report).1.attempts = r.attempts := by
  cases r.accept_cases report with
  | inl wanted =>
      rw [wanted.2.2]
      exact ⟨rfl, rfl⟩
  | inr other =>
      rw [other.1]
      exact ⟨rfl, rfl⟩

theorem accept_displacing {E : Type} (r : Rebuild Id) (report : Report E) :
    (r.accept report).1.displacing = r.displacing := by
  cases r.accept_cases report with
  | inl wanted =>
      rw [wanted.2.2]
      rfl
  | inr other => rw [other.1]

theorem accept_landed {E : Type} {r : Rebuild Id} {report : Report E} {e : E}
    (handed : (r.accept report).2 = some (.landed e)) : report.outcome = .landed e := by
  cases r.accept_cases report with
  | inl wanted =>
      rw [wanted.2.2] at handed
      exact Option.some.inj handed
  | inr other =>
      cases other.2 with
      | inl none =>
          rw [none] at handed
          cases handed
      | inr landed =>
          obtain ⟨e', outcome, given⟩ := landed
          rw [given] at handed
          rw [outcome]
          exact Option.some.inj handed

@[simp] theorem makeWay_aim (r : Rebuild Id) : r.makeWay.1.aim = r.aim := by
  simp only [makeWay]
  split
  · cases r.abandon_cases with
    | inl same => rw [same]
    | inr given =>
        obtain ⟨i, a, -, -, -, result⟩ := given
        rw [result, cancel_aim]
  · rfl

@[simp] theorem makeWay_displacing (r : Rebuild Id) :
    r.makeWay.1.displacing = r.displacing := by
  simp only [makeWay]
  split
  · cases r.abandon_cases with
    | inl same => rw [same]
    | inr given =>
        obtain ⟨i, a, -, -, -, result⟩ := given
        rw [result, cancel_displacing]
  · rfl

theorem task_cases {r r' : Rebuild Id} {i : Nat} {f : Attempt Id → Option (Attempt Id)}
    (taken : r.task i f = some r') :
    ∃ a a', r.attempts[i]? = some a ∧ f a = some a' ∧
      r' = { r with attempts := r.attempts.set i a' } := by
  obtain ⟨a, found, moved⟩ := Option.bind_eq_some_iff.mp taken
  obtain ⟨a', stepped, rfl⟩ := Option.map_eq_some_iff.mp moved
  exact ⟨a, a', found, stepped, rfl⟩

theorem task_aim {r r' : Rebuild Id} {i : Nat} {f : Attempt Id → Option (Attempt Id)}
    (taken : r.task i f = some r') : r'.aim = r.aim := by
  obtain ⟨a, a', -, -, rfl⟩ := task_cases taken
  rfl

/-- Attempts are never taken back, and each keeps its number and its aim. -/
def Extends (r r' : Rebuild Id) : Prop :=
  ∀ (i : Nat) (a : Attempt Id), r.attempts[i]? = some a →
    ∃ a', r'.attempts[i]? = some a' ∧ a'.generation = a.generation ∧ a'.aim = a.aim

namespace Extends

theorem refl (r : Rebuild Id) : Extends r r := fun _ a found => ⟨a, found, rfl, rfl⟩

theorem trans {r s t : Rebuild Id} (first : Extends r s) (second : Extends s t) : Extends r t := by
  intro i a found
  obtain ⟨b, foundB, generationB, aimB⟩ := first i a found
  obtain ⟨c, foundC, generationC, aimC⟩ := second i b foundB
  exact ⟨c, foundC, generationC.trans generationB, aimC.trans aimB⟩

/-- One attempt changed, and not in its number or aim. -/
theorem set {r : Rebuild Id} {i : Nat} {a a' : Attempt Id} (found : r.attempts[i]? = some a)
    (generation : a'.generation = a.generation) (aim : a'.aim = a.aim) :
    Extends r { r with attempts := r.attempts.set i a' } := by
  intro j b foundB
  by_cases here : i = j
  · subst here
    obtain rfl := Option.some.inj (found.symm.trans foundB)
    have inside := (List.getElem?_eq_some_iff.mp found).1
    exact ⟨a', List.getElem?_set_self inside, generation, aim⟩
  · exact ⟨b, by rw [List.getElem?_set_ne here]; exact foundB, rfl, rfl⟩

theorem cancel (r : Rebuild Id) : Extends r r.cancel := by
  intro j a found
  rw [r.cancel_attempt j, found]
  by_cases here : r.inFlight = some j
  · refine ⟨a.abort, by simp only [here, if_true, Option.map_some], ?_, ?_⟩
    · simp only [Attempt.abort]
      split
      · rfl
      · rfl
    · simp only [Attempt.abort]
      split
      · rfl
      · rfl
  · exact ⟨a, by simp only [here, if_false], rfl, rfl⟩

theorem retarget [DecidableEq Id] (r : Rebuild Id) (aim : Aim Id) :
    Extends r (r.retarget aim) := by
  simp only [Rebuild.retarget]
  split
  · exact cancel r
  · exact refl r

theorem begin (r : Rebuild Id) : Extends r r.begin := by
  intro j a found
  have inside := (List.getElem?_eq_some_iff.mp found).1
  refine ⟨a, ?_, rfl, rfl⟩
  simp only [Rebuild.begin]
  rw [List.getElem?_append_left inside]
  exact found

theorem makeWay (r : Rebuild Id) : Extends r r.makeWay.1 := by
  simp only [Rebuild.makeWay]
  split
  · cases r.abandon_cases with
    | inl same =>
        rw [same]
        exact refl r
    | inr given =>
        obtain ⟨i, a, -, found, -, result⟩ := given
        have claimed : Extends r { r with
            attempts := r.attempts.set i { a with commitment := .abandoned } } :=
          set found rfl rfl
        rw [result]
        exact claimed.trans (cancel _)
  · exact refl r

end Extends
end Rebuild

theorem Attempt.step_cases {Id : Type} {a a' : Attempt Id} {t : Attempt.TaskStep}
    (stepped : a.step t = some a') :
    (t = .poll ∧ a.polling = false ∧ a.aborted = false ∧ a.progress ≠ .finished ∧
        a' = { a with polling := true }) ∨
      (t = .suspend ∧ a.polling = true ∧
        a' = { a with
          polling := false, progress := if a.aborted then .finished else a.progress }) ∨
      (t = .commit ∧ a.polling = true ∧ a.progress = .connecting ∧
        (a.commitment = .connecting ∧
            a' = { a with commitment := .committed, progress := .claimed } ∨
          a.commitment ≠ .connecting ∧ a' = { a with progress := .returned })) ∨
      (t = .choose ∧ a.polling = true ∧ a.progress = .claimed ∧
        a' = { a with progress := .chosen, sent := true }) := by
  cases t with
  | poll =>
      simp only [Attempt.step, Attempt.poll] at stepped
      split at stepped
      · cases stepped
      · next free =>
          simp only [not_or, Bool.not_eq_true] at free
          exact Or.inl ⟨rfl, free.1, free.2.1, free.2.2, (Option.some.inj stepped).symm⟩
  | suspend =>
      simp only [Attempt.step, Attempt.suspend] at stepped
      split at stepped
      · next polling =>
          exact Or.inr (Or.inl ⟨rfl, polling, (Option.some.inj stepped).symm⟩)
      · cases stepped
  | commit =>
      simp only [Attempt.step, Attempt.commit, Commitment.commit, Commitment.claim] at stepped
      split at stepped
      · next ready =>
          refine Or.inr (Or.inr (Or.inl ⟨rfl, ready.1, ready.2, ?_⟩))
          by_cases free : a.commitment = .connecting
          · simp only [free, if_true, Option.some.injEq] at stepped
            exact Or.inl ⟨free, stepped.symm⟩
          · simp only [free, if_false, Option.some.injEq] at stepped
            exact Or.inr ⟨free, stepped.symm⟩
      · cases stepped
  | choose =>
      simp only [Attempt.step, Attempt.choose] at stepped
      split at stepped
      · next ready =>
          exact Or.inr (Or.inr (Or.inr ⟨rfl, ready.1, ready.2, (Option.some.inj stepped).symm⟩))
      · cases stepped

/-- Whatever a task does, its attempt keeps its number and its aim. -/
theorem Attempt.step_frame {Id : Type} {a a' : Attempt Id} {t : Attempt.TaskStep}
    (stepped : a.step t = some a') : a'.generation = a.generation ∧ a'.aim = a.aim := by
  rcases Attempt.step_cases stepped with
    ⟨-, -, -, -, rfl⟩ | ⟨-, -, rfl⟩ | ⟨-, -, -, ⟨-, rfl⟩ | ⟨-, rfl⟩⟩ | ⟨-, -, -, rfl⟩
  · exact ⟨rfl, rfl⟩
  · exact ⟨rfl, rfl⟩
  · exact ⟨rfl, rfl⟩
  · exact ⟨rfl, rfl⟩
  · exact ⟨rfl, rfl⟩

theorem Attempt.finish_frame {Id : Type} {a a' : Attempt Id} (finished : a.finish = some a') :
    a' = { a with polling := false, progress := .finished } := by
  simp only [Attempt.finish] at finished
  split at finished
  · cases finished
    rfl
  · cases finished

namespace Rebuild
variable {Id : Type}

theorem Extends.task {r r' : Rebuild Id} {i : Nat} {t : Attempt.TaskStep}
    (taken : r.task i (·.step t) = some r') : Extends r r' := by
  obtain ⟨a, a', found, stepped, rfl⟩ := task_cases taken
  obtain ⟨generation, aim⟩ := Attempt.step_frame stepped
  exact set found generation aim

theorem Extends.finish {r r' : Rebuild Id} {i : Nat}
    (taken : r.task i Attempt.finish = some r') : Extends r r' := by
  obtain ⟨a, a', found, stepped, rfl⟩ := task_cases taken
  rw [Attempt.finish_frame stepped]
  exact set found rfl rfl

end Rebuild
end Oxutrm.Client
