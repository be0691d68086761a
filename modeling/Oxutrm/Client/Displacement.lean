import Oxutrm.Client.Attempts
import Oxutrm.Lib.Transition

/-!
The host closes every other link of a session as taken over when it adopts an
attempt. The client reads such a close as its own doing while its latch is set,
and as the end of the session otherwise. An attempt can be adopted once its
`Choose` has gone out, whatever has become of its task, until the host gives the
exchange up. A close here is one that such an adoption caused.
-/
namespace Oxutrm.Client
open Transition

variable {Id : Type}

/-- `closed` says it of the link in use, `standby` of the parked one if there is
one; `expected` is the loop's own note that the close has been explained. -/
structure Rescue (Id : Type) where
  rebuild : Rebuild Id
  reports : List (Report Unit) := []
  adopted : List Nat := []
  dropped : List Nat := []
  closed : Bool := false
  standby : Option Bool := none
  expected : Bool := false
  ended : Bool := false

inductive RescueEvent where
  | begin
  | cancel
  | stoodDown
  | task (i : Nat) (t : Attempt.TaskStep)
  | report (i : Nat) (outcome : AttemptOutcome Unit)
  | reported
  | adopt (i : Nat)
  | drop (i : Nat)
  | park
  | standbyLost
  | failOver
  | closedArm

namespace Rescue

/-- The host has said all it will about attempt `i`. -/
def answered (c : Rescue Id) (i : Nat) : Bool := c.adopted.contains i || c.dropped.contains i

/-- The landed link takes the place of the one in use. It is closed already if
another attempt has been adopted after it. -/
def landed (c : Rescue Id) (i : Nat) (rest : List (Report Unit)) (rebuild : Rebuild Id) :
    Rescue Id :=
  { c with
    rebuild := rebuild.swapped
    reports := rest
    closed := c.adopted.getLast? ≠ some i
    standby := none
    expected := false }

/-- A step of a session that has not ended. -/
def move (c : Rescue Id) : RescueEvent → Option (Rescue Id)
  | .begin => if c.rebuild.isRunning then none else some { c with rebuild := c.rebuild.begin }
  | .cancel => some { c with rebuild := c.rebuild.cancel }
  | .stoodDown => some { c with rebuild := c.rebuild.stoodDown }
  | .task i t => (c.rebuild.task i (·.step t)).map fun rebuild => { c with rebuild := rebuild }
  | .report i outcome =>
      (c.rebuild.attempts[i]?).bind fun a =>
        if outcome.isLanded = true → i ∈ c.adopted then
          (c.rebuild.task i Attempt.finish).map fun rebuild =>
            { c with
              rebuild := rebuild
              reports := c.reports ++ [⟨i, a.generation, outcome⟩] }
        else none
  | .reported =>
      match c.reports with
      | [] => none
      | report :: rest =>
          match c.rebuild.accept report with
          | (rebuild, some (.landed _)) => some (c.landed report.attempt rest rebuild)
          | (rebuild, _) => some { c with rebuild := rebuild, reports := rest }
  | .adopt i =>
      (c.rebuild.attempts[i]?).bind fun a =>
        if a.sent = true ∧ c.answered i = false then
          some { c with
            adopted := c.adopted ++ [i]
            closed := true
            standby := c.standby.map fun _ => true }
        else none
  | .drop i =>
      (c.rebuild.attempts[i]?).bind fun a =>
        if a.sent = true then some { c with dropped := c.dropped ++ [i] } else none
  | .park => some { c with standby := some false }
  | .standbyLost => some { c with standby := none }
  | .failOver =>
      match c.standby, c.rebuild.makeWay with
      | some closed, (rebuild, true) =>
          some { c with rebuild := rebuild, closed := closed, standby := none, expected := false }
      | _, _ => some c
  | .closedArm =>
      if c.closed = true ∧ c.expected = false then
        if c.rebuild.mayHaveDisplacedUs then some { c with expected := true }
        else some { c with ended := true }
      else none

def step (c : Rescue Id) (e : RescueEvent) : Option (Rescue Id) :=
  if c.ended then none else c.move e

/-- Nothing more will come of attempt `i`: the host has answered its `Choose`, or
it will never send one. -/
def Spent (c : Rescue Id) (i : Nat) (a : Attempt Id) : Prop :=
  if a.sent = true then c.answered i = true else a.Mute

/-- What makes it safe to clear the latch: every attempt is spent, or is the one
in flight and parked before its `Choose`, and the link in use is open. -/
def Calm (c : Rescue Id) (rebuild : Rebuild Id) : Prop :=
  ∀ i < rebuild.attempts.length, ∀ a ∈ rebuild.attempts[i]?,
    c.Spent i a ∨ (rebuild.inFlight = some i ∧ a.sent = false ∧ a.polling = false)

/-- Whenever the latch is cleared, nothing can still displace the link in use. -/
def Cleared (c : Rescue Id) : RescueEvent → Prop
  | .stoodDown => c.Calm c.rebuild ∧ c.closed = false
  | .reported =>
      ∀ report ∈ c.reports.head?, report.outcome.isLanded = true →
        (c.rebuild.accept report).1.inFlight = none →
          c.Calm (c.rebuild.accept report).1 ∧ c.adopted.getLast? = some report.attempt
  | _ => True

structure Latched (c : Rescue Id) : Prop where
  honest : c.rebuild.Honest
  parked : c.standby = some true → c.closed = true
  spent : c.rebuild.displacing = false → c.closed = false ∧ c.rebuild.inFlight = none ∧
    ∀ (i : Nat) a, c.rebuild.attempts[i]? = some a → c.Spent i a
  going : c.ended = false

theorem Spent.mono {c c' : Rescue Id} {i : Nat} {a : Attempt Id}
    (more : c.answered i = true → c'.answered i = true) (spent : c.Spent i a) :
    c'.Spent i a := by
  simp only [Spent] at spent ⊢
  split
  · next sent =>
      rw [if_pos sent] at spent
      exact more spent
  · next unsent =>
      rw [if_neg unsent] at spent
      exact spent

theorem Spent.step {c : Rescue Id} {i : Nat} {a a' : Attempt Id} {t : Attempt.TaskStep}
    (spent : c.Spent i a) (honest : a.Honest) (stepped : a.step t = some a') :
    c.Spent i a' := by
  by_cases sent : a.sent = true
  · have still : a'.sent = true := by
      rcases Attempt.step_cases stepped with
        ⟨-, -, -, -, rfl⟩ | ⟨-, -, rfl⟩ | ⟨-, -, -, ⟨-, rfl⟩ | ⟨-, rfl⟩⟩ | ⟨-, -, -, rfl⟩
      · exact sent
      · exact sent
      · exact sent
      · exact sent
      · rfl
    simp only [Spent, sent, still, if_true] at spent ⊢
    exact spent
  · simp only [Spent, sent, if_false, Bool.false_eq_true] at spent
    have still : a'.sent = false := by
      rcases Attempt.step_cases stepped with
        ⟨-, -, -, -, rfl⟩ | ⟨-, -, rfl⟩ | ⟨-, -, -, ⟨-, rfl⟩ | ⟨-, rfl⟩⟩ | ⟨-, -, claimed, -⟩
      · exact Bool.eq_false_iff.mpr sent
      · exact Bool.eq_false_iff.mpr sent
      · exact Bool.eq_false_iff.mpr sent
      · exact Bool.eq_false_iff.mpr sent
      · exact absurd spent (honest.not_mute claimed)
    simp only [Spent, still, Bool.false_eq_true, if_false]
    exact spent.step honest stepped

theorem Spent.finished {c : Rescue Id} {i : Nat} {a : Attempt Id} (spent : c.Spent i a) :
    c.Spent i { a with polling := false, progress := .finished } := by
  by_cases sent : a.sent = true
  · simp only [Spent, sent, if_true] at spent ⊢
    exact spent
  · simp only [Spent, sent, Bool.false_eq_true, if_false]
    exact Or.inr (Or.inr (Or.inl rfl))

theorem Calm.attempt {c : Rescue Id} {rebuild : Rebuild Id} (calm : c.Calm rebuild) {i : Nat}
    {a : Attempt Id} (found : rebuild.attempts[i]? = some a) :
    c.Spent i a ∨ (rebuild.inFlight = some i ∧ a.sent = false ∧ a.polling = false) :=
  calm i (List.getElem?_eq_some_iff.mp found).1 a found

theorem Calm.cancel {c : Rescue Id} {rebuild : Rebuild Id} (calm : c.Calm rebuild) {i : Nat}
    {a : Attempt Id} (found : rebuild.cancel.attempts[i]? = some a) : c.Spent i a := by
  rw [rebuild.cancel_attempt i] at found
  by_cases here : rebuild.inFlight = some i
  · rw [if_pos here] at found
    obtain ⟨b, before, rfl⟩ := Option.map_eq_some_iff.mp found
    have same : b.abort.sent = b.sent := by
      simp only [Attempt.abort]
      split
      · rfl
      · rfl
    simp only [Spent, same]
    cases calm.attempt before with
    | inl spent =>
        simp only [Spent] at spent
        split
        · next sent =>
            rw [if_pos sent] at spent
            exact spent
        · next unsent =>
            rw [if_neg unsent] at spent
            exact spent.abort
    | inr parked =>
        simp only [parked.2.1, Bool.false_eq_true, if_false, Attempt.abort, parked.2.2]
        exact Or.inr (Or.inr (Or.inl rfl))
  · rw [if_neg here] at found
    exact (calm.attempt found).resolve_right fun parked => here parked.1

namespace Latched
variable {c : Rescue Id}

theorem set (latched : Latched c) {c' : Rescue Id} (honest : c'.rebuild.Honest)
    (displacing : c'.rebuild.displacing = true)
    (parked : c'.standby = some true → c'.closed = true) (going : c'.ended = c.ended) :
    Latched c' := by
  refine ⟨honest, parked, ?_, going.trans latched.going⟩
  intro cleared
  rw [displacing] at cleared
  cases cleared

theorem task (latched : Latched c) {i : Nat} {a a' : Attempt Id} {reports : List (Report Unit)}
    (found : c.rebuild.attempts[i]? = some a) (honest : a'.Honest)
    (spent : c.Spent i a → c.Spent i a') :
    Latched { c with
      rebuild := { c.rebuild with attempts := c.rebuild.attempts.set i a' }
      reports := reports } := by
  refine ⟨latched.honest.set honest, latched.parked, ?_, latched.going⟩
  intro cleared
  obtain ⟨opened, idle, all⟩ := latched.spent cleared
  refine ⟨opened, idle, ?_⟩
  intro j b foundB
  by_cases here : i = j
  · subst here
    have inside := (List.getElem?_eq_some_iff.mp found).1
    have own : (c.rebuild.attempts.set i a')[i]? = some a' := List.getElem?_set_self inside
    obtain rfl := Option.some.inj (own.symm.trans foundB)
    exact spent (all i a found)
  · change (c.rebuild.attempts.set i a')[j]? = some b at foundB
    rw [List.getElem?_set_ne here] at foundB
    exact all j b foundB

theorem stoodDown (latched : Latched c) (calm : c.Calm c.rebuild) (opened : c.closed = false) :
    Latched { c with rebuild := c.rebuild.stoodDown } :=
  ⟨latched.honest.cancel, latched.parked,
    fun _ => ⟨opened, c.rebuild.cancel_inFlight, fun _ _ found => calm.cancel found⟩,
    latched.going⟩

theorem cancel (latched : Latched c) : Latched { c with rebuild := c.rebuild.cancel } := by
  cases displacing : c.rebuild.displacing with
  | true =>
      exact latched.set latched.honest.cancel (c.rebuild.cancel_displacing.trans displacing)
        latched.parked rfl
  | false =>
      have idle := (latched.spent displacing).2.1
      have same : c.rebuild.cancel = c.rebuild := by simp only [Rebuild.cancel, idle]
      rw [same]
      exact latched

theorem adopt (latched : Latched c) {i : Nat} {a : Attempt Id}
    (found : c.rebuild.attempts[i]? = some a) (sent : a.sent = true)
    (unanswered : c.answered i = false) :
    Latched { c with
      adopted := c.adopted ++ [i], closed := true, standby := c.standby.map fun _ => true } := by
  refine latched.set latched.honest ?_ (fun _ => rfl) rfl
  by_contra cleared
  have spent := (latched.spent (Bool.eq_false_iff.mpr cleared)).2.2 i a found
  simp only [Spent, sent, if_true, unanswered, Bool.false_eq_true] at spent

theorem failOver (latched : Latched c) {rebuild : Rebuild Id} {closed : Bool}
    (parked : c.standby = some closed) (given : c.rebuild.makeWay = (rebuild, true)) :
    Latched { c with
      rebuild := rebuild, closed := closed, standby := none, expected := false } := by
  have honest := latched.honest.makeWay
  have latch := c.rebuild.makeWay_displacing
  rw [given] at honest latch
  cases displacing : c.rebuild.displacing with
  | true => exact latched.set honest (latch.trans displacing) (fun none => by cases none) rfl
  | false =>
      obtain ⟨opened, idle, all⟩ := latched.spent displacing
      have same : rebuild = c.rebuild := by
        simp only [Rebuild.makeWay, Rebuild.isRunning, idle, Option.isSome_none,
          Bool.false_eq_true, if_false, Prod.mk.injEq, and_true] at given
        exact given.symm
      subst same
      have shut : closed = false := by
        cases closed with
        | false => rfl
        | true =>
            rw [latched.parked parked] at opened
            cases opened
      exact ⟨honest, fun none => (by cases none), fun _ => ⟨shut, idle, all⟩, latched.going⟩

theorem landed (latched : Latched c) {report : Report Unit} {rest : List (Report Unit)}
    (cleared : (c.rebuild.accept report).1.inFlight = none →
      c.Calm (c.rebuild.accept report).1 ∧ c.adopted.getLast? = some report.attempt) :
    Latched (c.landed report.attempt rest (c.rebuild.accept report).1) := by
  refine ⟨latched.honest.accept report, fun none => (by cases none), ?_, latched.going⟩
  intro latch
  have idle : (c.rebuild.accept report).1.inFlight = none := by
    simpa [Rescue.landed, Rebuild.swapped] using latch
  obtain ⟨calm, newest⟩ := cleared idle
  refine ⟨by simp [Rescue.landed, newest], idle, ?_⟩
  intro i a found
  refine (calm.attempt found).resolve_right ?_
  intro parked
  rw [idle] at parked
  cases parked.1

theorem heard (latched : Latched c) (report : Report Unit) (rest : List (Report Unit)) :
    Latched { c with rebuild := (c.rebuild.accept report).1, reports := rest } := by
  cases displacing : c.rebuild.displacing with
  | true =>
      exact latched.set (latched.honest.accept report)
        ((c.rebuild.accept_displacing report).trans displacing) latched.parked rfl
  | false =>
      obtain ⟨opened, idle, all⟩ := latched.spent displacing
      have same : (c.rebuild.accept report).1 = c.rebuild := by
        cases c.rebuild.accept_cases report with
        | inl wanted =>
            rw [idle] at wanted
            cases wanted.1
        | inr other => exact other.1
      rw [same]
      exact ⟨latched.honest, latched.parked, fun _ => ⟨opened, idle, all⟩, latched.going⟩

theorem move (latched : Latched c) {e : RescueEvent} {c' : Rescue Id} (cleared : c.Cleared e)
    (taken : c.move e = some c') : Latched c' := by
  cases e with
  | «begin» =>
      simp only [Rescue.move] at taken
      split at taken
      · cases taken
      · cases taken
        exact latched.set latched.honest.begin rfl latched.parked rfl
  | cancel =>
      cases taken
      exact latched.cancel
  | stoodDown =>
      cases taken
      exact latched.stoodDown cleared.1 cleared.2
  | task i t =>
      obtain ⟨rebuild, stepped, rfl⟩ := Option.map_eq_some_iff.mp taken
      obtain ⟨a, a', found, moved, rfl⟩ := Rebuild.task_cases stepped
      have honest := latched.honest i a found
      exact latched.task found (honest.step moved) fun spent => spent.step honest moved
  | report i outcome =>
      obtain ⟨a, found, rest⟩ := Option.bind_eq_some_iff.mp taken
      split at rest
      · obtain ⟨rebuild, finished, rfl⟩ := Option.map_eq_some_iff.mp rest
        obtain ⟨a₀, a', found₀, ended, rfl⟩ := Rebuild.task_cases finished
        rw [Attempt.finish_frame ended]
        exact latched.task found₀ (fun claimed => by cases claimed) Spent.finished
      · cases rest
  | reported =>
      simp only [Rescue.move] at taken
      split at taken
      · cases taken
      · next report rest waiting =>
          have head : report ∈ c.reports.head? := by
            rw [waiting]
            rfl
          have landing : ∀ e, (c.rebuild.accept report).2 = some (.landed e) →
              report.outcome = .landed e := fun _ => Rebuild.accept_landed
          have kept := latched.heard report rest
          have swapped : report.outcome.isLanded = true →
              Latched (c.landed report.attempt rest (c.rebuild.accept report).1) :=
            fun own => latched.landed (cleared report head own)
          cases given : c.rebuild.accept report with
          | mk rebuild handed =>
              rw [given] at kept landing swapped
              simp only [given] at taken
              cases handed with
              | none =>
                  cases taken
                  exact kept
              | some outcome =>
                  cases outcome with
                  | landed e =>
                      cases taken
                      refine swapped ?_
                      rw [landing e rfl]
                      rfl
                  | retry why =>
                      cases taken
                      exact kept
                  | definite why =>
                      cases taken
                      exact kept
  | adopt i =>
      obtain ⟨a, found, rest⟩ := Option.bind_eq_some_iff.mp taken
      split at rest
      · next ready =>
          cases rest
          exact latched.adopt found ready.1 ready.2
      · cases rest
  | drop i =>
      obtain ⟨a, found, rest⟩ := Option.bind_eq_some_iff.mp taken
      split at rest
      · cases rest
        refine ⟨latched.honest, latched.parked, fun latch => ?_, latched.going⟩
        obtain ⟨opened, idle, all⟩ := latched.spent latch
        refine ⟨opened, idle, fun j b foundB => (all j b foundB).mono ?_⟩
        intro said
        simp only [Rescue.answered, Bool.or_eq_true, List.contains_iff_mem] at said ⊢
        exact said.imp_right (List.mem_append_left _)
      · cases rest
  | park =>
      cases taken
      exact ⟨latched.honest, fun shut => (by cases shut), latched.spent, latched.going⟩
  | standbyLost =>
      cases taken
      exact ⟨latched.honest, fun shut => (by cases shut), latched.spent, latched.going⟩
  | failOver =>
      simp only [Rescue.move] at taken
      split at taken
      · next closed rebuild parked given =>
          cases taken
          exact latched.failOver parked given
      · cases taken
        exact latched
  | closedArm =>
      simp only [Rescue.move] at taken
      split at taken
      · next shut =>
          split at taken
          · cases taken
            exact ⟨latched.honest, latched.parked, latched.spent, latched.going⟩
          · next latch =>
              have opened := (latched.spent (Bool.eq_false_iff.mpr latch)).1
              rw [shut.1] at opened
              cases opened
      · cases taken

end Latched

/-- In every run in which the latch is cleared only while nothing can still
displace the link in use, a close the client's own attempt caused never ends the
session. -/
theorem own_rescue_never_ends_the_session (aim : Aim Id) {c : Rescue Id}
    (run : Reaches Rescue.step Rescue.Cleared { rebuild := Rebuild.aimed aim } c) :
    c.ended = false ∧ (c.closed = true → c.rebuild.mayHaveDisplacedUs = true) := by
  have start : Latched ({ rebuild := Rebuild.aimed aim } : Rescue Id) := by
    refine ⟨Rebuild.Honest.aimed aim, fun shut => (by cases shut), fun _ => ⟨rfl, rfl, ?_⟩, rfl⟩
    intro i a found
    simp [Rebuild.aimed] at found
  have latched : Latched c := by
    refine run.invariant ?_ start
    intro before e after latched cleared taken
    simp only [Rescue.step, latched.going, Bool.false_eq_true, if_false] at taken
    exact latched.move cleared taken
  refine ⟨latched.going, fun shut => ?_⟩
  by_contra latch
  have opened := (latched.spent (Bool.eq_false_iff.mpr latch)).1
  rw [shut] at opened
  cases opened

instance (a : Attempt Id) : Decidable a.Mute :=
  inferInstanceAs (Decidable (_ ∨ _ ∨ _ ∨ _))

instance (c : Rescue Id) (i : Nat) (a : Attempt Id) : Decidable (c.Spent i a) :=
  inferInstanceAs (Decidable (if a.sent = true then c.answered i = true else a.Mute))

instance (c : Rescue Id) (rebuild : Rebuild Id) : Decidable (c.Calm rebuild) :=
  inferInstanceAs (Decidable (∀ i < rebuild.attempts.length, ∀ a ∈ rebuild.attempts[i]?, _ ∨ _))

instance (c : Rescue Id) : DecidablePred c.Cleared
  | .stoodDown => inferInstanceAs (Decidable (_ ∧ _))
  | .reported => inferInstanceAs (Decidable (∀ report ∈ c.reports.head?, _ → _ → _ ∧ _))
  | .begin | .cancel | .task _ _ | .report _ _ | .adopt _ | .drop _ | .park | .standbyLost
  | .failOver | .closedArm => .isTrue trivial

def outage : Rescue Nat := { rebuild := Rebuild.aimed (.session 1) }

/-- The close is seen before the landing, which then takes the link's place. -/
def rescued : List RescueEvent :=
  [.begin, .task 0 .poll, .task 0 .commit, .task 0 .choose, .adopt 0, .closedArm,
    .report 0 (.landed ()), .reported, .stoodDown]

theorem own_rescue_never_ends_the_session_rescued :
    ∃ c, runFrom Rescue.step outage rescued = some c ∧ c.adopted = [0] ∧ c.ended = false := by
  have outcome : (runFrom Rescue.step outage rescued).map (fun c => c.adopted) = some [0] := by
    decide +kernel
  obtain ⟨c, run, adopted⟩ := Option.map_eq_some_iff.mp outcome
  exact ⟨c, run, adopted, (own_rescue_never_ends_the_session (.session 1)
    (reaches_of_runFrom rescued (by decide +kernel) run)).1⟩

/-- A frame on the old link, then the adoption of the attempt it stood down. -/
def framed : List RescueEvent :=
  [.begin, .task 0 .poll, .task 0 .commit, .task 0 .choose, .task 0 .suspend, .stoodDown,
    .adopt 0, .closedArm]

/-- The client ends its own session by rescuing it. -/
theorem own_rescue_ends_the_session :
    ∃ c, Reaches Rescue.step free outage c ∧ c.adopted = [0] ∧ c.ended = true := by
  have outcome : (runFrom Rescue.step outage framed).map (fun c => (c.adopted, c.ended)) =
      some ([0], true) := by decide +kernel
  obtain ⟨c, run, shown⟩ := Option.map_eq_some_iff.mp outcome
  exact ⟨c, reaches_of_runFrom _ (admits_free _ _ _) run, (Prod.mk.inj shown).1,
    (Prod.mk.inj shown).2⟩

end Rescue
end Oxutrm.Client
