import Oxutrm.Client.LinkState
import Oxutrm.Client.Attempts
import Oxutrm.Lib.Transition

/-!
The rebuild schedule: when an attempt may begin, and what its report does. The
phase carries the schedule; four functions write it and a lap that may run late
reads it. `clock`, `stay` and `failures` record what the source does not keep.
-/
namespace Oxutrm.Client
open Transition

variable {Id : Type}

/-- An attempt begun in the current stay in `Recovering`: when, with which number
in force, and after how many failures since the stay or the last landing. -/
structure Begun where
  time : Instant
  attempt : UInt32
  failures : Nat
  deriving DecidableEq, Repr

structure Schedule (Id : Type) where
  link : LinkState
  rebuild : Rebuild Id
  reports : List (Report Id) := []
  ended : Bool := false
  clock : Instant
  stay : List Begun := []
  failures : Nat := 0

/-- `task` and `report` are an attempt's own; `reported` is the loop reading what
one has reported. -/
inductive ScheduleEvent (Id : Type) where
  | evaluate (now : Instant) (replyOwed : Bool)
  | heard (now : Instant)
  | rebuildStep (now : Instant)
  | task (i : Nat) (t : Attempt.TaskStep)
  | report (i : Nat) (outcome : AttemptOutcome Id)
  | reported (now : Instant)
  | failOver (now : Instant)
  | moved (aim : Aim Id) (now : Instant)
  | retarget (aim : Aim Id)
  | holdKeys (bytes : List UInt8)
  | takeHeld
  | dropHeld
  | retune (silentAfter rebuildAfter : Nat)

def ScheduleEvent.time : ScheduleEvent Id → Option Instant
  | .evaluate now _ | .heard now | .rebuildStep now | .reported now | .failOver now
  | .moved _ now => some now
  | .task _ _ | .report _ _ | .retarget _ | .holdKeys _ | .takeHeld | .dropHeld | .retune _ _ => none

namespace Schedule

/-- The session goes on with `link`; a stay ends with its phase. -/
def onLink (c : Schedule Id) (link : LinkState) : Schedule Id :=
  if link.phase.isRecovering then { c with link := link }
  else { c with link := link, stay := [], failures := 0 }

def rebuildStep (c : Schedule Id) (now : Instant) : Schedule Id :=
  match c.link.phase with
  | .recovering attempt nextTry =>
      if c.rebuild.isRunning || decide (now < nextTry) then c
      else { c with
        rebuild := c.rebuild.begin
        link := c.link.beginAttempt now
        stay := c.stay ++ [⟨now, attempt, c.failures⟩] }
  | .live | .silent _ | .confirming => { c with rebuild := c.rebuild.stoodDown }

def rebuildReported (c : Schedule Id) (report : Report Id) (now : Instant) : Schedule Id :=
  match c.rebuild.accept report with
  | (rebuild, none) => { c with rebuild := rebuild }
  | (rebuild, some (.landed _)) =>
      onLink { c with rebuild := rebuild.swapped, failures := 0 } (c.link.rebuilt now)
  | (rebuild, some (.retry _)) =>
      onLink { c with rebuild := rebuild, failures := c.failures + 1 } (c.link.attemptFailed now)
  | (rebuild, some (.definite _)) => { c with rebuild := rebuild, ended := true }

/-- The standby answered: the attempt is abandoned and the link swapped, unless the
attempt has committed. -/
def failOver (c : Schedule Id) (now : Instant) : Schedule Id :=
  match c.rebuild.makeWay with
  | (rebuild, false) => { c with rebuild := rebuild }
  | (rebuild, true) => onLink { c with rebuild := rebuild, failures := 0 } (c.link.rebuilt now)

def act [DecidableEq Id] (c : Schedule Id) : ScheduleEvent Id → Option (Schedule Id)
  | .evaluate now replyOwed => some (c.onLink (c.link.evaluate now replyOwed))
  | .heard now => some (c.onLink (c.link.heard now))
  | .rebuildStep now => some (c.rebuildStep now)
  | .task i t => (c.rebuild.task i (·.step t)).map fun rebuild => { c with rebuild := rebuild }
  | .report i outcome => (c.rebuild.attempts[i]?).bind fun a =>
      (c.rebuild.task i Attempt.finish).map fun rebuild =>
        { c with rebuild := rebuild, reports := c.reports ++ [⟨i, a.generation, outcome⟩] }
  | .reported now =>
      match c.reports with
      | [] => none
      | report :: rest => some (rebuildReported { c with reports := rest } report now)
  | .failOver now => some (c.failOver now)
  | .moved aim now => some (onLink
      { c with rebuild := c.rebuild.stoodDown.retarget aim, failures := 0 } (c.link.rebuilt now))
  | .retarget aim => some { c with rebuild := c.rebuild.retarget aim }
  | .holdKeys bytes => some (c.onLink (c.link.holdKeys bytes))
  | .takeHeld => some (c.onLink c.link.takeHeld.1)
  | .dropHeld => some (c.onLink c.link.dropHeld)
  | .retune silentAfter rebuildAfter => some (c.onLink (c.link.retune silentAfter rebuildAfter))

/-- A session that has not ended goes on, and the clock with it. -/
def step [DecidableEq Id] (c : Schedule Id) (e : ScheduleEvent Id) : Option (Schedule Id) :=
  if c.ended then none
  else (c.act e).map fun c => { c with clock := e.time.getD c.clock }

/-- The clock does not go back. -/
def Timely (c : Schedule Id) (e : ScheduleEvent Id) : Prop := c.clock ≤ e.time.getD c.clock

/-- Nor does the generation come round. -/
def Admitted (c : Schedule Id) (e : ScheduleEvent Id) : Prop :=
  c.Timely e ∧ c.rebuild.attempts.length + 1 < 2 ^ 64

instance decidableTimely (c : Schedule Id) : DecidablePred c.Timely :=
  fun _ => inferInstanceAs (Decidable (_ ≤ _))

instance decidableAdmitted (c : Schedule Id) : DecidablePred c.Admitted :=
  fun _ => inferInstanceAs (Decidable (_ ∧ _))

def start (now : Instant) (aim : Aim Id) : Schedule Id :=
  { link := LinkState.new now, rebuild := Rebuild.aimed aim, clock := now }

end Schedule

/-- An attempt that has neither ended nor been given up. -/
def Attempt.Running (a : Attempt Id) : Prop := a.aborted = false ∧ a.progress ≠ .finished

namespace Rebuild

/-- What can become of the attempts while none begins: each keeps its number, one
that has ended or been given up stays so, and a handle is let go of only then. -/
structure Ages (r r' : Rebuild Id) : Prop where
  length : r'.attempts.length = r.attempts.length
  generation : r'.generation = r.generation
  inFlight : ∀ i, r'.inFlight = some i → r.inFlight = some i
  attempt : ∀ (i : Nat) a, r.attempts[i]? = some a → ∃ a', r'.attempts[i]? = some a' ∧
    a'.generation = a.generation ∧ (a.progress = .finished → a'.progress = .finished) ∧
    (¬ a.Running → ¬ a'.Running) ∧
    (r.inFlight = some i → r'.inFlight = some i ∨ ¬ a'.Running)

theorem not_running_abort (a : Attempt Id) : ¬ a.abort.Running := by
  intro running
  have aborted := running.1
  simp only [Attempt.abort] at aborted
  split at aborted
  · cases aborted
  · cases aborted

namespace Ages
variable {r r' r'' : Rebuild Id}

theorem refl (r : Rebuild Id) : Ages r r :=
  ⟨rfl, rfl, fun _ held => held, fun _ a found => ⟨a, found, rfl, id, id, Or.inl⟩⟩

theorem trans (first : Ages r r') (second : Ages r' r'') : Ages r r'' := by
  refine ⟨second.length.trans first.length, second.generation.trans first.generation,
    fun i held => first.inFlight i (second.inFlight i held), fun i a found => ?_⟩
  obtain ⟨b, foundB, generationB, finishedB, givenB, heldB⟩ := first.attempt i a found
  obtain ⟨c, foundC, generationC, finishedC, givenC, heldC⟩ := second.attempt i b foundB
  refine ⟨c, foundC, generationC.trans generationB, fun past => finishedC (finishedB past),
    fun given => givenC (givenB given), fun held => ?_⟩
  cases heldB held with
  | inl still => exact heldC still
  | inr given => exact Or.inr (givenC given)

/-- Only the latch has moved, or the aim. -/
theorem of_eq (attempts : r'.attempts = r.attempts) (generation : r'.generation = r.generation)
    (inFlight : r'.inFlight = r.inFlight) : Ages r r' := by
  refine ⟨congrArg List.length attempts, generation, fun i held => inFlight ▸ held,
    fun i a found => ⟨a, attempts ▸ found, rfl, id, id, fun held => Or.inl (inFlight ▸ held)⟩⟩

theorem set {i : Nat} {a a' : Attempt Id} (found : r.attempts[i]? = some a)
    (generation : a'.generation = a.generation)
    (finished : a.progress = .finished → a'.progress = .finished)
    (given : ¬ a.Running → ¬ a'.Running) :
    Ages r { r with attempts := r.attempts.set i a' } := by
  refine ⟨List.length_set, rfl, fun j held => held, fun j b foundB => ?_⟩
  by_cases here : i = j
  · subst here
    obtain rfl := Option.some.inj (found.symm.trans foundB)
    have inside := (List.getElem?_eq_some_iff.mp found).1
    exact ⟨a', List.getElem?_set_self inside, generation, finished, given, Or.inl⟩
  · exact ⟨b, by rw [List.getElem?_set_ne here]; exact foundB, rfl, id, id, Or.inl⟩

theorem cancel (r : Rebuild Id) : Ages r r.cancel := by
  refine ⟨?_, ?_, fun i held => ?_, fun i a found => ?_⟩
  · cases held : r.inFlight with
    | none => simp only [Rebuild.cancel, held]
    | some i => simp only [Rebuild.cancel, held, List.length_modify]
  · cases held : r.inFlight with
    | none => simp only [Rebuild.cancel, held]
    | some i => simp only [Rebuild.cancel, held]
  · rw [r.cancel_inFlight] at held
    cases held
  · rw [r.cancel_attempt i, found]
    by_cases here : r.inFlight = some i
    · refine ⟨a.abort, by simp only [here, if_true, Option.map_some], a.abort_generation,
        fun past => ?_, fun _ => not_running_abort a, fun _ => Or.inr (not_running_abort a)⟩
      simp only [Attempt.abort]
      split
      · exact past
      · rfl
    · exact ⟨a, by simp only [here, if_false], rfl, id, id, fun held => absurd held here⟩

theorem stoodDown (r : Rebuild Id) : Ages r r.stoodDown :=
  (cancel r).trans (of_eq rfl rfl rfl)

theorem retarget [DecidableEq Id] (r : Rebuild Id) (aim : Aim Id) : Ages r (r.retarget aim) := by
  simp only [Rebuild.retarget]
  split
  · exact (cancel r).trans (of_eq rfl rfl rfl)
  · exact of_eq rfl rfl rfl

theorem makeWay (r : Rebuild Id) : Ages r r.makeWay.1 := by
  simp only [Rebuild.makeWay]
  split
  · cases r.abandon_cases with
    | inl same =>
        rw [same]
        exact refl r
    | inr given =>
        obtain ⟨i, a, -, found, -, result⟩ := given
        have claimed : Ages r { r with
            attempts := r.attempts.set i { a with commitment := .abandoned } } :=
          set found rfl id id
        rw [result]
        exact claimed.trans (cancel _)
  · exact refl r

theorem task {i : Nat} {t : Attempt.TaskStep} (taken : r.task i (·.step t) = some r') :
    Ages r r' := by
  obtain ⟨a, a', found, stepped, rfl⟩ := task_cases taken
  refine set found (Attempt.step_frame stepped).1 (Attempt.step_over stepped)
    fun given running => ?_
  rcases Attempt.step_cases stepped with
    ⟨-, -, going, unfinished, rfl⟩ | ⟨-, -, rfl⟩ | ⟨-, -, connecting, ⟨-, rfl⟩ | ⟨-, rfl⟩⟩ |
    ⟨-, -, claimed, rfl⟩
  · exact given ⟨going, unfinished⟩
  · have going : a.aborted = false := running.1
    have unfinished := running.2
    simp only [going, Bool.false_eq_true, if_false] at unfinished
    exact given ⟨going, unfinished⟩
  · exact given ⟨running.1, by rw [connecting]; exact Progress.noConfusion⟩
  · exact given ⟨running.1, by rw [connecting]; exact Progress.noConfusion⟩
  · exact given ⟨running.1, by rw [claimed]; exact Progress.noConfusion⟩

theorem finish {i : Nat} (taken : r.task i Attempt.finish = some r') : Ages r r' := by
  obtain ⟨a, a', found, ended, rfl⟩ := task_cases taken
  rw [Attempt.finish_frame ended]
  exact set found rfl (fun _ => rfl) fun _ running => running.2 rfl

end Ages

/-- The attempts are numbered in order; only the newest may be in flight, and every
other one has ended or been given up. What has been reported is the end of its
attempt. -/
structure Numbering (r : Rebuild Id) (reports : List (Report Id)) : Prop where
  numbered : ∀ (i : Nat) a, r.attempts[i]? = some a → a.generation.toNat = i + 1
  newest : r.generation.toNat = r.attempts.length
  held : ∀ i, r.inFlight = some i → i + 1 = r.attempts.length
  given : ∀ (i : Nat) a, r.attempts[i]? = some a → r.inFlight = some i ∨ ¬ a.Running
  told : ∀ report ∈ reports, ∃ a, r.attempts[report.attempt]? = some a ∧
    a.progress = .finished ∧ report.generation = a.generation

namespace Numbering
variable {r r' : Rebuild Id} {reports : List (Report Id)}

theorem start (aim : Aim Id) : Numbering (aimed aim) [] where
  numbered i a found := by simp [aimed] at found
  newest := rfl
  held i held := by cases held
  given i a found := by simp [aimed] at found
  told report none := by cases none

theorem ages (numbering : Numbering r reports) (ages : Ages r r') : Numbering r' reports := by
  have back : ∀ (i : Nat) a', r'.attempts[i]? = some a' → ∃ a, r.attempts[i]? = some a := by
    intro i a' found
    have inside := (List.getElem?_eq_some_iff.mp found).1
    rw [ages.length] at inside
    exact ⟨_, List.getElem?_eq_getElem inside⟩
  refine ⟨fun i a' found => ?_, ?_, fun i held => ?_, fun i a' found => ?_,
    fun report member => ?_⟩
  · obtain ⟨a, before⟩ := back i a' found
    obtain ⟨b, now, generation, -⟩ := ages.attempt i a before
    obtain rfl := Option.some.inj (found.symm.trans now)
    rw [generation]
    exact numbering.numbered i a before
  · rw [ages.generation, ages.length]
    exact numbering.newest
  · rw [ages.length]
    exact numbering.held i (ages.inFlight i held)
  · obtain ⟨a, before⟩ := back i a' found
    obtain ⟨b, now, -, -, given, held⟩ := ages.attempt i a before
    obtain rfl := Option.some.inj (found.symm.trans now)
    cases numbering.given i a before with
    | inl still => exact held still
    | inr gone => exact Or.inr (given gone)
  · obtain ⟨a, found, past, number⟩ := numbering.told report member
    obtain ⟨b, now, generation, finished, -⟩ := ages.attempt _ a found
    exact ⟨b, now, finished past, number.trans generation.symm⟩

theorem fewer (numbering : Numbering r reports) {fewer : List (Report Id)}
    (inside : fewer ⊆ reports) : Numbering r fewer :=
  { numbering with told := fun report member => numbering.told report (inside member) }

theorem begin (numbering : Numbering r reports) (idle : r.inFlight = none)
    (room : r.attempts.length + 1 < 2 ^ 64) : Numbering r.begin reports := by
  have next : (r.generation + 1).toNat = r.attempts.length + 1 := by
    rw [UInt64.toNat_add, UInt64.toNat_one, numbering.newest, Nat.mod_eq_of_lt room]
  have cases_of : ∀ (i : Nat) a, r.begin.attempts[i]? = some a →
      r.attempts[i]? = some a ∨
        i = r.attempts.length ∧ a = { generation := r.generation + 1, aim := r.aim } := by
    intro i a found
    simp only [Rebuild.begin] at found
    by_cases inside : i < r.attempts.length
    · rw [List.getElem?_append_left inside] at found
      exact Or.inl found
    · have last := (List.getElem?_eq_some_iff.mp found).1
      rw [List.length_append, List.length_singleton] at last
      obtain rfl : i = r.attempts.length := by omega
      rw [List.getElem?_concat_length] at found
      exact Or.inr ⟨rfl, (Option.some.inj found).symm⟩
  refine ⟨fun i a found => ?_, ?_, fun i held => ?_, fun i a found => ?_,
    fun report member => ?_⟩
  · cases cases_of i a found with
    | inl old => exact numbering.numbered i a old
    | inr new =>
        obtain ⟨rfl, rfl⟩ := new
        exact next
  · simp only [Rebuild.begin, List.length_append, List.length_singleton]
    exact next
  · simp only [Rebuild.begin, List.length_append, List.length_singleton]
    cases held
    rfl
  · cases cases_of i a found with
    | inl old =>
        have gone := numbering.given i a old
        rw [idle] at gone
        exact Or.inr (gone.resolve_left fun none => by cases none)
    | inr new =>
        rw [new.1]
        exact Or.inl rfl
  · obtain ⟨a, found, past, number⟩ := numbering.told report member
    refine ⟨a, ?_, past, number⟩
    simp only [Rebuild.begin]
    rw [List.getElem?_append_left (List.getElem?_eq_some_iff.mp found).1]
    exact found

/-- A report with the number in force is that of the attempt in flight. -/
theorem own (numbering : Numbering r reports) {report : Report Id} (member : report ∈ reports)
    (wanted : r.inFlight.isSome ∧ report.generation = r.generation) :
    r.inFlight = some report.attempt := by
  obtain ⟨i, held⟩ := Option.isSome_iff_exists.mp wanted.1
  obtain ⟨a, found, -, number⟩ := numbering.told report member
  have place := numbering.numbered _ a found
  rw [← number, wanted.2, numbering.newest, ← numbering.held i held] at place
  rw [held, Nat.succ.inj place]

theorem accept (numbering : Numbering r reports) {report : Report Id}
    (member : report ∈ reports) : Numbering (r.accept report).1 reports := by
  cases r.accept_cases report with
  | inr other =>
      rw [other.1]
      exact numbering
  | inl wanted =>
      have own := numbering.own member ⟨wanted.1, wanted.2.1⟩
      obtain ⟨a, found, past, -⟩ := numbering.told report member
      rw [wanted.2.2]
      refine numbering.ages ⟨rfl, rfl, fun i none => (by cases none), fun i b foundB =>
        ⟨b, foundB, rfl, id, id, fun held => Or.inr fun running => ?_⟩⟩
      obtain rfl := Option.some.inj (own.symm.trans held)
      obtain rfl := Option.some.inj (found.symm.trans foundB)
      exact running.2 past

theorem report (numbering : Numbering r reports) {i : Nat} {a : Attempt Id}
    (found : r.attempts[i]? = some a) (taken : r.task i Attempt.finish = some r')
    (outcome : AttemptOutcome Id) :
    Numbering r' (reports ++ [⟨i, a.generation, outcome⟩]) := by
  have moved := numbering.ages (Ages.finish taken)
  refine { moved with told := fun report member => ?_ }
  cases List.mem_append.mp member with
  | inl old => exact moved.told report old
  | inr new =>
      rw [List.mem_singleton.mp new]
      obtain ⟨b, b', before, ended, rfl⟩ := task_cases taken
      obtain rfl := Option.some.inj (found.symm.trans before)
      rw [Attempt.finish_frame ended]
      exact ⟨_, List.getElem?_set_self (List.getElem?_eq_some_iff.mp found).1, rfl, rfl⟩

end Numbering
end Rebuild

namespace Schedule

/-- The schedule of one stay: the next attempt is not due before every earlier one is
the delay of the number in force behind it. -/
structure Paced (c : Schedule Id) : Prop where
  past : ∀ b ∈ c.stay, b.time ≤ c.clock
  spaced : c.stay.Pairwise fun a b => a.time + backoff b.attempt ≤ b.time
  numbers : ∀ b ∈ c.stay, b.attempt.toNat = min b.failures (2 ^ 32 - 1)
  silent : ∀ since, c.link.phase = .silent since → since = c.link.lastHeard
  recovering : ∀ attempt nextTry, c.link.phase = .recovering attempt nextTry →
    attempt.toNat = min c.failures (2 ^ 32 - 1) ∧ ∀ b ∈ c.stay, b.time + backoff attempt ≤ nextTry
  elsewhere : c.link.phase.isRecovering = false → c.stay = [] ∧ c.failures = 0

namespace Paced
variable {c : Schedule Id}

/-- The phase has left `Recovering`, or is not there yet. -/
theorem rest {c' : Schedule Id} (stay : c'.stay = []) (failures : c'.failures = 0)
    (silent : ∀ since, c'.link.phase = .silent since → since = c'.link.lastHeard)
    (first : ∀ attempt nextTry, c'.link.phase = .recovering attempt nextTry → attempt = 0) :
    Paced c' := by
  refine ⟨?_, ?_, ?_, silent, fun attempt nextTry standing => ?_, fun _ => ⟨stay, failures⟩⟩
  · rw [stay]
    exact fun b none => (by cases none)
  · rw [stay]
    exact List.Pairwise.nil
  · rw [stay]
    exact fun b none => (by cases none)
  · rw [first attempt nextTry standing, failures, stay]
    exact ⟨rfl, fun b none => (by cases none)⟩

/-- The schedule is written anew: the number in force and the delay that belongs to
it, from now on. -/
theorem rescheduled (paced : Paced c) {c' : Schedule Id} {now : Instant} (later : c.clock ≤ now)
    (clock : c'.clock = now) (stay : c'.stay = c.stay) {attempt : UInt32}
    (phase : c'.link.phase = .recovering attempt (now + backoff attempt))
    (number : attempt.toNat = min c'.failures (2 ^ 32 - 1)) : Paced c' := by
  refine ⟨?_, stay ▸ paced.spaced, stay ▸ paced.numbers, fun since silent => ?_,
    fun k nextTry standing => ?_, fun elsewhere => ?_⟩
  · rw [stay, clock]
    exact fun b member => Nat.le_trans (paced.past b member) later
  · rw [phase] at silent
    cases silent
  · rw [phase] at standing
    cases standing
    refine ⟨number, fun b member => ?_⟩
    rw [stay] at member
    exact Nat.add_le_add_right (Nat.le_trans (paced.past b member) later) _
  · rw [phase] at elsewhere
    cases elsewhere

theorem keep (paced : Paced c) {c' : Schedule Id} (clock : c.clock ≤ c'.clock)
    (stay : c'.stay = c.stay) (failures : c'.failures = c.failures)
    (phase : c'.link.phase = c.link.phase) (heard : c'.link.lastHeard = c.link.lastHeard) :
    Paced c' := by
  refine ⟨?_, stay ▸ paced.spaced, stay ▸ paced.numbers, ?_, ?_, ?_⟩
  · rw [stay]
    exact fun b member => Nat.le_trans (paced.past b member) clock
  · rw [phase, heard]
    exact paced.silent
  · rw [phase, stay, failures]
    exact paced.recovering
  · rw [phase, stay, failures]
    exact paced.elsewhere

theorem rebuilt (paced : Paced c) {now : Instant} (later : c.clock ≤ now)
    (rebuild : Rebuild Id) (reports : List (Report Id)) :
    Paced { onLink { c with rebuild := rebuild, reports := reports, failures := 0 }
        (c.link.rebuilt now) with clock := now } := by
  cases standing : c.link.phase with
  | recovering attempt nextTry =>
      simp only [onLink, LinkState.rebuilt, standing, Phase.isRecovering, if_true]
      exact paced.rescheduled later rfl rfl rfl rfl
  | live | silent _ | confirming =>
      obtain ⟨none, zero⟩ := paced.elsewhere (by rw [standing]; rfl)
      simp only [onLink, LinkState.rebuilt, standing, Phase.isRecovering, Bool.false_eq_true,
        if_false]
      exact paced.keep later none.symm zero.symm rfl rfl

theorem failed (paced : Paced c) {now : Instant} (later : c.clock ≤ now)
    (rebuild : Rebuild Id) (reports : List (Report Id)) :
    Paced { onLink { c with rebuild := rebuild, reports := reports, failures := c.failures + 1 }
        (c.link.attemptFailed now) with clock := now } := by
  cases standing : c.link.phase with
  | recovering attempt nextTry =>
      simp only [onLink, LinkState.attemptFailed, standing, Phase.isRecovering, if_true]
      refine paced.rescheduled later rfl rfl rfl ?_
      change _ = min (c.failures + 1) _
      rw [toNat_nextAttempt, (paced.recovering attempt nextTry standing).1]
      omega
  | live | silent _ | confirming =>
      obtain ⟨none, zero⟩ := paced.elsewhere (by rw [standing]; rfl)
      simp only [onLink, LinkState.attemptFailed, standing, Phase.isRecovering,
        Bool.false_eq_true, if_false]
      exact paced.keep later none.symm zero.symm rfl rfl

/-- The phase is the lap's own, and not a stay's. -/
theorem calmed (c : Schedule Id) {link : LinkState} (clock : Instant)
    (phase : link.phase.isRecovering = false)
    (silent : ∀ since, link.phase = .silent since → since = link.lastHeard) :
    Paced { c.onLink link with clock := clock } := by
  simp only [onLink, phase, Bool.false_eq_true, if_false]
  refine rest rfl rfl silent fun attempt nextTry standing => ?_
  change link.phase = _ at standing
  rw [standing] at phase
  cases phase

theorem evaluated (paced : Paced c) {now : Instant} (later : c.clock ≤ now) (replyOwed : Bool) :
    Paced { c.onLink (c.link.evaluate now replyOwed) with clock := now } := by
  rcases c.link.evaluate_cases now replyOwed with
    same | ⟨since, standing, -, result⟩ | ⟨calm, result⟩
  · rw [same]
    cases recovering : c.link.phase.isRecovering with
    | true =>
        simp only [onLink, recovering, if_true]
        exact paced.keep later rfl rfl rfl rfl
    | false => exact calmed c now recovering paced.silent
  · obtain ⟨none, zero⟩ := paced.elsewhere (by rw [standing]; rfl)
    rw [result]
    simp only [onLink, Phase.isRecovering, if_true]
    refine rest none zero (fun _ silent => (by cases silent)) fun attempt nextTry entered => ?_
    cases entered
    rfl
  · have resting : c.link.phase.isRecovering = false := by
      cases calm with
      | inl live =>
          rw [live]
          rfl
      | inr confirming =>
          rw [confirming]
          rfl
    cases result with
    | inl same =>
        rw [same]
        exact calmed c now resting paced.silent
    | inr silent =>
        rw [silent]
        exact calmed c now rfl fun since same => (Phase.silent.inj same).symm

theorem stepped (paced : Paced c) {now : Instant} (later : c.clock ≤ now) :
    Paced { c.rebuildStep now with clock := now } := by
  cases standing : c.link.phase with
  | recovering attempt nextTry =>
      obtain ⟨number, apart⟩ := paced.recovering attempt nextTry standing
      by_cases waits : (c.rebuild.isRunning || decide (now < nextTry)) = true
      · simp only [rebuildStep, standing, waits, if_true]
        exact paced.keep later rfl rfl rfl rfl
      · simp only [rebuildStep, standing, waits, LinkState.beginAttempt]
        simp only [Bool.or_eq_true, decide_eq_true_eq, not_or, Nat.not_lt] at waits
        refine ⟨fun b member => ?_, ?_, fun b member => ?_, fun since silent => (by cases silent),
          fun k next entered => ?_, fun elsewhere => (by cases elsewhere)⟩
        · cases List.mem_append.mp member with
          | inl old => exact Nat.le_trans (paced.past b old) later
          | inr new =>
              cases List.mem_singleton.mp new
              exact Nat.le_refl _
        · refine List.pairwise_append.mpr ⟨paced.spaced, List.pairwise_singleton _ _, ?_⟩
          intro a old b new
          rw [List.mem_singleton.mp new]
          exact Nat.le_trans (apart a old) waits.2
        · cases List.mem_append.mp member with
          | inl old => exact paced.numbers b old
          | inr new =>
              rw [List.mem_singleton.mp new]
              exact number
        · cases entered
          refine ⟨number, fun b member => ?_⟩
          cases List.mem_append.mp member with
          | inl old => exact Nat.add_le_add_right (Nat.le_trans (paced.past b old) later) _
          | inr new =>
              cases List.mem_singleton.mp new
              exact Nat.le_refl _
  | live | silent _ | confirming =>
      simp only [rebuildStep, standing]
      exact paced.keep later rfl rfl rfl rfl

theorem same (paced : Paced c) {link : LinkState} {clock : Instant} (later : c.clock ≤ clock)
    (phase : link.phase = c.link.phase) (heard : link.lastHeard = c.link.lastHeard) :
    Paced { c.onLink link with clock := clock } := by
  cases recovering : link.phase.isRecovering with
  | true =>
      simp only [onLink, recovering, if_true]
      exact paced.keep later rfl rfl phase heard
  | false =>
      refine calmed c clock recovering fun since silent => ?_
      rw [phase] at silent
      rw [heard]
      exact paced.silent since silent

theorem reported (paced : Paced c) (reports : List (Report Id)) (report : Report Id)
    {now : Instant} (later : c.clock ≤ now) :
    Paced { rebuildReported { c with reports := reports } report now with clock := now } := by
  cases answer : c.rebuild.accept report with
  | mk rebuild handed =>
      cases handed with
      | none =>
          simp only [rebuildReported, answer]
          exact paced.keep later rfl rfl rfl rfl
      | some outcome =>
          cases outcome with
          | landed established =>
              simp only [rebuildReported, answer]
              exact paced.rebuilt later rebuild.swapped reports
          | retry why =>
              simp only [rebuildReported, answer]
              exact paced.failed later rebuild reports
          | definite why =>
              simp only [rebuildReported, answer]
              exact paced.keep later rfl rfl rfl rfl

end Paced

section
variable (c : Schedule Id)

@[simp] theorem onLink_link (link : LinkState) : (c.onLink link).link = link := by
  simp only [onLink]
  split
  · rfl
  · rfl

@[simp] theorem onLink_rebuild (link : LinkState) : (c.onLink link).rebuild = c.rebuild := by
  simp only [onLink]
  split
  · rfl
  · rfl

@[simp] theorem onLink_reports (link : LinkState) : (c.onLink link).reports = c.reports := by
  simp only [onLink]
  split
  · rfl
  · rfl

@[simp] theorem onLink_clock (link : LinkState) : (c.onLink link).clock = c.clock := by
  simp only [onLink]
  split
  · rfl
  · rfl

end

theorem act_of_step [DecidableEq Id] {c c' : Schedule Id} {e : ScheduleEvent Id}
    (taken : c.step e = some c') :
    c.ended = false ∧ ∃ d, c.act e = some d ∧ c' = { d with clock := e.time.getD d.clock } := by
  simp only [step] at taken
  split at taken
  · cases taken
  · next going =>
      obtain ⟨d, acted, rfl⟩ := Option.map_eq_some_iff.mp taken
      exact ⟨by simpa using going, d, acted, rfl⟩

/-- What holds along a run. -/
structure Kept (c : Schedule Id) : Prop where
  numbering : c.rebuild.Numbering c.reports
  paced : Paced c

namespace Kept
variable {c : Schedule Id}

theorem start (now : Instant) (aim : Aim Id) : Kept (Schedule.start now aim) where
  numbering := Rebuild.Numbering.start aim
  paced := Paced.rest rfl rfl (fun _ silent => (by cases silent))
    fun _ _ standing => (by cases standing)

/-- The session goes on with `link`, and nothing else has changed. -/
theorem onLink (kept : Kept c) {link : LinkState} {clock : Instant}
    (paced : Paced { c.onLink link with clock := clock }) :
    Kept { c.onLink link with clock := clock } := by
  refine ⟨?_, paced⟩
  simp only [onLink_rebuild, onLink_reports]
  exact kept.numbering

theorem rebuildStep (kept : Kept c) {now : Instant} (later : c.clock ≤ now)
    (room : c.rebuild.attempts.length + 1 < 2 ^ 64) :
    Kept { c.rebuildStep now with clock := now } := by
  refine ⟨?_, kept.paced.stepped later⟩
  cases standing : c.link.phase with
  | recovering attempt nextTry =>
      by_cases waits : (c.rebuild.isRunning || decide (now < nextTry)) = true
      · simp only [Schedule.rebuildStep, standing, waits, if_true]
        exact kept.numbering
      · simp only [Schedule.rebuildStep, standing, waits]
        refine kept.numbering.begin ?_ room
        simp only [Bool.or_eq_true, not_or, Rebuild.isRunning] at waits
        exact Option.not_isSome_iff_eq_none.mp waits.1
  | live | silent _ | confirming =>
      simp only [Schedule.rebuildStep, standing]
      exact kept.numbering.ages (Rebuild.Ages.stoodDown _)

theorem reported (kept : Kept c) {report : Report Id} {rest : List (Report Id)}
    (channel : c.reports = report :: rest) {now : Instant} (later : c.clock ≤ now) :
    Kept { rebuildReported { c with reports := rest } report now with clock := now } := by
  refine ⟨?_, kept.paced.reported rest report later⟩
  have member : report ∈ c.reports := by
    rw [channel]
    exact List.mem_cons_self
  have accepted : (c.rebuild.accept report).1.Numbering rest := by
    refine (kept.numbering.accept member).fewer ?_
    rw [channel]
    exact List.subset_cons_self _ _
  cases answer : c.rebuild.accept report with
  | mk rebuild handed =>
      rw [answer] at accepted
      cases handed with
      | none =>
          simp only [rebuildReported, answer]
          exact accepted
      | some outcome =>
          cases outcome with
          | landed established =>
              simp only [rebuildReported, answer, onLink_rebuild, onLink_reports]
              exact accepted.ages (Rebuild.Ages.of_eq rfl rfl rfl)
          | retry why =>
              simp only [rebuildReported, answer, onLink_rebuild, onLink_reports]
              exact accepted
          | definite why =>
              simp only [rebuildReported, answer]
              exact accepted

theorem failOver (kept : Kept c) {now : Instant} (later : c.clock ≤ now) :
    Kept { c.failOver now with clock := now } := by
  have aged := kept.numbering.ages (Rebuild.Ages.makeWay c.rebuild)
  cases way : c.rebuild.makeWay with
  | mk rebuild free =>
      rw [way] at aged
      cases free with
      | false =>
          simp only [Schedule.failOver, way]
          exact ⟨aged, kept.paced.keep later rfl rfl rfl rfl⟩
      | true =>
          simp only [Schedule.failOver, way]
          refine ⟨?_, kept.paced.rebuilt later rebuild c.reports⟩
          simp only [onLink_rebuild, onLink_reports]
          exact aged

theorem step [DecidableEq Id] (kept : Kept c) {c' : Schedule Id} {e : ScheduleEvent Id}
    (admitted : c.Admitted e) (taken : c.step e = some c') : Kept c' := by
  obtain ⟨timely, room⟩ := admitted
  obtain ⟨-, d, acted, rfl⟩ := act_of_step taken
  cases e with
  | evaluate now replyOwed =>
      cases acted
      exact kept.onLink (kept.paced.evaluated timely replyOwed)
  | heard now =>
      cases acted
      refine kept.onLink (Paced.calmed c now ?_ fun since silent => ?_)
      · simp only [LinkState.heard]
        split
        · rfl
        · rfl
      · simp only [LinkState.heard] at silent
        split at silent
        · cases silent
        · cases silent
  | rebuildStep now =>
      cases acted
      exact kept.rebuildStep timely room
  | task i t =>
      obtain ⟨rebuild, moved, rfl⟩ := Option.map_eq_some_iff.mp acted
      exact ⟨kept.numbering.ages (Rebuild.Ages.task moved),
        kept.paced.keep (Nat.le_refl _) rfl rfl rfl rfl⟩
  | report i outcome =>
      obtain ⟨a, found, ended⟩ := Option.bind_eq_some_iff.mp acted
      obtain ⟨rebuild, moved, rfl⟩ := Option.map_eq_some_iff.mp ended
      exact ⟨kept.numbering.report found moved outcome,
        kept.paced.keep (Nat.le_refl _) rfl rfl rfl rfl⟩
  | reported now =>
      cases channel : c.reports with
      | nil =>
          simp only [act, channel] at acted
          cases acted
      | cons report rest =>
          simp only [act, channel] at acted
          cases acted
          exact kept.reported channel timely
  | failOver now =>
      cases acted
      exact kept.failOver timely
  | moved aim now =>
      cases acted
      refine ⟨?_, kept.paced.rebuilt timely _ c.reports⟩
      simp only [onLink_rebuild, onLink_reports]
      exact kept.numbering.ages
        ((Rebuild.Ages.stoodDown _).trans (Rebuild.Ages.retarget _ aim))
  | retarget aim =>
      cases acted
      exact ⟨kept.numbering.ages (Rebuild.Ages.retarget _ aim),
        kept.paced.keep (Nat.le_refl _) rfl rfl rfl rfl⟩
  | holdKeys bytes =>
      cases acted
      exact kept.onLink (kept.paced.same (Nat.le_of_eq (c.onLink_clock _).symm) rfl rfl)
  | takeHeld =>
      cases acted
      exact kept.onLink (Paced.calmed c _ rfl fun _ silent => (by cases silent))
  | dropHeld =>
      cases acted
      exact kept.onLink (Paced.calmed c _ rfl fun _ silent => (by cases silent))
  | retune silentAfter rebuildAfter =>
      cases acted
      exact kept.onLink (kept.paced.same (Nat.le_of_eq (c.onLink_clock _).symm) rfl rfl)

end Kept

theorem rebuilt_isRecovering (s : LinkState) (now : Instant) :
    (s.rebuilt now).phase.isRecovering = s.phase.isRecovering := by
  cases standing : s.phase with
  | live | silent _ | confirming | recovering _ _ =>
      simp only [LinkState.rebuilt, standing, Phase.isRecovering]

theorem beginAttempt_isRecovering (s : LinkState) (now : Instant) :
    (s.beginAttempt now).phase.isRecovering = s.phase.isRecovering := by
  cases standing : s.phase with
  | live | silent _ | confirming | recovering _ _ =>
      simp only [LinkState.beginAttempt, standing, Phase.isRecovering]

theorem attemptFailed_isRecovering (s : LinkState) (now : Instant) :
    (s.attemptFailed now).phase.isRecovering = s.phase.isRecovering := by
  cases standing : s.phase with
  | live | silent _ | confirming | recovering _ _ =>
      simp only [LinkState.attemptFailed, standing, Phase.isRecovering]

theorem evaluate_recovering (s : LinkState) (now : Instant) (replyOwed : Bool) :
    (s.evaluate now replyOwed).phase.isRecovering = s.phase.isRecovering ∨
      ∃ since, s.phase = .silent since ∧ now - since ≥ s.rebuildAfter := by
  rcases s.evaluate_cases now replyOwed with same | ⟨since, standing, due, -⟩ | ⟨calm, result⟩
  · exact Or.inl (by rw [same])
  · exact Or.inr ⟨since, standing, due⟩
  · have resting : s.phase.isRecovering = false := by
      cases calm with
      | inl live => rw [live]; rfl
      | inr confirming => rw [confirming]; rfl
    cases result with
    | inl same => exact Or.inl (by rw [same])
    | inr silent =>
        rw [silent, resting]
        exact Or.inl rfl

theorem act_recovering [DecidableEq Id] {c d : Schedule Id} {e : ScheduleEvent Id}
    (acted : c.act e = some d) :
    d.link.phase.isRecovering = c.link.phase.isRecovering ∨
      (∃ now replyOwed since, e = .evaluate now replyOwed ∧ c.link.phase = .silent since ∧
        now - since ≥ c.link.rebuildAfter) ∨
      (((∃ now, e = .heard now) ∨ e = .takeHeld ∨ e = .dropHeld) ∧
        d.link.phase.isRecovering = false) := by
  cases e with
  | evaluate now replyOwed =>
      cases acted
      rw [onLink_link]
      cases evaluate_recovering c.link now replyOwed with
      | inl same => exact Or.inl same
      | inr due =>
          obtain ⟨since, standing, due⟩ := due
          exact Or.inr (Or.inl ⟨now, replyOwed, since, rfl, standing, due⟩)
  | heard now =>
      cases acted
      refine Or.inr (Or.inr ⟨Or.inl ⟨now, rfl⟩, ?_⟩)
      rw [onLink_link]
      simp only [LinkState.heard]
      split
      · rfl
      · rfl
  | rebuildStep now =>
      cases acted
      left
      cases standing : c.link.phase with
      | recovering attempt nextTry =>
          simp only [rebuildStep, standing]
          split
          · rw [standing]
          · rw [beginAttempt_isRecovering, standing]
      | live | silent _ | confirming => simp only [rebuildStep, standing]
  | task i t =>
      obtain ⟨rebuild, -, rfl⟩ := Option.map_eq_some_iff.mp acted
      exact Or.inl rfl
  | report i outcome =>
      obtain ⟨a, -, ended⟩ := Option.bind_eq_some_iff.mp acted
      obtain ⟨rebuild, -, rfl⟩ := Option.map_eq_some_iff.mp ended
      exact Or.inl rfl
  | reported now =>
      left
      simp only [act] at acted
      split at acted
      · cases acted
      · next report rest channel =>
          cases acted
          simp only [rebuildReported]
          split
          · rfl
          · rw [onLink_link, rebuilt_isRecovering]
          · rw [onLink_link, attemptFailed_isRecovering]
          · rfl
  | failOver now =>
      cases acted
      left
      simp only [failOver]
      split
      · rfl
      · rw [onLink_link, rebuilt_isRecovering]
  | moved aim now =>
      cases acted
      left
      rw [onLink_link, rebuilt_isRecovering]
  | retarget aim =>
      cases acted
      exact Or.inl rfl
  | holdKeys bytes =>
      cases acted
      exact Or.inl (by rw [onLink_link]; rfl)
  | takeHeld =>
      cases acted
      exact Or.inr (Or.inr ⟨Or.inr (Or.inl rfl), by rw [onLink_link]; rfl⟩)
  | dropHeld =>
      cases acted
      exact Or.inr (Or.inr ⟨Or.inr (Or.inr rfl), by rw [onLink_link]; rfl⟩)
  | retune silentAfter rebuildAfter =>
      cases acted
      exact Or.inl (by rw [onLink_link]; rfl)

/-- The delay after so many failures: the saturation is long past the cap. -/
theorem backoff_eq {attempt : UInt32} {failures : Nat}
    (number : attempt.toNat = min failures (2 ^ 32 - 1)) :
    backoff attempt = seconds (2 ^ min failures 3) := by
  have same : min attempt.toNat 3 = min failures 3 := by omega
  rw [backoff, same]

/-- A failure of an attempt that is not in flight only leaves the channel. -/
theorem Kept.stale [DecidableEq Id] {c : Schedule Id} (kept : Kept c) {report : Report Id}
    {rest : List (Report Id)} (channel : c.reports = report :: rest) (going : c.ended = false)
    (other : c.rebuild.inFlight ≠ some report.attempt) (failure : report.outcome.isLanded = false)
    (now : Instant) : c.step (.reported now) = some { c with reports := rest, clock := now } := by
  have member : report ∈ c.reports := by
    rw [channel]
    exact List.mem_cons_self
  have dropped : c.rebuild.accept report = (c.rebuild, none) := by
    have unwanted : ¬ (c.rebuild.inFlight.isSome ∧ report.generation = c.rebuild.generation) :=
      fun wanted => other (kept.numbering.own member wanted)
    simp only [Rebuild.accept, unwanted, if_false]
    split
    · next established landed =>
        rw [landed] at failure
        cases failure
    · rfl
    · rfl
  simp only [Schedule.step, going, Schedule.act, channel, rebuildReported, dropped]
  rfl

/-- A landing is handed on, whichever attempt it came from. -/
theorem landing_handed_on {c : Schedule Id} {report : Report Id} {established : Id}
    (landed : report.outcome = .landed established) :
    (c.rebuild.accept report).2 = some (.landed established) := by
  simp only [Rebuild.accept, landed]
  split
  · rfl
  · rfl

/-- In every run with a clock that does not go back and fewer than `2 ^ 64` attempts:
at most one attempt runs; within a stay each begins no earlier than the delay of the
number in force after every one before it, which doubles with the failures up to
eight seconds; a failure of an attempt that is not in flight changes nothing and a
landing is always handed on; and `Recovering` is entered and left as designed. -/
theorem rebuilds_are_paced [DecidableEq Id] (first : Instant) (aim : Aim Id) {c : Schedule Id}
    (run : Reaches Schedule.step Schedule.Admitted (start first aim) c) :
    (∀ (i j : Nat) a b, c.rebuild.attempts[i]? = some a → a.Running →
      c.rebuild.attempts[j]? = some b → b.Running → i = j) ∧
    (∀ (i : Nat) a, c.rebuild.attempts[i]? = some a → a.Running → c.rebuild.inFlight = some i) ∧
    c.stay.Pairwise (fun a b => a.time + backoff b.attempt ≤ b.time) ∧
    (∀ b ∈ c.stay, backoff b.attempt = seconds (2 ^ min b.failures 3)) ∧
    (∀ report rest now, c.reports = report :: rest → c.ended = false →
      c.rebuild.inFlight ≠ some report.attempt → report.outcome.isLanded = false →
      c.step (.reported now) = some { c with reports := rest, clock := now }) ∧
    (∀ (report : Report Id) established, report.outcome = .landed established →
      (c.rebuild.accept report).2 = some (.landed established)) ∧
    (∀ e c', c.step e = some c' → c.link.phase.isRecovering = false →
      c'.link.phase.isRecovering = true → ∃ now replyOwed, e = .evaluate now replyOwed ∧
        c.link.phase = .silent c.link.lastHeard ∧
        now - c.link.lastHeard ≥ c.link.rebuildAfter) ∧
    (∀ e c', c.step e = some c' → c.link.phase.isRecovering = true →
      c'.link.phase.isRecovering = false →
      (∃ now, e = .heard now) ∨ e = .takeHeld ∨ e = .dropHeld) := by
  have kept : Kept c :=
    run.invariant (fun _ _ _ kept admitted taken => kept.step admitted taken)
      (Kept.start first aim)
  have held : ∀ (i : Nat) a, c.rebuild.attempts[i]? = some a → a.Running →
      c.rebuild.inFlight = some i := fun i a found running =>
    (kept.numbering.given i a found).resolve_right fun gone => gone running
  refine ⟨fun i j a b foundA runningA foundB runningB => ?_, held, kept.paced.spaced,
    fun b member => backoff_eq (kept.paced.numbers b member),
    fun report rest now channel going other failure =>
      kept.stale channel going other failure now,
    fun report established landed => landing_handed_on landed,
    fun e c' taken before after => ?_, fun e c' taken before after => ?_⟩
  · exact Option.some.inj ((held i a foundA runningA).symm.trans (held j b foundB runningB))
  · obtain ⟨-, d, acted, rfl⟩ := act_of_step taken
    change d.link.phase.isRecovering = true at after
    rcases act_recovering acted with same | ⟨now, replyOwed, since, rfl, standing, due⟩ | left
    · rw [before, after] at same
      cases same
    · obtain rfl := kept.paced.silent since standing
      exact ⟨now, replyOwed, rfl, standing, due⟩
    · rw [after] at left
      cases left.2
  · obtain ⟨-, d, acted, rfl⟩ := act_of_step taken
    change d.link.phase.isRecovering = false at after
    rcases act_recovering acted with same | ⟨now, replyOwed, since, rfl, standing, due⟩ | left
    · rw [before, after] at same
      cases same
    · rw [standing] at before
      cases before
    · exact left.1

/-- The first attempt of an outage fails and a second one is begun. -/
def failedOnce : List (ScheduleEvent Nat) :=
  [.evaluate 0 true, .evaluate (seconds 2) true, .evaluate (seconds 20) true,
    .rebuildStep (seconds 20), .task 0 .poll, .report 0 (.retry "no route"),
    .reported (seconds 21), .rebuildStep (seconds 22), .rebuildStep (seconds 23)]

theorem rebuilds_are_paced_after_a_failure :
    ∃ c, runFrom Schedule.step (start 0 .lobby) failedOnce = some c ∧
      c.stay = [⟨seconds 20, 0, 0⟩, ⟨seconds 23, 1, 1⟩] ∧
      c.stay.Pairwise (fun a b => a.time + backoff b.attempt ≤ b.time) := by
  have outcome : (runFrom Schedule.step (start 0 .lobby) failedOnce).map (·.stay) =
      some [⟨seconds 20, 0, 0⟩, ⟨seconds 23, 1, 1⟩] := by decide +kernel
  obtain ⟨c, run, stay⟩ := Option.map_eq_some_iff.mp outcome
  obtain ⟨-, -, spaced, -⟩ := rebuilds_are_paced 0 .lobby
    (reaches_of_runFrom failedOnce (by decide +kernel) run)
  exact ⟨c, run, stay, spaced⟩

/-- An outage that is over at once, with an attempt begun in it and given up. -/
def blip : List (ScheduleEvent Nat) :=
  [.evaluate 0 true, .evaluate 0 true, .rebuildStep 0, .heard 0, .rebuildStep 0]

/-- The first attempt has failed, and what it reported has not been read. -/
def unreadFailure : List (ScheduleEvent Nat) :=
  [.retune 0 0, .evaluate 0 true, .evaluate 0 true, .rebuildStep 0, .task 0 .poll,
    .report 0 (.retry "no route"), .heard 0, .rebuildStep 0]

def unreadAt (generation : UInt64) (attempts : List (Attempt Nat)) : Schedule Nat where
  link := { LinkState.new 0 with silentAfter := 0, rebuildAfter := 0 }
  rebuild := { aim := .lobby, generation := generation, attempts := attempts }
  reports := [⟨0, 1, .retry "no route"⟩]
  clock := 0

theorem unreadFailure_eq :
    ∃ a, runFrom Schedule.step (start 0 .lobby) unreadFailure = some (unreadAt 1 [a]) := ⟨_, rfl⟩

theorem modify_last {α : Type} (f : α → α) (as : List α) (a : α) :
    (as ++ [a]).modify as.length f = as ++ [f a] := by
  induction as with
  | nil => rfl
  | cons b as ih =>
      rw [List.cons_append, List.length_cons, List.modify_succ_cons, ih, List.cons_append]

theorem unread_blip (generation : UInt64) (attempts : List (Attempt Nat)) :
    ∃ a, Reaches Schedule.step Timely (unreadAt generation attempts)
      (unreadAt (generation + 1) (attempts ++ [a])) := by
  refine ⟨Attempt.abort ⟨generation + 1, .lobby, .connecting, .connecting, false, false, false⟩,
    reaches_of_runFrom blip ?_ ?_⟩
  · exact ⟨Nat.le_refl 0, Nat.le_refl 0, Nat.le_refl 0, Nat.le_refl 0, Nat.le_refl 0, trivial⟩
  · rw [← modify_last]
    rfl

theorem unread_moves (attempts : List (Attempt Nat)) (n : Nat) :
    ∃ later, Reaches Schedule.step Timely (unreadAt 1 attempts)
      (unreadAt (1 + UInt64.ofNat n) (attempts ++ later)) := by
  induction n with
  | zero =>
      refine ⟨[], ?_⟩
      rw [List.append_nil]
      exact Relation.ReflTransGen.refl
  | succ n ih =>
      obtain ⟨later, moved⟩ := ih
      obtain ⟨a, blip⟩ := unread_blip (1 + UInt64.ofNat n) (attempts ++ later)
      refine ⟨later ++ [a], ?_⟩
      rw [UInt64.ofNat_add, ← UInt64.add_assoc, ← List.append_assoc]
      exact Relation.ReflTransGen.trans moved blip

/-- The generation comes round: the failure of the first attempt is taken for that of
the one in flight, and the schedule moves. -/
theorem old_failure_moves_the_schedule :
    ∃ c d : Schedule Nat, Reaches Schedule.step Timely (start 0 .lobby) c ∧
      c.reports = [⟨0, 1, .retry "no route"⟩] ∧ c.rebuild.inFlight ≠ some 0 ∧
      c.link.phase = .recovering 0 (seconds 1) ∧ c.step (.reported 0) = some d ∧
      d.link.phase = .recovering 1 (seconds 2) ∧ d.rebuild.inFlight = none := by
  obtain ⟨first, begun⟩ := unreadFailure_eq
  obtain ⟨later, moved⟩ := unread_moves [first] (2 ^ 64 - 1)
  rw [show (1 : UInt64) + UInt64.ofNat (2 ^ 64 - 1) = 0 by decide +kernel] at moved
  have reached : Reaches Schedule.step Timely (start 0 .lobby) (unreadAt 0 ([first] ++ later)) :=
    Relation.ReflTransGen.trans
      (reaches_of_runFrom unreadFailure (by decide +kernel) begun) moved
  have again : ∃ c, runFrom Schedule.step (unreadAt 0 ([first] ++ later))
      [.evaluate 0 true, .evaluate 0 true, .rebuildStep 0] = some c ∧
      c.reports = [⟨0, 1, .retry "no route"⟩] ∧ c.rebuild.inFlight = some (later.length + 1) ∧
      c.link.phase = .recovering 0 (seconds 1) ∧
      (c.step (.reported 0)).map (fun d => (d.link.phase, d.rebuild.inFlight)) =
        some (.recovering 1 (seconds 2), none) :=
    ⟨_, rfl, rfl, rfl, rfl, rfl⟩
  obtain ⟨c, run, channel, flying, phase, outcome⟩ := again
  have other : c.rebuild.inFlight ≠ some 0 := by
    rw [flying]
    exact fun same => Nat.succ_ne_zero _ (Option.some.inj same)
  obtain ⟨d, taken, after⟩ := Option.map_eq_some_iff.mp outcome
  simp only [Prod.mk.injEq] at after
  refine ⟨c, d, Relation.ReflTransGen.trans reached
    (reaches_of_runFrom _ ?_ run), channel, other, phase, taken, after.1, after.2⟩
  exact ⟨Nat.le_refl 0, Nat.le_refl 0, Nat.le_refl 0, trivial⟩

end Schedule
end Oxutrm.Client
