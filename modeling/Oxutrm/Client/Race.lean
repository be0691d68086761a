import Oxutrm.Client.Attempts
import Oxutrm.Lib.Transition

/-!
The attempts race the loop. `abandon` goes through the commitment, so an attempt
given up that way can no longer claim it; `cancel`, `retarget` and `stoodDown`
only abort, and a task that is inside a poll can still claim the commitment and
write its `Choose`. `older` counts the attempts begun before the standby was last
promoted, and `forsaken` lists those given up before they had claimed.
-/
namespace Oxutrm.Client
open Transition

variable {Id : Type}

structure Race (Id : Type) where
  rebuild : Rebuild Id
  reports : List (Report Unit) := []
  older : Nat := 0
  forsaken : List Nat := []

inductive RaceEvent (Id : Type) where
  | begin
  | abandon
  | cancel
  | retarget (aim : Aim Id)
  | stoodDown
  | task (i : Nat) (t : Attempt.TaskStep)
  | report (i : Nat) (outcome : AttemptOutcome Unit)
  | reported
  | failOver

/-- The attempt in flight, if it has not claimed its commitment. -/
def Rebuild.unclaimed (r : Rebuild Id) : List Nat :=
  match r.inFlight, r.current with
  | some i, some a => if a.commitment = .connecting then [i] else []
  | _, _ => []

namespace Race

def step [DecidableEq Id] (c : Race Id) : RaceEvent Id → Option (Race Id)
  | .begin => if c.rebuild.isRunning then none else some { c with rebuild := c.rebuild.begin }
  | .abandon =>
      match c.rebuild.abandon with
      | (_, false) => some c
      | (rebuild, true) => some { c with
          rebuild := rebuild, forsaken := c.forsaken ++ c.rebuild.unclaimed }
  | .cancel => some { c with
      rebuild := c.rebuild.cancel, forsaken := c.forsaken ++ c.rebuild.unclaimed }
  | .retarget aim => some { c with
      rebuild := c.rebuild.retarget aim
      forsaken := if aim ≠ c.rebuild.aim then c.forsaken ++ c.rebuild.unclaimed else c.forsaken }
  | .stoodDown => some { c with
      rebuild := c.rebuild.stoodDown, forsaken := c.forsaken ++ c.rebuild.unclaimed }
  | .task i t => (c.rebuild.task i (·.step t)).map fun rebuild => { c with rebuild := rebuild }
  | .report i outcome =>
      (c.rebuild.attempts[i]?).bind fun a =>
        if outcome.isLanded = true → a.sent = true then
          (c.rebuild.task i Attempt.finish).map fun rebuild =>
            { c with
              rebuild := rebuild
              reports := c.reports ++ [⟨i, a.generation, outcome⟩] }
        else none
  | .reported =>
      match c.reports with
      | [] => none
      | report :: rest =>
          match c.rebuild.accept report with
          | (rebuild, some (.landed _)) =>
              some { c with rebuild := rebuild.swapped, reports := rest }
          | (rebuild, _) => some { c with rebuild := rebuild, reports := rest }
  | .failOver =>
      match c.rebuild.makeWay with
      | (_, false) => some c
      | (rebuild, true) => some { c with
          rebuild := rebuild
          older := c.rebuild.attempts.length
          forsaken := c.forsaken ++ c.rebuild.unclaimed }

end Race

/-- The attempt in flight is at a yield, or past its `Choose`. -/
def Rebuild.Parked (r : Rebuild Id) : Prop :=
  ∀ a ∈ r.current, a.polling = true → a.progress ≠ .connecting ∧ a.progress ≠ .claimed

/-- Whatever gives an attempt up other than through its commitment finds it
parked. The other bound keeps the attempts' numbers apart. -/
def Race.Orderly (c : Race Id) : RaceEvent Id → Prop
  | .begin => c.rebuild.attempts.length + 1 < 2 ^ 64
  | .cancel | .stoodDown => c.rebuild.Parked
  | .retarget aim => aim ≠ c.rebuild.aim → c.rebuild.Parked
  | .abandon | .task _ _ | .report _ _ | .reported | .failOver => True

namespace Race

structure Silenced (c : Race Id) : Prop where
  flying : ∀ i, c.rebuild.inFlight = some i →
    i + 1 = c.rebuild.attempts.length ∧ c.older ≤ i ∧ i ∉ c.forsaken
  count : c.rebuild.generation.toNat = c.rebuild.attempts.length
  numbered : ∀ (i : Nat) a, c.rebuild.attempts[i]? = some a → a.generation.toNat = i + 1
  told : ∀ report ∈ c.reports, ∃ a, c.rebuild.attempts[report.attempt]? = some a ∧
    a.generation = report.generation ∧ a.progress = .finished
  mute : ∀ (i : Nat) a, c.rebuild.attempts[i]? = some a → c.rebuild.inFlight ≠ some i → a.Mute
  honest : c.rebuild.Honest
  begun : c.older ≤ c.rebuild.attempts.length ∧
    ∀ i ∈ c.forsaken, i < c.rebuild.attempts.length

namespace Silenced
variable {c : Race Id}

/-- Once nothing is in flight and every attempt is mute, the promotion and the
giving up can be recorded. -/
theorem grounded (silenced : Silenced c) {rebuild : Rebuild Id} {older : Nat}
    {forsaken : List Nat} (none : rebuild.inFlight = none)
    (generation : rebuild.generation = c.rebuild.generation)
    (length : rebuild.attempts.length = c.rebuild.attempts.length)
    (kept : ∀ (i : Nat) a', rebuild.attempts[i]? = some a' → ∃ a,
      c.rebuild.attempts[i]? = some a ∧ a'.generation = a.generation ∧
        (a.progress = .finished → a'.progress = .finished) ∧ a'.Mute)
    (honest : rebuild.Honest) (begun : older ≤ c.rebuild.attempts.length ∧
      ∀ i ∈ forsaken, i < c.rebuild.attempts.length) :
    Silenced { c with rebuild := rebuild, older := older, forsaken := forsaken } where
  flying i held := by
    rw [none] at held
    cases held
  count := by rw [generation, length, silenced.count]
  numbered i a' found := by
    obtain ⟨a, before, same, -⟩ := kept i a' found
    rw [same]
    exact silenced.numbered i a before
  told report member := by
    obtain ⟨a, found, same, past⟩ := silenced.told report member
    have inside := (List.getElem?_eq_some_iff.mp found).1
    obtain ⟨a', found'⟩ : ∃ a', rebuild.attempts[report.attempt]? = some a' :=
      ⟨_, List.getElem?_eq_getElem (length ▸ inside)⟩
    obtain ⟨a₀, before, sameNumber, stays, -⟩ := kept _ a' found'
    obtain rfl := Option.some.inj (found.symm.trans before)
    exact ⟨a', found', sameNumber.trans same, stays past⟩
  mute i a' found _ := by
    obtain ⟨a, -, -, -, mute⟩ := kept i a' found
    exact mute
  honest := honest
  begun := by
    rw [length]
    exact begun

theorem unclaimed_lt (silenced : Silenced c) :
    ∀ i ∈ c.forsaken ++ c.rebuild.unclaimed, i < c.rebuild.attempts.length := by
  intro i member
  cases List.mem_append.mp member with
  | inl old => exact silenced.begun.2 i old
  | inr new =>
      simp only [Rebuild.unclaimed] at new
      split at new
      · next j a held found =>
          split at new
          · rw [List.mem_singleton.mp new]
            exact Nat.lt_of_lt_of_eq (Nat.lt_succ_self j) (silenced.flying j held).1
          · cases new
      · cases new

theorem cancelled (silenced : Silenced c) (parked : c.rebuild.Parked) (aim : Aim Id)
    (displacing : Bool) :
    Silenced { c with
      rebuild := { c.rebuild.cancel with aim := aim, displacing := displacing }
      forsaken := c.forsaken ++ c.rebuild.unclaimed } := by
  refine silenced.grounded c.rebuild.cancel_inFlight ?_ ?_ ?_ silenced.honest.cancel
    ⟨silenced.begun.1, silenced.unclaimed_lt⟩
  · cases held : c.rebuild.inFlight with
    | none => simp only [Rebuild.cancel, held]
    | some j => simp only [Rebuild.cancel, held]
  · cases held : c.rebuild.inFlight with
    | none => simp only [Rebuild.cancel, held]
    | some j => simp only [Rebuild.cancel, held, List.length_modify]
  · intro i a' found
    change c.rebuild.cancel.attempts[i]? = some a' at found
    rw [c.rebuild.cancel_attempt i] at found
    by_cases here : c.rebuild.inFlight = some i
    · rw [if_pos here] at found
      obtain ⟨a, before, rfl⟩ := Option.map_eq_some_iff.mp found
      have current : a ∈ c.rebuild.current := by
        rw [Rebuild.current, here]
        exact before
      exact ⟨a, before, a.abort_generation, a.abort_over, Attempt.mute_abort (parked a current)⟩
    · rw [if_neg here] at found
      exact ⟨a', found, rfl, id, silenced.mute i a' found here⟩

theorem abandoned (silenced : Silenced c) {rebuild : Rebuild Id} {older : Nat}
    (given : c.rebuild.abandon = (rebuild, true)) (promoted : older ≤ c.rebuild.attempts.length) :
    Silenced { c with
      rebuild := rebuild
      older := older
      forsaken := c.forsaken ++ c.rebuild.unclaimed } := by
  have honest : rebuild.Honest := by
    have way := silenced.honest.makeWay
    have running : c.rebuild.isRunning = true := by
      by_contra idle
      simp only [Rebuild.isRunning, Bool.not_eq_true, Option.isSome_eq_false_iff,
        Option.isNone_iff_eq_none] at idle
      simp only [Rebuild.abandon, idle, Prod.mk.injEq, Bool.false_eq_true, and_false] at given
    simp only [Rebuild.makeWay, running, if_true, given] at way
    exact way
  cases c.rebuild.abandon_cases with
  | inl same =>
      rw [same] at given
      cases (Prod.mk.inj given).2
  | inr abandoned =>
      obtain ⟨j, a, held, found, -, result⟩ := abandoned
      rw [result] at given
      obtain ⟨rfl, -⟩ := Prod.mk.inj given
      refine silenced.grounded (Rebuild.cancel_inFlight _) ?_ ?_ ?_ honest
        ⟨promoted, silenced.unclaimed_lt⟩
      · simp only [Rebuild.cancel, held]
      · simp only [Rebuild.cancel, held, List.length_modify, List.length_set]
      · intro i a' found'
        rw [Rebuild.cancel_attempt] at found'
        by_cases here : j = i
        · subst here
          have inside := (List.getElem?_eq_some_iff.mp found).1
          simp only [held, if_true, List.getElem?_set_self inside, Option.map_some,
            Option.some.injEq] at found'
          subst found'
          have mute : ({ a with commitment := .abandoned } : Attempt Id).Mute :=
            Or.inr (Or.inr (Or.inr rfl))
          exact ⟨a, found, Attempt.abort_generation _,
            fun past => Attempt.abort_over { a with commitment := .abandoned } past, mute.abort⟩
        · have elsewhere : c.rebuild.inFlight ≠ some i := by
            rw [held]
            exact fun same => here (Option.some.inj same)
          simp only [held, Option.some.injEq, here, if_false, List.getElem?_set_ne here] at found'
          exact ⟨a', found', rfl, id, silenced.mute i a' found' elsewhere⟩

theorem promoted (silenced : Silenced c) {rebuild : Rebuild Id}
    (given : c.rebuild.makeWay = (rebuild, true)) :
    Silenced { c with
      rebuild := rebuild
      older := c.rebuild.attempts.length
      forsaken := c.forsaken ++ c.rebuild.unclaimed } := by
  simp only [Rebuild.makeWay] at given
  split at given
  · exact silenced.abandoned given (Nat.le_refl _)
  · next idle =>
      obtain ⟨rfl, -⟩ := Prod.mk.inj given
      have none : c.rebuild.inFlight = none := by
        simpa [Rebuild.isRunning] using idle
      refine silenced.grounded none rfl rfl ?_ silenced.honest
        ⟨Nat.le_refl _, silenced.unclaimed_lt⟩
      intro i a found
      have elsewhere : c.rebuild.inFlight ≠ some i := by
        rw [none]
        exact fun same => by cases same
      exact ⟨a, found, rfl, id, silenced.mute i a found elsewhere⟩

theorem begun_one (silenced : Silenced c) (idle : c.rebuild.inFlight = none)
    (room : c.rebuild.attempts.length + 1 < 2 ^ 64) :
    Silenced { c with rebuild := c.rebuild.begin } := by
  have next : (c.rebuild.generation + 1).toNat = c.rebuild.attempts.length + 1 := by
    have count := silenced.count
    rw [UInt64.toNat_add, UInt64.toNat_one]
    omega
  have split : ∀ (i : Nat) a, c.rebuild.begin.attempts[i]? = some a →
      c.rebuild.attempts[i]? = some a ∨ i = c.rebuild.attempts.length ∧
        a = { generation := c.rebuild.generation + 1, aim := c.rebuild.aim } := by
    intro i a found
    simp only [Rebuild.begin] at found
    by_cases inside : i < c.rebuild.attempts.length
    · rw [List.getElem?_append_left inside] at found
      exact Or.inl found
    · rw [List.getElem?_append_right (by omega)] at found
      obtain ⟨here, rfl⟩ := List.getElem?_eq_some_iff.mp found
      simp only [List.length_singleton] at here
      exact Or.inr ⟨by omega, by simp only [List.getElem_singleton]⟩
  have nowhere : ∀ i, c.rebuild.inFlight ≠ some i := by
    intro i held
    rw [idle] at held
    cases held
  have length : c.rebuild.begin.attempts.length = c.rebuild.attempts.length + 1 := by
    simp only [Rebuild.begin, List.length_append, List.length_singleton]
  exact
    { flying := fun i held => by
        obtain rfl : c.rebuild.attempts.length = i := Option.some.inj held
        refine ⟨length.symm, silenced.begun.1, fun forsaken => ?_⟩
        exact Nat.lt_irrefl _ (silenced.begun.2 _ forsaken)
      count := by
        rw [length]
        exact next
      numbered := fun i a found => by
        cases split i a found with
        | inl old => exact silenced.numbered i a old
        | inr new =>
            obtain ⟨rfl, rfl⟩ := new
            exact next
      told := fun report member => by
        obtain ⟨a, found, same, past⟩ := silenced.told report member
        obtain ⟨a', found', -, -⟩ := Rebuild.Extends.begin c.rebuild _ a found
        cases split _ a' found' with
        | inl old =>
            obtain rfl := Option.some.inj (found.symm.trans old)
            exact ⟨a, found', same, past⟩
        | inr new =>
            have inside := (List.getElem?_eq_some_iff.mp found).1
            omega
      mute := fun i a found elsewhere => by
        cases split i a found with
        | inl old => exact silenced.mute i a old (nowhere i)
        | inr new =>
            obtain ⟨rfl, -⟩ := new
            exact absurd rfl elsewhere
      honest := silenced.honest.begin
      begun := by
        rw [length]
        exact ⟨Nat.le_succ_of_le silenced.begun.1,
          fun i member => Nat.lt_succ_of_lt (silenced.begun.2 i member)⟩ }

theorem moved (silenced : Silenced c) {i : Nat} {a a' : Attempt Id}
    {reports : List (Report Unit)} (found : c.rebuild.attempts[i]? = some a)
    (generation : a'.generation = a.generation) (past : a.progress = .finished → a'.progress = .finished)
    (mute : a.Mute → a'.Mute) (honest : a'.Honest)
    (new : ∀ report ∈ reports, report ∈ c.reports ∨
      report.attempt = i ∧ report.generation = a.generation ∧ a'.progress = .finished) :
    Silenced { c with
      rebuild := { c.rebuild with attempts := c.rebuild.attempts.set i a' }
      reports := reports } := by
  have inside := (List.getElem?_eq_some_iff.mp found).1
  have here : (c.rebuild.attempts.set i a')[i]? = some a' := List.getElem?_set_self inside
  have split : ∀ (j : Nat) b, (c.rebuild.attempts.set i a')[j]? = some b →
      (j = i ∧ b = a') ∨ (i ≠ j ∧ c.rebuild.attempts[j]? = some b) := by
    intro j b foundB
    by_cases same : i = j
    · subst same
      exact Or.inl ⟨rfl, (Option.some.inj (here.symm.trans foundB)).symm⟩
    · rw [List.getElem?_set_ne same] at foundB
      exact Or.inr ⟨same, foundB⟩
  exact
    { flying := fun j held => by
        rw [List.length_set]
        exact silenced.flying j held
      count := by
        rw [List.length_set]
        exact silenced.count
      numbered := fun j b foundB => by
        cases split j b foundB with
        | inl own =>
            obtain ⟨rfl, rfl⟩ := own
            rw [generation]
            exact silenced.numbered j a found
        | inr other => exact silenced.numbered j b other.2
      told := fun report member => by
        cases new report member with
        | inl old =>
            obtain ⟨b, foundB, same, overB⟩ := silenced.told report old
            by_cases own : i = report.attempt
            · subst own
              obtain rfl := Option.some.inj (found.symm.trans foundB)
              exact ⟨a', here, generation.trans same, past overB⟩
            · exact ⟨b, by rw [List.getElem?_set_ne own]; exact foundB, same, overB⟩
        | inr fresh =>
            obtain ⟨own, same, ended⟩ := fresh
            exact ⟨a', by rw [own]; exact here, generation.trans same.symm, ended⟩
      mute := fun j b foundB elsewhere => by
        cases split j b foundB with
        | inl own =>
            obtain ⟨rfl, rfl⟩ := own
            exact mute (silenced.mute j a found elsewhere)
        | inr other => exact silenced.mute j b other.2 elsewhere
      honest := silenced.honest.set honest
      begun := by
        rw [List.length_set]
        exact silenced.begun }

theorem accepted (silenced : Silenced c) {report : Report Unit} {rest : List (Report Unit)}
    (waiting : c.reports = report :: rest) (displacing : Bool) :
    Silenced { c with
      rebuild := { (c.rebuild.accept report).1 with displacing := displacing }
      reports := rest } := by
  have remaining : ∀ other ∈ rest, other ∈ c.reports := fun other member => by
    rw [waiting]
    exact List.mem_cons_of_mem report member
  cases c.rebuild.accept_cases report with
  | inr same =>
      rw [same.1]
      exact ⟨silenced.flying, silenced.count, silenced.numbered,
        fun other member => silenced.told other (remaining other member), silenced.mute,
        silenced.honest, silenced.begun⟩
  | inl wanted =>
      obtain ⟨running, current, result⟩ := wanted
      rw [result]
      obtain ⟨j, held⟩ := Option.isSome_iff_exists.mp running
      obtain ⟨a, found, same, past⟩ := silenced.told report (by
        rw [waiting]
        exact List.mem_cons_self)
      have own : report.attempt = j := by
        have number := silenced.numbered _ a found
        have last := (silenced.flying j held).1
        rw [same, current, silenced.count] at number
        omega
      refine ⟨fun i held' => (by cases held'), silenced.count, silenced.numbered,
        fun other member => silenced.told other (remaining other member), ?_, silenced.honest,
        silenced.begun⟩
      intro i b foundB _
      by_cases here : c.rebuild.inFlight = some i
      · rw [held] at here
        obtain rfl := Option.some.inj here
        rw [own] at found
        obtain rfl := Option.some.inj (found.symm.trans foundB)
        exact Or.inr (Or.inr (Or.inl past))
      · exact silenced.mute i b foundB here

variable [DecidableEq Id]

theorem step (silenced : Silenced c) {e : RaceEvent Id} {c' : Race Id} (orderly : c.Orderly e)
    (taken : c.step e = some c') : Silenced c' := by
  cases e with
  | «begin» =>
      simp only [Race.step] at taken
      split at taken
      · cases taken
      · next idle =>
          cases taken
          exact silenced.begun_one (by simpa [Rebuild.isRunning] using idle) orderly
  | abandon =>
      simp only [Race.step] at taken
      split at taken
      · cases taken
        exact silenced
      · next rebuild given =>
          cases taken
          exact silenced.abandoned given silenced.begun.1
  | cancel =>
      cases taken
      exact silenced.cancelled orderly c.rebuild.cancel.aim c.rebuild.cancel.displacing
  | retarget aim =>
      cases taken
      by_cases same : aim = c.rebuild.aim
      · rw [if_neg (not_not.mpr same), same, Rebuild.retarget_same]
        exact silenced
      · rw [if_pos same, Rebuild.retarget_other _ same]
        exact silenced.cancelled (orderly same) aim c.rebuild.cancel.displacing
  | stoodDown =>
      cases taken
      exact silenced.cancelled orderly c.rebuild.cancel.aim false
  | task i t =>
      obtain ⟨rebuild, stepped, rfl⟩ := Option.map_eq_some_iff.mp taken
      obtain ⟨a, a', found, moved, rfl⟩ := Rebuild.task_cases stepped
      have honest := silenced.honest i a found
      exact silenced.moved found (Attempt.step_frame moved).1 (Attempt.step_over moved)
        (fun mute => mute.step honest moved) (honest.step moved) fun _ member => Or.inl member
  | report i outcome =>
      obtain ⟨a, found, rest⟩ := Option.bind_eq_some_iff.mp taken
      split at rest
      · obtain ⟨rebuild, finished, rfl⟩ := Option.map_eq_some_iff.mp rest
        obtain ⟨a₀, a', found₀, ended, rfl⟩ := Rebuild.task_cases finished
        obtain rfl := Option.some.inj (found.symm.trans found₀)
        rw [Attempt.finish_frame ended]
        refine silenced.moved found rfl (fun _ => rfl) (fun _ => Or.inr (Or.inr (Or.inl rfl)))
          (fun claimed => by cases claimed) ?_
        intro report member
        cases List.mem_append.mp member with
        | inl old => exact Or.inl old
        | inr new =>
            rw [List.mem_singleton.mp new]
            exact Or.inr ⟨rfl, rfl, rfl⟩
      · cases rest
  | reported =>
      simp only [Race.step] at taken
      split at taken
      · cases taken
      · next report rest waiting =>
          have kept := silenced.accepted waiting
          cases given : c.rebuild.accept report with
          | mk rebuild handed =>
              simp only [given] at kept taken
              split at taken
              · next rebuild' u same =>
                  obtain ⟨rfl, -⟩ := Prod.mk.inj same
                  cases taken
                  exact kept _
              · next rebuild' u _ same =>
                  obtain ⟨rfl, -⟩ := Prod.mk.inj same
                  cases taken
                  exact kept rebuild.displacing
  | failOver =>
      simp only [Race.step] at taken
      split at taken
      · cases taken
        exact silenced
      · next rebuild given =>
          cases taken
          exact silenced.promoted given

end Silenced

variable [DecidableEq Id]

/-- In every run in which an attempt is given up other than through its commitment
only while it is parked, no attempt begun before the standby was promoted sends
its `Choose` afterwards, and none given up before its claim ever does. -/
theorem no_choose_after_giving_up (aim : Aim Id) {c c' : Race Id}
    (run : Reaches Race.step Race.Orderly { rebuild := Rebuild.aimed aim } c) {i : Nat}
    (sent : c.step (.task i .choose) = some c') : c.older ≤ i ∧ i ∉ c.forsaken := by
  have start : Silenced ({ rebuild := Rebuild.aimed aim } : Race Id) :=
    { flying := fun i held => by cases held
      count := rfl
      numbered := fun i a found => by simp [Rebuild.aimed] at found
      told := fun report member => by cases member
      mute := fun i a found => by simp [Rebuild.aimed] at found
      honest := Rebuild.Honest.aimed aim
      begun := ⟨Nat.le_refl _, fun i member => by cases member⟩ }
  have silenced : Silenced c :=
    run.invariant (fun _ _ _ silenced orderly taken => silenced.step orderly taken) start
  obtain ⟨rebuild, stepped, -⟩ := Option.map_eq_some_iff.mp sent
  obtain ⟨a, a', found, moved, -⟩ := Rebuild.task_cases stepped
  have claimed : a.progress = .claimed := by
    simp only [Attempt.step, Attempt.choose] at moved
    split at moved
    · next ready => exact ready.2
    · cases moved
  have loud := (silenced.honest i a found).not_mute claimed
  have held : c.rebuild.inFlight = some i := by
    by_contra elsewhere
    exact loud (silenced.mute i a found elsewhere)
  exact (silenced.flying i held).2

instance decidableOrderly (c : Race Id) : DecidablePred c.Orderly
  | .begin => inferInstanceAs (Decidable (_ < _))
  | .cancel | .stoodDown => inferInstanceAs (Decidable (∀ a ∈ c.rebuild.current, _ → _))
  | .retarget aim =>
      inferInstanceAs (Decidable (aim ≠ c.rebuild.aim → ∀ a ∈ c.rebuild.current, _ → _))
  | .abandon | .task _ _ | .report _ _ | .reported | .failOver => .isTrue trivial

def recovering : Race Nat := { rebuild := Rebuild.aimed (.session 1) }

/-- An attempt abandoned in the middle of a poll, and another one that claims. -/
def abandoned : List (RaceEvent Nat) :=
  [.begin, .task 0 .poll, .failOver, .task 0 .commit, .begin, .task 1 .poll, .task 1 .commit]

theorem no_choose_after_giving_up_abandoned :
    ∃ c c', runFrom Race.step recovering abandoned = some c ∧
      c.step (.task 1 .choose) = some c' ∧ c.older = 1 ∧ c.forsaken = [0] ∧
      c.older ≤ 1 ∧ 1 ∉ c.forsaken := by
  have outcome : ((runFrom Race.step recovering abandoned).map fun c =>
      (c.older, c.forsaken, (c.step (.task 1 .choose)).isSome)) = some (1, [0], true) := by
    decide +kernel
  obtain ⟨c, run, shown⟩ := Option.map_eq_some_iff.mp outcome
  simp only [Prod.mk.injEq] at shown
  obtain ⟨older, forsaken, enabled⟩ := shown
  obtain ⟨c', sent⟩ := Option.isSome_iff_exists.mp enabled
  exact ⟨c, c', run, sent, older, forsaken, no_choose_after_giving_up (.session 1)
    (reaches_of_runFrom abandoned (by decide +kernel) run) sent⟩

/-- An attempt is stood down in the middle of a poll, the standby is promoted, and
the attempt then claims. -/
def stoodDownMidPoll : List (RaceEvent Nat) :=
  [.begin, .task 0 .poll, .stoodDown, .failOver, .task 0 .commit]

/-- The attempt that was given up, and overtaken by the standby, sends. -/
theorem choose_after_giving_up :
    ∃ c c', Reaches Race.step free recovering c ∧ c.step (.task 0 .choose) = some c' ∧
      0 < c.older ∧ 0 ∈ c.forsaken := by
  have outcome : ((runFrom Race.step recovering stoodDownMidPoll).map fun c =>
      (c.older, c.forsaken, (c.step (.task 0 .choose)).isSome)) = some (1, [0], true) := by
    decide +kernel
  obtain ⟨c, run, shown⟩ := Option.map_eq_some_iff.mp outcome
  simp only [Prod.mk.injEq] at shown
  obtain ⟨older, forsaken, enabled⟩ := shown
  obtain ⟨c', sent⟩ := Option.isSome_iff_exists.mp enabled
  refine ⟨c, c', reaches_of_runFrom _ (admits_free _ _ _) run, sent, ?_, ?_⟩
  · rw [older]
    decide
  · rw [forsaken]
    decide

end Race
end Oxutrm.Client
