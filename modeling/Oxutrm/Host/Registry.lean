import Mathlib.Data.Fintype.Basic
import Mathlib.Logic.Function.Basic
import Oxutrm.Lib.Transition

/-!
The session registry: one directory for every session, a `meta.json` in it, and
a lock under which every name is taken. A session is named by its id, which is
its directory's name too. Every system call of `register_in`, `rename`, `update`
and the guard's drop is a step, and so is every entry a listing reads.
-/
namespace Oxutrm.Host
open Transition

/-- A session's directory: without its `meta.json`, or with the name it records. -/
inductive EntryDir (N : Type) where
  | bare
  | recorded (name : Option N)
  deriving DecidableEq

/-- A call that takes a name, with what was there when it was made: the session's
directory, and for a rename the name in its own record. -/
inductive Naming (N : Type) where
  | register (was : Option (EntryDir N)) (name : Option N)
  | rename (was : Option (EntryDir N)) (current name : Option N)
  deriving DecidableEq

namespace Naming
variable {N : Type}

def name : Naming N → Option N
  | register _ name => name
  | rename _ _ name => name

/-- A nameless registration takes no lock. -/
def locks : Naming N → Bool
  | register _ name => name.isSome
  | rename _ _ _ => true

end Naming

/-- Where a session process stands in its calls: what it does next. -/
inductive RegistryStage (P N : Type) where
  /-- No guard. -/
  | idle
  /-- `NamesLock::take`. -/
  | waiting (call : Naming N)
  /-- `read_dir`, holding the lock. -/
  | listing (call : Naming N)
  /-- The entries of the listing that are still to be read. -/
  | checking (call : Naming N) (left : List P)
  /-- `create_dir`. -/
  | making (call : Naming N)
  /-- The rename of the temporary file over `meta.json`, with which the call is
  over and the lock let go. -/
  | writing (call : Naming N)
  /-- Registered, the record in memory carrying `name`. -/
  | held (name : Option N)
  /-- The guard was dropped and its `meta.json` is gone. -/
  | leaving
  | dead
  deriving DecidableEq

def RegistryStage.call {P N : Type} : RegistryStage P N → Option (Naming N)
  | .waiting call | .listing call | .checking call _ | .making call | .writing call => some call
  | _ => none

structure Registry (P N : Type) where
  disk : P → Option (EntryDir N)
  lock : Option P := none
  stage : P → RegistryStage P N := fun _ => .idle

inductive RegistryEvent (P N : Type) where
  | register (p : P) (name : Option N)
  | rename (p : P) (name : Option N)
  | take (p : P)
  /-- The listing names the directories there are, and perhaps others that come
  and go meanwhile. -/
  | list (p : P) (entries : List P)
  /-- The next entry is read; whether it looks stale. -/
  | check (p : P) (stale : Bool)
  | make (p : P)
  | write (p : P)
  /-- The write of `meta.json` fails: a rename is over, and a registration drops
  the guard it has just made. -/
  | fail (p : P)
  /-- `update` with the name the session has. -/
  | update (p : P)
  /-- The guard is dropped: first the files in the directory go, then the
  directory. -/
  | drop (p : P)
  | leave (p : P)
  | crash (p : P)
  /-- Somebody's listing removes a stale entry. -/
  | prune (p : P)
  deriving DecidableEq

/-- The session a step belongs to. -/
def RegistryEvent.actor {P N : Type} : RegistryEvent P N → P
  | register p _ | rename p _ | take p | list p _ | check p _ | make p | write p | fail p
  | update p | drop p | leave p | crash p | prune p => p

namespace Registry
variable {P N : Type} [DecidableEq P]

def put (s : Registry P N) (p : P) (stage : RegistryStage P N) : Registry P N :=
  { s with stage := Function.update s.stage p stage }

def setDisk (s : Registry P N) (p : P) (dir : Option (EntryDir N)) : Registry P N :=
  { s with disk := Function.update s.disk p dir }

/-- The lock goes with the process that has it. -/
def unlock (s : Registry P N) (p : P) : Registry P N :=
  { s with lock := if s.lock = some p then none else s.lock }

/-- A refused call leaves its session as it found it. -/
def refuse (s : Registry P N) (p : P) : Naming N → Registry P N
  | .register _ _ => (s.unlock p).put p .idle
  | .rename _ current _ => (s.unlock p).put p (.held current)

/-- What follows once the name is known to be free. -/
def granted (s : Registry P N) (p : P) (call : Naming N) : Registry P N :=
  match call with
  | .register _ _ => s.put p (.making call)
  | .rename _ _ _ => s.put p (.writing call)

section Step
variable [DecidableEq N]

def Dead (s : Registry P N) (p : P) : Prop := s.stage p = .dead

instance (s : Registry P N) (p : P) : Decidable (s.Dead p) :=
  inferInstanceAs (Decidable (_ = _))

/-- The entry of a session other than `p` that has the name already. -/
def Clashes (s : Registry P N) (p : P) (call : Naming N) (d : P) : Prop :=
  d ≠ p ∧ call.name ≠ none ∧ s.disk d = some (.recorded call.name)

instance (s : Registry P N) (p : P) (call : Naming N) (d : P) : Decidable (s.Clashes p call d) :=
  inferInstanceAs (Decidable (_ ∧ _ ∧ _))

def step (s : Registry P N) : RegistryEvent P N → Option (Registry P N)
  | .register p name =>
      match s.stage p, name with
      | .idle, some _ => some (s.put p (.waiting (.register (s.disk p) name)))
      | .idle, none => some (s.put p (.making (.register (s.disk p) name)))
      | _, _ => none
  | .rename p name =>
      match s.stage p with
      | .held current => some (s.put p (.waiting (.rename (s.disk p) current name)))
      | _ => none
  | .take p =>
      match s.stage p, s.lock with
      | .waiting call, none =>
          if call.name = none then some ({ s with lock := some p }.granted p call)
          else some ({ s with lock := some p }.put p (.listing call))
      | _, _ => none
  | .list p entries =>
      match s.stage p with
      | .listing call => some (s.put p (.checking call entries))
      | _ => none
  | .check p stale =>
      match s.stage p with
      | .checking call [] => some (s.granted p call)
      | .checking call (d :: left) =>
          if stale then some ((s.setDisk d none).put p (.checking call left))
          else if s.Clashes p call d then some (s.refuse p call)
          else some (s.put p (.checking call left))
      | _ => none
  | .make p =>
      match s.stage p with
      | .making call =>
          if s.disk p = none then some ((s.setDisk p (some .bare)).put p (.writing call))
          else some (s.refuse p call)
      | _ => none
  | .write p =>
      match s.stage p with
      | .writing call =>
          some (((s.setDisk p (some (.recorded call.name))).unlock p).put p (.held call.name))
      | _ => none
  | .fail p =>
      match s.stage p with
      | .writing (.register was name) => some ((s.setDisk p none).refuse p (.register was name))
      | .writing (.rename was current name) => some (s.refuse p (.rename was current name))
      | _ => none
  | .update p =>
      match s.stage p with
      | .held name => some (s.setDisk p (some (.recorded name)))
      | _ => none
  | .drop p =>
      match s.stage p with
      | .held _ => some ((s.setDisk p (some .bare)).put p .leaving)
      | _ => none
  | .leave p =>
      match s.stage p with
      | .leaving => some ((s.setDisk p none).put p .idle)
      | _ => none
  | .crash p => some ((s.unlock p).put p .dead)
  | .prune p => some (s.setDisk p none)

/-- What the file system and the process table promise: a listing names every
directory that is there, and only the entry of a process that is gone looks
stale. -/
def Promised (s : Registry P N) : RegistryEvent P N → Prop
  | .list _ entries => ∀ d, s.disk d ≠ none → d ∈ entries
  | .check p stale =>
      match s.stage p with
      | .checking _ (d :: _) => stale = true → s.Dead d
      | _ => True
  | .prune p => s.Dead p
  | _ => True

instance [Fintype P] (s : Registry P N) (e : RegistryEvent P N) : Decidable (s.Promised e) :=
  match e with
  | .list _ entries => inferInstanceAs (Decidable (∀ d, s.disk d ≠ none → d ∈ entries))
  | .check p stale =>
      match at_ : s.stage p with
      | .checking call (d :: left) =>
          decidable_of_iff (stale = true → s.Dead d) (by simp only [Promised, at_])
      | .checking call [] => .isTrue (by simp only [Promised, at_])
      | .idle | .waiting _ | .listing _ | .making _ | .writing _ | .held _ | .leaving | .dead =>
          .isTrue (by simp only [Promised, at_])
  | .prune p => inferInstanceAs (Decidable (s.Dead p))
  | .register _ _ | .rename _ _ | .take _ | .make _ | .write _ | .fail _ | .update _ | .drop _
  | .leave _ | .crash _ => .isTrue trivial

end Step

/-- The entry of a living session that carries the name. -/
def Carries (s : Registry P N) (d : P) (n : N) : Prop :=
  s.stage d ≠ .dead ∧ s.disk d = some (.recorded (some n))

/-- No living session has an entry yet. What is left of dead ones may be there. -/
def Vacant (s : Registry P N) : Prop :=
  s.lock = none ∧
  ∀ p, s.stage p = .dead ∨ (s.stage p = .idle ∧ (s.disk p = none ∨ s.disk p = some .bare))

section Updates
variable (s : Registry P N) (p : P)

@[simp] theorem stage_put_self (stage : RegistryStage P N) : (s.put p stage).stage p = stage := by
  simp only [put, Function.update_self]

theorem stage_put_of_ne {p q : P} (other : q ≠ p) (stage : RegistryStage P N) :
    (s.put p stage).stage q = s.stage q := by
  simp only [put, Function.update_of_ne other]

@[simp] theorem disk_put (stage : RegistryStage P N) : (s.put p stage).disk = s.disk := rfl

@[simp] theorem lock_put (stage : RegistryStage P N) : (s.put p stage).lock = s.lock := rfl

@[simp] theorem disk_setDisk_self (dir : Option (EntryDir N)) :
    (s.setDisk p dir).disk p = dir := by
  simp only [setDisk, Function.update_self]

theorem disk_setDisk_of_ne {p q : P} (other : q ≠ p) (dir : Option (EntryDir N)) :
    (s.setDisk p dir).disk q = s.disk q := by
  simp only [setDisk, Function.update_of_ne other]

@[simp] theorem stage_setDisk (dir : Option (EntryDir N)) : (s.setDisk p dir).stage = s.stage := rfl

@[simp] theorem lock_setDisk (dir : Option (EntryDir N)) : (s.setDisk p dir).lock = s.lock := rfl

@[simp] theorem stage_unlock : (s.unlock p).stage = s.stage := rfl

@[simp] theorem disk_unlock : (s.unlock p).disk = s.disk := rfl

theorem lock_unlock_of_ne {p q : P} (other : q ≠ p) (held : s.lock = some q) :
    (s.unlock p).lock = some q := by
  have differs : s.lock ≠ some p := by
    rw [held]
    exact fun same => other (Option.some.inj same)
  rw [unlock, if_neg differs, held]

end Updates

/-- The stages a session is in only while it has the lock. -/
def Holds : RegistryStage P N → Prop
  | .listing _ | .checking _ _ => True
  | .making call | .writing call => call.locks = true
  | _ => False

/-- What a living session's directory holds, by where the session stands. -/
def Own : RegistryStage P N → Option (EntryDir N) → Prop
  | .idle, dir => dir = none ∨ dir = some .bare
  | .waiting call, dir | .listing call, dir | .checking call _, dir =>
      match call with
      | .register was _ => dir = was ∧ (dir = none ∨ dir = some .bare)
      | .rename was current _ => dir = was ∧ dir = some (.recorded current)
  | .making call, dir =>
      match call with
      | .register was _ => dir = was ∧ (dir = none ∨ dir = some .bare)
      | .rename _ _ _ => False
  | .writing call, dir =>
      match call with
      | .register was _ => was = none ∧ dir = some .bare
      | .rename was current _ => dir = was ∧ dir = some (.recorded current)
  | .held name, dir => dir = some (.recorded name)
  | .leaving, dir => dir = some .bare
  | .dead, _ => True

/-- The entries a session has looked at, which do not carry the name it wants. -/
def Seen : RegistryStage P N → N → P → Prop
  | .checking call left, n, d => call.name = some n ∧ d ∉ left
  | .making call, n, _ | .writing call, n, _ => call.name = some n
  | _, _, _ => False

/-- What every step keeps. -/
structure Sound (s : Registry P N) : Prop where
  holder : ∀ p, Holds (s.stage p) → s.lock = some p
  own : ∀ p, Own (s.stage p) (s.disk p)
  clear : ∀ p n d, Seen (s.stage p) n d → d ≠ p → ¬ s.Carries d n
  unique : ∀ d d' n, s.Carries d n → s.Carries d' n → d = d'

section Sound
variable {s t : Registry P N} {p : P}

/-- A step of `p` leaves every other living session alone. -/
structure Touches (p : P) (s t : Registry P N) : Prop where
  stage : ∀ q, q ≠ p → t.stage q = s.stage q
  disk : ∀ q, q ≠ p → s.stage q ≠ .dead → t.disk q = s.disk q
  lock : ∀ q, q ≠ p → s.lock = some q → t.lock = some q

omit [DecidableEq P] in
theorem Touches.carries (touches : Touches p s t) {q : P} (other : q ≠ p) {n : N}
    (carries : t.Carries q n) : s.Carries q n := by
  have alive : s.stage q ≠ .dead := by
    rw [← touches.stage q other]
    exact carries.1
  exact ⟨alive, by rw [← touches.disk q other alive]; exact carries.2⟩

omit [DecidableEq P] in
/-- A session that wants a name, and has passed one entry at least, has the lock. -/
theorem Sound.lock_of_seen (sound : s.Sound) {q d : P} {n : N} (seen : Seen (s.stage q) n d) :
    s.lock = some q := by
  refine sound.holder q ?_
  have named : ∀ call : Naming N, call.name = some n → call.locks = true := by
    intro call wants
    cases call with
    | register was name =>
        obtain rfl : name = some n := wants
        rfl
    | rename => rfl
  cases stage : s.stage q with
  | checking call left => trivial
  | making call | writing call =>
      rw [stage] at seen
      exact named call seen
  | idle | waiting | listing | held | leaving | dead =>
      rw [stage] at seen
      exact seen.elim

/-- A step keeps the invariant if it does so for its own session, and a name it
newly records is one nobody has. -/
theorem Sound.of_touches (sound : s.Sound) (touches : Touches p s t)
    (holder : Holds (t.stage p) → t.lock = some p) (own : Own (t.stage p) (t.disk p))
    (clear : ∀ n d, Seen (t.stage p) n d → d ≠ p → ¬ s.Carries d n)
    (fresh : ∀ n, t.Carries p n → s.Carries p n ∨
      (s.lock = some p ∧ ∀ d, d ≠ p → ¬ s.Carries d n)) : t.Sound where
  holder q holds := by
    by_cases same : q = p
    · subst same
      exact holder holds
    · rw [touches.stage q same] at holds
      exact touches.lock q same (sound.holder q holds)
  own q := by
    by_cases same : q = p
    · subst same
      exact own
    · rw [touches.stage q same]
      by_cases dead : s.stage q = .dead
      · rw [dead]
        trivial
      · rw [touches.disk q same dead]
        exact sound.own q
  clear q n d seen other carries := by
    by_cases same : q = p
    · subst same
      exact clear n d seen other (touches.carries other carries)
    · rw [touches.stage q same] at seen
      by_cases here : d = p
      · subst here
        rcases fresh n carries with before | ⟨locked, -⟩
        · exact sound.clear q n d seen other before
        · -- Nobody else can be looking for a name while `p` has the lock.
          rw [sound.lock_of_seen seen] at locked
          exact same (Option.some.inj locked)
      · exact sound.clear q n d seen other (touches.carries here carries)
  unique d d' n carries carries' := by
    by_cases here : d = p
    · by_cases there : d' = p
      · rw [here, there]
      · subst here
        have before' := touches.carries there carries'
        rcases fresh n carries with before | ⟨-, free⟩
        · exact sound.unique d d' n before before'
        · exact absurd before' (free d' there)
    · have before := touches.carries here carries
      by_cases there : d' = p
      · subst there
        rcases fresh n carries' with before' | ⟨-, free⟩
        · exact sound.unique d d' n before before'
        · exact absurd before (free d here)
      · exact sound.unique d d' n before (touches.carries there carries')

end Sound

section Steps
variable {s : Registry P N} {p : P}

theorem Sound.put (sound : s.Sound) {stage : RegistryStage P N} (alive : s.stage p ≠ .dead)
    (holder : Holds stage → s.lock = some p) (own : Own stage (s.disk p))
    (clear : ∀ n d, Seen stage n d → d ≠ p → ¬ s.Carries d n) : (s.put p stage).Sound := by
  have now : (s.put p stage).stage p = stage := stage_put_self s p stage
  have touches : Touches p s (s.put p stage) :=
    ⟨fun _ other => stage_put_of_ne s other stage, fun _ _ _ => rfl, fun _ _ held => held⟩
  refine sound.of_touches touches ?_ ?_ ?_ ?_
  · rw [now]
    exact holder
  · rw [now]
    exact own
  · rw [now]
    exact clear
  · intro n carries
    exact Or.inl ⟨alive, carries.2⟩

/-- A session's own directory changes, in the step that takes the session to a
stage without a claim on the lock. -/
theorem Sound.setDisk_put (sound : s.Sound) {dir : Option (EntryDir N)}
    {stage : RegistryStage P N} (holder : Holds stage → s.lock = some p) (own : Own stage dir)
    (clear : ∀ n d, Seen stage n d → d ≠ p → ¬ s.Carries d n)
    (fresh : ∀ n, dir = some (.recorded (some n)) → s.Carries p n ∨
      (s.lock = some p ∧ ∀ d, d ≠ p → ¬ s.Carries d n)) :
    ((s.setDisk p dir).put p stage).Sound := by
  have now : ((s.setDisk p dir).put p stage).stage p = stage := stage_put_self _ p stage
  have there : ((s.setDisk p dir).put p stage).disk p = dir := disk_setDisk_self s p dir
  have touches : Touches p s ((s.setDisk p dir).put p stage) :=
    ⟨fun _ other => stage_put_of_ne _ other stage, fun _ other _ => disk_setDisk_of_ne s other dir,
      fun _ _ held => held⟩
  refine sound.of_touches touches ?_ ?_ ?_ ?_
  · rw [now]
    exact holder
  · rw [now, there]
    exact own
  · rw [now]
    exact clear
  · intro n carries
    exact fresh n (there.symm.trans carries.2)

omit [DecidableEq P] in
theorem Sound.take (sound : s.Sound) (free : s.lock = none) (p : P) :
    Sound { s with lock := some p } where
  holder q holds := by
    have held := sound.holder q holds
    rw [free] at held
    cases held
  own := sound.own
  clear := sound.clear
  unique := sound.unique

theorem Sound.unlock (sound : s.Sound) (useless : ¬ Holds (s.stage p)) : (s.unlock p).Sound where
  holder q holds := by
    by_cases same : q = p
    · subst same
      exact absurd holds useless
    · exact lock_unlock_of_ne s same (sound.holder q holds)
  own := sound.own
  clear := sound.clear
  unique := sound.unique

theorem Sound.prune (sound : s.Sound) (dead : s.stage p = .dead) : (s.setDisk p none).Sound := by
  have touches : Touches p s (s.setDisk p none) :=
    ⟨fun _ _ => rfl, fun _ other _ => disk_setDisk_of_ne s other none, fun _ _ held => held⟩
  refine sound.of_touches touches ?_ ?_ ?_ ?_
  · exact sound.holder p
  · rw [stage_setDisk, dead]
    trivial
  · exact sound.clear p
  · intro n carries
    exact absurd dead carries.1

theorem Sound.refuse (sound : s.Sound) (alive : s.stage p ≠ .dead) {call : Naming N}
    (own : Own (P := P) (.waiting call) (s.disk p)) : (s.refuse p call).Sound := by
  have settle : ∀ stage : RegistryStage P N, (∀ n d, ¬ Seen stage n d) → ¬ Holds stage →
      Own stage (s.disk p) → ((s.unlock p).put p stage).Sound := by
    intro stage unseen useless its
    have after : (s.put p stage).Sound :=
      sound.put alive (fun holds => absurd holds useless) its fun n d seen => absurd seen (unseen n d)
    exact after.unlock (by rwa [stage_put_self])
  cases call with
  | register was name => exact settle .idle (fun _ _ seen => seen) (fun holds => holds) own.2
  | rename was current name =>
      exact settle (.held current) (fun _ _ seen => seen) (fun holds => holds) own.2

theorem Sound.granted (sound : s.Sound) (alive : s.stage p ≠ .dead) {call : Naming N}
    (lock : call.locks = true → s.lock = some p) (own : Own (P := P) (.waiting call) (s.disk p))
    (clear : ∀ n, call.name = some n → ∀ d, d ≠ p → ¬ s.Carries d n) :
    (s.granted p call).Sound := by
  cases call with
  | register was name | rename was current name =>
      exact sound.put alive lock own fun n d wanted => clear n wanted d

end Steps

end Registry
end Oxutrm.Host
