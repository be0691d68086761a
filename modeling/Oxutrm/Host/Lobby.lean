import Mathlib.Data.Fintype.Basic
import Mathlib.Logic.Function.Basic
import Oxutrm.Lib.Transition

/-!
The door of one session process that has no shell yet. Every request is served by
a task of its own. What a task does between taking the record's lock and letting
it go, or up to an await, is one step.
-/
namespace Oxutrm.Host
open Transition

/-- The session's record: its name, and what an attach moves. -/
structure DoorRecord (N R : Type) where
  name : Option N
  rest : R
  deriving DecidableEq

/-- What a `New` finds before it writes anything. -/
structure DoorBefore (N : Type) where
  name : Option N
  entry : Option (Option N)
  lobby : Bool
  deriving DecidableEq

/-- Where a `New` stands, with the name it asks for. -/
inductive NewStage (N R : Type) where
  | idle
  /-- The dispatcher found a lobby: `start` is called. -/
  | starting (name : Option N)
  /-- The record carries the name; `register` is next. -/
  | naming (name : Option N) (before : DoorBefore N)
  /-- `register` failed. -/
  | clearing (name : Option N) (before : DoorBefore N)
  /-- `StartShell` is with the loop. -/
  | awaiting (name : Option N) (before : DoorBefore N)
  | started (name : Option N) (before : DoorBefore N)
  | failed (name : Option N) (before : DoorBefore N)
  /-- `unregister` has let go of the record, and drops the guard. -/
  | dropping (name : Option N) (before : DoorBefore N)
  | refused (before : DoorBefore N)
  | entry (name : Option N) (answer : DoorRecord N R)
  /-- No lobby: the request is not for `start`. -/
  | elsewhere
  deriving DecidableEq

structure Door (I N R : Type) where
  own : DoorRecord N R
  guard : Bool := false
  lobby : Bool := true
  /-- `meta.json`, while there is a directory. -/
  disk : Option (DoorRecord N R) := none
  news : I → NewStage N R := fun _ => .idle

inductive DoorEvent (I N R : Type) where
  | ask (i : I) (name : Option N)
  | setName (i : I)
  /-- `register`, which the registry or the socket may refuse. -/
  | register (i : I) (refused : Bool)
  | clear (i : I)
  | shell (i : I) (ok : Bool)
  | answer (i : I)
  | unregister (i : I)
  | drop (i : I)
  /-- `record_attach`. -/
  | attach (rest : R)
  /-- `rename_self`, which the registry may refuse. -/
  | rename (name : Option N) (refused : Bool)
  deriving DecidableEq

namespace NewStage
variable {N R : Type}

/-- A `New` between its first write and its answer. -/
def flight : NewStage N R → Option (Option N)
  | naming name _ | clearing name _ | awaiting name _ | started name _ | failed name _
  | dropping name _ => some name
  | _ => none

/-- A `New` the session's directory was made for. -/
def Owns : NewStage N R → Prop
  | awaiting _ _ | started _ _ | failed _ _ | dropping _ _ | entry _ _ => True
  | _ => False

end NewStage

namespace Door
variable {I N R : Type} [DecidableEq I]

def put (s : Door I N R) (i : I) (stage : NewStage N R) : Door I N R :=
  { s with news := Function.update s.news i stage }

def setName (s : Door I N R) (name : Option N) : Door I N R :=
  { s with own := { s.own with name } }

def before (s : Door I N R) : DoorBefore N where
  name := s.own.name
  entry := s.disk.map DoorRecord.name
  lobby := s.lobby

def step (s : Door I N R) : DoorEvent I N R → Option (Door I N R)
  | .ask i name =>
      match s.news i with
      | .idle => some (s.put i (if s.lobby then .starting name else .elsewhere))
      | _ => none
  | .setName i =>
      match s.news i with
      | .starting name => some ((s.setName name).put i (.naming name s.before))
      | _ => none
  | .register i refused =>
      match s.news i with
      | .naming name before =>
          if refused = true ∨ s.disk.isSome then some (s.put i (.clearing name before))
          else some ({ s with guard := true, lobby := false, disk := some s.own }.put i
            (.awaiting name before))
      | _ => none
  | .clear i =>
      match s.news i with
      | .clearing _ before => some ((s.setName none).put i (.refused before))
      | _ => none
  | .shell i ok =>
      match s.news i with
      | .awaiting name before =>
          some (s.put i (if ok then .started name before else .failed name before))
      | _ => none
  | .answer i =>
      match s.news i with
      | .started name _ => some (s.put i (.entry name s.own))
      | _ => none
  | .unregister i =>
      match s.news i with
      | .failed name before =>
          some ({ s with guard := false, lobby := true }.put i (.dropping name before))
      | _ => none
  | .drop i =>
      match s.news i with
      | .dropping _ before => some ({ s with disk := none }.put i (.refused before))
      | _ => none
  | .attach rest =>
      let own : DoorRecord N R := { s.own with rest }
      some { s with own, disk := if s.guard then some own else s.disk }
  | .rename name refused =>
      if s.guard = false ∨ refused = true then some s
      else
        let own : DoorRecord N R := { s.own with name }
        some { s with own, disk := some own }

/-- A lobby as the process starts it, or as a killed shell leaves it. -/
def Vacant (s : Door I N R) : Prop :=
  s.guard = false ∧ s.lobby = true ∧ s.disk = none ∧ ∀ i, s.news i = .idle

/-- What a step may do to the requests it answers. -/
structure Atomic (s t : Door I N R) : Prop where
  once : ∀ i j name name' answer answer', t.news i = .entry name answer →
    t.news j = .entry name' answer' → i = j
  granted : ∀ i name answer, t.news i = .entry name answer → s.news i ≠ t.news i →
    answer = t.own ∧ t.disk = some t.own ∧ t.own.name = name
  refused : ∀ i before, t.news i = .refused before → s.news i ≠ t.news i → t.before = before

/-- No `New` writes its name while another is on its way, nor in a session unless
neither has a name; a lobby that has a name is not refused its registration; a
shell fails to start only for a `New` that asks for the name the lobby has; and
a session is not given another name under a `New`. -/
def Undisturbed (s : Door I N R) : DoorEvent I N R → Prop
  | .setName i =>
      match s.news i with
      | .starting name => (∀ j, (s.news j).flight = none) ∧
          (s.lobby = true ∨ (name = none ∧ s.own.name = none))
      | _ => True
  | .register i refused =>
      match s.news i with
      | .naming _ before => refused = true ∨ s.disk.isSome → before.name = none
      | _ => True
  | .shell i ok =>
      match s.news i with
      | .awaiting name before => ok = false → name = before.name
      | _ => True
  | .rename name refused => s.guard = true → refused = false →
      ∀ i, (s.news i).flight = none ∨ (s.news i).flight = some name
  | _ => True

instance [Fintype I] [DecidableEq N] (s : Door I N R) (e : DoorEvent I N R) :
    Decidable (s.Undisturbed e) :=
  match e with
  | .setName i =>
      match at_ : s.news i with
      | .starting name =>
          decidable_of_iff ((∀ j, (s.news j).flight = none) ∧
            (s.lobby = true ∨ (name = none ∧ s.own.name = none))) (by simp only [Undisturbed, at_])
      | .idle | .naming _ _ | .clearing _ _ | .awaiting _ _ | .started _ _ | .failed _ _
      | .dropping _ _ | .refused _ | .entry _ _ | .elsewhere =>
          .isTrue (by simp only [Undisturbed, at_])
  | .register i refused =>
      match at_ : s.news i with
      | .naming _ before =>
          decidable_of_iff (refused = true ∨ s.disk.isSome → before.name = none)
            (by simp only [Undisturbed, at_])
      | .idle | .starting _ | .clearing _ _ | .awaiting _ _ | .started _ _ | .failed _ _
      | .dropping _ _ | .refused _ | .entry _ _ | .elsewhere =>
          .isTrue (by simp only [Undisturbed, at_])
  | .shell i ok =>
      match at_ : s.news i with
      | .awaiting name before =>
          decidable_of_iff (ok = false → name = before.name) (by simp only [Undisturbed, at_])
      | .idle | .starting _ | .naming _ _ | .clearing _ _ | .started _ _ | .failed _ _
      | .dropping _ _ | .refused _ | .entry _ _ | .elsewhere =>
          .isTrue (by simp only [Undisturbed, at_])
  | .rename name refused =>
      inferInstanceAs (Decidable (s.guard = true → refused = false →
        ∀ i, (s.news i).flight = none ∨ (s.news i).flight = some name))
  | .ask _ _ | .clear _ | .answer _ | .unregister _ | .drop _ | .attach _ => .isTrue trivial

/-- What the door's record, its guard and the disk are to a `New`. -/
def Fits (s : Door I N R) : NewStage N R → Prop
  | .naming name before => s.own.name = name ∧
      before = { s.before with name := before.name } ∧
      (s.lobby = true ∨ (name = none ∧ before.name = none))
  | .clearing name before => s.own.name = name ∧
      before = { s.before with name := none } ∧ (s.lobby = true ∨ name = none)
  | .awaiting name before | .started name before => s.guard = true ∧ s.own.name = name ∧
      before = { name := before.name, entry := none, lobby := true }
  | .failed name before => s.guard = true ∧ s.own.name = name ∧
      before = { name, entry := none, lobby := true }
  | .dropping name before => s.guard = false ∧ s.own.name = name ∧ s.disk ≠ none ∧
      before = { name, entry := none, lobby := true }
  | .entry _ _ => s.guard = true
  | _ => True

structure Sound (s : Door I N R) : Prop where
  lobby : s.lobby = !s.guard
  agree : s.guard = true → s.disk = some s.own
  empty : s.guard = false → (∀ i, ¬ (s.news i).Owns) → s.disk = none
  alone : ∀ i j, (s.news i).flight ≠ none → (s.news j).flight ≠ none → i = j
  owner : ∀ i j, (s.news i).Owns → (s.news j).Owns → i = j
  fits : ∀ i, s.Fits (s.news i)

section Updates
variable (s : Door I N R) (i : I)

@[simp] theorem news_put_self (stage : NewStage N R) : (s.put i stage).news i = stage := by
  simp only [put, Function.update_self]

theorem news_put_of_ne {i j : I} (other : j ≠ i) (stage : NewStage N R) :
    (s.put i stage).news j = s.news j := by
  simp only [put, Function.update_of_ne other]

theorem fits_put (j : I) (stage : NewStage N R) {other : NewStage N R} (fits : s.Fits other) :
    (s.put j stage).Fits other := by
  cases other with
  | naming | clearing | awaiting | started | failed | dropping | entry | refused | idle | starting
  | elsewhere => exact fits

end Updates

section Steps
variable {s t : Door I N R} {i : I}

omit [DecidableEq I] in
theorem Sound.fits_at (sound : s.Sound) {stage : NewStage N R} (at_ : s.news i = stage) :
    s.Fits stage := by
  have fits := sound.fits i
  rwa [at_] at fits

omit [DecidableEq I] in
theorem Sound.quiet (sound : s.Sound) {stage : NewStage N R} (at_ : s.news i = stage)
    (flies : stage.flight ≠ none) : ∀ j, j ≠ i → (s.news j).flight = none := by
  intro j other
  by_contra also
  exact other (sound.alone j i also (by rwa [at_]))

omit [DecidableEq I] in
theorem Sound.guarded (sound : s.Sound) (owns : (s.news i).Owns)
    (landed : (s.news i).flight = none) : s.guard = true := by
  have fits := sound.fits i
  cases at_ : s.news i with
  | entry name answer =>
      rw [at_] at fits
      exact fits
  | awaiting | started | failed | dropping =>
      rw [at_] at landed
      cases landed
  | idle | starting | naming | clearing | refused | elsewhere =>
      rw [at_] at owns
      exact owns.elim

omit [DecidableEq I] in
/-- A step of the only `New` on its way keeps the invariant if it does so for
that `New` and leaves a session its guard. -/
theorem Sound.of_new (sound : s.Sound) (others : ∀ j, j ≠ i → t.news j = s.news j)
    (quiet : ∀ j, j ≠ i → (s.news j).flight = none)
    (lobby : t.lobby = !t.guard) (agree : t.guard = true → t.disk = some t.own)
    (empty : t.guard = false → ¬ (t.news i).Owns → (∀ j, j ≠ i → ¬ (s.news j).Owns) →
      t.disk = none)
    (owner : (t.news i).Owns → ∀ j, j ≠ i → ¬ (s.news j).Owns)
    (keeps : ∀ j, j ≠ i → (s.news j).Owns → t.guard = true)
    (fits : t.Fits (t.news i)) : t.Sound where
  lobby := lobby
  agree := agree
  empty open_ nobody := by
    refine empty open_ (nobody i) ?_
    intro j other
    rw [← others j other]
    exact nobody j
  alone j k flies flies' := by
    have only : ∀ j, (t.news j).flight ≠ none → j = i := by
      intro j flies
      by_contra other
      rw [others j other] at flies
      exact flies (quiet j other)
    rw [only j flies, only k flies']
  owner j k owns owns' := by
    by_cases here : j = i
    · by_cases there : k = i
      · rw [here, there]
      · rw [others k there] at owns'
        rw [here] at owns
        exact absurd owns' (owner owns k there)
    · rw [others j here] at owns
      by_cases there : k = i
      · rw [there] at owns'
        exact absurd owns (owner owns' j here)
      · rw [others k there] at owns'
        exact sound.owner j k owns owns'
  fits j := by
    by_cases here : j = i
    · rw [here]
      exact fits
    · rw [others j here]
      have landed := quiet j here
      have keeps := keeps j here
      cases at_ : s.news j with
      | entry name answer =>
          rw [at_] at keeps
          exact keeps trivial
      | naming | clearing | awaiting | started | failed | dropping =>
          rw [at_] at landed
          cases landed
      | idle | starting | refused | elsewhere => trivial

omit [DecidableEq I] in
/-- A `New` without an entry touches nothing but the record, and that in a lobby. -/
theorem Sound.of_poor (sound : s.Sound) (others : ∀ j, j ≠ i → t.news j = s.news j)
    (quiet : ∀ j, j ≠ i → (s.news j).flight = none) (poor : ¬ (s.news i).Owns)
    (stays : ¬ (t.news i).Owns) (lobby : t.lobby = s.lobby) (guard : t.guard = s.guard)
    (disk : t.disk = s.disk) (own : s.guard = true → t.own = s.own)
    (fits : t.Fits (t.news i)) : t.Sound := by
  refine sound.of_new others quiet ?_ ?_ ?_ (fun owns => absurd owns stays) ?_ fits
  · rw [lobby, guard]
    exact sound.lobby
  · intro guarded
    rw [guard] at guarded
    rw [disk, own guarded]
    exact sound.agree guarded
  · intro open_ _ nobody
    rw [guard] at open_
    rw [disk]
    refine sound.empty open_ ?_
    intro j
    by_cases here : j = i
    · rw [here]
      exact poor
    · exact nobody j here
  · intro j other owns
    rw [guard]
    exact sound.guarded owns (quiet j other)

theorem Sound.of_owner (sound : s.Sound) {stage : NewStage N R} (owns : (s.news i).Owns)
    (flies : (s.news i).flight ≠ none) (next : stage.Owns) (fits : s.Fits stage) :
    (s.put i stage).Sound := by
  have sole : ∀ j, j ≠ i → ¬ (s.news j).Owns := fun j other also =>
    other (sound.owner j i also owns)
  refine sound.of_new (fun j other => news_put_of_ne s other stage) (sound.quiet rfl flies)
    sound.lobby sound.agree ?_ (fun _ => sole) (fun j other also => absurd also (sole j other)) ?_
  · intro _ poor
    rw [news_put_self] at poor
    exact absurd next poor
  · rw [news_put_self]
    exact fits_put s i stage fits

theorem Sound.asked (sound : s.Sound) {stage : NewStage N R} (at_ : s.news i = .idle)
    (landed : stage.flight = none) (poor : ¬ stage.Owns) (fits : s.Fits stage) :
    (s.put i stage).Sound where
  lobby := sound.lobby
  agree := sound.agree
  empty open_ nobody := by
    refine sound.empty open_ ?_
    intro j
    by_cases here : j = i
    · rw [here, at_]
      exact fun owns => owns
    · rw [← news_put_of_ne s here stage]
      exact nobody j
  alone j k flies flies' := by
    have elsewhere : ∀ j, ((s.put i stage).news j).flight ≠ none →
        (s.news j).flight ≠ none := by
      intro j flies
      by_cases here : j = i
      · rw [here, news_put_self] at flies
        exact absurd landed flies
      · rwa [news_put_of_ne s here] at flies
    exact sound.alone j k (elsewhere j flies) (elsewhere k flies')
  owner j k owns owns' := by
    have elsewhere : ∀ j, ((s.put i stage).news j).Owns → (s.news j).Owns := by
      intro j owns
      by_cases here : j = i
      · rw [here, news_put_self] at owns
        exact absurd owns poor
      · rwa [news_put_of_ne s here] at owns
    exact sound.owner j k (elsewhere j owns) (elsewhere k owns')
  fits j := by
    by_cases here : j = i
    · rw [here, news_put_self]
      exact fits_put s i stage fits
    · rw [news_put_of_ne s here]
      exact fits_put s i stage (sound.fits j)

theorem Sound.ask (sound : s.Sound) {name : Option N} (taken : s.step (.ask i name) = some t) :
    t.Sound := by
  cases at_ : s.news i with
  | idle =>
      simp only [step, at_, Option.some.injEq] at taken
      subst taken
      cases s.lobby with
      | true => exact sound.asked at_ rfl id trivial
      | false => exact sound.asked at_ rfl id trivial
  | starting | naming | clearing | awaiting | started | failed | dropping | refused | entry
  | elsewhere =>
      simp only [step, at_] at taken
      cases taken

theorem Sound.naming (sound : s.Sound) (admitted : s.Undisturbed (.setName i))
    (taken : s.step (.setName i) = some t) : t.Sound := by
  cases at_ : s.news i with
  | starting name =>
      simp only [step, at_, Option.some.injEq] at taken
      simp only [Undisturbed, at_] at admitted
      subst taken
      obtain ⟨quiet, still⟩ := admitted
      refine sound.of_poor (fun j other => news_put_of_ne _ other _) (fun j _ => quiet j)
        (by rw [at_]; exact id) (by rw [news_put_self]; exact id) rfl rfl rfl ?_ ?_
      · intro guarded
        have session : s.lobby ≠ true := by
          rw [sound.lobby, guarded]
          exact nofun
        obtain ⟨nameless, unnamed⟩ := still.resolve_left session
        have same : (s.setName name).own = s.own := by rw [setName, nameless, ← unnamed]
        exact same
      · rw [news_put_self]
        exact ⟨rfl, rfl, still⟩
  | idle | naming | clearing | awaiting | started | failed | dropping | refused | entry
  | elsewhere =>
      simp only [step, at_] at taken
      cases taken

theorem Sound.register (sound : s.Sound) {refused : Bool}
    (admitted : s.Undisturbed (.register i refused))
    (taken : s.step (.register i refused) = some t) : t.Sound := by
  cases at_ : s.news i with
  | naming name before =>
      simp only [step, at_] at taken
      simp only [Undisturbed, at_] at admitted
      obtain ⟨named, found, still⟩ : s.own.name = name ∧
          before = { s.before with name := before.name } ∧
          (s.lobby = true ∨ (name = none ∧ before.name = none)) := sound.fits_at at_
      have quiet := sound.quiet at_ nofun
      split at taken
      next no =>
        cases taken
        refine sound.of_poor (fun j other => news_put_of_ne _ other _) quiet
          (by rw [at_]; exact id) (by rw [news_put_self]; exact id) rfl rfl rfl (fun _ => rfl) ?_
        rw [news_put_self]
        refine ⟨named, ?_, still.imp_right And.left⟩
        rw [found, admitted no]
        rfl
      next yes =>
        cases taken
        have absent : s.disk = none := by
          cases dir : s.disk with
          | none => rfl
          | some record =>
              rw [dir] at yes
              exact absurd (Or.inr rfl) yes
        have unguarded : s.guard = false := by
          cases guarded : s.guard with
          | false => rfl
          | true =>
              have there := sound.agree guarded
              rw [absent] at there
              cases there
        have lobby : s.lobby = true := by rw [sound.lobby, unguarded]; rfl
        refine sound.of_new (fun j other => news_put_of_ne _ other _) quiet rfl (fun _ => rfl)
          nofun ?_ (fun _ _ _ => rfl) ?_
        · intro _ j other owns
          have guarded := sound.guarded owns (quiet j other)
          rw [unguarded] at guarded
          cases guarded
        · rw [news_put_self]
          refine ⟨rfl, named, ?_⟩
          rw [found, Door.before, absent, lobby]
          rfl
  | idle | starting | clearing | awaiting | started | failed | dropping | refused | entry
  | elsewhere =>
      simp only [step, at_] at taken
      cases taken

/-- The name is taken back: a session keeps the one it has, which is none. -/
theorem Sound.clear (sound : s.Sound) (taken : s.step (.clear i) = some t) : t.Sound := by
  cases at_ : s.news i with
  | clearing name before =>
      simp only [step, at_, Option.some.injEq] at taken
      subst taken
      obtain ⟨named, -, still⟩ : s.own.name = name ∧ before = { s.before with name := none } ∧
          (s.lobby = true ∨ name = none) := sound.fits_at at_
      refine sound.of_poor (fun j other => news_put_of_ne _ other _) (sound.quiet at_ nofun)
        (by rw [at_]; exact id) (by rw [news_put_self]; exact id) rfl rfl rfl ?_ ?_
      · intro guarded
        have session : s.lobby ≠ true := by
          rw [sound.lobby, guarded]
          exact nofun
        have same : (s.setName none).own = s.own := by
          rw [setName, ← still.resolve_left session, ← named]
        exact same
      · rw [news_put_self]
        trivial
  | idle | starting | naming | awaiting | started | failed | dropping | refused | entry
  | elsewhere =>
      simp only [step, at_] at taken
      cases taken

theorem Sound.shell (sound : s.Sound) {ok : Bool} (admitted : s.Undisturbed (.shell i ok))
    (taken : s.step (.shell i ok) = some t) : t.Sound := by
  cases at_ : s.news i with
  | awaiting name before =>
      simp only [step, at_, Option.some.injEq] at taken
      simp only [Undisturbed, at_] at admitted
      subst taken
      obtain ⟨guarded, named, found⟩ : s.guard = true ∧ s.own.name = name ∧
          before = { name := before.name, entry := none, lobby := true } := sound.fits_at at_
      have owns : (s.news i).Owns := by rw [at_]; trivial
      have flies : (s.news i).flight ≠ none := by rw [at_]; exact nofun
      cases ok with
      | true => exact sound.of_owner owns flies trivial ⟨guarded, named, found⟩
      | false =>
          refine sound.of_owner owns flies trivial ⟨guarded, named, ?_⟩
          rw [admitted rfl]
          exact found
  | idle | starting | naming | clearing | started | failed | dropping | refused | entry
  | elsewhere =>
      simp only [step, at_] at taken
      cases taken

theorem Sound.answer (sound : s.Sound) (taken : s.step (.answer i) = some t) : t.Sound := by
  cases at_ : s.news i with
  | started name before =>
      simp only [step, at_, Option.some.injEq] at taken
      subst taken
      have fits : s.Fits (.started name before) := sound.fits_at at_
      exact sound.of_owner (by rw [at_]; trivial) (by rw [at_]; exact nofun) trivial fits.1
  | idle | starting | naming | clearing | awaiting | failed | dropping | refused | entry
  | elsewhere =>
      simp only [step, at_] at taken
      cases taken

theorem Sound.unregister (sound : s.Sound) (taken : s.step (.unregister i) = some t) :
    t.Sound := by
  cases at_ : s.news i with
  | failed name before =>
      simp only [step, at_, Option.some.injEq] at taken
      subst taken
      obtain ⟨guarded, named, found⟩ : s.guard = true ∧ s.own.name = name ∧
          before = { name, entry := none, lobby := true } := sound.fits_at at_
      have owns : (s.news i).Owns := by rw [at_]; trivial
      have sole : ∀ j, j ≠ i → ¬ (s.news j).Owns := fun j other also =>
        other (sound.owner j i also owns)
      refine sound.of_new (fun j other => news_put_of_ne _ other _) (sound.quiet at_ nofun) rfl
        nofun ?_ (fun _ => sole) (fun j other also => absurd also (sole j other)) ?_
      · intro _ poor
        rw [news_put_self] at poor
        exact absurd trivial poor
      · rw [news_put_self]
        have there : s.disk ≠ none := by
          rw [sound.agree guarded]
          exact nofun
        exact ⟨rfl, named, there, found⟩
  | idle | starting | naming | clearing | awaiting | started | dropping | refused | entry
  | elsewhere =>
      simp only [step, at_] at taken
      cases taken

theorem Sound.drop (sound : s.Sound) (taken : s.step (.drop i) = some t) : t.Sound := by
  cases at_ : s.news i with
  | dropping name before =>
      simp only [step, at_, Option.some.injEq] at taken
      subst taken
      have fits : s.Fits (.dropping name before) := sound.fits_at at_
      have owns : (s.news i).Owns := by rw [at_]; trivial
      have sole : ∀ j, j ≠ i → ¬ (s.news j).Owns := fun j other also =>
        other (sound.owner j i also owns)
      refine sound.of_new (fun j other => news_put_of_ne _ other _) (sound.quiet at_ nofun)
        sound.lobby ?_ (fun _ _ _ => rfl) (fun _ => sole)
        (fun j other also => absurd also (sole j other)) ?_
      · intro guarded
        have unguarded : s.guard = false := fits.1
        rw [show s.guard = true from guarded] at unguarded
        cases unguarded
      · rw [news_put_self]
        trivial
  | idle | starting | naming | clearing | awaiting | started | failed | refused | entry
  | elsewhere =>
      simp only [step, at_] at taken
      cases taken

omit [DecidableEq I] in
/-- An attach moves what no `New` looks at, in memory and on disk alike. -/
theorem Sound.attach (sound : s.Sound) (rest : R) :
    Sound { s with own := { s.own with rest },
                   disk := if s.guard then some { s.own with rest } else s.disk } := by
  have entry : (if s.guard then some { s.own with rest } else s.disk).map DoorRecord.name =
      s.disk.map DoorRecord.name := by
    cases guarded : s.guard with
    | false => rfl
    | true =>
        rw [sound.agree guarded]
        rfl
  have there : s.disk ≠ none → (if s.guard then some { s.own with rest } else s.disk) ≠ none := by
    intro there
    cases s.guard with
    | false => exact there
    | true => exact nofun
  refine ⟨sound.lobby, ?_, ?_, sound.alone, sound.owner, ?_⟩
  · intro guarded
    exact if_pos guarded
  · intro open_ nobody
    have absent : s.disk = none := sound.empty open_ nobody
    rw [absent, show s.guard = false from open_]
    rfl
  · intro i
    have fits := sound.fits i
    show Fits _ (s.news i)
    cases at_ : s.news i with
    | naming name before =>
        rw [at_] at fits
        refine ⟨fits.1, ?_, fits.2.2⟩
        simp only [Door.before, entry]
        exact fits.2.1
    | clearing name before =>
        rw [at_] at fits
        refine ⟨fits.1, ?_, fits.2.2⟩
        simp only [Door.before, entry]
        exact fits.2.1
    | dropping name before =>
        rw [at_] at fits
        exact ⟨fits.1, fits.2.1, there fits.2.2.1, fits.2.2.2⟩
    | awaiting | started | failed | entry | refused | idle | starting | elsewhere =>
        rw [at_] at fits
        exact fits

omit [DecidableEq I] in
theorem Sound.named (sound : s.Sound) {name : Option N} (flies : (s.news i).flight = some name) :
    s.own.name = name := by
  have fits := sound.fits i
  cases at_ : s.news i with
  | naming | clearing =>
      rw [at_] at fits flies
      exact fits.1.trans (Option.some.inj flies)
  | awaiting | started | failed | dropping =>
      rw [at_] at fits flies
      exact fits.2.1.trans (Option.some.inj flies)
  | idle | starting | refused | entry | elsewhere =>
      rw [at_] at flies
      cases flies

theorem Sound.rename (sound : s.Sound) {name : Option N} {refused : Bool}
    (admitted : s.Undisturbed (.rename name refused))
    (taken : s.step (.rename name refused) = some t) : t.Sound := by
  simp only [step] at taken
  split at taken
  next =>
    cases taken
    exact sound
  next yes =>
    cases taken
    have guarded : s.guard = true := by
      cases guard : s.guard with
      | true => rfl
      | false => exact absurd (Or.inl guard) yes
    have granted : refused = false := by
      cases refused with
      | true => exact absurd (Or.inr rfl) yes
      | false => rfl
    by_cases busy : ∃ i, (s.news i).flight ≠ none
    · obtain ⟨i, flies⟩ := busy
      have asked := (admitted guarded granted i).resolve_left flies
      have same : ({ s.own with name } : DoorRecord N R) = s.own := by
        rw [← sound.named asked]
      rw [same, ← sound.agree guarded]
      exact sound
    · have quiet : ∀ i, (s.news i).flight = none := by
        intro i
        by_contra flies
        exact busy ⟨i, flies⟩
      refine ⟨sound.lobby, fun _ => rfl, ?_, sound.alone, sound.owner, ?_⟩
      · intro open_
        rw [show s.guard = false from open_] at guarded
        cases guarded
      · intro i
        have landed := quiet i
        show Fits _ (s.news i)
        cases at_ : s.news i with
        | entry => exact guarded
        | naming | clearing | awaiting | started | failed | dropping =>
            rw [at_] at landed
            cases landed
        | idle | starting | refused | elsewhere => trivial

theorem Sound.step (sound : s.Sound) {e : DoorEvent I N R} (admitted : s.Undisturbed e)
    (taken : s.step e = some t) : t.Sound := by
  cases e with
  | ask i name => exact sound.ask taken
  | setName i => exact sound.naming admitted taken
  | register i refused => exact sound.register admitted taken
  | clear i => exact sound.clear taken
  | shell i ok => exact sound.shell admitted taken
  | answer i => exact sound.answer taken
  | unregister i => exact sound.unregister taken
  | drop i => exact sound.drop taken
  | attach rest =>
      cases taken
      exact sound.attach rest
  | rename name refused => exact sound.rename admitted taken

omit [DecidableEq I] in
theorem Vacant.sound (vacant : s.Vacant) : s.Sound := by
  obtain ⟨unguarded, lobby, absent, idle⟩ := vacant
  refine ⟨?_, ?_, fun _ _ => absent, ?_, ?_, ?_⟩
  · rw [lobby, unguarded]
    rfl
  · intro guarded
    rw [unguarded] at guarded
    cases guarded
  · intro i j flies
    rw [idle i] at flies
    exact absurd rfl flies
  · intro i j owns
    rw [idle i] at owns
    exact owns.elim
  · intro i
    rw [idle i]
    trivial

/-- How a `New` gets to where it is after a step. -/
def Arrives (s t : Door I N R) (i : I) : NewStage N R → Prop
  | .entry name answer => answer = s.own ∧ (∃ before, s.news i = .started name before) ∧
      t.own = s.own ∧ t.disk = s.disk
  | .refused before =>
      (∃ name, s.news i = .clearing name before ∧ t.before = { s.before with name := none }) ∨
      (∃ name, s.news i = .dropping name before ∧ t.before = { s.before with entry := none })
  | _ => True

theorem step_news {e : DoorEvent I N R} (taken : s.step e = some t) :
    t.news = s.news ∨ ∃ i stage, t.news = Function.update s.news i stage ∧ s.Arrives t i stage := by
  cases e with
  | attach rest =>
      cases taken
      exact Or.inl rfl
  | rename name refused =>
      simp only [step] at taken
      split at taken <;> cases taken <;> exact Or.inl rfl
  | ask i name =>
      simp only [step] at taken
      split at taken <;> cases taken
      refine Or.inr ⟨i, _, rfl, ?_⟩
      split <;> trivial
  | setName i =>
      simp only [step] at taken
      split at taken <;> cases taken
      exact Or.inr ⟨i, _, rfl, trivial⟩
  | register i refused =>
      simp only [step] at taken
      split at taken
      next =>
        split at taken <;> cases taken
        · exact Or.inr ⟨i, _, rfl, trivial⟩
        · exact Or.inr ⟨i, _, rfl, trivial⟩
      next => cases taken
  | clear i =>
      simp only [step] at taken
      split at taken
      next name before at_ =>
        cases taken
        exact Or.inr ⟨i, _, rfl, Or.inl ⟨name, at_, rfl⟩⟩
      next => cases taken
  | shell i ok =>
      simp only [step] at taken
      split at taken <;> cases taken
      refine Or.inr ⟨i, _, rfl, ?_⟩
      split <;> trivial
  | answer i =>
      simp only [step] at taken
      split at taken
      next name before at_ =>
        cases taken
        exact Or.inr ⟨i, _, rfl, rfl, ⟨before, at_⟩, rfl, rfl⟩
      next => cases taken
  | unregister i =>
      simp only [step] at taken
      split at taken <;> cases taken
      exact Or.inr ⟨i, _, rfl, trivial⟩
  | drop i =>
      simp only [step] at taken
      split at taken
      next name before at_ =>
        cases taken
        exact Or.inr ⟨i, _, rfl, Or.inr ⟨name, at_, rfl⟩⟩
      next => cases taken

theorem arrives {e : DoorEvent I N R} (taken : s.step e = some t) {stage : NewStage N R}
    (now : t.news i = stage) (moved : s.news i ≠ t.news i) : s.Arrives t i stage := by
  rcases step_news taken with same | ⟨k, stage', there, arrives⟩
  · rw [same] at moved
    exact absurd rfl moved
  · by_cases here : i = k
    · subst here
      rw [there, Function.update_self] at now
      rwa [← now]
    · rw [there, Function.update_of_ne here] at moved
      exact absurd rfl moved

theorem rest_of_step {e : DoorEvent I N R} (taken : s.step e = some t)
    (still : ∀ rest, e ≠ .attach rest) : t.own.rest = s.own.rest := by
  cases e with
  | attach rest => exact absurd rfl (still rest)
  | rename name refused =>
      simp only [step] at taken
      split at taken <;> cases taken <;> rfl
  | register i refused =>
      simp only [step] at taken
      split at taken
      next => split at taken <;> cases taken <;> rfl
      next => cases taken
  | ask i name | setName i | clear i | shell i ok | answer i | unregister i | drop i =>
      simp only [step] at taken
      split at taken <;> cases taken
      rfl

/-- In every run whose steps all meet the condition, at most one `New` is answered
with an entry, the entry, the record and `meta.json` carry the name it asked for,
and a refused one leaves the door as it found it. -/
theorem starting_from_a_lobby_is_atomic {start s t : Door I N R} {e : DoorEvent I N R}
    (vacant : start.Vacant) (run : Reaches step Undisturbed start s)
    (admitted : s.Undisturbed e) (taken : s.step e = some t) :
    Atomic s t ∧ ((∀ rest, e ≠ .attach rest) → t.own.rest = s.own.rest) := by
  have sound : s.Sound :=
    run.invariant (fun _ _ _ sound admitted taken => Sound.step sound admitted taken) vacant.sound
  have next : t.Sound := sound.step admitted taken
  refine ⟨⟨?_, ?_, ?_⟩, rest_of_step taken⟩
  · intro i j name name' answer answer' here there
    refine next.owner i j ?_ ?_
    · rw [here]
      trivial
    · rw [there]
      trivial
  · intro i name answer now moved
    obtain ⟨said, ⟨before, at_⟩, own, disk⟩ := arrives taken now moved
    have fits : s.Fits (.started name before) := sound.fits_at at_
    refine ⟨said.trans own.symm, ?_, ?_⟩
    · rw [disk, own]
      exact sound.agree fits.1
    · rw [own]
      exact fits.2.1
  · intro i before now moved
    rcases arrives taken now moved with ⟨name, at_, found⟩ | ⟨name, at_, found⟩
    · have fits : s.Fits (.clearing name before) := sound.fits_at at_
      rw [found]
      exact fits.2.1.symm
    · have fits : s.Fits (.dropping name before) := sound.fits_at at_
      have lobby : s.lobby = true := by
        rw [sound.lobby, fits.1]
        rfl
      rw [found, fits.2.2.2, Door.before, lobby, fits.2.1]

end Steps

/-- Two clients ask one lobby for a session. The registry refuses the first. -/
def firstTurn : List (DoorEvent Bool Nat Nat) :=
  [.ask false (some 1), .ask true (some 2), .setName false, .register false true]

/-- The second gets it, with an attach on its way to the entry. -/
def secondTurn : List (DoorEvent Bool Nat Nat) :=
  firstTurn ++ [.clear false, .setName true, .register true false, .attach 5, .shell true true]

theorem starting_from_a_lobby_is_atomic_inTurn :
    (∃ s t : Door Bool Nat Nat, Reaches step Undisturbed { own := ⟨none, 0⟩ } s ∧
      s.step (.clear false) = some t ∧ t.news false = .refused ⟨none, none, true⟩ ∧
      t.before = ⟨none, none, true⟩) ∧
    ∃ s t : Door Bool Nat Nat, Reaches step Undisturbed { own := ⟨none, 0⟩ } s ∧
      s.step (.answer true) = some t ∧ t.news true = .entry (some 2) ⟨some 2, 5⟩ ∧
      t.own = ⟨some 2, 5⟩ ∧ t.disk = some t.own := by
  have vacant : Vacant ({ own := ⟨none, 0⟩ } : Door Bool Nat Nat) := ⟨rfl, rfl, rfl, fun _ => rfl⟩
  constructor
  · have outcome : ((runFrom step ({ own := ⟨none, 0⟩ } : Door Bool Nat Nat) firstTurn).map
        fun s => (s.news false, (s.step (.clear false)).map fun t => t.news false)) =
        some (.clearing (some 1) ⟨none, none, true⟩, some (.refused ⟨none, none, true⟩)) := by
      decide +kernel
    obtain ⟨s, run, shown⟩ := Option.map_eq_some_iff.mp outcome
    obtain ⟨before, after⟩ := Prod.mk.inj shown
    obtain ⟨t, taken, now⟩ := Option.map_eq_some_iff.mp after
    have reached : Reaches step Undisturbed ({ own := ⟨none, 0⟩ } : Door Bool Nat Nat) s :=
      reaches_of_runFrom firstTurn (by decide +kernel) run
    have atomic :=
      (starting_from_a_lobby_is_atomic (e := .clear false) vacant reached trivial taken).1
    have moved : s.news false ≠ t.news false := by
      rw [before, now]
      exact nofun
    exact ⟨s, t, reached, taken, now, atomic.refused false _ now moved⟩
  · have outcome : ((runFrom step ({ own := ⟨none, 0⟩ } : Door Bool Nat Nat) secondTurn).map
        fun s => (s.news true, (s.step (.answer true)).map fun t => (t.news true, t.own))) =
        some (.started (some 2) ⟨none, none, true⟩,
          some (.entry (some 2) ⟨some 2, 5⟩, ⟨some 2, 5⟩)) := by decide +kernel
    obtain ⟨s, run, shown⟩ := Option.map_eq_some_iff.mp outcome
    obtain ⟨before, after⟩ := Prod.mk.inj shown
    obtain ⟨t, taken, arrived⟩ := Option.map_eq_some_iff.mp after
    obtain ⟨now, own⟩ := Prod.mk.inj arrived
    have reached : Reaches step Undisturbed ({ own := ⟨none, 0⟩ } : Door Bool Nat Nat) s :=
      reaches_of_runFrom secondTurn (by decide +kernel) run
    have atomic :=
      (starting_from_a_lobby_is_atomic (e := .answer true) vacant reached trivial taken).1
    have moved : s.news true ≠ t.news true := by
      rw [before, now]
      exact nofun
    exact ⟨s, t, reached, taken, now, own, (atomic.granted true _ _ now moved).2.1⟩

/-- Two clients ask one lobby for a session. Both find a lobby and write their
name, the first registers under the name of the second, and the second, refused,
takes it back. -/
def twoStarts : List (DoorEvent Bool Nat Nat) :=
  [.ask false (some 1), .ask true (some 2), .setName false, .setName true, .register false false,
    .register true false, .clear true, .shell false true]

/-- The session is called `2` on disk and nothing in memory, and the client that
asked for `1` is answered a session without a name. -/
theorem overlapping_starts_lose_the_name :
    ∃ s t : Door Bool Nat Nat, Reaches step free { own := ⟨none, 0⟩ } s ∧
      s.step (.answer false) = some t ∧ ¬ Atomic s t ∧
      t.news false = .entry (some 1) ⟨none, 0⟩ ∧ t.own = ⟨none, 0⟩ ∧
      t.disk = some ⟨some 2, 0⟩ := by
  have outcome : ((runFrom step ({ own := ⟨none, 0⟩ } : Door Bool Nat Nat) twoStarts).map fun s =>
      (s.news false, (s.step (.answer false)).map fun t => (t.news false, t.own, t.disk))) =
      some (.started (some 1) ⟨none, none, true⟩,
        some (.entry (some 1) ⟨none, 0⟩, ⟨none, 0⟩, some ⟨some 2, 0⟩)) := rfl
  obtain ⟨s, run, shown⟩ := Option.map_eq_some_iff.mp outcome
  simp only [Prod.mk.injEq] at shown
  obtain ⟨before, after⟩ := shown
  obtain ⟨t, taken, shown⟩ := Option.map_eq_some_iff.mp after
  simp only [Prod.mk.injEq] at shown
  obtain ⟨now, own, disk⟩ := shown
  have reached : Reaches step free ({ own := ⟨none, 0⟩ } : Door Bool Nat Nat) s :=
    reaches_of_runFrom twoStarts (admits_free step twoStarts _) run
  refine ⟨s, t, reached, taken, ?_, now, own, disk⟩
  intro atomic
  have moved : s.news false ≠ t.news false := by
    rw [before, now]
    exact nofun
  have named := (atomic.granted false _ _ now moved).2.2
  rw [own] at named
  cases named

end Door
end Oxutrm.Host
