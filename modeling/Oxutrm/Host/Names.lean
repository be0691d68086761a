import Oxutrm.Host.Registry

/-!
Every step of the registry keeps its invariant, and so names are unique in every
run. A step in a call goes on, or ends it with the record written or refused.
-/
namespace Oxutrm.Host.Registry
open Transition
variable {P N : Type} [DecidableEq P] [DecidableEq N] {s t : Registry P N} {p : P}

omit [DecidableEq P] [DecidableEq N] in
theorem Sound.own_at (sound : s.Sound) {stage : RegistryStage P N} (at_ : s.stage p = stage) :
    Own stage (s.disk p) := by
  have own := sound.own p
  rwa [at_] at own

omit [DecidableEq P] [DecidableEq N] in
theorem alive_of {stage : RegistryStage P N} (at_ : s.stage p = stage) (alive : stage ≠ .dead) :
    s.stage p ≠ .dead := by
  rwa [at_]

theorem Sound.check (sound : s.Sound) {stale : Bool} (admitted : s.Promised (.check p stale))
    (taken : s.step (.check p stale) = some t) : t.Sound := by
  cases at_ : s.stage p with
  | checking call left =>
      have holder : s.lock = some p := sound.holder p (by rw [at_]; trivial)
      have own : Own (.checking call left) (s.disk p) := sound.own_at at_
      have alive : s.stage p ≠ .dead := alive_of at_ nofun
      have clear : ∀ n d, call.name = some n ∧ d ∉ left → d ≠ p → ¬ s.Carries d n := by
        have clear := sound.clear p
        rw [at_] at clear
        exact clear
      cases left with
      | nil =>
          simp only [step, at_, Option.some.injEq] at taken
          subst taken
          exact sound.granted alive (fun _ => holder) own
            fun n wanted d => clear n d ⟨wanted, List.not_mem_nil⟩
      | cons d left =>
          simp only [step, at_] at taken
          simp only [Promised, at_] at admitted
          split at taken
          next stale =>
            cases taken
            have dead : s.stage d = .dead := admitted stale
            have other : p ≠ d := fun same => alive (same ▸ dead)
            refine (sound.prune dead).put alive (fun _ => holder) ?_ ?_
            · rw [disk_setDisk_of_ne s other]
              exact own
            · intro n d' seen apart carries
              by_cases here : d' = d
              · exact carries.1 (here ▸ dead)
              · refine clear n d' ⟨seen.1, ?_⟩ apart ⟨carries.1, ?_⟩
                · simp only [List.mem_cons, here, false_or]
                  exact seen.2
                · rw [← disk_setDisk_of_ne s here none]
                  exact carries.2
          next =>
            split at taken
            next clash =>
              cases taken
              exact sound.refuse alive own
            next free =>
              cases taken
              refine sound.put alive (fun _ => holder) own ?_
              intro n d' seen apart carries
              by_cases here : d' = d
              · subst here
                refine free ⟨apart, ?_, ?_⟩
                · rw [seen.1]
                  exact nofun
                · rw [seen.1]
                  exact carries.2
              · refine clear n d' ⟨seen.1, ?_⟩ apart carries
                simp only [List.mem_cons, here, false_or]
                exact seen.2
  | idle | waiting | listing | making | writing | held | leaving | dead =>
      simp only [step, at_] at taken
      cases taken

/-- The directory is made, or is there already. -/
theorem Sound.make (sound : s.Sound) (taken : s.step (.make p) = some t) : t.Sound := by
  cases at_ : s.stage p with
  | making call =>
      simp only [step, at_] at taken
      have alive : s.stage p ≠ .dead := alive_of at_ nofun
      cases call with
      | rename was current name => exact (sound.own_at at_).elim
      | register was name =>
          have own : s.disk p = was ∧ (s.disk p = none ∨ s.disk p = some .bare) :=
            sound.own_at at_
          split at taken
          next absent =>
            cases taken
            refine sound.setDisk_put ?_ ?_ ?_ ?_
            · intro locks
              exact sound.holder p (by rw [at_]; exact locks)
            · exact ⟨own.1.symm.trans absent, rfl⟩
            · intro n d wanted
              exact sound.clear p n d (by rw [at_]; exact wanted)
            · exact nofun
          next =>
            cases taken
            exact sound.refuse alive own
  | idle | waiting | listing | checking | writing | held | leaving | dead =>
      simp only [step, at_] at taken
      cases taken

/-- The record goes to disk, and a name in it is one nobody has. -/
theorem Sound.write (sound : s.Sound) (taken : s.step (.write p) = some t) : t.Sound := by
  cases at_ : s.stage p with
  | writing call =>
      simp only [step, at_, Option.some.injEq] at taken
      subst taken
      have written : ((s.setDisk p (some (.recorded call.name))).put p (.held call.name)).Sound := by
        refine sound.setDisk_put (fun holds => holds.elim) rfl (fun _ _ seen => seen.elim) ?_
        intro n recorded
        have wanted : call.name = some n := by simpa using recorded
        have seen : ∀ d, Seen (s.stage p) n d := by
          intro d
          rw [at_]
          exact wanted
        exact Or.inr ⟨sound.lock_of_seen (seen p), fun d => sound.clear p n d (seen d)⟩
      exact written.unlock (by rw [stage_put_self]; exact id)
  | idle | waiting | listing | checking | making | held | leaving | dead =>
      simp only [step, at_] at taken
      cases taken

theorem Sound.fail (sound : s.Sound) (taken : s.step (.fail p) = some t) : t.Sound := by
  cases at_ : s.stage p with
  | writing call =>
      cases call with
      | register was name =>
          simp only [step, at_, Option.some.injEq] at taken
          subst taken
          have dropped : ((s.setDisk p none).put p .idle).Sound :=
            sound.setDisk_put (fun holds => holds.elim) (Or.inl rfl) (fun _ _ seen => seen.elim) nofun
          exact dropped.unlock (by rw [stage_put_self]; exact id)
      | rename was current name =>
          simp only [step, at_, Option.some.injEq] at taken
          subst taken
          have own : Own (P := P) (.writing (.rename was current name)) (s.disk p) :=
            sound.own_at at_
          exact sound.refuse (alive_of at_ nofun) own
  | idle | waiting | listing | checking | making | held | leaving | dead =>
      simp only [step, at_] at taken
      cases taken

theorem Sound.register (sound : s.Sound) {name : Option N}
    (taken : s.step (.register p name) = some t) : t.Sound := by
  cases at_ : s.stage p with
  | idle =>
      have alive : s.stage p ≠ .dead := alive_of at_ nofun
      have own : s.disk p = none ∨ s.disk p = some .bare := sound.own_at at_
      cases name with
      | some n =>
          simp only [step, at_, Option.some.injEq] at taken
          subst taken
          exact sound.put alive (fun holds => holds.elim) ⟨rfl, own⟩ fun _ _ seen => seen.elim
      | none =>
          simp only [step, at_, Option.some.injEq] at taken
          subst taken
          exact sound.put alive (fun holds => nomatch holds) ⟨rfl, own⟩ fun _ _ seen => nomatch seen
  | waiting | listing | checking | making | writing | held | leaving | dead =>
      simp only [step, at_] at taken
      cases taken

theorem Sound.rename (sound : s.Sound) {name : Option N}
    (taken : s.step (.rename p name) = some t) : t.Sound := by
  cases at_ : s.stage p with
  | held current =>
      simp only [step, at_, Option.some.injEq] at taken
      subst taken
      have own : s.disk p = some (.recorded current) := sound.own_at at_
      exact sound.put (alive_of at_ nofun) (fun holds => holds.elim) ⟨rfl, own⟩
        fun _ _ seen => seen.elim
  | idle | waiting | listing | checking | making | writing | leaving | dead =>
      simp only [step, at_] at taken
      cases taken

theorem Sound.takeLock (sound : s.Sound) (taken : s.step (.take p) = some t) : t.Sound := by
  cases at_ : s.stage p with
  | waiting call =>
      have alive : s.stage p ≠ .dead := alive_of at_ nofun
      have own : Own (P := P) (.waiting call) (s.disk p) := sound.own_at at_
      cases lock : s.lock with
      | none =>
          simp only [step, at_, lock] at taken
          split at taken
          next nameless =>
            cases taken
            refine (sound.take lock p).granted alive (fun _ => rfl) own ?_
            intro n wanted
            rw [nameless] at wanted
            cases wanted
          next =>
            cases taken
            exact (sound.take lock p).put alive (fun _ => rfl) own fun _ _ seen => seen.elim
      | some q =>
          simp only [step, at_, lock] at taken
          cases taken
  | idle | listing | checking | making | writing | held | leaving | dead =>
      simp only [step, at_] at taken
      cases taken

theorem Sound.list (sound : s.Sound) {entries : List P} (admitted : s.Promised (.list p entries))
    (taken : s.step (.list p entries) = some t) : t.Sound := by
  cases at_ : s.stage p with
  | listing call =>
      simp only [step, at_, Option.some.injEq] at taken
      subst taken
      have own : Own (P := P) (.listing call) (s.disk p) := sound.own_at at_
      refine sound.put (alive_of at_ nofun) (fun _ => sound.holder p (by rw [at_]; trivial)) own ?_
      intro n d unlisted _ carries
      have there : s.disk d ≠ none := by
        rw [carries.2]
        exact nofun
      exact unlisted.2 (admitted d there)
  | idle | waiting | checking | making | writing | held | leaving | dead =>
      simp only [step, at_] at taken
      cases taken

/-- Its own name is the one a session may write whenever it likes. -/
theorem Sound.update (sound : s.Sound) (taken : s.step (.update p) = some t) : t.Sound := by
  cases at_ : s.stage p with
  | held name =>
      simp only [step, at_, Option.some.injEq] at taken
      subst taken
      have own : s.disk p = some (.recorded name) := sound.own_at at_
      have same : s.setDisk p (some (.recorded name)) = s := by
        rw [setDisk, ← own, Function.update_eq_self]
      rwa [same]
  | idle | waiting | listing | checking | making | writing | leaving | dead =>
      simp only [step, at_] at taken
      cases taken

theorem Sound.drop (sound : s.Sound) (taken : s.step (.drop p) = some t) : t.Sound := by
  cases at_ : s.stage p with
  | held name =>
      simp only [step, at_, Option.some.injEq] at taken
      subst taken
      exact sound.setDisk_put (fun holds => holds.elim) rfl (fun _ _ seen => seen.elim) nofun
  | idle | waiting | listing | checking | making | writing | leaving | dead =>
      simp only [step, at_] at taken
      cases taken

theorem Sound.leave (sound : s.Sound) (taken : s.step (.leave p) = some t) : t.Sound := by
  cases at_ : s.stage p with
  | leaving =>
      simp only [step, at_, Option.some.injEq] at taken
      subst taken
      exact sound.setDisk_put (fun holds => holds.elim) (Or.inl rfl) (fun _ _ seen => seen.elim)
        nofun
  | idle | waiting | listing | checking | making | writing | held | dead =>
      simp only [step, at_] at taken
      cases taken

omit [DecidableEq N] in
theorem Sound.crash (sound : s.Sound) (p : P) : ((s.unlock p).put p .dead).Sound := by
  have touches : Touches p s ((s.unlock p).put p .dead) :=
    ⟨fun _ other => stage_put_of_ne _ other .dead, fun _ _ _ => rfl,
      fun _ other held => lock_unlock_of_ne s other held⟩
  have now : ((s.unlock p).put p .dead).stage p = .dead := stage_put_self _ p .dead
  refine sound.of_touches touches ?_ ?_ ?_ ?_
  · rw [now]
    exact fun holds => holds.elim
  · rw [now]
    trivial
  · rw [now]
    exact fun _ _ seen => seen.elim
  · intro n carries
    exact absurd now carries.1

theorem Sound.step (sound : s.Sound) {e : RegistryEvent P N} (admitted : s.Promised e)
    (taken : s.step e = some t) : t.Sound := by
  cases e with
  | register p name => exact sound.register taken
  | rename p name => exact sound.rename taken
  | take p => exact sound.takeLock taken
  | list p entries => exact sound.list admitted taken
  | check p stale => exact sound.check admitted taken
  | make p => exact sound.make taken
  | write p => exact sound.write taken
  | fail p => exact sound.fail taken
  | update p => exact sound.update taken
  | drop p => exact sound.drop taken
  | leave p => exact sound.leave taken
  | crash p =>
      cases taken
      exact sound.crash p
  | prune p =>
      cases taken
      exact sound.prune admitted

omit [DecidableEq P] [DecidableEq N] in
theorem Vacant.sound (vacant : s.Vacant) : s.Sound where
  holder p holds := by
    rcases vacant.2 p with dead | ⟨idle, -⟩
    · rw [dead] at holds
      exact holds.elim
    · rw [idle] at holds
      exact holds.elim
  own p := by
    rcases vacant.2 p with dead | ⟨idle, dir⟩
    · rw [dead]
      trivial
    · rw [idle]
      exact dir
  clear p n d seen := by
    rcases vacant.2 p with dead | ⟨idle, -⟩
    · rw [dead] at seen
      exact seen.elim
    · rw [idle] at seen
      exact seen.elim
  unique d d' n carries := by
    have recorded := carries.2
    rcases vacant.2 d with dead | ⟨-, absent | bare⟩
    · exact absurd dead carries.1
    · rw [absent] at recorded
      cases recorded
    · rw [bare] at recorded
      cases recorded

theorem stage_of_other {e : RegistryEvent P N} (taken : s.step e = some t) {q : P}
    (other : q ≠ e.actor) : t.stage q = s.stage q := by
  cases e with
  | prune p =>
      cases taken
      rfl
  | crash p =>
      cases taken
      exact stage_put_of_ne _ other _
  | take p =>
      simp only [step] at taken
      split at taken
      next call _ _ =>
        split at taken
        next =>
          cases taken
          cases call with
          | register | rename => exact stage_put_of_ne _ other _
        next =>
          cases taken
          exact stage_put_of_ne _ other _
      next => cases taken
  | check p stale =>
      simp only [step] at taken
      split at taken
      next call _ =>
        cases taken
        cases call with
        | register | rename => exact stage_put_of_ne _ other _
      next call d left _ =>
        split at taken
        next =>
          cases taken
          exact stage_put_of_ne _ other _
        next =>
          split at taken
          next =>
            cases taken
            cases call with
            | register | rename => exact stage_put_of_ne _ other _
          next =>
            cases taken
            exact stage_put_of_ne _ other _
      next => cases taken
  | make p =>
      simp only [step] at taken
      split at taken
      next call _ =>
        split at taken
        next =>
          cases taken
          exact stage_put_of_ne _ other _
        next =>
          cases taken
          cases call with
          | register | rename => exact stage_put_of_ne _ other _
      next => cases taken
  | update p =>
      simp only [step] at taken
      split at taken
      next =>
        cases taken
        rfl
      next => cases taken
  | register p name | rename p name | list p entries | write p | fail p | drop p | leave p =>
      simp only [step] at taken
      split at taken <;> cases taken <;> exact stage_put_of_ne _ other _

omit [DecidableEq N] in
theorem call_granted (s : Registry P N) (p : P) (call : Naming N) :
    ((s.granted p call).stage p).call = some call := by
  cases call with
  | register | rename => exact congrArg RegistryStage.call (stage_put_self _ p _)

/-- How a call goes on or ends: by the end of the process, with its record, or refused. -/
theorem step_in_call {e : RegistryEvent P N} {call : Naming N}
    (within : (s.stage p).call = some call) (taken : s.step e = some t) :
    (t.stage p).call = some call ∨ e = .crash p ∨ e = .write p ∨
    (t = s.refuse p call ∧ ∀ was name, s.stage p ≠ .writing (.register was name)) ∨
    (t = (s.setDisk p none).refuse p call ∧
      ∃ was name, call = .register was name ∧ s.stage p = .writing call) := by
  by_cases mine : p = e.actor
  · cases e with
    | register q name | rename q name | update q | drop q | leave q =>
        obtain rfl : p = q := mine
        cases at_ : s.stage p with
        | waiting | listing | checking | making | writing => simp [step, at_] at taken
        | idle | held | leaving | dead => simp [at_, RegistryStage.call] at within
    | crash q =>
        obtain rfl : p = q := mine
        exact Or.inr (Or.inl rfl)
    | write q =>
        obtain rfl : p = q := mine
        exact Or.inr (Or.inr (Or.inl rfl))
    | prune q =>
        cases taken
        exact Or.inl within
    | take q =>
        obtain rfl : p = q := mine
        simp only [step] at taken
        split at taken
        next c at_ _ =>
          obtain rfl : c = call := by simpa [at_, RegistryStage.call] using within
          split at taken
          next =>
            cases taken
            exact Or.inl (call_granted _ p c)
          next =>
            cases taken
            exact Or.inl (congrArg RegistryStage.call (stage_put_self _ p _))
        next => cases taken
    | list q entries =>
        obtain rfl : p = q := mine
        simp only [step] at taken
        split at taken
        next c at_ =>
          obtain rfl : c = call := by simpa [at_, RegistryStage.call] using within
          cases taken
          exact Or.inl (congrArg RegistryStage.call (stage_put_self _ p _))
        next => cases taken
    | check q stale =>
        obtain rfl : p = q := mine
        simp only [step] at taken
        split at taken
        next c at_ =>
          obtain rfl : c = call := by simpa [at_, RegistryStage.call] using within
          cases taken
          exact Or.inl (call_granted _ p c)
        next c d left at_ =>
          obtain rfl : c = call := by simpa [at_, RegistryStage.call] using within
          split at taken
          next =>
            cases taken
            exact Or.inl (congrArg RegistryStage.call (stage_put_self _ p _))
          next =>
            split at taken
            next =>
              cases taken
              exact Or.inr (Or.inr (Or.inr (Or.inl ⟨rfl, by rw [at_]; exact nofun⟩)))
            next =>
              cases taken
              exact Or.inl (congrArg RegistryStage.call (stage_put_self _ p _))
        next => cases taken
    | make q =>
        obtain rfl : p = q := mine
        simp only [step] at taken
        split at taken
        next c at_ =>
          obtain rfl : c = call := by simpa [at_, RegistryStage.call] using within
          split at taken
          next =>
            cases taken
            exact Or.inl (congrArg RegistryStage.call (stage_put_self _ p _))
          next =>
            cases taken
            exact Or.inr (Or.inr (Or.inr (Or.inl ⟨rfl, by rw [at_]; exact nofun⟩)))
        next => cases taken
    | fail q =>
        obtain rfl : p = q := mine
        simp only [step] at taken
        split at taken
        next was name at_ =>
          obtain rfl : Naming.register was name = call := by
            simpa [at_, RegistryStage.call] using within
          cases taken
          exact Or.inr (Or.inr (Or.inr (Or.inr ⟨rfl, was, name, rfl, at_⟩)))
        next was current name at_ =>
          obtain rfl : Naming.rename was current name = call := by
            simpa [at_, RegistryStage.call] using within
          cases taken
          exact Or.inr (Or.inr (Or.inr (Or.inl ⟨rfl, by rw [at_]; exact nofun⟩)))
        next => cases taken
  · rw [stage_of_other taken mine]
    exact Or.inl within

omit [DecidableEq P] [DecidableEq N] in
/-- A session whose rename is under way has the record it had before. -/
theorem Sound.renaming (sound : s.Sound) {was : Option (EntryDir N)} {current name : Option N}
    (within : (s.stage p).call = some (.rename was current name)) : s.disk p = was := by
  have own := sound.own p
  cases at_ : s.stage p with
  | waiting call | listing call | checking call _ | writing call =>
      obtain rfl : call = .rename was current name := by simpa [at_, RegistryStage.call] using within
      rw [at_] at own
      exact own.1
  | making call =>
      obtain rfl : call = .rename was current name := by simpa [at_, RegistryStage.call] using within
      rw [at_] at own
      exact own.elim
  | idle | held | leaving | dead => simp [at_, RegistryStage.call] at within

omit [DecidableEq P] [DecidableEq N] in
/-- A session that registers has the directory it had before, until it makes one
where there was none. -/
theorem Sound.registering (sound : s.Sound) {was : Option (EntryDir N)} {name : Option N}
    (within : (s.stage p).call = some (.register was name)) :
    s.disk p = was ∨ (s.stage p = .writing (.register was name) ∧ was = none) := by
  have own := sound.own p
  cases at_ : s.stage p with
  | waiting call | listing call | checking call _ | making call =>
      obtain rfl : call = .register was name := by simpa [at_, RegistryStage.call] using within
      rw [at_] at own
      exact Or.inl own.1
  | writing call =>
      obtain rfl : call = .register was name := by simpa [at_, RegistryStage.call] using within
      rw [at_] at own
      exact Or.inr ⟨rfl, own.1⟩
  | idle | held | leaving | dead => simp [at_, RegistryStage.call] at within

theorem disk_of_other {e : RegistryEvent P N} (taken : s.step e = some t) {d : P}
    (other : d ≠ e.actor) : t.disk d = s.disk d ∨ t.disk d = none := by
  cases e with
  | crash p =>
      cases taken
      exact Or.inl rfl
  | prune p =>
      cases taken
      exact Or.inl (disk_setDisk_of_ne s other none)
  | take p =>
      simp only [step] at taken
      split at taken
      next call _ _ =>
        split at taken <;> cases taken
        · cases call with
          | register | rename => exact Or.inl rfl
        · exact Or.inl rfl
      next => cases taken
  | check p stale =>
      simp only [step] at taken
      split at taken
      next call _ =>
        cases taken
        cases call with
        | register | rename => exact Or.inl rfl
      next call q left _ =>
        split at taken
        next =>
          cases taken
          by_cases pruned : d = q
          · subst pruned
            exact Or.inr (disk_setDisk_self s d none)
          · exact Or.inl (disk_setDisk_of_ne s pruned none)
        next =>
          split at taken <;> cases taken
          · cases call with
            | register | rename => exact Or.inl rfl
          · exact Or.inl rfl
      next => cases taken
  | make p =>
      simp only [step] at taken
      split at taken
      next call _ =>
        split at taken <;> cases taken
        · exact Or.inl (disk_setDisk_of_ne s other _)
        · cases call with
          | register | rename => exact Or.inl rfl
      next => cases taken
  | fail p =>
      simp only [step] at taken
      split at taken <;> cases taken
      · exact Or.inl (disk_setDisk_of_ne s other none)
      · exact Or.inl rfl
  | register p name | rename p name | list p entries =>
      simp only [step] at taken
      split at taken <;> cases taken <;> exact Or.inl rfl
  | write p | update p | drop p | leave p =>
      simp only [step] at taken
      split at taken <;> cases taken
      exact Or.inl (disk_setDisk_of_ne s other _)

/-- Names are unique among the living, whoever does what in between, and a
refused call leaves the record, its `meta.json` and the directories there are. -/
theorem session_names_are_unique {start s : Registry P N} (vacant : start.Vacant)
    (run : Reaches step Promised start s) :
    (∀ d d' n, s.Carries d n → s.Carries d' n → d = d') ∧
    ∀ e t, s.Promised e → s.step e = some t →
      (∀ p was current name, (s.stage p).call = some (.rename was current name) →
        (t.stage p).call = none → e ≠ .write p → e ≠ .crash p →
          t.stage p = .held current ∧ t.disk p = was) ∧
      (∀ p was name, (s.stage p).call = some (.register was name) →
        (t.stage p).call = none → e ≠ .write p → e ≠ .crash p →
          t.stage p = .idle ∧ t.disk p = was) ∧
      ∀ d, d ≠ e.actor → t.disk d ≠ none → s.disk d ≠ none := by
  have sound : s.Sound :=
    run.invariant (fun _ _ _ sound admitted taken => Sound.step sound admitted taken) vacant.sound
  refine ⟨sound.unique, ?_⟩
  intro e t _ taken
  refine ⟨?_, ?_, ?_⟩
  · intro p was current name within ended written crashed
    rcases step_in_call within taken with
      goes | crash | write | ⟨refused, -⟩ | ⟨-, was', name', other, -⟩
    · rw [goes] at ended
      cases ended
    · exact absurd crash crashed
    · exact absurd write written
    · subst refused
      exact ⟨stage_put_self _ p _, sound.renaming within⟩
    · cases other
  · intro p was name within ended written crashed
    rcases step_in_call within taken with
      goes | crash | write | ⟨refused, early⟩ | ⟨dropped, -, -, -, late⟩
    · rw [goes] at ended
      cases ended
    · exact absurd crash crashed
    · exact absurd write written
    · subst refused
      refine ⟨stage_put_self _ p _, ?_⟩
      rcases sound.registering within with same | ⟨late, -⟩
      · exact same
      · exact absurd late (early was name)
    · subst dropped
      refine ⟨stage_put_self _ p _, ?_⟩
      have own : was = none ∧ s.disk p = some .bare := sound.own_at late
      rw [own.1]
      exact disk_setDisk_self s p none
  · intro d other there
    rcases disk_of_other taken other with same | gone
    · rwa [← same]
    · exact absurd gone there

/-- Two sessions want one name: the first has it, and the second has come to the
first one's entry. -/
def twoSessions : List (RegistryEvent Bool Nat) :=
  [.register false (some 7), .register true (some 7), .take false, .list false [],
    .check false false, .make false, .write false, .take true, .list true [false]]

theorem session_names_are_unique_twoSessions :
    ∃ s t : Registry Bool Nat, Reaches step Promised { disk := fun _ => none } s ∧
      s.Carries false 7 ∧ (∀ d, s.Carries d 7 → d = false) ∧
      s.step (.check true false) = some t ∧ t.stage true = .idle ∧ t.disk true = none := by
  have outcome : ((runFrom step ({ disk := fun _ => none } : Registry Bool Nat) twoSessions).map
      fun s => (s.stage false, s.disk false, (s.stage true).call,
        (s.step (.check true false)).map fun t => (t.stage true).call)) =
      some (.held (some 7), some (.recorded (some 7)), some (.register none (some 7)),
        some none) := by decide +kernel
  obtain ⟨s, run, shown⟩ := Option.map_eq_some_iff.mp outcome
  simp only [Prod.mk.injEq] at shown
  obtain ⟨held, recorded, within, next⟩ := shown
  obtain ⟨t, taken, ended⟩ := Option.map_eq_some_iff.mp next
  have reached : Reaches step Promised ({ disk := fun _ => none } : Registry Bool Nat) s :=
    reaches_of_runFrom twoSessions (by decide +kernel) run
  have first : s.Carries false 7 := ⟨by rw [held]; exact nofun, recorded⟩
  obtain ⟨unique, calls⟩ := session_names_are_unique
    (⟨rfl, fun _ => Or.inr ⟨rfl, Or.inl rfl⟩⟩ : Vacant { disk := fun _ => none }) reached
  have admitted : s.Promised (.check true false) := by
    simp only [Promised]
    split
    · exact nofun
    · trivial
  have refused := (calls _ t admitted taken).2.1 true none (some 7) within ended nofun nofun
  exact ⟨s, t, reached, first, fun d carries => unique d false 7 carries first, taken, refused⟩

end Oxutrm.Host.Registry
