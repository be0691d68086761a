import Oxutrm.Client.Standby
import Oxutrm.Lib.Transition

/-!
The loop's probe of the standby. `probing` belongs to the standby and the task it
stands for to the loop, which drops it in several places. A task that has been
dropped never reports; any other reports once.
-/
namespace Oxutrm.Client
open Transition

variable {Link : Type}

/-- `running` is the probe task the loop holds, and `waiting` what the probes have
reported and the loop has not read. -/
structure Probing (Link : Type) where
  standby : Standby Link
  running : Bool := false
  waiting : List Bool := []

inductive ProbingEvent (Link : Type) where
  | lap (phase : Phase) (now : Instant) (rebuild : RebuildStage) (abandoned : Bool)
  | report (answered : Bool)
  | probed (now : Instant)
  | found (search : UInt64) (established : Link)
  | notFound (search : UInt64) (now : Instant) (reason : String)
  | lost (now : Instant) (reason : CloseReason)
  | routeMoved (now : Instant)
  | rebuilt (now : Instant)
  | movedAway (now : Instant)
  | switch (on : Bool) (now : Instant)

namespace Probing

/-- The loop acts on what `step` decided. A failover is refused when the rebuild
attempt could not be abandoned. -/
def act (c : Probing Link) (now : Instant) (abandoned : Bool) : StandbyAction → Probing Link
  | .nothing | .search _ => c
  | .probe _ => if c.standby.link.isSome then { c with running := true } else c
  | .failOver => if abandoned then { c with standby := (c.standby.takeForFailover now).1 } else c

/-- `rebuilt` is a landed rebuild, which keeps the probe task; `movedAway` is a
switcher answer the loop follows, which drops it. -/
def step (c : Probing Link) : ProbingEvent Link → Option (Probing Link)
  | .lap phase now rebuild abandoned =>
      let (standby, action) := c.standby.step phase now rebuild
      some (act { c with standby := standby } now abandoned action)
  | .report answered =>
      if c.running then some { c with running := false, waiting := c.waiting ++ [answered] }
      else none
  | .probed now =>
      match c.waiting with
      | [] => none
      | answered :: rest =>
          some { c with standby := (c.standby.probed answered now).1, waiting := rest }
  | .found search established =>
      some { c with standby := (c.standby.found search established).1 }
  | .notFound search now reason =>
      some { c with standby := (c.standby.notFound search now reason).1 }
  | .lost now reason => some { c with standby := (c.standby.lost now reason).1 }
  | .routeMoved now => some { c with standby := c.standby.routeMoved now }
  | .rebuilt now => some { c with standby := c.standby.forget now }
  | .movedAway now => some { c with standby := c.standby.forget now, running := false }
  | .switch on now =>
      if on = c.standby.enabled then none
      else some { c with
        standby := c.standby.setEnabled on now
        running := if on then c.running else false }

/-- A switcher answer that moves the client finds no probe that has yet to
report. -/
def Reported (c : Probing Link) : ProbingEvent Link → Prop
  | .movedAway _ => c.running = false
  | _ => True

structure Live (c : Probing Link) : Prop where
  probing : c.standby.probing = true → c.running = true ∨ c.waiting ≠ []
  pending : ∀ sent, c.standby.probe = .pending sent → c.standby.probing = true
  held : c.standby.link.isSome = true → c.standby.enabled = true

namespace Live
variable {c : Probing Link}

theorem keep (live : Live c) {standby : Standby Link}
    (probing : standby.probing = c.standby.probing)
    (probe : standby.probe = .idle ∨ standby.probe = c.standby.probe)
    (held : standby.link.isSome = true → standby.enabled = true) :
    Live { c with standby := standby } where
  probing asked := live.probing (probing ▸ asked)
  pending sent waits := by
    change standby.probing = true
    rw [probing]
    cases probe with
    | inl reset =>
        change standby.probe = .pending sent at waits
        rw [reset] at waits
        cases waits
    | inr same => exact live.pending sent (same ▸ waits)
  held := held

theorem lap (live : Live c) (phase : Phase) (now : Instant) (rebuild : RebuildStage)
    (abandoned : Bool) :
    Live (act { c with standby := (c.standby.step phase now rebuild).1 } now abandoned
      (c.standby.step phase now rebuild).2) := by
  rcases c.standby.step_cases phase now rebuild with
    ⟨-, -, same⟩ | reset | ⟨-, search⟩ | ⟨-, -, -, -, due⟩ | ⟨held, -, -, -, probe⟩
  · rw [same]
    exact live
  · rw [reset]
    exact live.keep rfl (Or.inl rfl) live.held
  · rw [search]
    exact live.keep rfl (Or.inl rfl) live.held
  · rw [due]
    simp only [act]
    split
    · exact live.keep rfl (Or.inl rfl) fun none => by cases none
    · exact live
  · rw [probe]
    simp only [act, held, if_true]
    exact ⟨fun _ => Or.inl rfl, fun _ _ => rfl, live.held⟩

theorem report (live : Live c) (answered : Bool) :
    Live { c with running := false, waiting := c.waiting ++ [answered] } :=
  ⟨fun _ => Or.inr (List.append_ne_nil_of_right_ne_nil _ (List.cons_ne_nil _ _)),
    live.pending, live.held⟩

theorem probed (live : Live c) (answered : Bool) (rest : List Bool) (now : Instant) :
    Live { c with standby := (c.standby.probed answered now).1, waiting := rest } := by
  obtain ⟨probe, result, heard⟩ := c.standby.probed_eq answered now
  rw [result]
  exact ⟨fun asked => (by cases asked), fun sent waits => absurd waits (heard sent), live.held⟩

theorem step (live : Live c) {e : ProbingEvent Link} {c' : Probing Link} (reported : c.Reported e)
    (taken : c.step e = some c') : Live c' := by
  cases e with
  | lap phase now rebuild abandoned =>
      cases taken
      exact live.lap phase now rebuild abandoned
  | report answered =>
      simp only [Probing.step] at taken
      split at taken
      · cases taken
        exact live.report answered
      · cases taken
  | probed now =>
      simp only [Probing.step] at taken
      split at taken
      · cases taken
      · cases taken
        exact live.probed _ _ now
  | found search established =>
      cases taken
      simp only [Standby.found]
      split
      · exact live
      · next wanted =>
          refine live.keep rfl (Or.inr rfl) fun _ => ?_
          simp only [Bool.or_eq_true, Bool.not_eq_true', not_or, Bool.not_eq_false] at wanted
          exact wanted.1
  | notFound search now reason =>
      cases taken
      simp only [Standby.notFound]
      split
      · exact live
      · exact live.keep rfl (Or.inr rfl) live.held
  | lost now reason =>
      cases taken
      exact live.keep rfl (Or.inl rfl) fun none => by cases none
  | routeMoved now =>
      cases taken
      exact live.keep rfl (Or.inr rfl) live.held
  | rebuilt now =>
      cases taken
      exact live.keep rfl (Or.inl rfl) fun none => by cases none
  | movedAway now =>
      cases taken
      have idle : c.running = false := reported
      refine ⟨fun asked => ?_, fun sent waits => (by cases waits), fun none => (by cases none)⟩
      cases live.probing asked with
      | inl runs =>
          rw [idle] at runs
          cases runs
      | inr waits => exact Or.inr waits
  | switch on now =>
      simp only [Probing.step] at taken
      split at taken
      · cases taken
      · next other =>
          cases taken
          simp only [Standby.setEnabled, other, if_false]
          cases on with
          | true => exact live.keep rfl (Or.inr rfl) fun _ => rfl
          | false =>
              exact ⟨fun asked => (by cases asked), fun sent waits => (by cases waits),
                fun none => (by cases none)⟩

theorem drain (live : Live c) (idle : c.running = false) :
    ∃ c', Reaches Probing.step Probing.Reported c c' ∧ Live c' ∧
      c'.standby.link = c.standby.link ∧ c'.running = false ∧ c'.waiting = [] := by
  obtain ⟨standby, running, waiting⟩ := c
  induction waiting generalizing standby with
  | nil => exact ⟨_, Relation.ReflTransGen.refl, live, rfl, idle, rfl⟩
  | cons answered rest ih =>
      have read := live.probed answered rest 0
      obtain ⟨c', run, kept, link, done⟩ := ih _ read idle
      obtain ⟨probe, result, -⟩ := standby.probed_eq answered 0
      refine ⟨c', ?_, kept, link.trans (by rw [result]), done⟩
      exact Relation.ReflTransGen.head ⟨.probed 0, trivial, rfl⟩ run

/-- Once every probe has been heard of, the standby is due for one more, or for a
failover, some time on. -/
theorem due (live : Live c) (held : c.standby.link.isSome = true) (idle : c.running = false)
    (read : c.waiting = []) {phase : Phase} (outage : phase.isOutage = true)
    {rebuild : RebuildStage} (free : rebuild ≠ .committed) :
    ∃ t, ∀ now ≥ t, (c.standby.step phase now rebuild).2 = .failOver ∨
      (c.standby.step phase now rebuild).2 = .probe (c.standby.nonce + 1) := by
  have enabled := live.held held
  have silent : c.standby.probing = false := by
    by_contra asked
    cases live.probing (Bool.not_eq_false _ ▸ asked) with
    | inl runs =>
        rw [idle] at runs
        cases runs
    | inr waits => exact waits read
  have linked : c.standby.link.isNone = false := by
    simpa using held
  cases standing : c.standby.probe with
  | idle =>
      refine ⟨0, fun now _ => Or.inr ?_⟩
      simp [Standby.step, enabled, outage, linked, free, standing, failoverDue, Standby.mayProbe,
        silent]
  | pending sent =>
      have asked := live.pending sent standing
      rw [silent] at asked
      cases asked
  | answered sent =>
      refine ⟨sent + failoverGrace, fun now later => Or.inl ?_⟩
      have grace : now - sent ≥ failoverGrace := Nat.le_sub_of_add_le' later
      simp [Standby.step, enabled, outage, linked, free, standing, failoverDue, grace]
  | failed since =>
      refine ⟨since + probeRetry, fun now later => Or.inr ?_⟩
      have retry : now - since ≥ probeRetry := Nat.le_sub_of_add_le' later
      simp [Standby.step, enabled, outage, linked, free, standing, failoverDue, Standby.mayProbe,
        silent, retry]

end Live

/-- In every run in which a switcher answer moves the client only when no probe
has yet to report, `probing` stands for a task or a report; and from wherever the
run has led, an outage with a standby and no committed rebuild comes to a probe or
a failover. -/
theorem standby_can_be_probed_again (first : Instant) {c : Probing Link}
    (run : Reaches Probing.step Probing.Reported { standby := Standby.new first } c) :
    (c.standby.probing = true → c.running = true ∨ c.waiting ≠ []) ∧
      (c.standby.link.isSome = true → ∀ phase, phase.isOutage = true →
        ∀ rebuild, rebuild ≠ .committed →
          ∃ c' t, Reaches Probing.step Probing.Reported c c' ∧
            c'.standby.link = c.standby.link ∧
            ∀ now ≥ t, (c'.standby.step phase now rebuild).2 = .failOver ∨
              (c'.standby.step phase now rebuild).2 = .probe (c'.standby.nonce + 1)) := by
  have start : Live ({ standby := Standby.new first } : Probing Link) :=
    ⟨fun asked => (by cases asked), fun sent waits => (by cases waits),
      fun none => (by cases none)⟩
  have live : Live c :=
    run.invariant (fun _ _ _ live reported taken => live.step reported taken) start
  refine ⟨live.probing, ?_⟩
  intro held phase outage rebuild free
  obtain ⟨quiet, told, kept, idle, link⟩ : ∃ quiet,
      Reaches Probing.step Probing.Reported c quiet ∧ Live quiet ∧ quiet.running = false ∧
        quiet.standby.link = c.standby.link := by
    cases running : c.running with
    | false => exact ⟨c, Relation.ReflTransGen.refl, live, running, rfl⟩
    | true =>
        refine ⟨_, Reaches.single (.report true) trivial ?_, live.report true, rfl, rfl⟩
        simp only [Probing.step, running, if_true]
  obtain ⟨c', heard, last, link', idle', read⟩ := kept.drain idle
  have still : c'.standby.link = c.standby.link := link'.trans link
  obtain ⟨t, due⟩ := last.due (still ▸ held) idle' read outage free
  exact ⟨c', t, Relation.ReflTransGen.trans told heard, still, due⟩

instance decidableReported (c : Probing Link) : DecidablePred c.Reported
  | .movedAway _ => inferInstanceAs (Decidable (_ = _))
  | .lap _ _ _ _ | .report _ | .probed _ | .found _ _ | .notFound _ _ _ | .lost _ _
  | .routeMoved _ | .rebuilt _ | .switch _ _ => .isTrue trivial

def connected : Probing Nat := { standby := Standby.new 0 }

/-- A standby is found, and an outage probes it. -/
def probedOnce : List (ProbingEvent Nat) :=
  [.lap .live (seconds 5) .idle true, .found 1 7, .lap (.silent (seconds 8)) (seconds 10) .idle true]

theorem standby_can_be_probed_again_once :
    ∃ c, runFrom Probing.step connected probedOnce = some c ∧ c.standby.link = some 7 ∧
      ∃ c' t, Reaches Probing.step Probing.Reported c c' ∧ ∀ now ≥ t,
        (c'.standby.step (.silent (seconds 8)) now .idle).2 = .failOver ∨
          (c'.standby.step (.silent (seconds 8)) now .idle).2 = .probe (c'.standby.nonce + 1) := by
  have outcome : (runFrom Probing.step connected probedOnce).map (fun c => c.standby.link) =
      some (some 7) := by decide +kernel
  obtain ⟨c, run, link⟩ := Option.map_eq_some_iff.mp outcome
  obtain ⟨-, again⟩ := standby_can_be_probed_again 0
    (reaches_of_runFrom probedOnce (by decide +kernel) run)
  obtain ⟨c', t, reached, -, due⟩ := again (by rw [link]; rfl) (.silent (seconds 8)) rfl .idle
    (by decide)
  exact ⟨c, run, link, c', t, reached, due⟩

/-- `probing` is set and nothing will ever clear it but the switch. -/
structure Wedged (c : Probing Link) : Prop where
  probing : c.standby.probing = true
  probe : c.standby.probe = .idle
  running : c.running = false
  waiting : c.waiting = []

def Unswitched (_ : Probing Link) : ProbingEvent Link → Prop
  | .switch _ _ => False
  | _ => True

namespace Wedged
variable {c : Probing Link}

theorem nothing (wedged : Wedged c) (phase : Phase) (now : Instant) (rebuild : RebuildStage) :
    (c.standby.step phase now rebuild).2 ≠ .failOver ∧
      ∀ nonce, (c.standby.step phase now rebuild).2 ≠ .probe nonce := by
  have due : failoverDue phase c.standby.probe now = false := by rw [wedged.probe]; rfl
  simp only [Standby.step, due, wedged.probing]
  grind

theorem step (wedged : Wedged c) {e : ProbingEvent Link} {c' : Probing Link}
    (on : c.Unswitched e) (taken : c.step e = some c') : Wedged c' := by
  have keep : ∀ standby : Standby Link, standby.probing = c.standby.probing →
      standby.probe = .idle ∨ standby.probe = c.standby.probe →
      Wedged { c with standby := standby } := by
    intro standby probing probe
    exact ⟨probing.trans wedged.probing, probe.elim id fun same => same.trans wedged.probe,
      wedged.running, wedged.waiting⟩
  cases e with
  | lap phase now rebuild abandoned =>
      obtain ⟨due, probe⟩ := wedged.nothing phase now rebuild
      rw [← Option.some.inj taken]
      change Wedged (act { c with standby := (c.standby.step phase now rebuild).1 } now abandoned
        (c.standby.step phase now rebuild).2)
      rcases c.standby.step_cases phase now rebuild with
        ⟨-, -, same⟩ | reset | ⟨-, search⟩ | ⟨-, -, -, -, past⟩ | ⟨-, -, -, -, probes⟩
      · rw [same]
        exact wedged
      · rw [reset]
        exact keep _ rfl (Or.inl rfl)
      · rw [search]
        exact keep _ rfl (Or.inl rfl)
      · exact absurd (congrArg Prod.snd past) due
      · exact absurd (congrArg Prod.snd probes) (probe _)
  | report answered =>
      simp only [Probing.step, wedged.running, Bool.false_eq_true, if_false] at taken
      cases taken
  | probed now =>
      simp only [Probing.step, wedged.waiting] at taken
      cases taken
  | found search established =>
      cases taken
      simp only [Standby.found]
      split
      · exact wedged
      · exact keep _ rfl (Or.inr rfl)
  | notFound search now reason =>
      cases taken
      simp only [Standby.notFound]
      split
      · exact wedged
      · exact keep _ rfl (Or.inr rfl)
  | lost now reason =>
      cases taken
      exact keep _ rfl (Or.inl rfl)
  | routeMoved now =>
      cases taken
      exact keep _ rfl (Or.inr rfl)
  | rebuilt now =>
      cases taken
      exact keep _ rfl (Or.inl rfl)
  | movedAway now =>
      cases taken
      exact ⟨wedged.probing, rfl, rfl, wedged.waiting⟩
  | switch on now => exact on.elim

end Wedged

/-- A switcher answer lands during an outage's probe; a new standby is found in
the session the client has moved to. -/
def answeredMidProbe : List (ProbingEvent Nat) :=
  probedOnce ++ [.movedAway (seconds 11), .lap .live (seconds 20) .idle true, .found 3 8]

/-- No task and no report stands for `probing`, and as long as the standby is not
switched off and on again nothing is ever probed or failed over to. -/
theorem standby_never_probed_again :
    ∃ c, Reaches Probing.step free connected c ∧ c.standby.link = some 8 ∧
      c.standby.probing = true ∧ c.running = false ∧ c.waiting = [] ∧
      ∀ c', Reaches Probing.step Unswitched c c' → ∀ phase now rebuild,
        (c'.standby.step phase now rebuild).2 ≠ .failOver ∧
          ∀ nonce, (c'.standby.step phase now rebuild).2 ≠ .probe nonce := by
  have outcome : (runFrom Probing.step connected answeredMidProbe).map (fun c =>
      (c.standby.link, c.standby.probing, c.standby.probe, c.running, c.waiting)) =
      some (some 8, true, .idle, false, []) := by decide +kernel
  obtain ⟨c, run, shown⟩ := Option.map_eq_some_iff.mp outcome
  simp only [Prod.mk.injEq] at shown
  obtain ⟨link, probing, probe, running, waiting⟩ := shown
  refine ⟨c, reaches_of_runFrom _ (admits_free _ _ _) run, link, probing, running, waiting, ?_⟩
  intro c' later phase now rebuild
  have wedged : Wedged c' := later.invariant
    (fun _ _ _ wedged on taken => wedged.step on taken) ⟨probing, probe, running, waiting⟩
  exact wedged.nothing phase now rebuild

end Probing
end Oxutrm.Client
