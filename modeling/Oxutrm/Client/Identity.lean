import Oxutrm.Client.Session
import Oxutrm.Lib.Transition

/-!
Where the client is and where it says it is. Reports of rebuild attempts and
answers of switcher requests wait in their channels while others are handled.
`lobbies` is what has been heard of each session: whether it is a lobby by now.
A started session is the lobby the request went to, under a new name.
-/
namespace Oxutrm.Client
open Transition

variable {Id : Type}

/-- The client, its channels, and what it has heard of the sessions of its host.
`asked` and the first half of `answer` name the far end of the link a request
went out on. -/
structure Switching (Id : Type) where
  session : ClientSession Id
  asked : Option Id := none
  answer : Option (Id × Answered Id) := none
  reports : List (Report Id) := []
  lobbies : Id → Bool

inductive SwitchEvent (Id : Type) where
  | ask
  | reply (a : Answered Id)
  | answered
  | begin
  | task (i : Nat) (t : Attempt.TaskStep)
  | report (i : Nat) (outcome : AttemptOutcome Id)
  | reported
  | stoodDown
  | park
  | standbyLost
  | failOver

/-- An attempt lands where it was aimed; a lobby has a name of its own. -/
def Aim.reaches (aim : Aim Id) (established : Id) : Prop :=
  match aim with
  | .session id => established = id
  | .lobby => True

namespace Switching
variable [DecidableEq Id]

/-- A lobby that started a session is known by the session's name. -/
def renamed (via id : Id) (link : Id) : Id := if link = via then id else link

/-- What an answer over a link to `via` says of the far ends. -/
def learn (c : Switching Id) (via : Id) : Answered Id → Switching Id
  | .landed established => { c with lobbies := Function.update c.lobbies established false }
  | .started id =>
      { c with
        lobbies := Function.update c.lobbies id false
        session := { c.session with
          link := renamed via id c.session.link
          standby := c.session.standby.map (renamed via id) } }
  | .killed id => { c with lobbies := Function.update c.lobbies id true }
  | .sessions | .renamed | .failed _ => c

/-- What a landing says of its far end. -/
def learnLanding (c : Switching Id) (aim : Aim Id) (established : Id) : Switching Id :=
  match aim with
  | .session _ => c
  | .lobby => { c with lobbies := Function.update c.lobbies established true }

instance decidableReaches (aim : Aim Id) (established : Id) :
    Decidable (aim.reaches established) :=
  match aim with
  | .session id => inferInstanceAs (Decidable (established = id))
  | .lobby => .isTrue trivial

/-- Whether the outcome is one an attempt with this aim can report. -/
def Reportable (a : Attempt Id) : AttemptOutcome Id → Prop
  | .landed established => a.sent = true ∧ a.aim.reaches established
  | .retry _ | .definite _ => True

instance decidableReportable (a : Attempt Id) (outcome : AttemptOutcome Id) :
    Decidable (Reportable a outcome) :=
  match outcome with
  | .landed established => inferInstanceAs (Decidable (a.sent = true ∧ a.aim.reaches established))
  | .retry _ | .definite _ => .isTrue trivial

/-- The loop takes a report in; a definite failure ends the session. -/
def takeReport (c : Switching Id) (report : Report Id) (rest : List (Report Id)) :
    Option (Switching Id) :=
  match c.session.rebuildReported report with
  | (_, .error _) => none
  | (session, .ok true) =>
      match report.outcome, c.session.rebuild.attempts[report.attempt]? with
      | .landed established, some a =>
          some (learnLanding { c with session := session, reports := rest } a.aim established)
      | _, _ => some { c with session := session, reports := rest }
  | (session, .ok false) => some { c with session := session, reports := rest }

def step (c : Switching Id) : SwitchEvent Id → Option (Switching Id)
  | .ask => if c.asked.isNone then some { c with asked := some c.session.link } else none
  | .reply a =>
      match c.asked, c.answer with
      | some via, none => some { c with answer := some (via, a) }
      | _, _ => none
  | .answered => c.answer.map fun p =>
      let c := c.learn p.1 p.2
      { c with session := (c.session.takeAnswer p.2).1, asked := none, answer := none }
  | .begin =>
      if c.session.rebuild.isRunning then none
      else some { c with session := { c.session with rebuild := c.session.rebuild.begin } }
  | .task i t => (c.session.rebuild.task i (·.step t)).map fun rebuild =>
      { c with session := { c.session with rebuild := rebuild } }
  | .report i outcome =>
      (c.session.rebuild.attempts[i]?).bind fun a =>
        if Reportable a outcome then
          (c.session.rebuild.task i Attempt.finish).map fun rebuild =>
            { c with
              session := { c.session with rebuild := rebuild }
              reports := c.reports ++ [⟨i, a.generation, outcome⟩] }
        else none
  | .reported =>
      match c.reports with
      | [] => none
      | report :: rest => c.takeReport report rest
  | .stoodDown =>
      some { c with session := { c.session with rebuild := c.session.rebuild.stoodDown } }
  | .park =>
      if c.session.inLobby then none
      else some { c with session := { c.session with standby := some c.session.link } }
  | .standbyLost => some { c with session := { c.session with standby := none } }
  | .failOver => some { c with session := c.session.failOver.1 }

/-- The aim is where the client is, or the very session it is the lobby of. -/
def AimedHere (s : ClientSession Id) : Aim Id → Prop
  | .lobby => s.inLobby = true
  | .session id => id = s.sessionId

instance decidableAimedHere (s : ClientSession Id) : DecidablePred (AimedHere s)
  | .lobby => inferInstanceAs (Decidable (s.inLobby = true))
  | .session id => inferInstanceAs (Decidable (id = s.sessionId))

/-- A landing that is taken in comes from an attempt aimed where the client now
is, and a session that was started is the lobby the client is still in. -/
def Current (c : Switching Id) : SwitchEvent Id → Prop
  | .answered => ∀ p ∈ c.answer, p.2.isStarted = true → p.1 = c.session.link
  | .reported => ∀ report ∈ c.reports.head?, report.outcome.isLanded = true →
      ∀ a ∈ c.session.rebuild.attempts[report.attempt]?, AimedHere c.session a.aim
  | _ => True

instance decidableCurrent (c : Switching Id) : DecidablePred c.Current
  | .answered => inferInstanceAs (Decidable (∀ p ∈ c.answer, _ → _))
  | .reported => inferInstanceAs (Decidable (∀ report ∈ c.reports.head?, _ → ∀ a ∈ _, _))
  | .ask | .reply _ | .begin | .task _ _ | .report _ _ | .stoodDown | .park | .standbyLost
  | .failOver => .isTrue trivial

end Switching

/-- The client is where it says it is. -/
structure Truthful (s : ClientSession Id) (lobbies : Id → Bool) : Prop where
  named : s.link = s.sessionId
  lobby : s.inLobby = lobbies s.link
  aimed : s.rebuild.aim = s.whereabouts

namespace Switching

structure Settled (c : Switching Id) : Prop where
  truthful : Truthful c.session c.lobbies
  parked : ∀ l, c.session.standby = some l → l = c.session.link
  told : ∀ report ∈ c.reports, ∃ a, c.session.rebuild.attempts[report.attempt]? = some a ∧
    ∀ e, report.outcome = .landed e → a.aim.reaches e

theorem told_mono {r r' : Rebuild Id} (extended : r.Extends r') {report : Report Id}
    (told : ∃ a, r.attempts[report.attempt]? = some a ∧
      ∀ e, report.outcome = .landed e → a.aim.reaches e) :
    ∃ a, r'.attempts[report.attempt]? = some a ∧
      ∀ e, report.outcome = .landed e → a.aim.reaches e := by
  obtain ⟨a, found, reached⟩ := told
  obtain ⟨a', found', -, aim⟩ := extended _ a found
  exact ⟨a', found', fun e landed => aim ▸ reached e landed⟩

namespace Settled
variable {c : Switching Id}

theorem rebuilding (settled : Settled c) {rebuild : Rebuild Id} {reports : List (Report Id)}
    (aim : rebuild.aim = c.session.rebuild.aim) (extended : c.session.rebuild.Extends rebuild)
    (new : ∀ report ∈ reports, report ∈ c.reports ∨
      ∃ a, rebuild.attempts[report.attempt]? = some a ∧
        ∀ e, report.outcome = .landed e → a.aim.reaches e) :
    Settled { c with session := { c.session with rebuild := rebuild }, reports := reports } where
  truthful := ⟨settled.truthful.named, settled.truthful.lobby,
    aim.trans settled.truthful.aimed⟩
  parked := settled.parked
  told report member := by
    cases new report member with
    | inl old => exact told_mono extended (settled.told report old)
    | inr fresh => exact fresh

theorem standing (settled : Settled c) {standby : Option Id}
    (parked : ∀ l, standby = some l → l = c.session.link) :
    Settled { c with session := { c.session with standby := standby } } :=
  ⟨⟨settled.truthful.named, settled.truthful.lobby, settled.truthful.aimed⟩, parked,
    settled.told⟩

theorem retold (settled : Settled c) {rebuild : Rebuild Id}
    (extended : c.session.rebuild.Extends rebuild) (report : Report Id)
    (member : report ∈ c.reports) :
    ∃ a, rebuild.attempts[report.attempt]? = some a ∧
      ∀ e, report.outcome = .landed e → a.aim.reaches e :=
  told_mono extended (settled.told report member)

theorem failOver (settled : Settled c) : Settled { c with session := c.session.failOver.1 } := by
  have kept := settled.rebuilding c.session.rebuild.makeWay_aim
    (Rebuild.Extends.makeWay c.session.rebuild) fun other member => Or.inl member
  rcases c.session.failOver_cases with same | refused | ⟨standby, held, swapped⟩
  · rw [same]
    exact settled
  · rw [refused]
    exact kept
  · rw [swapped, settled.parked standby held]
    refine ⟨⟨kept.truthful.named, kept.truthful.lobby, kept.truthful.aimed⟩,
      fun l none => (by cases none), kept.told⟩

theorem report (settled : Settled c) {i : Nat} {outcome : AttemptOutcome Id}
    {a : Attempt Id} {rebuild : Rebuild Id} (found : c.session.rebuild.attempts[i]? = some a)
    (reportable : Reportable a outcome)
    (taken : c.session.rebuild.task i Attempt.finish = some rebuild) :
    Settled { c with
      session := { c.session with rebuild := rebuild }
      reports := c.reports ++ [⟨i, a.generation, outcome⟩] } := by
  have extended := Rebuild.Extends.finish taken
  refine settled.rebuilding (Rebuild.task_aim taken) extended ?_
  intro other member
  cases List.mem_append.mp member with
  | inl old => exact Or.inl old
  | inr new =>
      rw [List.mem_singleton.mp new]
      refine Or.inr ?_
      obtain ⟨a', found', -, aim⟩ := extended i a found
      refine ⟨a', found', ?_⟩
      intro e landed
      change outcome = .landed e at landed
      subst landed
      rw [aim]
      exact reportable.2

variable [DecidableEq Id]

theorem answered (settled : Settled c) {via : Id} {a : Answered Id}
    (current : ∀ id, a = .started id → via = c.session.link) :
    Settled { c.learn via a with
      session := ((c.learn via a).session.takeAnswer a).1, asked := none, answer := none } := by
  have truthful := settled.truthful
  cases a with
  | sessions => exact ⟨truthful, settled.parked, settled.told⟩
  | renamed => exact ⟨truthful, settled.parked, settled.told⟩
  | failed why => exact ⟨truthful, settled.parked, settled.told⟩
  | landed established =>
      refine ⟨⟨rfl, ?_, rfl⟩, fun l none => (by cases none), ?_⟩
      · exact (Function.update_self established false c.lobbies).symm
      · exact settled.retold ((Rebuild.Extends.cancel _).trans
          (Rebuild.Extends.retarget c.session.rebuild.stoodDown (.session established)))
  | started id =>
      have here : c.session.link = via := (current id rfl).symm
      have led : renamed via id c.session.link = id := by
        simp only [renamed, here, if_true]
      refine ⟨⟨led, ?_, rfl⟩, ?_, settled.retold (Rebuild.Extends.retarget _ _)⟩
      · change false = Function.update c.lobbies id false (renamed via id c.session.link)
        rw [led, Function.update_self]
      · intro l parked
        obtain ⟨l₀, held, rfl⟩ := Option.map_eq_some_iff.mp parked
        rw [settled.parked l₀ held]
        rfl
  | killed id =>
      by_cases here : id = c.session.sessionId
      · subst here
        have taken : (c.learn via (.killed c.session.sessionId)).session.takeAnswer
            (.killed c.session.sessionId) = _ := c.session.takeAnswer_killed_here
        rw [taken]
        refine ⟨⟨truthful.named, ?_, rfl⟩, fun l none => (by cases none),
          settled.retold (Rebuild.Extends.retarget _ _)⟩
        change true = Function.update c.lobbies c.session.sessionId true c.session.link
        rw [truthful.named, Function.update_self]
      · have taken : (c.learn via (.killed id)).session.takeAnswer (.killed id) = _ :=
          c.session.takeAnswer_killed_other here
        rw [taken]
        refine ⟨⟨truthful.named, ?_, truthful.aimed⟩, settled.parked, settled.told⟩
        have elsewhere : c.session.link ≠ id := by
          rw [truthful.named]
          exact fun same => here same.symm
        change c.session.inLobby = Function.update c.lobbies id true c.session.link
        rw [Function.update_of_ne elsewhere]
        exact truthful.lobby

theorem landed (settled : Settled c) {rebuild : Rebuild Id} {reports : List (Report Id)}
    {aim : Aim Id} {e : Id} (sameAim : rebuild.aim = c.session.rebuild.aim)
    (reached : aim.reaches e) (here : AimedHere c.session aim)
    (told : ∀ report ∈ reports, ∃ a, rebuild.attempts[report.attempt]? = some a ∧
      ∀ e, report.outcome = .landed e → a.aim.reaches e) :
    Settled (learnLanding
      { c with
        session := { c.session with rebuild := rebuild }.rebuildLanded e
        reports := reports } aim e) := by
  have truthful := settled.truthful
  have aimed := truthful.aimed
  cases lobby : c.session.inLobby with
  | true =>
      have landed : ClientSession.rebuildLanded { c.session with rebuild := rebuild } e =
          { c.session with
            link := e, standby := none, sessionId := e, rebuild := rebuild.swapped } := by
        simp only [ClientSession.rebuildLanded, ClientSession.swapIn, ClientSession.swapInAs,
          lobby, if_true]
      rw [landed]
      cases aim with
      | lobby =>
          refine ⟨⟨rfl, ?_, ?_⟩, fun l none => (by cases none), told⟩
          · change c.session.inLobby = Function.update c.lobbies e true e
            rw [lobby, Function.update_self]
          · simp only [ClientSession.whereabouts, lobby, if_true] at aimed ⊢
            exact sameAim.trans aimed
      | session id =>
          obtain rfl : e = id := reached
          obtain rfl : e = c.session.sessionId := here
          refine ⟨⟨rfl, ?_, ?_⟩, fun l none => (by cases none), told⟩
          · rw [← truthful.named]
            exact truthful.lobby
          · exact sameAim.trans aimed
  | false =>
      have landed : ClientSession.rebuildLanded { c.session with rebuild := rebuild } e =
          { c.session with link := e, standby := none, rebuild := rebuild.swapped } := by
        simp only [ClientSession.rebuildLanded, ClientSession.swapIn, ClientSession.swapInAs,
          lobby, Bool.false_eq_true, if_false]
      rw [landed]
      cases aim with
      | lobby =>
          change c.session.inLobby = true at here
          rw [lobby] at here
          cases here
      | session id =>
          obtain rfl : e = id := reached
          obtain rfl : e = c.session.sessionId := here
          refine ⟨⟨rfl, ?_, ?_⟩, fun l none => (by cases none), told⟩
          · rw [← truthful.named]
            exact truthful.lobby
          · exact sameAim.trans aimed

theorem reported (settled : Settled c) {report : Report Id} {rest : List (Report Id)}
    {c' : Switching Id} (waiting : c.reports = report :: rest)
    (current : ∀ e, report.outcome = .landed e →
      ∀ a ∈ c.session.rebuild.attempts[report.attempt]?, AimedHere c.session a.aim)
    (taken : c.takeReport report rest = some c') : Settled c' := by
  obtain ⟨aim, attempts⟩ := c.session.rebuild.accept_frame report
  have told : ∀ other ∈ c.reports, ∃ a,
      (c.session.rebuild.accept report).1.attempts[other.attempt]? = some a ∧
        ∀ e, other.outcome = .landed e → a.aim.reaches e := by
    rw [attempts]
    exact settled.told
  have remaining : ∀ other ∈ rest, other ∈ c.reports := fun other member => by
    rw [waiting]
    exact List.mem_cons_of_mem report member
  have extended : c.session.rebuild.Extends (c.session.rebuild.accept report).1 := by
    intro i a found
    exact ⟨a, attempts ▸ found, rfl, rfl⟩
  rcases c.session.rebuildReported_cases report with same | ⟨e, outcome, result⟩ | ⟨s, why, ended⟩
  · simp only [takeReport, same, Option.some.injEq] at taken
    subst taken
    exact settled.rebuilding aim extended fun other member => Or.inl (remaining other member)
  · obtain ⟨a, found, reached⟩ := settled.told report (by
      rw [waiting]
      exact List.mem_cons_self)
    simp only [takeReport, result, outcome, found, Option.some.injEq] at taken
    subst taken
    exact settled.landed aim (reached e outcome) (current e outcome a found)
      fun other member => told other (remaining other member)
  · simp only [takeReport, ended] at taken
    cases taken

theorem step (settled : Settled c) {e : SwitchEvent Id} {c' : Switching Id}
    (current : c.Current e) (taken : c.step e = some c') : Settled c' := by
  cases e with
  | ask =>
      simp only [Switching.step] at taken
      split at taken
      · cases taken
        exact ⟨settled.truthful, settled.parked, settled.told⟩
      · cases taken
  | reply a =>
      simp only [Switching.step] at taken
      split at taken
      · cases taken
        exact ⟨settled.truthful, settled.parked, settled.told⟩
      · cases taken
  | answered =>
      obtain ⟨⟨via, a⟩, waiting, rfl⟩ := Option.map_eq_some_iff.mp taken
      refine settled.answered fun id started => current (via, a) waiting ?_
      rw [started]
      rfl
  | «begin» =>
      simp only [Switching.step] at taken
      split at taken
      · cases taken
      · cases taken
        exact settled.rebuilding rfl (Rebuild.Extends.begin _) fun _ member => Or.inl member
  | task i t =>
      obtain ⟨rebuild, stepped, rfl⟩ := Option.map_eq_some_iff.mp taken
      exact settled.rebuilding (Rebuild.task_aim stepped) (Rebuild.Extends.task stepped)
        fun _ member => Or.inl member
  | report i outcome =>
      obtain ⟨a, found, rest⟩ := Option.bind_eq_some_iff.mp taken
      split at rest
      · next reportable =>
          obtain ⟨rebuild, finished, rfl⟩ := Option.map_eq_some_iff.mp rest
          exact settled.report found reportable finished
      · cases rest
  | reported =>
      simp only [Switching.step] at taken
      split at taken
      · cases taken
      · next report rest waiting =>
          refine settled.reported waiting (fun e outcome => current report ?_ ?_) taken
          · rw [waiting]
            rfl
          · rw [outcome]
            rfl
  | stoodDown =>
      cases taken
      exact settled.rebuilding (Rebuild.cancel_aim _) (Rebuild.Extends.cancel _)
        fun _ member => Or.inl member
  | park =>
      simp only [Switching.step] at taken
      split at taken
      · cases taken
      · cases taken
        exact settled.standing fun l held => (Option.some.inj held).symm
  | standbyLost =>
      cases taken
      exact settled.standing fun l none => (by cases none)
  | failOver =>
      cases taken
      exact settled.failOver

end Settled

variable [DecidableEq Id]

/-- A client that has just connected. -/
def connected (id : Id) (lobby : Bool) : Switching Id where
  session :=
    { link := id
      standby := none
      sessionId := id
      inLobby := lobby
      rebuild := Rebuild.aimed (if lobby then .lobby else .session id) }
  lobbies := Function.update (fun _ => false) id lobby

/-- In every run in which each landing taken in was aimed where the client is by
then, and each started session is the lobby it is still in, the client is where
it says it is. -/
theorem client_is_where_it_says (id : Id) (lobby : Bool) {c : Switching Id}
    (run : Reaches Switching.step Switching.Current (connected id lobby) c) :
    Truthful c.session c.lobbies := by
  have start : Settled (connected id lobby) := by
    refine ⟨⟨rfl, ?_, rfl⟩, fun l none => (by cases none), fun _ member => (by cases member)⟩
    exact (Function.update_self id lobby fun _ => false).symm
  exact (run.invariant (fun _ _ _ settled current taken => settled.step current taken) start).truthful

/-- An attempt that reaches the host, lands and reports. -/
def landing (i : Nat) (established : Id) : List (SwitchEvent Id) :=
  [.task i .poll, .task i .commit, .task i .choose, .report i (.landed established)]

/-- A rebuild into the session the client is in, and a switch after it. -/
def orderly : List (SwitchEvent Nat) :=
  [.begin] ++ landing 0 1 ++ [.reported, .ask, .reply (.landed 2), .answered]

theorem client_is_where_it_says_orderly :
    ∃ c, runFrom Switching.step (connected 1 false) orderly = some c ∧
      c.session.link = 2 ∧ Truthful c.session c.lobbies := by
  have outcome : (runFrom Switching.step (connected 1 false) orderly).map
      (fun c => c.session.link) = some 2 := by decide +kernel
  obtain ⟨c, run, link⟩ := Option.map_eq_some_iff.mp outcome
  exact ⟨c, run, link, client_is_where_it_says 1 false
    (reaches_of_runFrom orderly (by decide +kernel) run)⟩

/-- The landing waits in its channel while a switch is answered. -/
def overtaken : List (SwitchEvent Nat) :=
  [.ask, .begin] ++ landing 0 1 ++ [.reply (.landed 2), .answered, .reported]

/-- The answer waits in its channel while the lobby it came from is replaced. -/
def replaced : List (SwitchEvent Nat) :=
  [.ask, .reply (.started 5), .begin] ++ landing 0 2 ++ [.reported, .answered]

/-- The link leads to one session and the identity names another: after a
landing read once the client has moved, and after a session started in a lobby
that has been replaced. -/
theorem link_and_identity_part :
    (∃ c, Reaches Switching.step free (connected 1 false) c ∧
        c.session.link = 1 ∧ c.session.sessionId = 2) ∧
      ∃ c, Reaches Switching.step free (connected 1 true) c ∧
        c.session.link = 2 ∧ c.session.sessionId = 5 := by
  constructor
  · have outcome : (runFrom Switching.step (connected 1 false) overtaken).map
        (fun c => (c.session.link, c.session.sessionId)) = some (1, 2) := by decide +kernel
    obtain ⟨c, run, shown⟩ := Option.map_eq_some_iff.mp outcome
    exact ⟨c, reaches_of_runFrom _ (admits_free _ _ _) run, (Prod.mk.inj shown).1,
      (Prod.mk.inj shown).2⟩
  · have outcome : (runFrom Switching.step (connected 1 true) replaced).map
        (fun c => (c.session.link, c.session.sessionId)) = some (2, 5) := by decide +kernel
    obtain ⟨c, run, shown⟩ := Option.map_eq_some_iff.mp outcome
    exact ⟨c, reaches_of_runFrom _ (admits_free _ _ _) run, (Prod.mk.inj shown).1,
      (Prod.mk.inj shown).2⟩

end Switching
end Oxutrm.Client
