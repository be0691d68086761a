import Oxutrm.Net.Ladder

/-!
When the ladder's report tells the truth: exactly if nothing is left out of its
race, or there is no race and no blast aims at an address the peer has offered.
-/
namespace Oxutrm.Net
variable {codec : StunCodec} {creds : IceCredentials}

namespace IceAgent

theorem races_ofCandidate (kind : CandidateKind) (remote : SocketAddr) :
    (Rung.ofCandidate kind remote).races = true := by
  cases kind with
  | host | portMapped | serverReflexive | peerReflexive => rfl

theorem races_nominatedEvent {a : IceAgent} {localAddr remote here there : SocketAddr} {rung : Rung}
    {probes : Nat} (said : a.nominatedEvent localAddr remote = .nominated here there rung probes) :
    rung.races = true := by
  simp only [nominatedEvent, IceEvent.nominated.injEq] at said
  rw [← said.2.2.1]
  split
  next => rfl
  next => exact races_ofCandidate _ _

theorem races_turn {a : IceAgent} {localAddr : SocketAddr} {now : Nat} {sends : List CheckSend}
    {tid : TransactionId} {here remote : SocketAddr} {rung : Rung} {probes : Nat}
    (said : (a.turn codec creds localAddr now sends tid).2.2 =
      some (.nominated here remote rung probes)) : rung.races = true := by
  unfold turn at said
  dsimp only at said
  split at said
  next => cases said
  next =>
    split at said
    next => cases said
    next =>
      split at said
      next => cases said
      next =>
        split at said
        next => exact races_nominatedEvent (Option.some.inj said)
        next => cases said

theorem races_onDatagram {a : IceAgent} {localAddr : SocketAddr} {now : Nat} {source : SocketAddr}
    {bytes : List UInt8} {here remote : SocketAddr} {rung : Rung} {probes : Nat}
    (said : (a.onDatagram codec creds localAddr now source bytes).2.2 =
      some (.nominated here remote rung probes)) : rung.races = true := by
  rcases @onDatagram_cases codec creds a localAddr now source bytes with
    nothing | ⟨check, -, -, result⟩ | ⟨check, -, -, -, result⟩ | ⟨check, to_, sentAt, -, -, -, result⟩
  · rw [nothing] at said
    cases said
  · rw [result] at said
    cases said
  · rw [result] at said
    exact races_nominatedEvent (Option.some.inj said)
  · rw [result] at said
    exact absurd said ((a.onResponse_fields now check to_ sentAt).2.2.2.2 here remote rung probes)

/-- No check has gone out and none has come in. -/
def Untried (a : IceAgent) : Prop :=
  a.deadline = none ∧ a.done = false ∧
    ∀ pair ∈ a.pairs, pair.2.outboundOk = false ∧ pair.2.inboundOk = false ∧
      pair.2.lastSent = none

theorem Untried.addRemote {a : IceAgent} (untried : a.Untried) (c : Candidate) :
    (a.addRemote c).Untried := by
  refine ⟨untried.1, untried.2.1, ?_⟩
  intro pair there
  rcases Pairs.mem_entry there with old | ⟨s, same, origin⟩
  · exact untried.2.2 pair old
  · have clear : s.outboundOk = false ∧ s.inboundOk = false ∧ s.lastSent = none := by
      rcases origin with member | fresh
      · exact untried.2.2 _ member
      · rw [fresh]
        exact ⟨rfl, rfl, rfl⟩
    rw [same]
    dsimp only
    split <;> exact clear

theorem turn_at_deadline {a : IceAgent} {deadline now : Nat} (armed : a.deadline = some deadline)
    (late : deadline ≤ now) (localAddr : SocketAddr) (sends : List CheckSend)
    (tid : TransactionId) :
    ∃ why, (a.turn codec creds localAddr now sends tid).2.2 = some (.failed why) := by
  simp only [turn, armed, Option.getD_some]
  split
  next => exact ⟨_, rfl⟩
  next =>
    split
    next => exact ⟨_, rfl⟩
    next => exact ⟨_, rfl⟩

theorem turn_in_time {a : IceAgent} {localAddr : SocketAddr} {now : Nat} {sends : List CheckSend}
    {tid : TransactionId} (filled : a.pairs.isEmpty = false) (undone : a.done = false)
    (early : now < a.deadline.getD (now + a.gatherTimeout))
    (nobody : ({ a with deadline := some (a.deadline.getD (now + a.gatherTimeout)) }.sendDueChecks
      codec creds now sends).1.bestValidated = none) :
    a.turn codec creds localAddr now sends tid =
      (({ a with deadline := some (a.deadline.getD (now + a.gatherTimeout)) }.sendDueChecks
          codec creds now sends).1,
        ({ a with deadline := some (a.deadline.getD (now + a.gatherTimeout)) }.sendDueChecks
          codec creds now sends).2, none) := by
  unfold turn
  dsimp only
  rw [if_neg (by rw [filled]; exact Bool.false_ne_true),
    if_neg (by rw [undone]; exact Bool.false_ne_true), if_neg (Nat.not_le_of_lt early)]
  split
  next best =>
    rw [best] at nobody
    cases nobody
  next => rfl

theorem Untried.turn (encodes : ∀ message password, codec.encode message password ≠ none)
    {a : IceAgent} (untried : a.Untried) (timely : 0 < a.gatherTimeout) (localAddr : SocketAddr)
    (tid : TransactionId) {remote : SocketAddr} {s : PairState} (there : (remote, s) ∈ a.pairs) :
    ∃ sends, (a.turn codec creds localAddr 0 sends tid).2.2 = none ∧
      (a.turn codec creds localAddr 0 sends tid).1.deadline = some a.gatherTimeout ∧
      ∃ p ∈ (a.turn codec creds localAddr 0 sends tid).2.1,
        p.message.messageClass = .request ∧ p.remote = remote := by
  obtain ⟨unarmed, undone, untested⟩ := untried
  have filled : a.pairs.isEmpty = false := by
    cases pairs : a.pairs with
    | nil =>
        rw [pairs] at there
        cases there
    | cons => rfl
  have early : 0 < a.deadline.getD (0 + a.gatherTimeout) := by
    rw [unarmed, Option.getD_none, Nat.zero_add]
    exact timely
  generalize armed_ : ({ a with deadline := some (a.deadline.getD (0 + a.gatherTimeout)) } :
    IceAgent) = armed
  have pairs : armed.pairs = a.pairs := armed_ ▸ rfl
  have deadline : armed.deadline = some a.gatherTimeout := by
    rw [← armed_]
    simp only [unarmed, Option.getD_none, Nat.zero_add]
  refine ⟨(armed.due 0).map fun _ => ⟨tid, true⟩, ?_⟩
  generalize chosen : ((armed.due 0).map fun _ => (⟨tid, true⟩ : CheckSend)) = sends
  have checked := @checked_sendDueChecks codec creds armed 0 sends
  have due : remote ∈ armed.due 0 := by
    refine List.mem_map.mpr ⟨(remote, s), List.mem_filter.mpr ⟨pairs ▸ there, ?_⟩, rfl⟩
    obtain ⟨outbound, -, unsent⟩ := untested _ there
    dsimp only at outbound unsent
    rw [outbound, unsent]
    rfl
  have nobody : (armed.sendDueChecks codec creds 0 sends).1.bestValidated = none := by
    cases best : (armed.sendDueChecks codec creds 0 sends).1.bestValidated with
    | none => rfl
    | some remote =>
        obtain ⟨s', member, outbound, -, -⟩ := bestValidated_mem best
        obtain ⟨s'', before, -, same⟩ := checked.pairs _ member
        rw [pairs] at before
        have clear := (untested _ before).1
        rw [show s'.outboundOk = s''.outboundOk from same, clear] at outbound
        cases outbound
  have taken : ∀ send ∈ sends, send.taken = true := by
    intro send there
    rw [← chosen] at there
    obtain ⟨_, _, rfl⟩ := List.mem_map.mp there
    rfl
  have enough : (armed.due 0).length ≤ sends.length := by
    have same : sends.length = (armed.due 0).length := by rw [← chosen, List.length_map]
    exact Nat.le_of_eq same.symm
  obtain ⟨p, sent, to_⟩ :=
    @sendDueChecks_reaches codec creds encodes armed 0 sends enough taken remote due
  subst armed_
  rw [turn_in_time filled undone early nobody]
  exact ⟨rfl, checked.deadline.trans deadline, p, sent, isRequest_of_checked checked sent, to_⟩

end IceAgent

theorem Pairs.entry_has (addr : SocketAddr) (fresh : PairState) (f : PairState → PairState)
    (pairs : Pairs) : ∃ s, (addr, s) ∈ pairs.entry addr fresh f := by
  induction pairs with
  | nil => exact ⟨f fresh, List.mem_cons_self⟩
  | cons head rest ih =>
      obtain ⟨a, s⟩ := head
      rw [entry]
      split
      next same => exact ⟨f s, same ▸ List.mem_cons_self⟩
      next =>
        split
        next => exact ⟨f fresh, List.mem_cons_self⟩
        next =>
          obtain ⟨s', there⟩ := ih
          exact ⟨s', List.mem_cons_of_mem _ there⟩

namespace Ladder
variable {l : Ladder}

theorem untried_newAgent (l : Ladder) : l.newAgent.Untried := by
  have locals : ∀ (cs : List Candidate) (a : IceAgent), a.Untried →
      (cs.foldl IceAgent.addLocal a).Untried := by
    intro cs
    induction cs with
    | nil => exact fun _ untried => untried
    | cons c cs ih =>
        intro a untried
        refine ih _ ?_
        unfold IceAgent.addLocal
        split <;> exact untried
  have remotes : ∀ (cs : List Candidate) (a : IceAgent), a.Untried →
      (cs.foldl IceAgent.addRemote a).Untried := by
    intro cs
    induction cs with
    | nil => exact fun _ untried => untried
    | cons c cs ih => exact fun a untried => ih _ (untried.addRemote c)
  have fresh : ({ role := l.role, gatherTimeout := l.gatherTimeout } : IceAgent).Untried :=
    ⟨rfl, rfl, fun _ there => nomatch there⟩
  exact remotes l.remote _ (locals l.locals _ fresh)

theorem gatherTimeout_newAgent (l : Ladder) : l.newAgent.gatherTimeout = l.gatherTimeout := by
  have locals : ∀ (cs : List Candidate) (a : IceAgent),
      (cs.foldl IceAgent.addLocal a).gatherTimeout = a.gatherTimeout := by
    intro cs
    induction cs with
    | nil => exact fun _ => rfl
    | cons c cs ih =>
        intro a
        rw [List.foldl_cons, ih]
        unfold IceAgent.addLocal
        split <;> rfl
  have remotes : ∀ (cs : List Candidate) (a : IceAgent),
      (cs.foldl IceAgent.addRemote a).gatherTimeout = a.gatherTimeout := by
    intro cs
    induction cs with
    | nil => exact fun _ => rfl
    | cons c cs ih => exact fun a => ih _
  rw [newAgent, remotes, locals]

theorem races_race {a : IceAgent} {checks : List SocketAddr} {trickled : List Candidate}
    {inputs : List RaceInput} {result : RaceResult} {n : Nomination}
    (ended : race codec creds a checks trickled inputs = some result)
    (won : result.outcome = .nominated n) : n.rung.races = true := by
  have of_event : ∀ (a : IceAgent) (event : Option IceEvent) (n : Nomination),
      outcomeOf a event = some (.nominated n) →
      ∃ here, event = some (.nominated here n.remote n.rung n.probes) := by
    intro a event n said
    cases event with
    | none => cases said
    | some event =>
        cases event with
        | nominated here remote rung probes =>
            simp only [outcomeOf, Option.some.injEq, RaceOutcome.nominated.injEq] at said
            subst said
            exact ⟨here, rfl⟩
        | newLocalCandidate | failed => cases said
  induction inputs generalizing a checks trickled with
  | nil => cases ended
  | cons input rest ih =>
      cases input with
      | noLocalAddress =>
          cases ended
          cases won
      | remote c => exact ih ended
      | turn localAddr now sends tid read =>
          simp only [race] at ended
          split at ended
          next outcome said =>
            cases ended
            obtain ⟨here, event⟩ := of_event _ _ n (said.trans (congrArg some won))
            exact IceAgent.races_turn event
          next =>
            split at ended
            next outcome said =>
              cases ended
              obtain ⟨here, event⟩ := of_event _ _ n (said.trans (congrArg some won))
              exact IceAgent.races_onDatagram event
            next => exact ih ended
          next => exact ih ended

/-- A candidate that trickles in is checked, of whatever class it is. -/
theorem race_reaches (encodes : ∀ message password, codec.encode message password ≠ none)
    (timely : 0 < l.gatherTimeout) (c : Candidate) :
    ∃ inputs result why probes, race codec creds l.newAgent [] [] inputs = some result ∧
      result.outcome = .failed why probes ∧ result.trickled = [c] ∧
      unmap c.addr ∈ result.checks := by
  have untried := l.untried_newAgent.addRemote c
  have timely' : 0 < (l.newAgent.addRemote c).gatherTimeout := by
    rw [IceAgent.addRemote, gatherTimeout_newAgent]
    exact timely
  obtain ⟨s, there⟩ : ∃ s, (unmap c.addr, s) ∈ (l.newAgent.addRemote c).pairs :=
    Pairs.entry_has _ _ _ _
  obtain ⟨sends, quiet, armed, p, sent, asks, to_⟩ :=
    @IceAgent.Untried.turn codec creds encodes _ untried timely' (.v4 0 0) 0 _ _ there
  obtain ⟨why, late⟩ := @IceAgent.turn_at_deadline codec creds _ _ _ armed (Nat.le_refl _) (.v4 0 0) [] 0
  refine ⟨[.remote c, .turn (.v4 0 0) 0 sends 0 none,
    .turn (.v4 0 0) (l.newAgent.addRemote c).gatherTimeout [] 0 none], ?_⟩
  simp only [race, quiet, late, outcomeOf, List.nil_append]
  refine ⟨_, why, _, rfl, rfl, rfl, ?_⟩
  refine List.mem_append_left _ (List.mem_map.mpr ⟨p, List.mem_filter.mpr ⟨sent, ?_⟩, to_⟩)
  exact decide_eq_true asks

/-- The report before the blasts: the planned skips, and the race's verdict. -/
def afterRace (l : Ladder) (why : Option IceFailure) : LadderReport :=
  match why with
  | none => l.planned
  | some why => l.raced.foldl (fun report rung => report.set rung (.failed (.race why))) l.planned

theorem afterRace_of_left_out {r : Rung} (left : r ∉ l.raced) (why : Option IceFailure) :
    l.afterRace why r = l.planned r := by
  cases why with
  | none => rfl
  | some why =>
      refine LadderReport.foldl_set_of_not_mem id (fun _ => Verdict.failed (.race why)) l.raced ?_ _
      rintro e there rfl
      exact left there

theorem afterRace_of_raced {r : Rung} (raced : r ∈ l.raced) (why : IceFailure) :
    l.afterRace (some why) r = .failed (.race why) := by
  obtain ⟨-, -, verdict⟩ := LadderReport.foldl_set_of_mem id (fun _ => Verdict.failed (.race why))
    l.raced ⟨r, raced, rfl⟩ l.planned
  exact verdict

/-- How the ladder ends: with what the race nominates, or with the blasts. -/
theorem nominate_cases {inputs : List RaceInput} {blasts : Family → BlastRun}
    {result : Except LadderReport Nomination} {wire : Wire}
    (ended : l.nominate codec creds inputs blasts = some (result, wire)) :
    (l.raced = [] ∧ Climbed l l.plan.sequential (l.afterRace none) { known := l.remote }
      (result, wire)) ∨
    (l.raced ≠ [] ∧ ∃ n, result = .ok n ∧ n.rung.races = true) ∨
    (l.raced ≠ [] ∧ ∃ why start, start.raced = true ∧ start.blasted = [] ∧
      Climbed l l.plan.sequential (l.afterRace (some why)) start (result, wire)) := by
  unfold nominate at ended
  split at ended
  next none_ =>
    have climbed := climbed_climb l blasts l.plan.sequential l.planned 0 { known := l.remote }
    rw [Option.some.inj ended] at climbed
    exact Or.inl ⟨List.isEmpty_iff.mp none_, climbed⟩
  next some_ =>
    have filled : l.raced ≠ [] := fun none_ => some_ (List.isEmpty_iff.mpr none_)
    obtain ⟨race, raced, same⟩ := Option.map_eq_some_iff.mp ended
    dsimp only at same
    split at same
    next n won =>
      cases same
      exact Or.inr (Or.inl ⟨filled, n, rfl, races_race raced won⟩)
    next why probes lost =>
      have climbed := climbed_climb l blasts l.plan.sequential (l.afterRace (some why)) probes
        { checks := race.checks, known := l.remote ++ race.trickled ++ learned race.agent,
          raced := true }
      rw [show l.climb blasts l.plan.sequential (l.afterRace (some why)) probes _ = _ from same]
        at climbed
      exact Or.inr (Or.inr ⟨filled, why, _, rfl, rfl, climbed⟩)

/-- A rung that is neither raced nor blasted is skipped from the start. -/
theorem planned_isSkipped {r : Rung} (tunnel : r ≠ .sshTunnel) (left : r ∉ l.raced)
    (unblasted : ∀ f, r = .birthday f → r ∉ l.plan.sequential) :
    (l.planned r).isSkipped = true := by
  cases r with
  | direct f | portMapped f | punched f => exact planned_of_left_out rfl left
  | sshTunnel => exact absurd rfl tunnel
  | birthday f =>
      rcases planned_cases l (.birthday f) with ⟨skipped, -⟩ | ⟨-, unskipped, -⟩
      · exact skipped
      · exact absurd (LadderPlan.mem_sequential.mpr (Or.inl ⟨rfl, unskipped⟩)) (unblasted f rfl)

theorem Climbed.accounted {why : Option IceFailure} {start wire : Wire}
    {result : Except LadderReport Nomination} {report : LadderReport}
    (climbed : Climbed l l.plan.sequential (l.afterRace why) start (result, wire))
    (raced : l.raced = [] ∨ (why ≠ none ∧ start.raced = true)) (lost : result = .error report)
    (r : Rung) :
    (report r).isSkipped = true ∨ ∃ why, report r = .failed why ∧ l.Attempted wire r := by
  by_cases tunnel : r = .sshTunnel
  · rw [tunnel]
    exact Or.inl (climbed.tunnel report lost)
  by_cases blasted : ∃ f, r = .birthday f ∧ r ∈ l.plan.sequential
  · obtain ⟨f, rfl, there⟩ := blasted
    refine (climbed.tried report lost f there).imp_right ?_
    rintro ⟨why, failed, fired⟩
    exact ⟨why, failed, Or.inr ⟨f, fired, rfl⟩⟩
  · have unblasted : ∀ f, r = .birthday f → r ∉ l.plan.sequential :=
      fun f same there => blasted ⟨f, same, there⟩
    rw [climbed.kept report lost r tunnel unblasted]
    by_cases left : r ∈ l.raced
    · rcases raced with none_ | ⟨ran, run⟩
      · rw [none_] at left
        cases left
      · obtain ⟨why, rfl⟩ := Option.ne_none_iff_exists'.mp ran
        refine Or.inr ⟨_, afterRace_of_raced left why, Or.inl ⟨?_, (mem_raced.mp left).2.2⟩⟩
        exact climbed.raced.trans run
    · rw [afterRace_of_left_out left]
      exact Or.inl (planned_isSkipped tunnel left unblasted)

theorem Climbed.nominated_not_skipped {why : Option IceFailure} {start wire : Wire}
    {result : Except LadderReport Nomination} {n : Nomination}
    (climbed : Climbed l l.plan.sequential (l.afterRace why) start (result, wire))
    (won : result = .ok n) : ¬ l.plan.Skips n.rung := by
  obtain ⟨f, there, rung⟩ := climbed.nominated n won
  rcases LadderPlan.mem_sequential.mp there with ⟨-, unskipped⟩ | tunnel
  · rw [rung]
    exact unskipped
  · cases tunnel

theorem settled_of_accounted {verdict : Verdict}
    (accounted : verdict.isSkipped = true ∨ ∃ why, verdict = .failed why) :
    verdict ≠ .notReached ∧ verdict ≠ .won := by
  cases verdict with
  | skipped | failed => exact ⟨nofun, nofun⟩
  | notReached | won =>
      rcases accounted with skipped | ⟨why, failed⟩
      · cases skipped
      · cases failed

theorem Whole.truthful (whole : l.Whole) {inputs : List RaceInput} {blasts : Family → BlastRun}
    {result : Except LadderReport Nomination} {wire : Wire}
    (ended : l.nominate codec creds inputs blasts = some (result, wire)) :
    l.Truthful result wire := by
  rcases nominate_cases ended with
    ⟨none_, climbed⟩ | ⟨filled, n, rfl, races⟩ | ⟨filled, why, start, ran, unblasted, climbed⟩
  · refine ⟨?_, ?_, ?_, fun n won => climbed.nominated_not_skipped won⟩
    · intro report lost r
      exact settled_of_accounted ((climbed.accounted (Or.inl none_) lost r).imp_right
        fun ⟨why, failed, _⟩ => ⟨why, failed⟩)
    · intro report lost r why skipped c known class_
      have offered : c ∈ l.remote := by
        rw [show wire.known = l.remote from climbed.known] at known
        exact known
      refine ⟨?_, ?_⟩
      · rw [show wire.checks = [] from climbed.checks]
        exact List.not_mem_nil
      · intro hit
        rcases climbed.blasted _ hit with before | ⟨f, there, can, aimed⟩
        · cases before
        · rcases whole with all | ⟨-, aside⟩
          · have some_ := all (.direct .v4) rfl
            rw [none_] at some_
            cases some_
          · exact aside f there can c offered aimed
    · intro report lost r why failed
      rcases climbed.accounted (Or.inl none_) lost r with skipped | ⟨_, _, attempted⟩
      · rw [failed] at skipped
        cases skipped
      · exact attempted
  · refine ⟨fun _ lost => (nomatch lost), fun _ lost => (nomatch lost), fun _ lost => (nomatch lost), ?_⟩
    intro n' won
    cases won
    rcases whole with all | ⟨none_, -⟩
    · exact (mem_raced.mp (all n.rung races)).2.1
    · exact absurd none_ filled
  · have accounted := fun report lost r =>
      @Climbed.accounted l (some why) start wire result report climbed (Or.inr ⟨nofun, ran⟩) lost r
    refine ⟨?_, ?_, ?_, fun n won => climbed.nominated_not_skipped won⟩
    · intro report lost r
      exact settled_of_accounted ((accounted report lost r).imp_right
        fun ⟨why, failed, _⟩ => ⟨why, failed⟩)
    · intro report lost r why' skipped c known class_
      rcases whole with all | ⟨none_, -⟩
      · -- Every class is raced, so none of them is skipped.
        have races : r.races = true := by
          rw [← class_]
          exact IceAgent.races_ofCandidate _ _
        have raced := all r races
        have same := climbed.kept report lost r (by rintro rfl; cases races)
          (by rintro f rfl; cases races)
        rw [afterRace_of_raced raced, skipped] at same
        cases same
      · exact absurd none_ filled
    · intro report lost r why' failed
      rcases accounted report lost r with skipped | ⟨_, _, attempted⟩
      · rw [failed] at skipped
        cases skipped
      · exact attempted

/-- Every blast fires at all it can and misses. -/
def missAll (l : Ladder) : Family → BlastRun := fun f => ⟨(l.targets f).length, .miss 0⟩

theorem targets_fire (can : l.CanBlast) (family : Family) (wire : Wire) {a : SocketAddr}
    (hit : a ∈ wire.blasted ∨ a ∈ l.targets family) :
    a ∈ (l.fire family (l.missAll family) wire).blasted := by
  unfold fire
  split
  next off =>
    rcases hit with before | aimed
    · exact before
    · rcases off with off | baseless
      · rw [can.1] at off
        cases off
      · rw [targets, baseless] at aimed
        cases aimed
  next =>
    rw [missAll, List.take_length]
    exact List.mem_append.mpr hit

theorem climb_missAll (can : l.CanBlast) (rungs : List Rung) (report : LadderReport)
    (probes : Nat) (wire : Wire) :
    ∀ a, (a ∈ wire.blasted ∨ ∃ f, .birthday f ∈ rungs ∧ a ∈ l.targets f) →
      a ∈ (l.climb l.missAll rungs report probes wire).2.blasted := by
  induction rungs generalizing report probes wire with
  | nil =>
      rintro a (before | ⟨f, there, -⟩)
      · exact before
      · cases there
  | cons rung rest ih =>
      intro a hit
      cases rung with
      | birthday family =>
          have hit' : a ∈ (l.fire family (l.missAll family) wire).blasted ∨
              ∃ f, .birthday f ∈ rest ∧ a ∈ l.targets f := by
            rcases hit with before | ⟨f, there, aimed⟩
            · exact Or.inl (targets_fire can family wire (Or.inl before))
            · rcases List.mem_cons.mp there with same | later
              · rw [Rung.birthday.inj same] at aimed
                exact Or.inl (targets_fire can family wire (Or.inr aimed))
              · exact Or.inr ⟨f, later, aimed⟩
          rw [climb]
          split
          next n found =>
            -- A blast that misses nominates nothing.
            simp only [blast, missAll, can, if_true, can.1, Bool.true_eq_false, if_false] at found
            split at found <;> cases found
          next => exact ih _ _ _ a hit'
      | direct | portMapped | punched | sshTunnel =>
          refine ih _ _ _ a (hit.imp_right ?_)
          rintro ⟨f, there, aimed⟩
          rcases List.mem_cons.mp there with same | later
          · cases same
          · exact ⟨f, later, aimed⟩

theorem climb_missAll_error (l : Ladder) (rungs : List Rung) (report : LadderReport) (probes : Nat)
    (wire : Wire) :
    ∃ report', (l.climb l.missAll rungs report probes wire).1 = .error report' := by
  induction rungs generalizing report probes wire with
  | nil => exact ⟨_, rfl⟩
  | cons rung rest ih =>
      cases rung with
      | birthday family =>
          rw [climb]
          split
          next n found =>
            simp only [blast, missAll] at found
            repeat (first | split at found | cases found)
          next => exact ih _ _ _
      | direct | portMapped | punched | sshTunnel => exact ih _ _ _

theorem exists_candidate {r : Rung} (races : r.races = true) :
    ∃ c : Candidate, Rung.ofCandidate c.kind c.addr = r := by
  cases r with
  | direct f =>
      cases f with
      | v4 => exact ⟨⟨.v4 0 0, .host, 0⟩, rfl⟩
      | v6 => exact ⟨⟨.v6 0 0 0 0, .host, 0⟩, rfl⟩
  | portMapped f =>
      cases f with
      | v4 => exact ⟨⟨.v4 0 0, .portMapped, 0⟩, rfl⟩
      | v6 => exact ⟨⟨.v6 0 0 0 0, .portMapped, 0⟩, rfl⟩
  | punched f =>
      cases f with
      | v4 => exact ⟨⟨.v4 0 0, .serverReflexive, 0⟩, rfl⟩
      | v6 => exact ⟨⟨.v6 0 0 0 0, .serverReflexive, 0⟩, rfl⟩
  | birthday | sshTunnel => cases races

/-- A rung of the race that is left out of it is reported as skipped. -/
theorem Climbed.skipped_of_left_out {why : Option IceFailure} {start wire : Wire}
    {result : Except LadderReport Nomination} {report : LadderReport} {r : Rung}
    (climbed : Climbed l l.plan.sequential (l.afterRace why) start (result, wire))
    (lost : result = .error report) (races : r.races = true) (left : r ∉ l.raced) :
    ∃ why, report r = .skipped why := by
  have kept := climbed.kept report lost r (by rintro rfl; cases races) (by rintro f rfl; cases races)
  have skipped := planned_of_left_out races left
  rw [afterRace_of_left_out left] at kept
  rw [← kept] at skipped
  cases verdict : report r with
  | skipped why => exact ⟨why, rfl⟩
  | failed | notReached | won =>
      rw [verdict] at skipped
      cases skipped

/-- The report tells the truth whatever the network does exactly if nothing is
left out of the race, or there is none and no blast aims at what was offered. -/
theorem report_tells_the_truth_iff (l : Ladder) (timely : 0 < l.gatherTimeout)
    (encodes : ∀ message password, codec.encode message password ≠ none) :
    (∀ inputs blasts result wire, l.nominate codec creds inputs blasts = some (result, wire) →
      l.Truthful result wire) ↔ l.Whole := by
  constructor
  · intro truthful
    by_cases all : ∀ r : Rung, r.races = true → r ∈ l.raced
    · exact Or.inl all
    · obtain ⟨r, out⟩ := not_forall.mp all
      obtain ⟨races, left⟩ := Classical.not_imp.mp out
      have none_ : l.raced = [] := by
        by_contra filled
        obtain ⟨c, class_⟩ := exists_candidate races
        obtain ⟨inputs, race, why, probes, raced, lost, trickled, checked⟩ :=
          @race_reaches codec creds l encodes timely c
        let start : Wire :=
          { checks := race.checks, known := l.remote ++ race.trickled ++ learned race.agent,
            raced := true }
        have ended : l.nominate codec creds inputs l.missAll =
            some (l.climb l.missAll l.plan.sequential (l.afterRace (some why)) probes start) := by
          rw [nominate, if_neg (fun none_ => filled (List.isEmpty_iff.mp none_)), raced]
          simp only [Option.map_some, lost]
          rfl
        have climbed := climbed_climb l l.missAll l.plan.sequential (l.afterRace (some why)) probes
          start
        obtain ⟨report, error⟩ := climb_missAll_error l l.plan.sequential (l.afterRace (some why))
          probes start
        obtain ⟨why', skipped⟩ := climbed.skipped_of_left_out error races left
        have known : c ∈ (l.climb l.missAll l.plan.sequential (l.afterRace (some why)) probes
            start).2.known := by
          rw [climbed.known]
          refine List.mem_append_left _ (List.mem_append_right _ ?_)
          rw [trickled]
          exact List.mem_cons_self
        have unchecked := ((truthful inputs l.missAll _ _ ended).skipped report error r why' skipped
          c known class_).1
        rw [climbed.checks] at unchecked
        exact unchecked checked
      refine Or.inr ⟨none_, ?_⟩
      intro f there can c offered aimed
      have ended : l.nominate codec creds [] l.missAll =
          some (l.climb l.missAll l.plan.sequential (l.afterRace none) 0 { known := l.remote }) := by
        rw [nominate, if_pos (List.isEmpty_iff.mpr none_)]
        rfl
      have climbed := climbed_climb l l.missAll l.plan.sequential (l.afterRace none) 0
        { known := l.remote }
      obtain ⟨report, error⟩ := climb_missAll_error l l.plan.sequential (l.afterRace none) 0
        { known := l.remote }
      obtain ⟨why', skipped⟩ := climbed.skipped_of_left_out error
        (IceAgent.races_ofCandidate c.kind c.addr) (by rw [none_]; exact List.not_mem_nil)
      refine ((truthful [] l.missAll _ _ ended).skipped report error _ why' skipped c ?_ rfl).2 ?_
      · rw [climbed.known]
        exact offered
      · exact climb_missAll can l.plan.sequential (l.afterRace none) 0 { known := l.remote } _
          (Or.inr ⟨f, there, aimed⟩)
  · exact fun whole inputs blasts result wire ended => whole.truthful ended

section Examples

/-- A codec for runs in which nothing is read. -/
def mute : StunCodec where
  encode _ _ := some []
  decode _ := none

def names : IceCredentials := ⟨⟨"c", "to host"⟩, ⟨"h", "to client"⟩⟩

/-- The peer has a candidate of every class, and no NAT needs a blast. -/
def everyClass : Ladder where
  role := .controlling
  nat := ⟨.none, .none⟩
  peerNat := ⟨.none, .none⟩
  gatherTimeout := 3000
  enableBirthday := true
  birthdaySockets := 256
  birthdayPorts := 256
  locals := [⟨.v4 5 5, .host, 1⟩, ⟨.v6 5 5 0 0, .host, 1⟩]
  remote := [⟨.v4 7 7, .host, 1⟩, ⟨.v6 7 7 0 0, .host, 1⟩, ⟨.v4 8 8, .portMapped, 1⟩,
    ⟨.v6 8 8 0 0, .portMapped, 1⟩, ⟨.v4 9 9, .serverReflexive, 1⟩,
    ⟨.v6 9 9 0 0, .serverReflexive, 1⟩]
  admitRemote := none

theorem report_tells_the_truth_iff_everyClass :
    0 < everyClass.gatherTimeout ∧ everyClass.Whole ∧
      ∀ inputs blasts result wire,
        everyClass.nominate mute names inputs blasts = some (result, wire) →
          everyClass.Truthful result wire := by
  have whole : everyClass.Whole := by
    refine Or.inl ?_
    intro r races
    cases r with
    | direct f | portMapped f | punched f =>
        cases f with
        | v4 | v6 => decide +kernel
    | birthday | sshTunnel => cases races
  exact ⟨by decide, whole, (report_tells_the_truth_iff everyClass (by decide)
    (fun _ _ => Option.some_ne_none _)).mpr whole⟩

/-- Our IPv4 NAT is symmetric, and the peer offers an interface address and a
server-reflexive one. -/
def behindSymmetric : Ladder where
  role := .controlling
  nat := ⟨.symmetric, .unknown⟩
  peerNat := ⟨.none, .unknown⟩
  gatherTimeout := 3000
  enableBirthday := false
  birthdaySockets := 256
  birthdayPorts := 256
  locals := [⟨.v4 5 5, .host, 1⟩]
  remote := [⟨.v4 7 7, .host, 2⟩, ⟨.v4 9 9, .serverReflexive, 1⟩]
  admitRemote := none

/-- Nobody answers. -/
def silence : List RaceInput :=
  [.turn (.v4 5 5) 0 [⟨1, true⟩, ⟨2, true⟩] 0 none, .turn (.v4 5 5) 3000 [] 0 none]

/-- The punched rung is reported as never put on the wire, and the agent has
checked the server-reflexive candidate. -/
theorem skipped_rung_on_the_wire :
    ∃ report wire, behindSymmetric.nominate mute names silence (fun _ => ⟨0, .notStarted⟩) =
        some (.error report, wire) ∧
      (report (.punched .v4)).isSkipped = true ∧ .v4 9 9 ∈ wire.checks ∧
      ¬ behindSymmetric.Truthful (.error report) wire := by
  have outcome : ((behindSymmetric.nominate mute names silence fun _ => ⟨0, .notStarted⟩).map
      fun run => (match run.1 with
        | .error report => (report (.punched .v4)).isSkipped
        | .ok _ => false,
        decide (SocketAddr.v4 9 9 ∈ run.2.checks),
        decide (⟨.v4 9 9, .serverReflexive, 1⟩ ∈ run.2.known))) = some (true, true, true) := by
    decide +kernel
  obtain ⟨⟨result, wire⟩, ended, shown⟩ := Option.map_eq_some_iff.mp outcome
  simp only [Prod.mk.injEq, decide_eq_true_eq] at shown
  obtain ⟨skipped, checked, known⟩ := shown
  cases result with
  | ok n => cases skipped
  | error report =>
      refine ⟨report, wire, ended, skipped, checked, ?_⟩
      intro truthful
      cases verdict : report (.punched .v4) with
      | skipped why =>
          exact (truthful.skipped report rfl _ why verdict _ known rfl).1 checked
      | failed | notReached | won =>
          simp only [verdict] at skipped
          cases skipped

end Examples

end Ladder
end Oxutrm.Net
