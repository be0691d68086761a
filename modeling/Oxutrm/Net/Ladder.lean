import Oxutrm.Net.IceSteps
import Oxutrm.Net.Plan

/-!
The ladder's driver: the race of one agent over all candidates, then a blast for
every family the plan admits, and the report of every rung. What the network does
is an input: the turns of the race with what they read, the candidates that come
in meanwhile, and how each blast ends.
-/
namespace Oxutrm.Net

/-- Why a rung that was tried gave no path. -/
inductive FailReason where
  | race (why : IceFailure)
  | vetoed (remote : SocketAddr)
  | blastMissed (probes : Nat)
  | blastNotStarted
  | socketLost
  deriving DecidableEq

inductive Verdict where
  | skipped (why : String)
  | failed (why : FailReason)
  | notReached
  | won
  deriving DecidableEq

/-- What became of every rung. -/
abbrev LadderReport := Rung → Verdict

def LadderReport.set (report : LadderReport) (rung : Rung) (verdict : Verdict) : LadderReport :=
  fun r => if r = rung then verdict else report r

def Verdict.isSkipped : Verdict → Bool
  | skipped _ => true
  | _ => false

structure Ladder where
  role : IceRole
  nat : FamilyNat
  peerNat : FamilyNat
  gatherTimeout : Nat
  enableBirthday : Bool
  birthdaySockets : Nat
  birthdayPorts : Nat
  locals : List Candidate
  remote : List Candidate
  admitRemote : Option (SocketAddr → Bool)

structure Nomination where
  remote : SocketAddr
  rung : Rung
  probes : Nat
  deriving DecidableEq

/-- One step of the race. A turn ends with what it reads, if anything. -/
inductive RaceInput where
  | noLocalAddress
  | turn (localAddr : SocketAddr) (now : Nat) (sends : List CheckSend) (tid : TransactionId)
      (read : Option (Nat × SocketAddr × List UInt8))
  | remote (c : Candidate)

/-- How a blast ends. -/
inductive BlastResult where
  | notStarted
  | miss (probes : Nat)
  | found (remote : SocketAddr) (probes : Nat)
  /-- The hole was punched and its socket could not be used. -/
  | lost (probes : Nat)
  deriving DecidableEq

/-- A blast: how many of the guessed ports it came to, and its end. -/
structure BlastRun where
  fired : Nat
  result : BlastResult
  deriving DecidableEq

/-- What the ladder put on the wire, and which candidates it knew. -/
structure Wire where
  checks : List SocketAddr := []
  blasted : List SocketAddr := []
  known : List Candidate := []
  /-- The agent ran. -/
  raced : Bool := false
  /-- The families that were blasted. -/
  families : List Family := []

/-- Guessed ports, walking outward from the observed base port. -/
def guessedPorts (base count : Nat) : List Nat :=
  let start := if 1024 ≤ base then [base] else []
  let around := (List.range 65535).flatMap fun i =>
    let step := i + 1
    [base + step] ++ (if step ≤ base then [base - step] else [])
  start ++ (around.filter fun p => 1024 ≤ p && p ≤ 65535).take (count - start.length)

namespace SocketAddr

def port : SocketAddr → BitVec 16
  | v4 _ port => port
  | v6 _ port _ _ => port

/-- `SocketAddr::new(self.ip(), port)`. -/
def withPort : SocketAddr → BitVec 16 → SocketAddr
  | v4 ip _, port => v4 ip port
  | v6 ip _ _ _, port => v6 ip port 0 0

end SocketAddr

namespace Ladder
variable (codec : StunCodec) (creds : IceCredentials)

def plan (l : Ladder) : LadderPlan :=
  .forEnds (.fromCandidates l.nat l.locals) (.fromCandidates l.peerNat l.remote)

/-- The peer offered a candidate of this class. -/
def Offered (l : Ladder) (r : Rung) : Prop := ∃ c ∈ l.remote, Rung.ofCandidate c.kind c.addr = r

instance (l : Ladder) (r : Rung) : Decidable (l.Offered r) :=
  inferInstanceAs (Decidable (∃ c ∈ l.remote, _))

/-- The peer address the blast guesses around: of the server-reflexive candidates
of the family the last with the highest priority. -/
def blastBase (l : Ladder) (family : Family) : Option SocketAddr :=
  (maxBy (fun a b : Candidate => a.priority ≤ b.priority)
    (l.remote.filter fun c => c.kind = .serverReflexive && Family.of c.addr = family)).map
      Candidate.addr

/-- Where the blast of a family aims. -/
def targets (l : Ladder) (family : Family) : List SocketAddr :=
  match l.blastBase family with
  | none => []
  | some base => (guessedPorts base.port.toNat l.birthdayPorts).map fun port =>
      unmap (base.withPort (BitVec.ofNat 16 port))

/-- A raced rung without a candidate of its class was never attempted. -/
def explain (l : Ladder) (report : LadderReport) (rung : Rung) : LadderReport :=
  let offered := l.remote.length
  let text := rung.text
  if (report rung).isSkipped then report
  else if l.Offered rung then report
  else report.set rung (.skipped
    s!"the peer offered no candidate of this class ({offered} of theirs, none on rung {text})")

/-- The report before anything is sent: the plan's skips, and the raced rungs the
peer offered no candidate for. -/
def planned (l : Ladder) : LadderReport :=
  let fresh : LadderReport := fun _ => .notReached
  let report := l.plan.skipped.foldl (fun report skip => report.set skip.1 (.skipped skip.2)) fresh
  l.plan.raced.foldl l.explain report

/-- The rungs the agent is run for. -/
def raced (l : Ladder) : List Rung := l.plan.raced.filter fun r => !(l.planned r).isSkipped

def newAgent (l : Ladder) : IceAgent :=
  let fresh : IceAgent := { role := l.role, gatherTimeout := l.gatherTimeout }
  let a := l.remote.foldl IceAgent.addRemote (l.locals.foldl IceAgent.addLocal fresh)
  { a with remoteFilter := l.admitRemote }

/-- The addresses a turn sent checks to. -/
def checked (packets : List Packet) : List SocketAddr :=
  (packets.filter fun p => p.message.messageClass = .request).map Packet.remote

inductive RaceOutcome where
  | nominated (n : Nomination)
  | failed (why : IceFailure) (probes : Nat)

/-- What an event of the agent means for the race: a new local candidate is sent
on to the peer, and the race goes on. -/
def outcomeOf (a : IceAgent) : Option IceEvent → Option RaceOutcome
  | some (.nominated _ remote rung probes) => some (.nominated ⟨remote, rung, probes⟩)
  | some (.failed why) => some (.failed why a.probes)
  | some (.newLocalCandidate _) | none => none

structure RaceResult where
  outcome : RaceOutcome
  agent : IceAgent
  checks : List SocketAddr
  trickled : List Candidate

/-- The rungs 0 to 2, raced by one agent. `none` while the race is on. -/
def race (a : IceAgent) (checks : List SocketAddr) (trickled : List Candidate) :
    List RaceInput → Option RaceResult
  | [] => none
  | .noLocalAddress :: _ => some ⟨.failed .noLocalAddress a.probes, a, checks, trickled⟩
  | .remote c :: rest => race (a.addRemote c) checks (trickled ++ [c]) rest
  | .turn localAddr now sends tid read :: rest =>
      let (a, packets, event) := a.turn codec creds localAddr now sends tid
      let checks := checks ++ checked packets
      match outcomeOf a event, event, read with
      | some outcome, _, _ => some ⟨outcome, a, checks, trickled⟩
      | none, none, some (now, source, bytes) =>
          let (a, _, event) := a.onDatagram codec creds localAddr now (unmap source) bytes
          match outcomeOf a event with
          | some outcome => some ⟨outcome, a, checks, trickled⟩
          | none => race a checks trickled rest
      | none, _, _ => race a checks trickled rest

/-- The candidates of the peer that an agent came to know by itself. -/
def learned (a : IceAgent) : List Candidate :=
  a.pairs.filterMap fun pair => pair.2.kind.map fun kind => ⟨pair.1, kind, pair.2.priority⟩

/-- The blast starts: it is switched on, and has sockets and ports to fire with. -/
def CanBlast (l : Ladder) : Prop :=
  l.enableBirthday = true ∧ 0 < l.birthdaySockets ∧ 0 < l.birthdayPorts

instance (l : Ladder) : Decidable l.CanBlast := inferInstanceAs (Decidable (_ ∧ _ ∧ _))

/-- Addition in 32 bits that stays at the top. -/
def saturatingAdd (a b : Nat) : Nat := min (a + b) (2 ^ 32 - 1)

/-- A blast in one family: its nomination, or the verdict and its probes. -/
def blast (l : Ladder) (family : Family) (alreadySent : Nat) (run : BlastRun) :
    Except (Verdict × Nat) Nomination :=
  let label := family.label
  if l.enableBirthday = false then
    .error (.skipped "the birthday blast is switched off in this configuration", 0)
  else if l.blastBase family = none then
    .error (.skipped (s!"the peer offered no {label} server-reflexive candidate, so there is no " ++
      "observed external port to guess around"), 0)
  else if l.CanBlast then
    match run.result with
    | .notStarted => .error (.failed .blastNotStarted, 0)
    | .miss probes => .error (.failed (.blastMissed probes), probes)
    | .lost probes => .error (.failed .socketLost, probes)
    | .found remote probes => .ok ⟨remote, .birthday family, saturatingAdd alreadySent probes⟩
  else .error (.failed .blastNotStarted, 0)

/-- What a blast puts on the wire. -/
def fire (l : Ladder) (family : Family) (run : BlastRun) (wire : Wire) : Wire :=
  if l.enableBirthday = false ∨ l.blastBase family = none then wire
  else
    { wire with
      blasted := wire.blasted ++ (if l.CanBlast then (l.targets family).take run.fired else [])
      families := wire.families ++ [family] }

def vetoes (l : Ladder) (remote : SocketAddr) : Bool :=
  match l.admitRemote with
  | none => false
  | some f => !f remote

/-- Rung 3, once for every family the plan admits, and the tunnel that is not
there. -/
def climb (l : Ladder) (blasts : Family → BlastRun) :
    List Rung → LadderReport → Nat → Wire → Except LadderReport Nomination × Wire
  | [], report, _, wire =>
      (.error (report.set .sshTunnel (.skipped
        ("the ssh tunnel is not implemented in this build; the contract records " ++
          "the framing it must carry"))), wire)
  | .birthday family :: rest, report, probes, wire =>
      let wire := l.fire family (blasts family) wire
      match l.blast family probes (blasts family) with
      | .ok nomination =>
          if l.vetoes nomination.remote then
            l.climb blasts rest (report.set (.birthday family) (.failed (.vetoed nomination.remote)))
              nomination.probes wire
          else (.ok nomination, wire)
      | .error (verdict, sent) =>
          l.climb blasts rest (report.set (.birthday family) verdict) (saturatingAdd probes sent) wire
  | _ :: rest, report, probes, wire => l.climb blasts rest report probes wire

/-- Run the ladder until a rung wins or every one is accounted for. `none` while
the race is on. -/
def nominate (l : Ladder) (inputs : List RaceInput) (blasts : Family → BlastRun) :
    Option (Except LadderReport Nomination × Wire) :=
  if l.raced.isEmpty then
    some (l.climb blasts l.plan.sequential l.planned 0 { known := l.remote })
  else
    (race codec creds l.newAgent [] [] inputs).map fun result =>
      let wire : Wire :=
        { checks := result.checks, known := l.remote ++ result.trickled ++ learned result.agent,
          raced := true }
      match result.outcome with
      | .nominated nomination => (.ok nomination, wire)
      | .failed why probes =>
          l.climb blasts l.plan.sequential
            (l.raced.foldl (fun report rung => report.set rung (.failed (.race why))) l.planned)
            probes wire

/-- The rung was given to an agent that ran, or was blasted. -/
def Attempted (l : Ladder) (wire : Wire) (r : Rung) : Prop :=
  (wire.raced = true ∧ l.Offered r) ∨ ∃ family ∈ wire.families, r = .birthday family

/-- What the report promises. -/
structure Truthful (l : Ladder) (result : Except LadderReport Nomination) (wire : Wire) : Prop where
  settled : ∀ report, result = .error report → ∀ r, report r ≠ .notReached ∧ report r ≠ .won
  skipped : ∀ report, result = .error report → ∀ r why, report r = .skipped why →
    ∀ c ∈ wire.known, Rung.ofCandidate c.kind c.addr = r →
      unmap c.addr ∉ wire.checks ∧ unmap c.addr ∉ wire.blasted
  failed : ∀ report, result = .error report → ∀ r why, report r = .failed why → l.Attempted wire r
  nominated : ∀ nomination, result = .ok nomination → ¬ l.plan.Skips nomination.rung

/-- Nothing is left out of the race; or there is no race, and no blast aims at an
address the peer has offered. -/
def Whole (l : Ladder) : Prop :=
  (∀ r : Rung, r.races = true → r ∈ l.raced) ∨
  (l.raced = [] ∧ ∀ family, .birthday family ∈ l.plan.sequential → l.CanBlast →
    ∀ c ∈ l.remote, unmap c.addr ∉ l.targets family)

end Ladder

namespace LadderReport
variable (report : LadderReport) (rung : Rung) (verdict : Verdict)

@[simp] theorem set_self : report.set rung verdict rung = verdict := if_pos rfl

theorem set_of_ne {rung r : Rung} (other : r ≠ rung) : report.set rung verdict r = report r :=
  if_neg other

theorem foldl_set_of_not_mem {α : Type} (key : α → Rung) (f : α → Verdict) {r : Rung}
    (entries : List α) (absent : ∀ e ∈ entries, key e ≠ r) (report : LadderReport) :
    entries.foldl (fun report e => LadderReport.set report (key e) (f e)) report r = report r := by
  induction entries generalizing report with
  | nil => rfl
  | cons e entries ih =>
      rw [List.foldl_cons, ih fun e there => absent e (List.mem_cons_of_mem _ there)]
      exact set_of_ne report (f e) (absent e List.mem_cons_self).symm

theorem foldl_set_of_mem {α : Type} (key : α → Rung) (f : α → Verdict) {r : Rung}
    (entries : List α) (present : ∃ e ∈ entries, key e = r) (report : LadderReport) :
    ∃ e ∈ entries,
      entries.foldl (fun report e => LadderReport.set report (key e) (f e)) report r = f e := by
  induction entries generalizing report with
  | nil =>
      obtain ⟨e, there, -⟩ := present
      cases there
  | cons e entries ih =>
      rw [List.foldl_cons]
      by_cases later : ∃ e ∈ entries, key e = r
      · obtain ⟨e', there, verdict⟩ := ih later (LadderReport.set report (key e) (f e))
        exact ⟨e', List.mem_cons_of_mem _ there, verdict⟩
      · have absent : ∀ e ∈ entries, key e ≠ r := fun e there same => later ⟨e, there, same⟩
        have here : key e = r := by
          obtain ⟨e', there, same⟩ := present
          rcases List.mem_cons.mp there with rfl | there
          · exact same
          · exact absurd same (absent e' there)
        refine ⟨e, List.mem_cons_self, ?_⟩
        rw [foldl_set_of_not_mem key f entries absent, here, set_self]

end LadderReport

namespace Ladder
variable {l : Ladder} {r : Rung}

theorem explain_of_ne (report : LadderReport) {rung : Rung} (other : r ≠ rung) :
    l.explain report rung r = report r := by
  simp only [explain]
  split
  next => rfl
  next =>
    split
    next => rfl
    next => exact LadderReport.set_of_ne report _ other

theorem explain_self (report : LadderReport) (rung : Rung) :
    l.explain report rung rung = report rung ∨
      ((l.explain report rung rung).isSkipped = true ∧ ¬ l.Offered rung) := by
  simp only [explain]
  split
  next => exact Or.inl rfl
  next =>
    split
    next => exact Or.inl rfl
    next absent =>
      rw [LadderReport.set_self]
      exact Or.inr ⟨rfl, absent⟩

theorem foldl_explain (rungs : List Rung) (report : LadderReport) (r : Rung) :
    rungs.foldl l.explain report r = report r ∨
      ((rungs.foldl l.explain report r).isSkipped = true ∧ r ∈ rungs ∧ ¬ l.Offered r) := by
  induction rungs generalizing report with
  | nil => exact Or.inl rfl
  | cons rung rungs ih =>
      rw [List.foldl_cons]
      rcases ih (l.explain report rung) with same | ⟨skipped, there, absent⟩
      · rw [same]
        by_cases here : r = rung
        · subst here
          rcases explain_self report r with same | ⟨skipped, absent⟩
          · exact Or.inl same
          · exact Or.inr ⟨skipped, List.mem_cons_self, absent⟩
        · exact Or.inl (explain_of_ne report here)
      · exact Or.inr ⟨skipped, List.mem_cons_of_mem _ there, absent⟩

theorem explained (rungs : List Rung) (report : LadderReport) {r : Rung} (there : r ∈ rungs)
    (absent : ¬ l.Offered r) : (rungs.foldl l.explain report r).isSkipped = true := by
  induction rungs generalizing report with
  | nil => cases there
  | cons rung rungs ih =>
      rw [List.foldl_cons]
      by_cases later : r ∈ rungs
      · exact ih (l.explain report rung) later
      · obtain rfl : r = rung := (List.mem_cons.mp there).resolve_right later
        have skipped : (l.explain report r r).isSkipped = true := by
          simp only [explain, absent, if_false]
          split
          next before => exact before
          next => exact congrArg Verdict.isSkipped (LadderReport.set_self _ _ _)
        rcases foldl_explain rungs (l.explain report r) r with same | ⟨after, -, -⟩
        · rw [same]
          exact skipped
        · exact after

theorem planned_cases (l : Ladder) (r : Rung) :
    ((l.planned r).isSkipped = true ∧ (l.plan.Skips r ∨ (r ∈ l.plan.raced ∧ ¬ l.Offered r))) ∨
    (l.planned r = .notReached ∧ ¬ l.plan.Skips r ∧ (r ∈ l.plan.raced → l.Offered r)) := by
  have offered : r ∈ l.plan.raced → (l.planned r).isSkipped = false → l.Offered r := by
    intro there unskipped
    by_contra absent
    have skipped : (l.planned r).isSkipped = true := explained _ _ there absent
    rw [unskipped] at skipped
    cases skipped
  by_cases skips : l.plan.Skips r
  · obtain ⟨why, there⟩ := skips
    obtain ⟨e, -, verdict⟩ := LadderReport.foldl_set_of_mem Prod.fst
      (fun e => Verdict.skipped e.2) l.plan.skipped ⟨(r, why), there, rfl⟩ fun _ => .notReached
    refine Or.inl ⟨?_, Or.inl ⟨why, there⟩⟩
    rcases foldl_explain l.plan.raced _ r with same | ⟨skipped, -, -⟩
    · rw [planned, same, verdict]
      rfl
    · exact skipped
  · have verdict := LadderReport.foldl_set_of_not_mem Prod.fst (fun e => Verdict.skipped e.2)
      (r := r) l.plan.skipped (fun e there same => skips ⟨e.2, same ▸ there⟩) fun _ => .notReached
    rcases foldl_explain l.plan.raced (l.plan.skipped.foldl
        (fun report skip => report.set skip.1 (.skipped skip.2)) fun _ => .notReached) r with
      same | ⟨skipped, there, absent⟩
    · have fresh : l.planned r = .notReached := same.trans verdict
      exact Or.inr ⟨fresh, skips, fun there => offered there (by rw [fresh]; rfl)⟩
    · exact Or.inl ⟨skipped, Or.inr ⟨there, absent⟩⟩

theorem mem_raced : r ∈ l.raced ↔ r.races = true ∧ ¬ l.plan.Skips r ∧ l.Offered r := by
  have raced : r ∈ l.plan.raced ↔ r.races = true ∧ ¬ l.plan.Skips r := LadderPlan.mem_raced
  rw [Ladder.raced, List.mem_filter, raced]
  rcases planned_cases l r with ⟨skipped, why⟩ | ⟨fresh, unskipped, offered⟩
  · rw [skipped]
    refine ⟨fun ⟨_, no⟩ => (nomatch no), fun ⟨races, unskipped, offered⟩ => ?_⟩
    rcases why with skips | ⟨-, absent⟩
    · exact absurd skips unskipped
    · exact absurd offered absent
  · rw [fresh]
    refine ⟨fun ⟨⟨races, _⟩, _⟩ => ⟨races, unskipped, offered (raced.mpr ⟨races, unskipped⟩)⟩,
      fun ⟨races, _, _⟩ => ⟨⟨races, unskipped⟩, rfl⟩⟩

/-- A rung of the race that is left out of it is skipped in the report. -/
theorem planned_of_left_out (races : r.races = true) (left : r ∉ l.raced) :
    (l.planned r).isSkipped = true := by
  rcases planned_cases l r with ⟨skipped, -⟩ | ⟨-, unskipped, offered⟩
  · exact skipped
  · exact absurd (mem_raced.mpr ⟨races, unskipped,
      offered (LadderPlan.mem_raced.mpr ⟨races, unskipped⟩)⟩) left

/-- What the blasts add to the report and to the wire. -/
structure Climbed (l : Ladder) (rungs : List Rung) (report : LadderReport) (wire : Wire)
    (result : Except LadderReport Nomination × Wire) : Prop where
  checks : result.2.checks = wire.checks
  known : result.2.known = wire.known
  raced : result.2.raced = wire.raced
  families : ∀ f ∈ wire.families, f ∈ result.2.families
  blasted : ∀ a ∈ result.2.blasted, a ∈ wire.blasted ∨
    ∃ f, .birthday f ∈ rungs ∧ l.CanBlast ∧ a ∈ l.targets f
  nominated : ∀ n, result.1 = .ok n → ∃ f, .birthday f ∈ rungs ∧ n.rung = .birthday f
  tunnel : ∀ report', result.1 = .error report' → (report' .sshTunnel).isSkipped = true
  kept : ∀ report', result.1 = .error report' → ∀ r, r ≠ .sshTunnel →
    (∀ f, r = .birthday f → r ∉ rungs) → report' r = report r
  tried : ∀ report', result.1 = .error report' → ∀ f, .birthday f ∈ rungs →
    (report' (.birthday f)).isSkipped = true ∨
      ∃ why, report' (.birthday f) = .failed why ∧ f ∈ result.2.families

theorem families_fire (l : Ladder) (family : Family) (run : BlastRun) (wire : Wire) :
    ∀ f ∈ wire.families, f ∈ (l.fire family run wire).families := by
  intro f there
  unfold fire
  split
  next => exact there
  next => exact List.mem_append_left _ there

theorem blasted_fire (l : Ladder) (family : Family) (run : BlastRun) (wire : Wire) :
    ∀ a ∈ (l.fire family run wire).blasted,
      a ∈ wire.blasted ∨ (l.CanBlast ∧ a ∈ l.targets family) := by
  intro a there
  unfold fire at there
  split at there
  next => exact Or.inl there
  next =>
    rcases List.mem_append.mp there with before | new
    · exact Or.inl before
    · split at new
      next can => exact Or.inr ⟨can, List.mem_of_mem_take new⟩
      next => cases new

theorem fire_fields (l : Ladder) (family : Family) (run : BlastRun) (wire : Wire) :
    (l.fire family run wire).checks = wire.checks ∧ (l.fire family run wire).known = wire.known ∧
      (l.fire family run wire).raced = wire.raced := by
  unfold fire
  split <;> exact ⟨rfl, rfl, rfl⟩

theorem blast_error {family : Family} {sent : Nat} {run : BlastRun} {verdict : Verdict} {n : Nat}
    (ended : l.blast family sent run = .error (verdict, n)) (wire : Wire) :
    verdict.isSkipped = true ∨
      ∃ why, verdict = .failed why ∧ family ∈ (l.fire family run wire).families := by
  simp only [blast] at ended
  split at ended
  next =>
    cases ended
    exact Or.inl rfl
  next on =>
    split at ended
    next =>
      cases ended
      exact Or.inl rfl
    next based =>
      have fired : family ∈ (l.fire family run wire).families := by
        unfold fire
        rw [if_neg (not_or.mpr ⟨on, based⟩)]
        exact List.mem_append_right _ List.mem_cons_self
      have failed : ∃ why, verdict = .failed why := by
        split at ended
        next =>
          split at ended <;> cases ended <;> exact ⟨_, rfl⟩
        next =>
          cases ended
          exact ⟨_, rfl⟩
      obtain ⟨why, same⟩ := failed
      exact Or.inr ⟨why, same, fired⟩

theorem blast_ok {family : Family} {sent : Nat} {run : BlastRun} {n : Nomination}
    (found : l.blast family sent run = .ok n) (wire : Wire) :
    n.rung = .birthday family ∧ family ∈ (l.fire family run wire).families := by
  simp only [blast] at found
  split at found
  next => cases found
  next on =>
    split at found
    next => cases found
    next based =>
      have fired : family ∈ (l.fire family run wire).families := by
        unfold fire
        rw [if_neg (not_or.mpr ⟨on, based⟩)]
        exact List.mem_append_right _ List.mem_cons_self
      split at found
      next =>
        split at found <;> cases found
        exact ⟨rfl, fired⟩
      next => cases found

/-- A blast that gave no path, and the rest. -/
theorem Climbed.birthday {family : Family} {rest : List Rung} {report : LadderReport} {wire : Wire}
    {run : BlastRun} {verdict : Verdict} {result : Except LadderReport Nomination × Wire}
    (next : Climbed l rest (report.set (.birthday family) verdict) (l.fire family run wire) result)
    (ended : verdict.isSkipped = true ∨
      ∃ why, verdict = .failed why ∧ family ∈ (l.fire family run wire).families) :
    Climbed l (.birthday family :: rest) report wire result := by
  obtain ⟨checks, known, raced⟩ := l.fire_fields family run wire
  refine ⟨next.checks.trans checks, next.known.trans known, next.raced.trans raced, ?_, ?_, ?_,
    next.tunnel, ?_, ?_⟩
  · exact fun f there => next.families f (families_fire l family run wire f there)
  · intro a there
    rcases next.blasted a there with before | ⟨f, later, can, aimed⟩
    · rcases blasted_fire l family run wire a before with older | ⟨can, aimed⟩
      · exact Or.inl older
      · exact Or.inr ⟨family, List.mem_cons_self, can, aimed⟩
    · exact Or.inr ⟨f, List.mem_cons_of_mem _ later, can, aimed⟩
  · intro n won
    obtain ⟨f, later, rung⟩ := next.nominated n won
    exact ⟨f, List.mem_cons_of_mem _ later, rung⟩
  · intro report' lost r tunnel absent
    have other : r ≠ .birthday family :=
      fun same => absent family same (same ▸ List.mem_cons_self)
    rw [next.kept report' lost r tunnel fun f same later =>
      absent f same (List.mem_cons_of_mem _ later)]
    exact LadderReport.set_of_ne report verdict other
  · intro report' lost f there
    by_cases later : .birthday f ∈ rest
    · exact next.tried report' lost f later
    · obtain rfl : f = family := by
        rcases List.mem_cons.mp there with same | there
        · exact Rung.birthday.inj same
        · exact absurd there later
      have same : report' (.birthday f) = verdict := by
        rw [next.kept report' lost (.birthday f) nofun fun _ _ => later, LadderReport.set_self]
      rw [same]
      refine ended.imp_right ?_
      rintro ⟨why, failed, fired⟩
      exact ⟨why, failed, next.families f fired⟩

theorem Climbed.pass {rung : Rung} {rest : List Rung} {report : LadderReport} {wire : Wire}
    {result : Except LadderReport Nomination × Wire} (next : Climbed l rest report wire result)
    (other : ∀ f, rung ≠ .birthday f) : Climbed l (rung :: rest) report wire result := by
  have later : ∀ f, .birthday f ∈ rung :: rest → Rung.birthday f ∈ rest := by
    intro f there
    rcases List.mem_cons.mp there with same | there
    · exact absurd same.symm (other f)
    · exact there
  refine ⟨next.checks, next.known, next.raced, next.families, ?_, ?_, next.tunnel, ?_, ?_⟩
  · intro a there
    refine (next.blasted a there).imp_right ?_
    rintro ⟨f, later, aimed⟩
    exact ⟨f, List.mem_cons_of_mem _ later, aimed⟩
  · intro n won
    obtain ⟨f, later, rung⟩ := next.nominated n won
    exact ⟨f, List.mem_cons_of_mem _ later, rung⟩
  · intro report' lost r tunnel absent
    exact next.kept report' lost r tunnel fun f same later =>
      absent f same (List.mem_cons_of_mem _ later)
  · intro report' lost f there
    exact next.tried report' lost f (later f there)

theorem climbed_climb (l : Ladder) (blasts : Family → BlastRun) (rungs : List Rung)
    (report : LadderReport) (probes : Nat) (wire : Wire) :
    Climbed l rungs report wire (l.climb blasts rungs report probes wire) := by
  induction rungs generalizing report probes wire with
  | nil =>
      refine ⟨rfl, rfl, rfl, fun _ there => there, fun _ there => Or.inl there,
        fun _ won => (nomatch won), ?_, ?_, fun _ _ _ there => nomatch there⟩
      · intro report' lost
        cases lost
        rfl
      · intro report' lost r tunnel _
        cases lost
        exact LadderReport.set_of_ne report _ tunnel
  | cons rung rest ih =>
      cases rung with
      | birthday family =>
          rw [climb]
          split
          next n found =>
            obtain ⟨rung, fired⟩ := blast_ok found wire
            split
            next =>
              exact (ih _ _ _).birthday (Or.inr ⟨_, rfl, fired⟩)
            next =>
              obtain ⟨checks, known, raced⟩ := l.fire_fields family (blasts family) wire
              refine ⟨checks, known, raced, families_fire l family _ wire, ?_, ?_,
                fun _ lost => (nomatch lost), fun _ lost => (nomatch lost), fun _ lost => nomatch lost⟩
              · intro a there
                refine (blasted_fire l family _ wire a there).imp_right ?_
                rintro ⟨can, aimed⟩
                exact ⟨family, List.mem_cons_self, can, aimed⟩
              · intro n' won
                cases won
                exact ⟨family, List.mem_cons_self, rung⟩
          next verdict sent ended => exact (ih _ _ _).birthday (blast_error ended wire)
      | direct | portMapped | punched | sshTunnel => exact (ih _ _ _).pass nofun

end Ladder
end Oxutrm.Net
