import Oxutrm.Client.Standby
import Oxutrm.Lib.Transition
import Mathlib.Algebra.Order.Group.Multiset
import Mathlib.Tactic.Abel

/-!
The standby in its loop. Searches and probes report through one channel, read in
order; a task the loop has dropped reports no more, but what it had reported before
is still read. `probes` numbers the probes, which carry nothing that tells one
report from another; `marks` and the lists of links record what the source does not
keep.
-/
namespace Oxutrm.Client
open Transition

variable {Link : Type}

inductive StandbyEvent (Link : Type) where
  | found (search : UInt64) (established : Link)
  | notFound (search : UInt64) (reason : String)
  | probed (probe : Nat) (answered : Bool)

/-- The search a report belongs to. -/
def StandbyEvent.number : StandbyEvent Link → Option UInt64
  | .found n _ | .notFound n _ => some n
  | .probed _ _ => none

def StandbyEvent.report : StandbyEvent Link → Option Nat
  | .found _ _ | .notFound _ _ => none
  | .probed i _ => some i

/-- What the age of an answer is told by. -/
inductive Mark where
  | quiet
  | committed
  | kept
  | probe (probe : Nat) (sent : Instant)
  | answered (probe : Nat)
  deriving DecidableEq, Repr

structure Failover (Link : Type) where
  standby : Standby Link
  search : Option UInt64 := none
  probe : Option Nat := none
  channel : List (StandbyEvent Link) := []
  probes : Nat := 0
  marks : List Mark := []
  handed : List Link := []
  closed : List Link := []
  given : List Link := []
  dropped : List Link := []
  displaced : List Link := []

/-- `rebuilt` is a landed rebuild; `movedAway` is a switcher answer the loop
follows. -/
inductive FailoverEvent (Link : Type) where
  | lap (phase : Phase) (now : Instant) (rebuild : RebuildStage) (abandoned : Bool)
  | searchFound (established : Link)
  | searchFailed (reason : String)
  | probeDone (answered : Bool)
  | read (now : Instant)
  | lost (now : Instant) (reason : CloseReason)
  | routeMoved (now : Instant)
  | rebuilt (now : Instant)
  | movedAway (now : Instant)
  | switch (on : Bool) (now : Instant)

namespace Failover

def seen (phase : Phase) (rebuild : RebuildStage) : List Mark :=
  (if phase.isOutage then [] else [.quiet]) ++ if rebuild = .committed then [.committed] else []

/-- The loop acts on what `step` decided. -/
def act (c : Failover Link) (now : Instant) (abandoned : Bool) : StandbyAction → Failover Link
  | .nothing => c
  | .search n => { c with search := some n }
  | .probe _ =>
      if c.standby.link.isSome then
        { c with
          probe := some c.probes
          probes := c.probes + 1
          marks := c.marks ++ [.probe c.probes now] }
      else c
  | .failOver =>
      if abandoned then
        { c with
          standby := (c.standby.takeForFailover now).1
          given := c.given ++ (c.standby.takeForFailover now).2.toList
          search := none }
      else c

/-- `on_standby_event`: a link that is not kept is closed. -/
def onStandbyEvent (c : Failover Link) (now : Instant) : StandbyEvent Link → Failover Link
  | .found n established =>
      let c := { c with handed := c.handed ++ [established] }
      match c.standby.found n established with
      | (standby, true) =>
          { c with
            standby := standby
            displaced := c.displaced ++ c.standby.link.toList
            marks := c.marks ++ [.kept] }
      | (standby, false) => { c with standby := standby, closed := c.closed ++ [established] }
  | .notFound n reason => { c with standby := (c.standby.notFound n now reason).1 }
  | .probed _ answered => { c with standby := (c.standby.probed answered now).1 }

/-- The standby is forgotten, and closed. -/
def forget (c : Failover Link) (now : Instant) : Failover Link :=
  { c with
    standby := c.standby.forget now
    closed := c.closed ++ c.standby.link.toList
    search := none }

def step (c : Failover Link) : FailoverEvent Link → Option (Failover Link)
  | .lap phase now rebuild abandoned =>
      let (standby, action) := c.standby.step phase now rebuild
      some (act { c with standby := standby, marks := c.marks ++ seen phase rebuild } now abandoned
        action)
  | .searchFound established => c.search.map fun n =>
      { c with search := none, channel := c.channel ++ [.found n established] }
  | .searchFailed reason => c.search.map fun n =>
      { c with search := none, channel := c.channel ++ [.notFound n reason] }
  | .probeDone answered => c.probe.map fun i =>
      { c with
        probe := none
        channel := c.channel ++ [.probed i answered]
        marks := c.marks ++ if answered then [.answered i] else [] }
  | .read now =>
      match c.channel with
      | [] => none
      | e :: rest => some (onStandbyEvent { c with channel := rest } now e)
  | .lost now reason => some
      { c with
        standby := (c.standby.lost now reason).1
        dropped := c.dropped ++ c.standby.link.toList }
  | .routeMoved now => some { c with standby := c.standby.routeMoved now }
  | .rebuilt now => some (c.forget now)
  | .movedAway now => some { c.forget now with probe := none }
  | .switch on now =>
      if on = c.standby.enabled then none
      else if on then some { c with standby := c.standby.setEnabled true now }
      else some
        { c with
          standby := c.standby.setEnabled false now
          closed := c.closed ++ c.standby.link.toList
          search := none
          probe := none }

/-- The number of searches and of primaries has not come round. -/
def Numbered (c : Failover Link) (_ : FailoverEvent Link) : Prop :=
  c.standby.search.toNat + 1 < 2 ^ 64

def start (now : Instant) : Failover Link := { standby := Standby.new now }

/-- The last probe was sent then, to the link held now; no step has seen the outage
over or a rebuild committed since. -/
def Standing (marks : List Mark) (probe : Nat) (sent : Instant) (later : List Mark) : Prop :=
  (∃ earlier, marks = earlier ++ .probe probe sent :: later) ∧
    ∀ m ∈ later, m ≠ .quiet ∧ m ≠ .committed ∧ m ≠ .kept

/-- A standing probe has been answered. -/
def Answered (marks : List Mark) (sent : Instant) : Prop :=
  ∃ probe later, Standing marks probe sent later ∧ .answered probe ∈ later

/-- The searches: only one report with the number still wanted is to come, and none
while a standby is held. -/
structure Searches (c : Failover Link) : Prop where
  running : ∀ n, c.search = some n → n = c.standby.search ∧ c.standby.link = none ∧
    ∀ e ∈ c.channel, e.number ≠ some c.standby.search
  issued : ∀ e ∈ c.channel, ∀ n, e.number = some n → n.toNat ≤ c.standby.search.toNat
  once : c.channel.Pairwise fun a b =>
    a.number = some c.standby.search → b.number ≠ some c.standby.search
  held : c.standby.link.isSome = true → c.standby.enabled = true ∧
    ∀ e ∈ c.channel, e.number ≠ some c.standby.search

/-- The probes: while one is pending, only its own report is to come. With `probing`
clear, what an earlier probe reported is read before any standby is found. -/
structure Probes (c : Failover Link) : Prop where
  bare : c.standby.link = none → c.standby.probe = .idle
  busy : c.standby.probing = true →
    (c.channel.filterMap StandbyEvent.report ++ c.probe.toList).length ≤ 1
  free : c.standby.probing = false → c.probe = none ∧
    (c.standby.link.isSome = true → ∀ e ∈ c.channel, e.report = none) ∧
    c.channel.Pairwise fun a b => a.number = some c.standby.search → b.report = none
  pending : ∀ sent, c.standby.probe = .pending sent → c.standby.probing = true ∧
    ∃ i later, Standing c.marks i sent later ∧ (∀ j, c.probe = some j → j = i) ∧
      ∀ j answered, .probed j answered ∈ c.channel →
        j = i ∧ (answered = true → .answered i ∈ later)
  answered : ∀ sent, c.standby.probe = .answered sent → Answered c.marks sent

/-- Every link handed over is accounted for once. -/
structure Accounts (c : Failover Link) : Prop where
  balance : (c.handed : Multiset Link) =
    c.closed + c.given + c.dropped + c.standby.link.toList
  displaced : c.displaced = []

namespace Standing
variable {marks later : List Mark} {i : Nat} {sent : Instant}

theorem append (standing : Standing marks i sent later) {more : List Mark}
    (calm : ∀ m ∈ more, m ≠ .quiet ∧ m ≠ .committed ∧ m ≠ .kept) :
    Standing (marks ++ more) i sent (later ++ more) := by
  obtain ⟨⟨earlier, split⟩, since⟩ := standing
  refine ⟨⟨earlier, by rw [split, List.append_assoc, List.cons_append]⟩, fun m member => ?_⟩
  cases List.mem_append.mp member with
  | inl old => exact since m old
  | inr new => exact calm m new

end Standing

theorem Answered.append {marks more : List Mark} {sent : Instant} (answered : Answered marks sent)
    (calm : ∀ m ∈ more, m ≠ .quiet ∧ m ≠ .committed ∧ m ≠ .kept) :
    Answered (marks ++ more) sent := by
  obtain ⟨i, later, standing, told⟩ := answered
  exact ⟨i, later ++ more, standing.append calm, List.mem_append_left _ told⟩

theorem seen_calm {phase : Phase} {rebuild : RebuildStage} (outage : phase.isOutage = true)
    (free : rebuild ≠ .committed) : seen phase rebuild = [] := by
  simp only [seen, outage, if_true, free, if_false, List.append_nil]

theorem Searches.unissued {c : Failover Link} (searches : Searches c)
    (room : c.standby.search.toNat + 1 < 2 ^ 64) :
    ∀ e ∈ c.channel, e.number ≠ some (c.standby.search + 1) := by
  intro e member number
  have below := searches.issued e member _ number
  rw [UInt64.toNat_add, UInt64.toNat_one, Nat.mod_eq_of_lt room] at below
  exact absurd below (Nat.not_succ_le_self _)

namespace Searches
variable {c c' : Failover Link}

theorem keep (searches : Searches c) (channel : c'.channel = c.channel)
    (search : c'.search = c.search ∨ c'.search = none)
    (number : c'.standby.search = c.standby.search)
    (link : c'.standby.link = none ∨
      c'.standby.link = c.standby.link ∧ c'.standby.enabled = c.standby.enabled) :
    Searches c' where
  running n asked := by
    cases search with
    | inr none =>
        rw [none] at asked
        cases asked
    | inl same =>
        obtain ⟨wanted, bare, single⟩ := searches.running n (same ▸ asked)
        refine ⟨number ▸ wanted, ?_, channel ▸ number ▸ single⟩
        cases link with
        | inl none => exact none
        | inr same => exact same.1.trans bare
  issued := by
    rw [channel, number]
    exact searches.issued
  once := by
    rw [channel, number]
    exact searches.once
  held some := by
    cases link with
    | inl none =>
        rw [none] at some
        cases some
    | inr same =>
        rw [channel, number, same.2]
        exact searches.held (same.1 ▸ some)

theorem renumber (searches : Searches c) (room : c.standby.search.toNat + 1 < 2 ^ 64)
    (channel : c'.channel = c.channel) (number : c'.standby.search = c.standby.search + 1)
    (search : ∀ n, c'.search = some n → n = c'.standby.search)
    (bare : c'.standby.link = none) : Searches c' where
  running n asked := by
    refine ⟨search n asked, bare, ?_⟩
    rw [channel, number]
    exact searches.unissued room
  issued e member n issued := by
    rw [channel] at member
    rw [number, UInt64.toNat_add, UInt64.toNat_one, Nat.mod_eq_of_lt room]
    exact Nat.le_succ_of_le (searches.issued e member n issued)
  once := by
    rw [channel, number]
    exact List.pairwise_of_forall_mem_list fun a member _ _ wanted =>
      absurd wanted (searches.unissued room a member)
  held some := by
    rw [bare] at some
    cases some

theorem reported (searches : Searches c) {n : UInt64} (asked : c.search = some n)
    {e : StandbyEvent Link} (number : e.number = some n) :
    Searches { c with search := none, channel := c.channel ++ [e] } := by
  obtain ⟨wanted, bare, single⟩ := searches.running n asked
  refine ⟨fun m none => (by cases none), fun a member m issued => ?_, ?_, fun some => ?_⟩
  · cases List.mem_append.mp member with
    | inl old => exact searches.issued a old m issued
    | inr new =>
        rw [List.mem_singleton.mp new, number, wanted] at issued
        cases issued
        exact Nat.le_refl _
  · refine List.pairwise_append.mpr ⟨searches.once, List.pairwise_singleton _ _, ?_⟩
    intro a old b _ same
    exact absurd same (single a old)
  · change c.standby.link.isSome = true at some
    rw [bare] at some
    cases some

theorem probeReported (searches : Searches c) (i : Nat) (answered : Bool) (probe : Option Nat)
    (marks : List Mark) :
    Searches { c with
      probe := probe, channel := c.channel ++ [.probed i answered], marks := marks } := by
  have other : ∀ a ∈ c.channel ++ [.probed i answered],
      ∀ n, a.number = some n → a ∈ c.channel := by
    intro a member n numbered
    cases List.mem_append.mp member with
    | inl old => exact old
    | inr new =>
        rw [List.mem_singleton.mp new] at numbered
        cases numbered
  refine ⟨fun n asked => ?_, fun a member n issued => ?_, ?_, fun some => ?_⟩
  · obtain ⟨wanted, bare, single⟩ := searches.running n asked
    exact ⟨wanted, bare, fun a member same => single a (other a member _ same) same⟩
  · exact searches.issued a (other a member n issued) n issued
  · refine List.pairwise_append.mpr ⟨searches.once, List.pairwise_singleton _ _, ?_⟩
    intro a _ b new _ same
    rw [List.mem_singleton.mp new] at same
    cases same
  · obtain ⟨on, none⟩ := searches.held some
    exact ⟨on, fun a member same => none a (other a member _ same) same⟩

theorem taken (searches : Searches c) {e : StandbyEvent Link} {rest : List (StandbyEvent Link)}
    (channel : c.channel = e :: rest) : Searches { c with channel := rest } := by
  have later : ∀ a ∈ rest, a ∈ c.channel := fun a member => channel ▸ List.mem_cons_of_mem e member
  refine ⟨fun n asked => ?_, fun a member => searches.issued a (later a member), ?_,
    fun some => ?_⟩
  · obtain ⟨wanted, bare, single⟩ := searches.running n asked
    exact ⟨wanted, bare, fun a member => single a (later a member)⟩
  · exact (List.pairwise_cons.mp (channel ▸ searches.once)).2
  · obtain ⟨on, none⟩ := searches.held some
    exact ⟨on, fun a member => none a (later a member)⟩

/-- The report that is still wanted is the only one of its number, and no standby is
held when it comes. -/
theorem wanted (searches : Searches c) {e : StandbyEvent Link} {rest : List (StandbyEvent Link)}
    (channel : c.channel = e :: rest) (number : e.number = some c.standby.search) :
    c.standby.link = none ∧ c.search = none ∧
      ∀ a ∈ rest, a.number ≠ some c.standby.search := by
  have first : e ∈ c.channel := channel ▸ List.mem_cons_self
  refine ⟨?_, ?_, fun a member => ?_⟩
  · cases link : c.standby.link with
    | none => rfl
    | some l => exact absurd number ((searches.held (by rw [link]; rfl)).2 e first)
  · cases asked : c.search with
    | none => rfl
    | some n => exact absurd number ((searches.running n asked).2.2 e first)
  · have once := searches.once
    rw [channel] at once
    exact (List.pairwise_cons.mp once).1 a member number

end Searches

namespace Probes
variable {c c' : Failover Link}

theorem keep (probes : Probes c) (channel : c'.channel = c.channel) (task : c'.probe = c.probe)
    (number : c'.standby.search = c.standby.search) (probing : c'.standby.probing = c.standby.probing)
    (probe : c'.standby.probe = c.standby.probe) (link : c'.standby.link = c.standby.link)
    (marks : c'.marks = c.marks) : Probes c' where
  bare none := probe.trans (probes.bare (link ▸ none))
  busy asked := by
    rw [channel, task]
    exact probes.busy (probing ▸ asked)
  free idle := by
    rw [channel, task, number, link]
    exact probes.free (probing ▸ idle)
  pending sent waits := by
    rw [channel, task, probing, marks]
    exact probes.pending sent (probe ▸ waits)
  answered sent heard := marks ▸ probes.answered sent (probe ▸ heard)

theorem reset (probes : Probes c) (channel : c'.channel = c.channel)
    (task : c'.probe = c.probe ∨ c'.probe = none)
    (number : c'.standby.search = c.standby.search ∨
      ∀ e ∈ c.channel, e.number ≠ some c'.standby.search)
    (probing : c'.standby.probing = c.standby.probing) (probe : c'.standby.probe = .idle)
    (link : c'.standby.link = none ∨ c'.standby.link = c.standby.link) : Probes c' where
  bare _ := probe
  busy asked := by
    have outstanding := probes.busy (probing ▸ asked)
    rw [channel]
    cases task with
    | inl same =>
        rw [same]
        exact outstanding
    | inr none =>
        rw [none, Option.toList_none, List.append_nil]
        rw [List.length_append] at outstanding
        exact Nat.le_trans (Nat.le_add_right _ _) outstanding
  free idle := by
    obtain ⟨none, quiet, ordered⟩ := probes.free (probing ▸ idle)
    rw [channel]
    refine ⟨task.elim (fun same => same.trans none) id, fun some => ?_, ?_⟩
    · cases link with
      | inl gone =>
          rw [gone] at some
          cases some
      | inr same => exact quiet (same ▸ some)
    · cases number with
      | inl same =>
          rw [same]
          exact ordered
      | inr fresh =>
          exact List.pairwise_of_forall_mem_list fun a member _ _ wanted =>
            absurd wanted (fresh a member)
  pending sent waits := by
    rw [probe] at waits
    cases waits
  answered sent heard := by
    rw [probe] at heard
    cases heard

/-- Everything is dropped, `probing` too; what was reported before is not wanted. -/
theorem switchedOff (channel : ∀ e ∈ c'.channel, e.number ≠ some c'.standby.search)
    (task : c'.probe = none) (probing : c'.standby.probing = false)
    (probe : c'.standby.probe = .idle) (link : c'.standby.link = none) : Probes c' where
  bare _ := probe
  busy asked := by
    rw [probing] at asked
    cases asked
  free _ := by
    refine ⟨task, fun some => ?_, List.pairwise_of_forall_mem_list fun a member _ _ wanted =>
      absurd wanted (channel a member)⟩
    rw [link] at some
    cases some
  pending sent waits := by
    rw [probe] at waits
    cases waits
  answered sent heard := by
    rw [probe] at heard
    cases heard

theorem started (probes : Probes c) (held : c.standby.link.isSome = true)
    (idle : c.standby.probing = false) (channel : c'.channel = c.channel)
    (probing : c'.standby.probing = true) (link : c'.standby.link = c.standby.link) {i : Nat}
    {now : Instant} (task : c'.probe = some i) (probe : c'.standby.probe = .pending now)
    (marks : c'.marks = c.marks ++ [.probe i now]) : Probes c' := by
  obtain ⟨-, quiet, -⟩ := probes.free idle
  have silent := quiet held
  refine ⟨fun none => ?_, fun _ => ?_, fun free => ?_, fun sent waits => ⟨probing, ?_⟩,
    fun sent heard => ?_⟩
  · rw [link] at none
    rw [none] at held
    cases held
  · rw [channel, task, List.filterMap_eq_nil_iff.mpr silent]
    exact Nat.le_refl _
  · rw [probing] at free
    cases free
  · rw [probe] at waits
    cases waits
    refine ⟨i, [], ⟨⟨c.marks, marks⟩, fun m none => (by cases none)⟩, fun j same => ?_,
      fun j answered member => ?_⟩
    · rw [task] at same
      exact (Option.some.inj same).symm
    · rw [channel] at member
      cases silent _ member
  · rw [probe] at heard
    cases heard

theorem reported (probes : Probes c) {i : Nat} (asked : c.probe = some i) (answered : Bool) :
    Probes { c with
      probe := none
      channel := c.channel ++ [.probed i answered]
      marks := c.marks ++ if answered then [.answered i] else [] } := by
  have calm : ∀ m ∈ (if answered then [Mark.answered i] else []),
      m ≠ .quiet ∧ m ≠ .committed ∧ m ≠ .kept := by
    intro m member
    cases answered with
    | false => cases member
    | true =>
        rw [List.mem_singleton.mp member]
        exact ⟨Mark.noConfusion, Mark.noConfusion, Mark.noConfusion⟩
  have busy : c.standby.probing = true := by
    cases idle : c.standby.probing with
    | true => rfl
    | false =>
        rw [(probes.free idle).1] at asked
        cases asked
  refine ⟨probes.bare, fun _ => ?_, fun idle => ?_, fun sent waits => ?_, fun sent heard => ?_⟩
  · have outstanding := probes.busy busy
    rw [asked] at outstanding
    simpa [StandbyEvent.report] using outstanding
  · change c.standby.probing = false at idle
    rw [busy] at idle
    cases idle
  · obtain ⟨-, j, later, standing, task, channel⟩ := probes.pending sent waits
    have own := task i asked
    refine ⟨busy, j, later ++ _, standing.append calm, fun k none => (by cases none),
      fun k told member => ?_⟩
    cases List.mem_append.mp member with
    | inl old =>
        obtain ⟨same, heard⟩ := channel k told old
        exact ⟨same, fun yes => List.mem_append_left _ (heard yes)⟩
    | inr new =>
        cases List.mem_singleton.mp new
        refine ⟨own, fun yes => List.mem_append_right _ ?_⟩
        rw [yes, own]
        exact List.mem_singleton_self _
  · exact (probes.answered sent heard).append calm

theorem appended (probes : Probes c) {search : Option UInt64} {e : StandbyEvent Link}
    (other : e.report = none) :
    Probes { c with search := search, channel := c.channel ++ [e] } := by
  refine ⟨probes.bare, fun asked => ?_, fun idle => ?_, fun sent waits => ?_, probes.answered⟩
  · have outstanding := probes.busy asked
    rw [List.filterMap_append, List.filterMap_cons_none other, List.filterMap_nil, List.append_nil]
    exact outstanding
  · obtain ⟨none, quiet, ordered⟩ := probes.free idle
    refine ⟨none, fun some a member => ?_, List.pairwise_append.mpr
      ⟨ordered, List.pairwise_singleton _ _, fun a _ b new _ => ?_⟩⟩
    · cases List.mem_append.mp member with
      | inl old => exact quiet some a old
      | inr new => exact List.mem_singleton.mp new ▸ other
    · exact List.mem_singleton.mp new ▸ other
  · obtain ⟨asked, i, later, standing, task, heard⟩ := probes.pending sent waits
    refine ⟨asked, i, later, standing, task, fun j answered member => ?_⟩
    cases List.mem_append.mp member with
    | inl old => exact heard j answered old
    | inr new =>
        rw [← List.mem_singleton.mp new] at other
        cases other

theorem taken (probes : Probes c) {e : StandbyEvent Link} {rest : List (StandbyEvent Link)}
    (channel : c.channel = e :: rest) (other : e.report = none) :
    Probes { c with channel := rest } := by
  have later : ∀ a ∈ rest, a ∈ c.channel := fun a member => channel ▸ List.mem_cons_of_mem e member
  refine ⟨probes.bare, fun asked => ?_, fun idle => ?_, fun sent waits => ?_, probes.answered⟩
  · have outstanding := probes.busy asked
    rw [channel, List.filterMap_cons_none other] at outstanding
    exact outstanding
  · obtain ⟨none, quiet, ordered⟩ := probes.free idle
    rw [channel] at ordered
    exact ⟨none, fun some a member => quiet some a (later a member),
      (List.pairwise_cons.mp ordered).2⟩
  · obtain ⟨asked, i, since, standing, task, heard⟩ := probes.pending sent waits
    exact ⟨asked, i, since, standing, task, fun j answered member => heard j answered (later _ member)⟩

theorem probed (probes : Probes c) {i : Nat} {answered : Bool} {rest : List (StandbyEvent Link)}
    (channel : c.channel = .probed i answered :: rest) (now : Instant) :
    Probes { c with channel := rest, standby := (c.standby.probed answered now).1 } := by
  have settled : c.probe = none ∧ (c.standby.link.isSome = true → ∀ e ∈ rest, e.report = none) ∧
      rest.Pairwise fun a b => a.number = some c.standby.search → b.report = none := by
    cases idle : c.standby.probing with
    | true =>
        have outstanding := probes.busy idle
        rw [channel] at outstanding
        simp only [List.filterMap_cons, StandbyEvent.report, List.cons_append, List.length_cons,
          List.length_append] at outstanding
        have silent : ∀ e ∈ rest, e.report = none := by
          have none : (rest.filterMap StandbyEvent.report).length = 0 := by omega
          exact List.filterMap_eq_nil_iff.mp (List.length_eq_zero_iff.mp none)
        refine ⟨?_, fun _ => silent, List.pairwise_of_forall_mem_list fun _ _ b member _ =>
          silent b member⟩
        cases task : c.probe with
        | none => rfl
        | some j =>
            rw [task] at outstanding
            simp only [Option.toList_some, List.length_singleton] at outstanding
            omega
    | false =>
        obtain ⟨none, quiet, ordered⟩ := probes.free idle
        rw [channel] at quiet ordered
        refine ⟨none, fun some => ?_, (List.pairwise_cons.mp ordered).2⟩
        cases quiet some _ List.mem_cons_self
  cases c.standby.probed_cases answered now with
  | inl counted =>
      obtain ⟨sent, standing, result⟩ := counted
      obtain ⟨-, j, later, since, -, heard⟩ := probes.pending sent standing
      obtain ⟨same, told⟩ := heard i answered (channel ▸ List.mem_cons_self)
      rw [result]
      refine ⟨fun none => ?_, fun asked => (by cases asked), fun _ => settled,
        fun sent' waits => ?_, fun sent' known => ?_⟩
      · have idle := probes.bare none
        rw [standing] at idle
        cases idle
      · cases answered with
        | true => cases waits
        | false => cases waits
      · cases answered with
        | false => cases known
        | true =>
            cases known
            exact ⟨j, later, since, told rfl⟩
  | inr stale =>
      obtain ⟨standing, result⟩ := stale
      rw [result]
      exact ⟨probes.bare, fun asked => (by cases asked), fun _ => settled,
        fun sent waits => absurd waits (standing sent), probes.answered⟩

end Probes

theorem Accounts.keep {c c' : Failover Link} (accounts : Accounts c)
    (lists : (c'.handed, c'.closed, c'.given, c'.dropped, c'.displaced) =
      (c.handed, c.closed, c.given, c.dropped, c.displaced))
    (link : c'.standby.link = c.standby.link) : Accounts c' := by
  simp only [Prod.mk.injEq] at lists
  obtain ⟨handed, closed, given, dropped, displaced⟩ := lists
  refine ⟨?_, displaced.trans accounts.displaced⟩
  rw [handed, closed, given, dropped, link, accounts.balance]

theorem Accounts.closing {c c' : Failover Link} (accounts : Accounts c)
    (lists : (c'.handed, c'.closed, c'.given, c'.dropped, c'.displaced) =
      (c.handed, c.closed ++ c.standby.link.toList, c.given, c.dropped, c.displaced))
    (bare : c'.standby.link = none) : Accounts c' := by
  simp only [Prod.mk.injEq] at lists
  obtain ⟨handed, closed, given, dropped, displaced⟩ := lists
  refine ⟨?_, displaced.trans accounts.displaced⟩
  rw [handed, closed, given, dropped, bare, accounts.balance, ← Multiset.coe_add]
  simp only [Option.toList_none, Multiset.coe_nil, add_zero]
  abel

structure Kept (c : Failover Link) : Prop where
  searches : Searches c
  probes : Probes c
  accounts : Accounts c

namespace Kept
variable {c : Failover Link}

theorem renewed (kept : Kept c) (room : c.standby.search.toNat + 1 < 2 ^ 64)
    {c' : Failover Link} (channel : c'.channel = c.channel)
    (number : c'.standby.search = c.standby.search + 1) (search : c'.search = none)
    (task : c'.probe = c.probe ∨ c'.probe = none) (bare : c'.standby.link = none)
    (probing : c'.standby.probing = c.standby.probing) (probe : c'.standby.probe = .idle)
    (accounts : Accounts c') : Kept c' where
  searches := kept.searches.renumber room channel number
    (fun n asked => by rw [search] at asked; cases asked) bare
  probes := kept.probes.reset channel task
    (Or.inr (number ▸ kept.searches.unissued room)) probing probe (Or.inl bare)
  accounts := accounts

theorem lap (kept : Kept c) (room : c.standby.search.toNat + 1 < 2 ^ 64) (phase : Phase)
    (now : Instant) (rebuild : RebuildStage) (abandoned : Bool) :
    Kept (act { c with
        standby := (c.standby.step phase now rebuild).1, marks := c.marks ++ seen phase rebuild }
      now abandoned (c.standby.step phase now rebuild).2) := by
  rcases c.standby.step_cases phase now rebuild with
    ⟨calm, -, same⟩ | reset | ⟨bare, search⟩ | ⟨held, outage, free, -, due⟩ |
      ⟨held, idle, outage, free, probe⟩
  · rw [same]
    refine ⟨kept.searches.keep rfl (Or.inl rfl) rfl (Or.inr ⟨rfl, rfl⟩), ?_,
      kept.accounts.keep rfl rfl⟩
    cases link : c.standby.link with
    | none =>
        exact kept.probes.reset rfl (Or.inl rfl) (Or.inl rfl) rfl (kept.probes.bare link)
          (Or.inr rfl)
    | some l =>
        have held : c.standby.link.isSome = true := by rw [link]; rfl
        obtain ⟨outage, free⟩ := calm (kept.searches.held held).1 held
        refine kept.probes.keep rfl rfl rfl rfl rfl rfl ?_
        change c.marks ++ seen phase rebuild = c.marks
        rw [seen_calm outage free, List.append_nil]
  · rw [reset]
    exact ⟨kept.searches.keep rfl (Or.inl rfl) rfl (Or.inr ⟨rfl, rfl⟩),
      kept.probes.reset rfl (Or.inl rfl) (Or.inl rfl) rfl rfl (Or.inr rfl),
      kept.accounts.keep rfl rfl⟩
  · rw [search]
    exact ⟨kept.searches.renumber room rfl rfl (fun n asked => (Option.some.inj asked).symm) bare,
      kept.probes.reset rfl (Or.inl rfl) (Or.inr (kept.searches.unissued room)) rfl rfl
        (Or.inl bare),
      kept.accounts.keep rfl rfl⟩
  · rw [due, seen_calm outage free, List.append_nil]
    cases abandoned with
    | false => exact kept
    | true =>
        refine kept.renewed room rfl rfl rfl (Or.inl rfl) rfl rfl rfl
          ⟨?_, kept.accounts.displaced⟩
        have balance := kept.accounts.balance
        simp only [act, if_true, Standby.takeForFailover, Option.toList_none, Multiset.coe_nil,
          add_zero, ← Multiset.coe_add]
        rw [balance]
        abel
  · rw [probe, seen_calm outage free, List.append_nil]
    simp only [act, held, if_true]
    exact ⟨kept.searches.keep rfl (Or.inl rfl) rfl (Or.inr ⟨rfl, rfl⟩),
      kept.probes.started held idle rfl rfl rfl rfl rfl rfl,
      kept.accounts.keep rfl rfl⟩

theorem found (kept : Kept c) {n : UInt64} {established : Link}
    {rest : List (StandbyEvent Link)} (channel : c.channel = .found n established :: rest)
    (now : Instant) :
    Kept (onStandbyEvent { c with channel := rest } now (.found n established)) := by
  have searches := kept.searches.taken channel
  have probes := kept.probes.taken channel rfl
  have balance := kept.accounts.balance
  by_cases refused : (!c.standby.enabled || decide (n ≠ c.standby.search)) = true
  · simp only [onStandbyEvent, Standby.found, refused, if_true]
    refine ⟨searches.keep rfl (Or.inl rfl) rfl (Or.inr ⟨rfl, rfl⟩),
      probes.keep rfl rfl rfl rfl rfl rfl rfl, ⟨?_, kept.accounts.displaced⟩⟩
    simp only [← Multiset.coe_add]
    rw [balance]
    abel
  · simp only [onStandbyEvent, Standby.found, refused]
    simp only [Bool.or_eq_true, Bool.not_eq_true', decide_eq_true_eq, not_or, not_not,
      Bool.not_eq_false] at refused
    obtain ⟨on, rfl⟩ := refused
    obtain ⟨bare, none, single⟩ := kept.searches.wanted channel rfl
    refine ⟨⟨fun m asked => ?_, searches.issued, searches.once, fun _ => ⟨on, single⟩⟩,
      ⟨fun gone => (by cases gone), probes.busy, fun idle => ?_, fun sent waits => ?_,
        fun sent heard => ?_⟩, ⟨?_, ?_⟩⟩
    · change c.search = some m at asked
      rw [none] at asked
      cases asked
    · obtain ⟨task, -, ordered⟩ := kept.probes.free idle
      rw [channel] at ordered
      obtain ⟨first, later⟩ := List.pairwise_cons.mp ordered
      exact ⟨task, fun _ e member => first e member rfl, later⟩
    · change c.standby.probe = _ at waits
      rw [kept.probes.bare bare] at waits
      cases waits
    · change c.standby.probe = _ at heard
      rw [kept.probes.bare bare] at heard
      cases heard
    · rw [bare] at balance
      simp only [Option.toList_none, Multiset.coe_nil, add_zero] at balance
      change ((c.handed ++ [established] : List Link) : Multiset Link) =
        c.closed + c.given + c.dropped + [established]
      rw [← Multiset.coe_add, balance]
    · change c.displaced ++ c.standby.link.toList = []
      rw [bare, kept.accounts.displaced]
      rfl

theorem read (kept : Kept c) {e : StandbyEvent Link} {rest : List (StandbyEvent Link)}
    (channel : c.channel = e :: rest) (now : Instant) :
    Kept (onStandbyEvent { c with channel := rest } now e) := by
  cases e with
  | found n established => exact kept.found channel now
  | notFound n reason =>
      have searches := kept.searches.taken channel
      have probes := kept.probes.taken channel rfl
      simp only [onStandbyEvent, Standby.notFound]
      split
      · exact ⟨searches, probes, kept.accounts.keep rfl rfl⟩
      · exact ⟨searches.keep rfl (Or.inl rfl) rfl (Or.inr ⟨rfl, rfl⟩),
          probes.keep rfl rfl rfl rfl rfl rfl rfl, kept.accounts.keep rfl rfl⟩
  | probed i answered =>
      have probes := kept.probes.probed channel now
      obtain ⟨probe, result, -⟩ := c.standby.probed_eq answered now
      simp only [onStandbyEvent]
      rw [result] at probes ⊢
      exact ⟨(kept.searches.taken channel).keep rfl (Or.inl rfl) rfl (Or.inr ⟨rfl, rfl⟩), probes,
        kept.accounts.keep rfl rfl⟩

theorem step (kept : Kept c) {e : FailoverEvent Link} {c' : Failover Link} (room : c.Numbered e)
    (taken : c.step e = some c') : Kept c' := by
  have balance := kept.accounts.balance
  cases e with
  | lap phase now rebuild abandoned =>
      cases taken
      exact kept.lap room phase now rebuild abandoned
  | searchFound established =>
      obtain ⟨n, asked, rfl⟩ := Option.map_eq_some_iff.mp taken
      exact ⟨kept.searches.reported asked rfl, kept.probes.appended rfl,
        kept.accounts.keep rfl rfl⟩
  | searchFailed reason =>
      obtain ⟨n, asked, rfl⟩ := Option.map_eq_some_iff.mp taken
      exact ⟨kept.searches.reported asked rfl, kept.probes.appended rfl,
        kept.accounts.keep rfl rfl⟩
  | probeDone answered =>
      obtain ⟨i, asked, rfl⟩ := Option.map_eq_some_iff.mp taken
      exact ⟨kept.searches.probeReported i answered _ _, kept.probes.reported asked answered,
        kept.accounts.keep rfl rfl⟩
  | read now =>
      simp only [Failover.step] at taken
      split at taken
      · cases taken
      · next e rest channel =>
          cases taken
          exact kept.read channel now
  | lost now reason =>
      cases taken
      refine ⟨kept.searches.keep rfl (Or.inl rfl) rfl (Or.inl rfl),
        kept.probes.reset rfl (Or.inl rfl) (Or.inl rfl) rfl rfl (Or.inl rfl),
        ⟨?_, kept.accounts.displaced⟩⟩
      simp only [Standby.lost, Standby.backoff, Option.toList_none, Multiset.coe_nil, add_zero,
        ← Multiset.coe_add]
      rw [balance]
      abel
  | routeMoved now =>
      cases taken
      exact ⟨kept.searches.keep rfl (Or.inl rfl) rfl (Or.inr ⟨rfl, rfl⟩),
        kept.probes.keep rfl rfl rfl rfl rfl rfl rfl, kept.accounts.keep rfl rfl⟩
  | rebuilt now =>
      cases taken
      exact kept.renewed room rfl rfl rfl (Or.inl rfl) rfl rfl rfl (kept.accounts.closing rfl rfl)
  | movedAway now =>
      cases taken
      exact kept.renewed room rfl rfl rfl (Or.inr rfl) rfl rfl rfl (kept.accounts.closing rfl rfl)
  | switch on now =>
      simp only [Failover.step] at taken
      split at taken
      · cases taken
      · next other =>
          cases on with
          | true =>
              cases taken
              have off : c.standby.enabled = false := by simpa using other
              have bare : c.standby.link = none := by
                cases link : c.standby.link with
                | none => rfl
                | some l =>
                    have on := (kept.searches.held (by rw [link]; rfl)).1
                    rw [off] at on
                    cases on
              simp only [Standby.setEnabled, off, Bool.true_eq_false, if_false, if_true]
              exact ⟨kept.searches.keep rfl (Or.inl rfl) rfl (Or.inl bare),
                kept.probes.keep rfl rfl rfl rfl rfl rfl rfl, kept.accounts.keep rfl rfl⟩
          | false =>
              cases taken
              have on : c.standby.enabled = true := by simpa using other
              simp only [Standby.setEnabled, on, Bool.false_eq_true, if_false]
              refine ⟨kept.searches.renumber room rfl rfl (fun n asked => (by cases asked)) rfl,
                Probes.switchedOff (kept.searches.unissued room) rfl rfl rfl rfl,
                kept.accounts.closing rfl rfl⟩

end Kept

theorem kept_start (now : Instant) : Kept (start now : Failover Link) where
  searches := ⟨fun n asked => (by cases asked), fun e none => (by cases none), List.Pairwise.nil,
    fun some => (by cases some)⟩
  probes := ⟨fun _ => rfl, fun asked => (by cases asked),
    fun _ => ⟨rfl, fun _ e none => (by cases none), List.Pairwise.nil⟩,
    fun sent waits => (by cases waits), fun sent heard => (by cases heard)⟩
  accounts := ⟨rfl, rfl⟩

theorem Probes.due {c : Failover Link} (probes : Probes c) {phase : Phase} {now : Instant}
    (due : failoverDue phase c.standby.probe now = true) :
    ∃ sent, Answered c.marks sent ∧ now - sent ≥ failoverGrace := by
  cases standing : c.standby.probe with
  | answered sent =>
      rw [standing] at due
      simp only [failoverDue, Bool.and_eq_true, decide_eq_true_eq] at due
      exact ⟨sent, probes.answered sent standing, due.2⟩
  | idle | pending _ | failed _ =>
      rw [standing] at due
      cases due

theorem onStandbyEvent_stale (c : Failover Link) {n : UInt64} (stale : n ≠ c.standby.search)
    (now : Instant) (established : Link) (reason : String) :
    c.onStandbyEvent now (.found n established) =
        { c with handed := c.handed ++ [established], closed := c.closed ++ [established] } ∧
      c.onStandbyEvent now (.notFound n reason) = c := by
  have refused : (!c.standby.enabled || decide (n ≠ c.standby.search)) = true := by
    rw [decide_eq_true stale, Bool.or_true]
  constructor
  · simp only [onStandbyEvent, Standby.found, refused, if_true]
  · simp only [onStandbyEvent, Standby.notFound, stale, ne_eq, not_false_eq_true, if_true]

/-- In every run in which the number of searches and primaries has not come round:
a failover is decided only on a standby that answered a probe sent to it in this
outage and a second ago or more; every link a search found is closed, handed out,
dropped or held, and only once; and a report that is not wanted any more changes
nothing but closing the link it carries. -/
theorem failover_rests_on_an_answer (first : Instant) {c : Failover Link}
    (run : Reaches Failover.step Failover.Numbered (start first) c) :
    (∀ phase now rebuild, (c.standby.step phase now rebuild).2 = .failOver →
      c.standby.link.isSome = true ∧
        ∃ sent, Answered c.marks sent ∧ now - sent ≥ failoverGrace) ∧
      c.handed.Perm (c.closed ++ c.given ++ c.dropped ++ c.standby.link.toList) ∧
      c.displaced = [] ∧
      ∀ n, n ≠ c.standby.search → ∀ now established reason,
        c.onStandbyEvent now (.found n established) =
            { c with handed := c.handed ++ [established], closed := c.closed ++ [established] } ∧
          c.onStandbyEvent now (.notFound n reason) = c := by
  have kept : Kept c :=
    run.invariant (fun _ _ _ kept room taken => kept.step room taken) (kept_start first)
  refine ⟨fun phase now rebuild decided => ?_, ?_, kept.accounts.displaced,
    fun n stale now established reason => c.onStandbyEvent_stale stale now established reason⟩
  · rcases c.standby.step_cases phase now rebuild with
      ⟨-, -, same⟩ | reset | ⟨-, search⟩ | ⟨held, -, -, due, -⟩ | ⟨-, -, -, -, probe⟩
    · rw [same] at decided
      cases decided
    · rw [reset] at decided
      cases decided
    · rw [search] at decided
      cases decided
    · exact ⟨held, kept.probes.due due⟩
    · rw [probe] at decided
      cases decided
  · rw [← Multiset.coe_eq_coe, kept.accounts.balance]
    simp only [Multiset.coe_add]

instance decidableNumbered (c : Failover Link) : DecidablePred c.Numbered :=
  fun _ => inferInstanceAs (Decidable (_ < _))

/-- A standby is found, an outage probes it and it answers. -/
def answeredOnce : List (FailoverEvent Nat) :=
  [.lap .live (seconds 5) .idle true, .searchFound 7, .read (seconds 6),
    .lap (.silent (seconds 8)) (seconds 10) .idle true, .probeDone true, .read (seconds 10)]

theorem failover_rests_on_an_answer_once :
    ∃ c, runFrom Failover.step (start 0) answeredOnce = some c ∧
      (c.standby.step (.silent (seconds 8)) (seconds 11) .idle).2 = .failOver ∧
      ∃ sent, Answered c.marks sent ∧ seconds 11 - sent ≥ failoverGrace := by
  have outcome : (runFrom Failover.step (start 0) answeredOnce).map (fun c =>
      (c.standby.step (.silent (seconds 8)) (seconds 11) .idle).2) = some .failOver := by
    decide +kernel
  obtain ⟨c, run, due⟩ := Option.map_eq_some_iff.mp outcome
  obtain ⟨fresh, -⟩ := failover_rests_on_an_answer 0
    (reaches_of_runFrom answeredOnce (by decide +kernel) run)
  exact ⟨c, run, due, (fresh _ _ _ due).2⟩

/-- A second standby has been found and the probe of the first has answered, and
neither has been read. -/
def unread : List (FailoverEvent Nat) :=
  [.lap .live (seconds 5) .idle true, .searchFound 7, .read (seconds 6),
    .lap (.silent (seconds 8)) (seconds 10) .idle true, .lost (seconds 10) .other,
    .lap .live (seconds 40) .idle true, .searchFound 8, .probeDone true,
    .switch false (seconds 50), .switch true (seconds 50)]

def unreadAt (search : UInt64) : Failover Nat where
  standby :=
    { link := none, searching := false, search := search, failures := 1, nextSearch := seconds 55
      probe := .idle, probing := false, nonce := 1, lastFailure := none, enabled := true }
  channel := [.found 2 8, .probed 0 true]
  probes := 1
  marks := [.quiet, .kept, .probe 0 (seconds 10), .quiet, .answered 0]
  handed := [7]
  dropped := [7]

theorem unread_eq : runFrom Failover.step (start 0) unread = some (unreadAt 3) := rfl

theorem unread_toggled (k : UInt64) :
    Reaches Failover.step free (unreadAt k) (unreadAt (k + 1)) :=
  reaches_of_runFrom [.switch false (seconds 50), .switch true (seconds 50)]
    (admits_free _ _ _) rfl

theorem unread_moves (k : UInt64) (n : Nat) :
    Reaches Failover.step free (unreadAt k) (unreadAt (k + UInt64.ofNat n)) := by
  induction n with
  | zero =>
      rw [show k + UInt64.ofNat 0 = k from UInt64.add_zero k]
      exact Relation.ReflTransGen.refl
  | succ n ih =>
      rw [UInt64.ofNat_add, ← UInt64.add_assoc]
      exact Relation.ReflTransGen.trans ih (unread_toggled _)

/-- The marks since a link was last kept, latest first. -/
def sinceKept (marks : List Mark) : List Mark := marks.reverse.takeWhile (· ≠ .kept)

theorem Answered.sinceKept {marks : List Mark} {sent : Instant} (answered : Answered marks sent) :
    ∃ probe, .answered probe ∈ sinceKept marks := by
  obtain ⟨i, later, ⟨⟨earlier, rfl⟩, calm⟩, told⟩ := answered
  refine ⟨i, ?_⟩
  have fresh : ∀ m ∈ later.reverse, decide (m ≠ .kept) = true := fun m member =>
    decide_eq_true (calm m (List.mem_reverse.mp member)).2.2
  rw [Failover.sinceKept, List.reverse_append, List.reverse_cons, List.append_assoc,
    List.takeWhile_append_of_pos fresh]
  exact List.mem_append_left _ (List.mem_reverse.mpr told)

/-- The number of the second search is the one wanted again: its standby is kept,
probed in an outage, and given the answer of the first. -/
def cameRound : List (FailoverEvent Nat) :=
  [.read (seconds 60), .lap (.silent (seconds 60)) (seconds 70) .idle true, .read (seconds 71)]

theorem failover_rests_on_an_old_answer :
    ∃ c, Reaches Failover.step free (start 0) c ∧ c.standby.link = some 8 ∧
      (c.standby.step (.silent (seconds 60)) (seconds 72) .idle).2 = .failOver ∧
      ¬ ∃ sent, Answered c.marks sent := by
  have moved := unread_moves 3 (2 ^ 64 - 1)
  rw [show (3 : UInt64) + UInt64.ofNat (2 ^ 64 - 1) = 2 by decide +kernel] at moved
  have outcome : (runFrom Failover.step (unreadAt 2) cameRound).map (fun c =>
      (c.standby.link, (c.standby.step (.silent (seconds 60)) (seconds 72) .idle).2,
        sinceKept c.marks)) =
      some (some 8, .failOver, [.probe 1 (seconds 70)]) := by decide +kernel
  obtain ⟨c, run, shown⟩ := Option.map_eq_some_iff.mp outcome
  simp only [Prod.mk.injEq] at shown
  obtain ⟨link, due, since⟩ := shown
  refine ⟨c, ?_, link, due, ?_⟩
  · exact Relation.ReflTransGen.trans
      (Relation.ReflTransGen.trans (reaches_of_runFrom _ (admits_free _ _ _) unread_eq) moved)
      (reaches_of_runFrom _ (admits_free _ _ _) run)
  · rintro ⟨sent, answered⟩
    obtain ⟨probe, told⟩ := answered.sinceKept
    rw [since] at told
    cases List.mem_singleton.mp told

end Failover
end Oxutrm.Client
