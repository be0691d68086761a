import Mathlib.Algebra.Group.Nat.Defs
import Oxutrm.Client.Standby
import Oxutrm.Lib.Transition

/-!
Link quality: a minute of measurements of the primary link, one a second, and the numbers the
popup derives from them. A link that replaces another starts its counters at zero. The rates,
which are floating point, are left out.
-/
namespace Oxutrm.Client
open Transition

def qualityWindow : Nat := 60

def sampleEvery : Nat := seconds 1

/-- What a connection reports. Its counters start at zero with it. -/
structure LinkReading where
  rtt : Nat
  sent : UInt64
  lost : UInt64
  mtu : UInt16
  blackHoles : UInt64
  deriving DecidableEq, Repr

structure Sample where
  at_ : Instant
  reading : LinkReading
  /-- Which link of the session it came from. -/
  segment : UInt32
  outage : Bool
  deriving DecidableEq, Repr

structure RttStats where
  min : Nat
  max : Nat
  deriving DecidableEq, Repr

structure Loss where
  windowSent : UInt64
  windowLost : UInt64
  deriving DecidableEq, Repr

def saturatingSub64 (a b : UInt64) : UInt64 := UInt64.ofNat (a.toNat - b.toNat)

structure Quality where
  ring : List Sample
  segment : UInt32
  segmentSince : Instant
  deriving DecidableEq, Repr

namespace Quality

def new (now : Instant) : Quality := { ring := [], segment := 1, segmentSince := now }

def due (q : Quality) (now : Instant) : Bool :=
  q.ring.getLast?.all fun s => decide (sampleEvery ≤ now - s.at_)

/-- What is beyond the window leaves at the front. -/
def push (q : Quality) (at_ : Instant) (reading : LinkReading) (outage : Bool) : Quality :=
  let ring := q.ring ++ [{ at_ := at_, reading := reading, segment := q.segment, outage := outage }]
  { q with ring := ring.drop (ring.length - qualityWindow) }

/-- Another connection carries the session. -/
def newSegment (q : Quality) (now : Instant) : Quality :=
  { q with segment := UInt32.ofNat (min (q.segment.toNat + 1) (2 ^ 32 - 1)), segmentSince := now }

def current (q : Quality) : List Sample := q.ring.filter (·.segment = q.segment)

def rttNow (q : Quality) : Option Nat :=
  (q.ring.getLast?.filter fun s => decide (s.segment = q.segment) && !s.outage).map (·.reading.rtt)

def mtuNow (q : Quality) : Option UInt16 := (q.current.getLast?.map (·.reading.mtu)).filter (0 < ·)

/-- The MTU the link fell back to, if its newest sample saw a black hole. -/
def mtuReduced (q : Quality) : Option UInt16 :=
  match q.current.reverse with
  | now :: before :: _ =>
      if before.reading.blackHoles < now.reading.blackHoles then some now.reading.mtu else none
  | _ => none

def rttStats (q : Quality) : Option RttStats :=
  let rtts := (q.current.filter fun s => !s.outage).map (·.reading.rtt)
  match rtts.min?, rtts.max? with
  | some least, some most => some { min := least, max := most }
  | _, _ => none

def loss (q : Quality) : Option Loss :=
  match q.current.head?, q.current.getLast? with
  | some first, some last =>
      some
        { windowSent := saturatingSub64 last.reading.sent first.reading.sent
          windowLost := saturatingSub64 last.reading.lost first.reading.lost }
  | _, _ => none

end Quality

/-- What the session makes of its samples: the MTUs it notes. `taken` are the samples of the
link it is on, the oldest first, and `links` counts the links before it. -/
structure Measuring where
  quality : Quality
  notes : List UInt16 := []
  taken : List Sample := []
  links : Nat := 0

inductive MeasuringEvent where
  /-- A lap, and what the connection reports. -/
  | lap (phase : Phase) (now : Instant) (reading : LinkReading)
  | swapped (now : Instant)

namespace Measuring

def takeSample (s : Measuring) (phase : Phase) (now : Instant) (reading : LinkReading) : Measuring :=
  let quality := s.quality.push now reading phase.isOutage
  { s with
    quality := quality
    notes := s.notes ++ quality.mtuReduced.toList
    taken := s.taken ++
      [{ at_ := now, reading := reading, segment := s.quality.segment, outage := phase.isOutage }] }

def sampleQuality (s : Measuring) (phase : Phase) (now : Instant) (reading : LinkReading) : Measuring :=
  if s.quality.due now = false then s else s.takeSample phase now reading

def step (s : Measuring) : MeasuringEvent → Option Measuring
  | .lap phase now reading => some (s.sampleQuality phase now reading)
  | .swapped now =>
      some { quality := s.quality.newSegment now, notes := [], taken := [], links := s.links + 1 }

/-- The counters of a connection never go back. -/
def Counts (s : Measuring) : MeasuringEvent → Prop
  | .lap _ _ reading => ∀ last ∈ s.taken.getLast?, last.reading.sent ≤ reading.sent ∧
      last.reading.lost ≤ reading.lost ∧ last.reading.blackHoles ≤ reading.blackHoles
  | .swapped _ => True

end Measuring

/-- The last of a list, as many as the window holds. -/
def windowed {α : Type} (l : List α) : List α := l.drop (l.length - qualityWindow)

theorem windowed_push {α : Type} (l : List α) (a : α) : windowed (windowed l ++ [a]) = windowed (l ++ [a]) := by
  unfold windowed
  have front : l.drop (l.length - qualityWindow) ++ [a] = (l ++ [a]).drop (l.length - qualityWindow) := by
    rw [List.drop_append_of_le_length (Nat.sub_le _ _)]
  rw [front, List.drop_drop, List.length_drop, List.length_append, List.length_singleton]
  congr 1
  omega

theorem filter_windowed {α : Type} {p : α → Bool} {older own : List α} (others : ∀ x ∈ older, p x = false)
    (mine : ∀ x ∈ own, p x = true) : (windowed (older ++ own)).filter p = windowed own := by
  unfold windowed
  rw [List.drop_append, List.filter_append, List.length_append]
  have none_ : (older.drop (older.length + own.length - qualityWindow)).filter p = [] :=
    List.filter_eq_nil_iff.mpr fun x member => by rw [others x (List.mem_of_mem_drop member)]; decide
  have all : (own.drop (older.length + own.length - qualityWindow - older.length)).filter p =
      own.drop (older.length + own.length - qualityWindow - older.length) :=
    List.filter_eq_self.mpr fun x member => mine x (List.mem_of_mem_drop member)
  rw [none_, all, List.nil_append]
  congr 1
  omega

theorem windowed_reverse {α : Type} (l : List α) : (windowed l).reverse = l.reverse.take qualityWindow := by
  unfold windowed
  rw [List.reverse_drop]
  rcases Nat.le_total l.length qualityWindow with short | long
  · rw [Nat.sub_eq_zero_of_le short, Nat.sub_zero, List.take_of_length_le (Nat.le_of_eq List.length_reverse),
      List.take_of_length_le (by rw [List.length_reverse]; exact short)]
  · congr 1
    omega

/-- Two readings of one connection, the second no earlier than the first. -/
structure LinkReading.Le (a b : LinkReading) : Prop where
  sent : a.sent ≤ b.sent
  lost : a.lost ≤ b.lost
  blackHoles : a.blackHoles ≤ b.blackHoles

theorem LinkReading.Le.trans {a b c : LinkReading} (first : a.Le b) (second : b.Le c) : a.Le c :=
  ⟨UInt64.le_trans first.sent second.sent, UInt64.le_trans first.lost second.lost,
    UInt64.le_trans first.blackHoles second.blackHoles⟩

/-- The ring is the end of everything that was ever taken, and what was taken on this link is
the end of that. -/
structure Measuring.Kept (s : Measuring) : Prop where
  ring : ∃ older, s.quality.ring = windowed (older ++ s.taken) ∧
    ∀ x ∈ older, x.segment.toNat ≤ s.links
  own : ∀ x ∈ s.taken, x.segment = s.quality.segment
  segment : s.quality.segment.toNat = min (s.links + 1) (2 ^ 32 - 1)
  rising : s.taken.Pairwise fun a b => a.reading.Le b.reading
  unnoted : s.taken = [] → s.notes = []
  noted : s.links + 1 < 2 ^ 32 → ∀ first ∈ s.taken.head?, ∀ last ∈ s.taken.getLast?,
    first.reading.blackHoles.toNat + s.notes.length ≤ last.reading.blackHoles.toNat

namespace Measuring
variable {s t : Measuring} {phase : Phase} {now : Instant} {reading : LinkReading}

theorem Kept.start (now : Instant) : Kept { quality := Quality.new now } where
  ring := ⟨[], rfl, fun _ member => by cases member⟩
  own _ member := by cases member
  segment := rfl
  rising := List.Pairwise.nil
  unnoted _ := rfl
  noted _ _ head := by cases head

theorem current_eq {q : Quality} {older own : List Sample} {links : Nat} (few : links + 1 < 2 ^ 32)
    (ring : q.ring = windowed (older ++ own)) (before : ∀ x ∈ older, x.segment.toNat ≤ links)
    (mine : ∀ x ∈ own, x.segment = q.segment) (segment : q.segment.toNat = min (links + 1) (2 ^ 32 - 1)) :
    q.current = windowed own := by
  unfold Quality.current
  rw [ring]
  refine filter_windowed (fun x member => ?_) fun x member => decide_eq_true (mine x member)
  refine decide_eq_false fun same => ?_
  have early := before x member
  rw [same, segment] at early
  omega

theorem Kept.current (kept : Kept s) (few : s.links + 1 < 2 ^ 32) : s.quality.current = windowed s.taken := by
  obtain ⟨older, ring, before⟩ := kept.ring
  exact current_eq few ring before kept.own kept.segment

theorem mtuReduced_first {q : Quality} {x : Sample} (current : q.current = windowed [x]) :
    q.mtuReduced = none := by
  unfold Quality.mtuReduced
  rw [current]
  rfl

theorem mtuReduced_next {q : Quality} {rest : List Sample} {last x : Sample}
    (current : q.current = windowed (rest ++ [last] ++ [x])) :
    q.mtuReduced =
      if last.reading.blackHoles < x.reading.blackHoles then some x.reading.mtu else none := by
  unfold Quality.mtuReduced
  rw [current, windowed_reverse, List.reverse_append, List.reverse_append]
  rfl

/-- A sample: what was taken grows, and the window moves on. -/
theorem Kept.takeSample (kept : Kept s) (rises : ∀ last ∈ s.taken.getLast?, last.reading.Le reading) :
    Kept (s.takeSample phase now reading) := by
  obtain ⟨older, ring, before⟩ := kept.ring
  have ring' : (s.takeSample phase now reading).quality.ring =
      windowed (older ++ (s.takeSample phase now reading).taken) := by
    change windowed (s.quality.ring ++ [_]) = windowed (older ++ (s.taken ++ [_]))
    rw [ring, windowed_push, List.append_assoc]
  have own : ∀ x ∈ (s.takeSample phase now reading).taken,
      x.segment = (s.takeSample phase now reading).quality.segment := by
    intro x member
    rcases List.mem_append.mp member with earlier | latest
    · exact kept.own x earlier
    · rw [List.mem_singleton.mp latest]
      rfl
  refine ⟨⟨older, ring', before⟩, own, kept.segment, ?_, fun none_ => ?_, fun few => ?_⟩
  · refine List.pairwise_append.mpr ⟨kept.rising, List.pairwise_singleton _ _, fun a member b latest => ?_⟩
    rw [List.mem_singleton.mp latest]
    have rising := kept.rising
    rcases List.eq_nil_or_concat' s.taken with none_ | ⟨rest, last, some_⟩
    · rw [none_] at member
      cases member
    · rw [some_] at member rising rises
      have onward := rises last List.getLast?_concat
      rcases List.mem_append.mp member with earlier | same
      · exact ((List.pairwise_append.mp rising).2.2 a earlier last List.mem_cons_self).trans onward
      · rw [List.mem_singleton.mp same]
        exact onward
  · exact absurd none_ (List.append_ne_nil_of_right_ne_nil _ (List.cons_ne_nil _ _))
  · intro first head last latest
    have current := current_eq few ring' before own kept.segment
    change last ∈ (s.taken ++ [_]).getLast? at latest
    rw [List.getLast?_concat] at latest
    obtain rfl := Option.some.inj latest
    change first.reading.blackHoles.toNat +
      (s.notes ++ (s.takeSample phase now reading).quality.mtuReduced.toList).length ≤ reading.blackHoles.toNat
    change first ∈ (s.taken ++ [_]).head? at head
    change _ = windowed (s.taken ++ [_]) at current
    rcases List.eq_nil_or_concat' s.taken with none_ | ⟨rest, before, some_⟩
    · rw [none_] at head current
      obtain rfl := Option.some.inj head
      rw [mtuReduced_first current, kept.unnoted none_]
      exact Nat.le_refl _
    · have onward := (rises before (by rw [some_]; exact List.getLast?_concat)).blackHoles
      have noted := kept.noted few first ?_ before (by rw [some_]; exact List.getLast?_concat)
      · rw [some_] at current
        rw [mtuReduced_next current, List.length_append]
        split
        next more =>
          have later : before.reading.blackHoles.toNat < reading.blackHoles.toNat :=
            UInt64.lt_iff_toNat_lt.mp more
          exact Nat.lt_of_le_of_lt noted later
        next =>
          have later := UInt64.le_iff_toNat_le.mp onward
          exact Nat.le_trans noted later
      · rw [some_] at head ⊢
        rcases rest with _ | ⟨a, rest⟩
        · exact head
        · exact head

theorem toNat_newSegment (q : Quality) (now : Instant) :
    (q.newSegment now).segment.toNat = min (q.segment.toNat + 1) (2 ^ 32 - 1) := by
  have small : min (q.segment.toNat + 1) (2 ^ 32 - 1) < UInt32.size := by
    change _ < 2 ^ 32
    omega
  exact UInt32.toNat_ofNat_of_lt' small

theorem Kept.swapped (kept : Kept s) (now : Instant) :
    Kept { quality := s.quality.newSegment now, links := s.links + 1 } where
  ring := by
    obtain ⟨older, ring, before⟩ := kept.ring
    refine ⟨older ++ s.taken, ring.trans (by rw [List.append_nil]), fun x member => ?_⟩
    rcases List.mem_append.mp member with earlier | mine
    · exact Nat.le_succ_of_le (before x earlier)
    · have segment := kept.segment
      rw [kept.own x mine, segment]
      exact Nat.min_le_left _ _
  own _ member := by cases member
  segment := by
    rw [toNat_newSegment, kept.segment]
    change _ = min (s.links + 1 + 1) _
    omega
  rising := List.Pairwise.nil
  unnoted _ := rfl
  noted _ _ head := by cases head

theorem Kept.step (kept : Kept s) {e : MeasuringEvent} (counts : s.Counts e) (taken : s.step e = some t) :
    Kept t := by
  cases e with
  | swapped now =>
      obtain rfl := Option.some.inj taken
      exact kept.swapped now
  | lap phase now reading =>
      obtain rfl := Option.some.inj taken
      unfold sampleQuality
      split
      · exact kept
      · refine kept.takeSample fun last latest => ?_
        obtain ⟨sent, lost, holes⟩ := counts last latest
        exact ⟨sent, lost, holes⟩

end Measuring

theorem toNat_saturatingSub64 {a b : UInt64} (le : b ≤ a) : b.toNat + (saturatingSub64 a b).toNat = a.toNat := by
  have order := UInt64.le_iff_toNat_le.mp le
  have small := a.toNat_lt
  have fits : a.toNat - b.toNat < UInt64.size := Nat.lt_of_le_of_lt (Nat.sub_le _ _) small
  unfold saturatingSub64
  rw [UInt64.toNat_ofNat_of_lt' fits]
  omega

theorem Quality.rttNow_within {q : Quality} {r : Nat} (newest : q.rttNow = some r) :
    ∃ stats, q.rttStats = some stats ∧ stats.min ≤ r ∧ r ≤ stats.max := by
  obtain ⟨x, latest, rfl⟩ := Option.map_eq_some_iff.mp newest
  obtain ⟨last, good⟩ := Option.filter_eq_some_iff.mp latest
  rw [Bool.and_eq_true] at good
  have member : x.reading.rtt ∈ (q.current.filter fun s => !s.outage).map (·.reading.rtt) :=
    List.mem_map_of_mem (List.mem_filter.mpr
      ⟨List.mem_filter.mpr ⟨List.mem_of_getLast? last, good.1⟩, good.2⟩)
  unfold rttStats
  cases least : ((q.current.filter fun s => !s.outage).map (·.reading.rtt)).min? with
  | none =>
      rw [List.min?_eq_none_iff.mp least] at member
      cases member
  | some a =>
      cases most : ((q.current.filter fun s => !s.outage).map (·.reading.rtt)).max? with
      | none =>
          rw [List.max?_eq_none_iff.mp most] at member
          cases member
      | some b =>
          refine ⟨⟨a, b⟩, ?_, (List.min?_eq_some_iff.mp least).2 _ member,
            (List.max?_eq_some_iff.mp most).2 _ member⟩
          dsimp only
          rw [least, most]

theorem ends_le {own : List Sample} (rising : own.Pairwise fun a b => a.reading.Le b.reading) {first last : Sample}
    (head : own.head? = some first) (latest : own.getLast? = some last) : first.reading.Le last.reading := by
  cases own with
  | nil => cases head
  | cons a rest =>
      obtain rfl := Option.some.inj head
      rcases List.mem_cons.mp (List.mem_of_getLast? latest) with rfl | later
      · exact ⟨UInt64.le_refl _, UInt64.le_refl _, UInt64.le_refl _⟩
      · exact (List.pairwise_cons.mp rising).1 last later

/-- What the popup shows of a link is measured on that link alone: the window is the last
minute of its own samples, what was sent and lost is the difference of two of its readings,
the newest round trip lies within the statistics, and no more drops of its MTU were noted than
it had black holes. -/
theorem figures_are_of_one_link {start : Instant} {s : Measuring}
    (run : Reaches Measuring.step Measuring.Counts { quality := Quality.new start } s)
    (few : s.links + 1 < 2 ^ 32) :
    s.quality.current = windowed s.taken ∧
      (∀ first last, s.quality.current.head? = some first → s.taken.getLast? = some last →
        ∃ l, s.quality.loss = some l ∧
          first.reading.sent.toNat + l.windowSent.toNat = last.reading.sent.toNat ∧
          first.reading.lost.toNat + l.windowLost.toNat = last.reading.lost.toNat) ∧
      (∀ r, s.quality.rttNow = some r → ∃ stats, s.quality.rttStats = some stats ∧
        stats.min ≤ r ∧ r ≤ stats.max) ∧
      ∀ first last, s.taken.head? = some first → s.taken.getLast? = some last →
        first.reading.blackHoles.toNat + s.notes.length ≤ last.reading.blackHoles.toNat := by
  have kept : Measuring.Kept s :=
    run.invariant (fun _ _ _ kept counts taken => kept.step counts taken) (.start start)
  have current := kept.current few
  refine ⟨current, fun first last head latest => ?_, fun r newest => Quality.rttNow_within newest,
    fun first last head latest => kept.noted few first head last latest⟩
  have newest : s.quality.current.getLast? = some last := by
    rw [current] at head ⊢
    unfold windowed at head ⊢
    rw [List.getLast?_drop]
    split
    next short =>
      rw [List.drop_of_length_le short] at head
      cases head
    next => exact latest
  have rising : s.quality.current.Pairwise fun a b => a.reading.Le b.reading := by
    rw [current]
    exact kept.rising.sublist (List.drop_sublist _ _)
  have le := ends_le rising head newest
  refine ⟨⟨saturatingSub64 last.reading.sent first.reading.sent,
    saturatingSub64 last.reading.lost first.reading.lost⟩, ?_,
    toNat_saturatingSub64 le.sent, toNat_saturatingSub64 le.lost⟩
  unfold Quality.loss
  rw [head, newest]

namespace Measured

def idle : LinkReading := { rtt := 30000000, sent := 100, lost := 3, mtu := 1452, blackHoles := 0 }

/-- A black hole on the first link, and a second link. -/
def session : List MeasuringEvent :=
  [.lap .live 0 idle, .lap .live (seconds 1) { idle with sent := 160, lost := 5, mtu := 1200, blackHoles := 1 },
    .swapped (seconds 2), .lap .live (seconds 2) { idle with sent := 10, lost := 0 },
    .lap .live (seconds 3) { idle with sent := 30, lost := 1 }]

instance decidableCounts (s : Measuring) : (e : MeasuringEvent) → Decidable (s.Counts e)
  | .lap _ _ reading => inferInstanceAs (Decidable (∀ last ∈ s.taken.getLast?, last.reading.sent ≤ reading.sent ∧
      last.reading.lost ≤ reading.lost ∧ last.reading.blackHoles ≤ reading.blackHoles))
  | .swapped _ => .isTrue trivial

theorem figures_are_of_one_link_x : ∃ s : Measuring,
    (s.quality.loss.map fun l => (l.windowSent, l.windowLost)) = some (20, 1) ∧
      s.quality.current = windowed s.taken := by
  have ran : (runFrom Measuring.step { quality := Quality.new 0 } session).map
      (fun s => (s.quality.loss.map fun l => (l.windowSent, l.windowLost), s.links)) = some (some (20, 1), 1) := by
    decide +kernel
  have counts : Admits Measuring.step Measuring.Counts { quality := Quality.new 0 } session := by decide +kernel
  obtain ⟨s, run, measured⟩ := Option.map_eq_some_iff.mp ran
  obtain ⟨loss, links⟩ := Prod.mk.inj measured
  exact ⟨s, loss, (figures_are_of_one_link (reaches_of_runFrom session counts run) (by rw [links]; decide)).1⟩

end Measured

end Oxutrm.Client
