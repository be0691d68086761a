import Oxutrm.Client.Standby
import Oxutrm.Lib.Transition
import Oxutrm.Net.Candidates

/-!
Following this machine's route to the host: in an outage the client asks once a second from
which address the kernel would send, and binds a new socket when that address has moved.
-/
namespace Oxutrm.Client
open Transition
open Oxutrm.Net (IpAddr unmapIp isUnspecified)

def routeProbeEvery : Nat := seconds 1

/-- The source address that was true when the link last worked. -/
structure RouteWatch where
  baseline : Option IpAddr
  deriving DecidableEq

namespace RouteWatch

def new (baseline : Option IpAddr) : RouteWatch :=
  { baseline := (baseline.map unmapIp).filter fun ip => !isUnspecified ip }

/-- Without a baseline nothing has moved. -/
def moved (w : RouteWatch) (seen : IpAddr) : Bool :=
  !isUnspecified (unmapIp seen) && w.baseline.any (· ≠ unmapIp seen)

def settle (w : RouteWatch) (seen : IpAddr) : RouteWatch :=
  if isUnspecified (unmapIp seen) then w else { baseline := some (unmapIp seen) }

end RouteWatch

/-- What a probe says, if it says an address at all. -/
def addressSeen (seen : Option IpAddr) : Option IpAddr := (RouteWatch.new seen).baseline

/-- `probes` are the times of the probes of this outage, and `readings` the addresses this link
was seen to be sent from, the newest first; `rebinds` counts the sockets it was moved to. -/
structure Roaming where
  route : RouteWatch
  probedAt : Option Instant := none
  probes : List Instant := []
  readings : List IpAddr := []
  rebinds : Nat := 0

inductive RoamingEvent where
  /-- A lap: what the kernel answers, and whether a new socket can be had and taken. -/
  | lap (phase : Phase) (now : Instant) (seen : Option IpAddr) (rebound : Bool)
  /-- Another link, and the address the kernel gives for it. -/
  | swapped (seed : Option IpAddr)

namespace Roaming

def start (seed : Option IpAddr) : Roaming :=
  { route := RouteWatch.new seed, readings := (addressSeen seed).toList }

/-- Whether the socket was swapped comes with it. -/
def followRoute (s : Roaming) (phase : Phase) (now : Instant) (seen : Option IpAddr) (rebound : Bool) :
    Roaming × Bool :=
  if phase.isOutage = false then ({ s with probedAt := none, probes := [] }, false)
  else if s.probedAt.any fun last => decide (now - last < routeProbeEvery) then (s, false)
  else
    let s := { s with
      probedAt := some now
      probes := now :: s.probes
      readings := (addressSeen seen).toList ++ s.readings }
    match seen with
    | none => (s, false)
    | some seen =>
        if s.route.moved seen = false then ({ s with route := s.route.settle seen }, false)
        else if rebound = false then (s, false)
        else ({ s with route := s.route.settle seen, rebinds := s.rebinds + 1 }, true)

def step (s : Roaming) : RoamingEvent → Option Roaming
  | .lap phase now seen rebound => some (s.followRoute phase now seen rebound).1
  | .swapped seed => some (start seed)

end Roaming

/-- How often a value differs from the one before it. -/
def changes {α : Type} [DecidableEq α] : List α → Nat
  | a :: b :: rest => (if a = b then 0 else 1) + changes (b :: rest)
  | _ => 0

theorem changes_le_cons {α : Type} [DecidableEq α] (a : α) (l : List α) : changes l ≤ changes (a :: l) := by
  cases l with
  | nil => exact Nat.le_refl _
  | cons b rest => exact Nat.le_add_left _ _

theorem changes_other {α : Type} [DecidableEq α] {a b : α} {l : List α} (head : l.head? = some b) (other : a ≠ b) :
    changes (a :: l) = changes l + 1 := by
  cases l with
  | nil => cases head
  | cons c rest =>
      obtain rfl := Option.some.inj head
      change (if a = c then 0 else 1) + changes (c :: rest) = _
      rw [if_neg other, Nat.add_comm]

/-- The rebinds so far are paid for by changes of address, and there is one change to spare
while the socket is not bound to the address seen last. -/
structure Roaming.Paid (s : Roaming) : Prop where
  known : ∀ a ∈ s.readings.head?, s.route.baseline ≠ none
  unseen : s.route.baseline = none → s.rebinds = 0
  named : ∀ b, s.route.baseline = some b → s.readings ≠ []
  paid : s.rebinds ≤ changes s.readings
  spare : ∀ b a, s.route.baseline = some b → s.readings.head? = some a → a ≠ b →
    s.rebinds + 1 ≤ changes s.readings
  paced : s.probes.Pairwise fun later earlier => earlier + routeProbeEvery ≤ later
  last : s.probedAt = s.probes.head?

namespace Roaming
variable {s t : Roaming} {phase : Phase} {now : Instant} {seen : Option IpAddr} {rebound : Bool}

theorem Paid.start (seed : Option IpAddr) : Paid (start seed) where
  known a head none_ := by
    have same : (addressSeen seed) = none := none_
    unfold Roaming.start at head
    rw [same] at head
    cases head
  unseen _ := rfl
  named b known empty := by
    have same : (addressSeen seed) = some b := known
    unfold Roaming.start at empty
    rw [same] at empty
    cases empty
  paid := Nat.zero_le _
  spare b a known head other := by
    have same : (addressSeen seed) = some b := known
    unfold Roaming.start at head
    rw [same] at head
    exact absurd (Option.some.inj head).symm other
  paced := List.Pairwise.nil
  last := rfl

theorem addressSeen_some (a : IpAddr) :
    addressSeen (some a) = if isUnspecified (unmapIp a) = true then none else some (unmapIp a) := by
  unfold addressSeen RouteWatch.new
  rw [Option.map_some]
  cases unspecified : isUnspecified (unmapIp a) with
  | true => simp [Option.filter, unspecified]
  | false => simp [Option.filter, unspecified]

theorem moved_cases (w : RouteWatch) (a : IpAddr) :
    (w.moved a = false ∧ addressSeen (some a) = none ∧ w.settle a = w) ∨
    (addressSeen (some a) = some (unmapIp a) ∧ w.settle a = ⟨some (unmapIp a)⟩ ∧
      (w.moved a = false ∧ (w.baseline = none ∨ w.baseline = some (unmapIp a)) ∨
        w.moved a = true ∧ ∃ b, w.baseline = some b ∧ b ≠ unmapIp a)) := by
  rw [addressSeen_some]
  unfold RouteWatch.moved RouteWatch.settle
  cases unspecified : isUnspecified (unmapIp a) with
  | true => exact .inl ⟨rfl, rfl, rfl⟩
  | false =>
      refine .inr ⟨rfl, rfl, ?_⟩
      cases known : w.baseline with
      | none => exact .inl ⟨rfl, .inl rfl⟩
      | some b =>
          by_cases same : b = unmapIp a
          · subst same
            exact .inl ⟨by simp, .inr rfl⟩
          · exact .inr ⟨by simp [same], b, rfl, same⟩

/-- An address other than the baseline is one change more than there were rebinds. -/
theorem Paid.change (paid : Paid s) {b a : IpAddr} (known : s.route.baseline = some b) (other : b ≠ a) :
    s.rebinds + 1 ≤ changes (a :: s.readings) := by
  cases head : s.readings.head? with
  | none => exact absurd (List.head?_eq_none_iff.mp head) (paid.named b known)
  | some last =>
      by_cases same : last = b
      · subst same
        rw [changes_other head (Ne.symm other)]
        exact Nat.succ_le_succ paid.paid
      · exact Nat.le_trans (paid.spare b last known head same) (changes_le_cons a s.readings)

theorem Paid.pace (paid : Paid s)
    (waited : s.probedAt.any (fun last => decide (now - last < routeProbeEvery)) = false) :
    (now :: s.probes).Pairwise fun later earlier => earlier + routeProbeEvery ≤ later := by
  refine List.pairwise_cons.mpr ⟨?_, paid.paced⟩
  have last := paid.last
  have order := paid.paced
  cases probes : s.probes with
  | nil => exact fun _ member => by cases member
  | cons latest before =>
      rw [probes] at last order
      rw [last] at waited
      have gap : routeProbeEvery ≤ now - latest := by
        simpa using waited
      have later : latest + routeProbeEvery ≤ now := by
        have waits : 0 < routeProbeEvery := by decide
        have after : latest ≤ now := Nat.le_of_lt (Nat.lt_of_sub_pos (Nat.lt_of_lt_of_le waits gap))
        rw [Nat.add_comm]
        exact Nat.add_le_of_le_sub after gap
      intro earlier member
      rcases List.mem_cons.mp member with rfl | older
      · exact later
      · have first : earlier + routeProbeEvery ≤ latest := (List.pairwise_cons.mp order).1 earlier older
        exact Nat.le_trans first (Nat.le_trans (Nat.le_add_right latest routeProbeEvery) later)

theorem Paid.probed (paid : Paid s) (seen : Option IpAddr) (rebound : Bool)
    (waited : s.probedAt.any (fun last => decide (now - last < routeProbeEvery)) = false)
    (outage : phase.isOutage = true) : Paid (s.followRoute phase now seen rebound).1 := by
  have paced := paid.pace waited
  unfold followRoute
  rw [outage, if_neg Bool.noConfusion, waited, if_neg Bool.noConfusion]
  cases seen with
  | none => exact { paid with paced := paced, last := rfl }
  | some a =>
      dsimp only
      rcases moved_cases s.route a with ⟨still, unread, settled⟩ | ⟨read, settled, ⟨still, base⟩ | ⟨moved, b, base, other⟩⟩
      · rw [still, if_pos rfl, unread, settled]
        exact { paid with paced := paced, last := rfl }
      · rw [still, if_pos rfl, read, settled]
        exact
          { known := fun _ _ => Option.some_ne_none _
            unseen := fun none_ => absurd none_ (Option.some_ne_none _)
            named := fun _ _ => List.cons_ne_nil _ _
            paid := Nat.le_trans paid.paid (changes_le_cons _ _)
            spare := fun c d same head other =>
              absurd ((Option.some.inj head).symm.trans (Option.some.inj same)) other
            paced := paced
            last := rfl }
      · have spare := paid.change base other
        rw [moved, if_neg Bool.noConfusion, read]
        cases rebound with
        | false =>
            exact
              { known := fun _ _ none_ => absurd (none_.symm.trans base) (Option.some_ne_none b).symm
                unseen := fun none_ => absurd (none_.symm.trans base) (Option.some_ne_none b).symm
                named := fun _ _ => List.cons_ne_nil _ _
                paid := Nat.le_trans (Nat.le_succ _) spare
                spare := fun _ _ _ _ _ => spare
                paced := paced
                last := rfl }
        | true =>
            rw [settled]
            exact
              { known := fun _ _ => Option.some_ne_none _
                unseen := fun none_ => absurd none_ (Option.some_ne_none _)
                named := fun _ _ => List.cons_ne_nil _ _
                paid := spare
                spare := fun c d same head other =>
                  absurd ((Option.some.inj head).symm.trans (Option.some.inj same)) other
                paced := paced
                last := rfl }

theorem Paid.step (paid : Paid s) {e : RoamingEvent} (taken : s.step e = some t) : Paid t := by
  cases e with
  | swapped seed =>
      obtain rfl := Option.some.inj taken
      exact Paid.start seed
  | lap phase now seen rebound =>
      obtain rfl := Option.some.inj taken
      cases outage : phase.isOutage with
      | false =>
          unfold followRoute
          rw [outage, if_pos rfl]
          exact { paid with paced := List.Pairwise.nil, last := rfl }
      | true =>
          cases waited : s.probedAt.any fun last => decide (now - last < routeProbeEvery) with
          | true =>
              unfold followRoute
              rw [outage, if_neg Bool.noConfusion, waited, if_pos rfl]
              exact paid
          | false => exact paid.probed seen rebound waited outage

/-- However the kernel answers and whatever fails, a link is moved to a new socket no more often
than the address it is sent from was seen to change, and only in an outage, in which two
probes are never less than a second apart. -/
theorem rebinds_follow_the_route {seed : Option IpAddr} (run : Reaches step free (start seed) s) :
    s.rebinds ≤ changes s.readings ∧
      (s.probes.Pairwise fun later earlier => earlier + routeProbeEvery ≤ later) ∧
      ∀ phase now seen rebound, (s.followRoute phase now seen rebound).2 = true →
        phase.isOutage = true ∧ ∃ a b, addressSeen seen = some a ∧ s.route.baseline = some b ∧ a ≠ b ∧
          (s.followRoute phase now seen rebound).1.route.baseline = some a := by
  have paid : Paid s := run.invariant (fun _ _ _ paid _ taken => paid.step taken) (.start seed)
  refine ⟨paid.paid, paid.paced, fun phase now seen rebound swapped => ?_⟩
  unfold followRoute at swapped ⊢
  cases outage : phase.isOutage with
  | false =>
      rw [outage, if_pos rfl] at swapped
      cases swapped
  | true =>
      rw [outage, if_neg Bool.noConfusion] at swapped
      rw [if_neg Bool.noConfusion]
      cases waited : s.probedAt.any fun last => decide (now - last < routeProbeEvery) with
      | true =>
          rw [waited, if_pos rfl] at swapped
          cases swapped
      | false =>
          rw [waited, if_neg Bool.noConfusion] at swapped
          rw [if_neg Bool.noConfusion]
          cases seen with
          | none => cases swapped
          | some a =>
              dsimp only at swapped ⊢
              rcases moved_cases s.route a with ⟨still, -⟩ | ⟨read, settled, ⟨still, -⟩ | ⟨moved, b, base, other⟩⟩
              · rw [still, if_pos rfl] at swapped
                cases swapped
              · rw [still, if_pos rfl] at swapped
                cases swapped
              · rw [moved, if_neg Bool.noConfusion] at swapped
                rw [moved, if_neg Bool.noConfusion]
                cases rebound with
                | false => cases swapped
                | true => exact ⟨rfl, unmapIp a, b, read, base, Ne.symm other, by rw [settled]; rfl⟩

/-- `10.0.0.1`, and the same address as a dual-stack socket says it. -/
def home : IpAddr := .v4 0x0a000001

def homeMapped : IpAddr := .v6 0xffff0a000001

def away : IpAddr := .v4 0xc0a80001

/-- The machine moves to another network, and a new socket can be had at the second try. -/
def journey : List RoamingEvent :=
  [.lap (.silent 0) (seconds 2) (some homeMapped) true, .lap (.silent 0) (seconds 3) none true,
    .lap (.silent 0) (seconds 4) (some away) false, .lap (.silent 0) (seconds 5) (some away) true,
    .lap (.silent 0) (seconds 6) (some away) true]

theorem rebinds_follow_the_route_x :
    ∃ s : Roaming, s.rebinds = 1 ∧ s.probes.length = 5 ∧ s.rebinds ≤ changes s.readings := by
  have moved : (runFrom step (start (some home)) journey).map (fun s => (s.rebinds, s.probes.length)) =
      some (1, 5) := by decide +kernel
  obtain ⟨s, run, counts⟩ := Option.map_eq_some_iff.mp moved
  obtain ⟨rebinds, probes⟩ := Prod.mk.inj counts
  exact ⟨s, rebinds, probes,
    (rebinds_follow_the_route (reaches_of_runFrom journey (admits_free _ _ _) run)).1⟩

end Roaming

end Oxutrm.Client
