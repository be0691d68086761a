import Oxutrm.Net.Address

/-!
The ladder's policy: which rungs are worth trying, and which are hopeless before
anything is attempted. A plan is a pure function of both ends' facts.
-/
namespace Oxutrm.Net

/-- What comparing the mapped port from two STUN servers revealed. -/
inductive NatType where
  | none
  | endpointIndependent
  | addressDependent
  | symmetric
  | unknown
  deriving DecidableEq

structure FamilyNat where
  v4 : NatType
  v6 : NatType
  deriving DecidableEq

def FamilyNat.get (nat : FamilyNat) : Family → NatType
  | .v4 => nat.v4
  | .v6 => nat.v6

/-- What one end of the connection knows about itself. -/
structure EndFacts where
  nat : FamilyNat
  v4 : Bool
  v6 : Bool
  srflxV4 : Bool
  srflxV6 : Bool
  deriving DecidableEq

namespace EndFacts

def fromCandidates (nat : FamilyNat) (candidates : List Candidate) : EndFacts :=
  let has (f : Family) : Bool := candidates.any fun c => Family.of c.addr = f
  let srflx (f : Family) : Bool :=
    candidates.any fun c => c.kind = .serverReflexive && Family.of c.addr = f
  { nat, v4 := has .v4, v6 := has .v6, srflxV4 := srflx .v4, srflxV6 := srflx .v6 }

def has (e : EndFacts) : Family → Bool
  | .v4 => e.v4
  | .v6 => e.v6

def hasSrflx (e : EndFacts) : Family → Bool
  | .v4 => e.srflxV4
  | .v6 => e.srflxV6

end EndFacts

namespace Rung

/-- The rungs of the race: the candidate classes one agent checks together. -/
def races : Rung → Bool
  | direct _ | portMapped _ | punched _ => true
  | _ => false

def blasts : Rung → Bool
  | birthday _ => true
  | _ => false

end Rung

structure LadderPlan where
  raced : List Rung
  sequential : List Rung
  skipped : List (Rung × String)
  deriving DecidableEq

namespace LadderPlan

/-- Why a family cannot carry any method at all. -/
def missing (ours theirs : EndFacts) (family : Family) : Option String :=
  let label := family.label
  if ours.has family = false then some s!"this end has no {label} address"
  else if theirs.has family = false then some s!"the peer has no {label} address"
  else none

/-- Why ordinary punching cannot work behind our NAT. -/
def noPunch (ours : EndFacts) (family : Family) : Option String :=
  let label := family.label
  match ours.nat.get family with
  | .symmetric =>
      some (s!"the {label} NAT is symmetric, so its external port differs per destination and " ++
        "ordinary punching is not expected to reach it")
  | .addressDependent =>
      some (s!"the {label} NAT is address-dependent, so its external port differs per " ++
        "destination and ordinary punching is not expected to reach it")
  | _ => none

def mightNeedBlast : NatType → Bool
  | .symmetric | .addressDependent | .unknown => true
  | _ => false

/-- Why a blast is not worth its noise, or not possible. -/
def noBlast (ours theirs : EndFacts) (family : Family) : Option String :=
  let label := family.label
  if !mightNeedBlast (ours.nat.get family) && !mightNeedBlast (theirs.nat.get family) then
    some (s!"neither end's {label} NAT changes its port per destination, so " ++
      "ordinary punching covers it")
  else if ours.hasSrflx family = false then
    some (s!"this end offered no {label} server-reflexive candidate, so the peer has no " ++
      "observed external port to guess around, and a blast from one end alone is aimed at nobody")
  else if theirs.hasSrflx family = false then
    some (s!"the peer offered no {label} server-reflexive candidate, so there is no observed " ++
      "external port to guess around")
  else none

def familySkips (ours theirs : EndFacts) (family : Family) : List (Rung × String) :=
  match missing ours theirs family with
  | some why => (Rung.all.filter fun r => r.family = some family).map fun r => (r, why)
  | none =>
      ((noPunch ours family).toList.map fun why => (Rung.punched family, why)) ++
        (noBlast ours theirs family).toList.map fun why => (Rung.birthday family, why)

def forEnds (ours theirs : EndFacts) : LadderPlan :=
  let skipped := Family.both.flatMap (familySkips ours theirs)
  let isSkipped (r : Rung) : Bool := skipped.any fun s => s.1 = r
  { raced := (Rung.all.filter Rung.races).filter fun r => !isSkipped r
    sequential := ((Rung.all.filter Rung.blasts).filter fun r => !isSkipped r) ++ [.sshTunnel]
    skipped }

/-- The plan names the rung among those it decides against. -/
def Skips (plan : LadderPlan) (r : Rung) : Prop := ∃ why, (r, why) ∈ plan.skipped

section Facts
variable {ours theirs : EndFacts} {r : Rung}

theorem skips_iff :
    (forEnds ours theirs).Skips r ↔
      ((forEnds ours theirs).skipped.any fun s => s.1 = r) = true := by
  simp only [Skips, List.any_eq_true, decide_eq_true_eq]
  constructor
  · rintro ⟨why, there⟩
    exact ⟨(r, why), there, rfl⟩
  · rintro ⟨⟨_, why⟩, there, rfl⟩
    exact ⟨why, there⟩

theorem mem_raced :
    r ∈ (forEnds ours theirs).raced ↔ r.races = true ∧ ¬ (forEnds ours theirs).Skips r := by
  rw [skips_iff]
  simp only [forEnds, List.mem_filter, Rung.mem_all, true_and, Bool.not_eq_true', Bool.not_eq_true]

theorem mem_sequential :
    r ∈ (forEnds ours theirs).sequential ↔
      (r.blasts = true ∧ ¬ (forEnds ours theirs).Skips r) ∨ r = .sshTunnel := by
  rw [skips_iff]
  simp only [forEnds, List.mem_append, List.mem_filter, Rung.mem_all, true_and, Bool.not_eq_true',
    Bool.not_eq_true, List.mem_singleton]

end Facts
end LadderPlan
end Oxutrm.Net
