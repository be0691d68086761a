import Oxutrm.Proto.Screen

/-!
The host's half of OSC 8: every distinct link on the screen gets the lowest free wire id,
keeps it while some cell holds it, and loses it once none does.
-/
namespace Oxutrm.Host
open Proto

/-- A link of the emulator. Two links to one URI are two if their ids differ. -/
structure Hyperlink where
  id : Text
  uri : Text
  deriving DecidableEq, Hashable, Repr

instance : EquivBEq Hyperlink := inferInstance

instance : LawfulHashable Hyperlink := inferInstance

/-- One verdict for each link of a pass. -/
abbrev Verdicts := Std.ExtHashMap Hyperlink UInt16

structure LinkTable where
  ids : Std.ExtHashMap Hyperlink UInt16
  uris : Std.ExtTreeMap UInt16 (Hyperlink × Text) compare

namespace LinkTable

def empty : LinkTable := ⟨∅, ∅⟩

/-- The first pass: the distinct links and the order in which they were met. -/
structure Survey where
  verdicts : Verdicts
  order : List Hyperlink
  prev : Option Hyperlink

def Survey.note (s : Survey) (h : Hyperlink) : Survey :=
  if s.prev ≠ some h then
    if ¬ s.verdicts.contains h then
      { verdicts := s.verdicts.insert h 0, order := s.order ++ [h], prev := some h }
    else { s with prev := some h }
  else s

def survey (found : List (Option Hyperlink)) : Survey :=
  found.reduceOption.foldl Survey.note ⟨∅, [], none⟩

def retain (t : LinkTable) (verdicts : Verdicts) : LinkTable where
  ids := t.ids.filter fun h _ => verdicts.contains h
  uris := t.uris.filter fun _ entry => verdicts.contains entry.1

/-- The first gap in sorted keys; nothing if the counter ran past its type. -/
def firstGap (id : UInt16) : List UInt16 → Option UInt16
  | [] => some id
  | taken :: keys =>
      if taken ≠ id then some id
      else if id.toNat + 1 < 2 ^ 16 then firstGap (id + 1) keys
      else none

def intern (t : LinkTable) (h : Hyperlink) : Option (UInt16 × LinkTable) :=
  match t.ids[h]? with
  | some id => some (id, t)
  | none =>
      if t.uris.size ≥ maxLinks ∨ checkLinkUri 1 h.uri ≠ .ok () then some (0, t)
      else do
        let id ← firstGap 1 t.uris.keys
        some (id, { ids := t.ids.insert h id, uris := t.uris.insert id (h, h.uri) })

/-- One verdict after the other, in the order of the first pass. -/
def internAll (t : LinkTable) (verdicts : Verdicts) : List Hyperlink → Option (Verdicts × LinkTable)
  | [] => some (verdicts, t)
  | h :: order => do
      let (id, t) ← t.intern h
      internAll t (verdicts.insert h id) order

/-- The second pass. The cell before answers for a run of one link; `verdicts[h]` has no
answer for a link that the first pass did not see. -/
def answers (verdicts : Verdicts) :
    Option (Hyperlink × UInt16) → List (Option Hyperlink) → Option (List UInt16)
  | _, [] => some []
  | prev, none :: found => do
      let ids ← answers verdicts prev found
      some (0 :: ids)
  | prev, some h :: found =>
      match prev.filter fun p => p.1 = h with
      | some (_, id) => do
          let ids ← answers verdicts prev found
          some (id :: ids)
      | none => do
          let id ← verdicts[h]?
          let ids ← answers verdicts (some (h, id)) found
          some (id :: ids)

/-- Nothing is a panic: a missing verdict, or an id past 16 bits. -/
def assign (t : LinkTable) (found : List (Option Hyperlink)) : Option (List UInt16 × LinkTable) := do
  let s := survey found
  let (verdicts, t) ← (t.retain s.verdicts).internAll s.verdicts s.order
  let ids ← answers verdicts none found
  some (ids, t)

def table (t : LinkTable) : Links := t.uris.map fun _ entry => entry.2

/-- One screen after the other. -/
def assignAll (t : LinkTable) : List (List (Option Hyperlink)) → Option LinkTable
  | [] => some t
  | found :: calls => do
      let (_, t) ← t.assign found
      t.assignAll calls

/-- The distinct links of a screen in the order of their first cells. -/
def firsts (found : List (Option Hyperlink)) : List Hyperlink := found.reduceOption.eraseDups

theorem mem_firsts {found : List (Option Hyperlink)} {h : Hyperlink} : h ∈ firsts found ↔ some h ∈ found := by
  rw [firsts, List.mem_eraseDups, List.reduceOption_mem_iff]

theorem eraseDups_snoc (seen : List Hyperlink) (h : Hyperlink) :
    (seen ++ [h]).eraseDups = if h ∈ seen then seen.eraseDups else seen.eraseDups ++ [h] := by
  rw [List.eraseDups_append]
  by_cases known : h ∈ seen
  · simp [List.removeAll, known]
  · simp [List.removeAll, known, List.eraseDups_cons]

/-- What the first pass knows after some of the cells. -/
structure Survey.Saw (s : Survey) (seen : List Hyperlink) : Prop where
  order : s.order = seen.eraseDups
  verdicts : ∀ h, h ∈ s.verdicts ↔ h ∈ seen
  prev : ∀ h, s.prev = some h → h ∈ seen

theorem Survey.Saw.note {s : Survey} {seen : List Hyperlink} (saw : s.Saw seen) (h : Hyperlink) :
    (s.note h).Saw (seen ++ [h]) := by
  have known : s.verdicts.contains h = true ↔ h ∈ seen := by
    rw [Std.ExtHashMap.contains_iff_mem, saw.verdicts]
  unfold Survey.note
  split
  next other =>
      split
      next new =>
          have unseen : h ∉ seen := fun present => new (known.mpr present)
          refine ⟨?_, ?_, ?_⟩
          · rw [eraseDups_snoc, if_neg unseen, saw.order]
          · intro k
            rw [Std.ExtHashMap.mem_insert, saw.verdicts, List.mem_append, List.mem_singleton, beq_iff_eq,
              or_comm, eq_comm]
          · intro k same
            cases same
            exact List.mem_append_right _ (List.mem_singleton_self _)
      next old =>
          have present : h ∈ seen := known.mp (by simpa using old)
          refine ⟨?_, ?_, ?_⟩
          · rw [eraseDups_snoc, if_pos present, saw.order]
          · intro k
            rw [saw.verdicts, List.mem_append, List.mem_singleton]
            exact ⟨.inl, fun either => either.elim id fun same => same ▸ present⟩
          · intro k same
            cases same
            exact List.mem_append_left _ present
  next same =>
      have present : h ∈ seen := saw.prev h (by simpa using same)
      refine ⟨?_, ?_, ?_⟩
      · rw [eraseDups_snoc, if_pos present, saw.order]
      · intro k
        rw [saw.verdicts, List.mem_append, List.mem_singleton]
        exact ⟨.inl, fun either => either.elim id fun same => same ▸ present⟩
      · exact fun k same => List.mem_append_left _ (saw.prev k same)

theorem Survey.Saw.foldl {s : Survey} {seen : List Hyperlink} (saw : s.Saw seen) (more : List Hyperlink) :
    (more.foldl Survey.note s).Saw (seen ++ more) := by
  induction more generalizing s seen with
  | nil => simpa using saw
  | cons h more ih =>
      have step := ih (saw.note h)
      rw [List.append_assoc, List.singleton_append] at step
      exact step

theorem survey_saw (found : List (Option Hyperlink)) : (survey found).Saw found.reduceOption :=
  @Survey.Saw.foldl ⟨∅, [], none⟩ [] ⟨rfl, by simp, nofun⟩ found.reduceOption

theorem survey_order (found : List (Option Hyperlink)) : (survey found).order = firsts found :=
  (survey_saw found).order

theorem survey_contains (found : List (Option Hyperlink)) (h : Hyperlink) :
    (survey found).verdicts.contains h = true ↔ h ∈ firsts found := by
  rw [Std.ExtHashMap.contains_iff_mem, mem_firsts, (survey_saw found).verdicts, List.reduceOption_mem_iff]

/-- Both maps say the same, and nothing in them that the client would refuse. -/
structure Sound (t : LinkTable) : Prop where
  inverse : ∀ (h : Hyperlink) (id : UInt16), t.ids[h]? = some id ↔ t.uris[id]? = some (h, h.uri)
  named : ∀ (id : UInt16) (entry : Hyperlink × Text), t.uris[id]? = some entry → entry.2 = entry.1.uri
  nonzero : ∀ (id : UInt16) (entry : Hyperlink × Text), t.uris[id]? = some entry → id ≠ 0
  checked : ∀ (id : UInt16) (entry : Hyperlink × Text), t.uris[id]? = some entry → checkLinkUri 1 entry.1.uri = .ok ()
  bounded : t.uris.size ≤ maxLinks

theorem sound_empty : empty.Sound := by
  refine ⟨?_, ?_, ?_, ?_, ?_⟩ <;> simp [empty]

theorem Sound.injective {t : LinkTable} (sound : t.Sound) {h k : Hyperlink} {id : UInt16}
    (left : t.ids[h]? = some id) (right : t.ids[k]? = some id) : h = k := by
  rw [sound.inverse] at left right
  rw [left] at right
  cases right
  rfl

theorem Sound.retain {t : LinkTable} (sound : t.Sound) (verdicts : Verdicts) : (t.retain verdicts).Sound := by
  have entries : ∀ (id : UInt16) (entry : Hyperlink × Text), (t.retain verdicts).uris[id]? = some entry →
      t.uris[id]? = some entry ∧ verdicts.contains entry.1 = true := by
    intro id entry present
    rw [LinkTable.retain, Std.ExtTreeMap.getElem?_filter', Option.filter_eq_some_iff] at present
    exact present
  refine ⟨?_, ?_, ?_, ?_, ?_⟩
  · intro h id
    rw [LinkTable.retain, Std.ExtHashMap.getElem?_filter', Std.ExtTreeMap.getElem?_filter',
      Option.filter_eq_some_iff, Option.filter_eq_some_iff, sound.inverse]
  · exact fun id entry present => sound.named id entry (entries id entry present).1
  · exact fun id entry present => sound.nonzero id entry (entries id entry present).1
  · exact fun id entry present => sound.checked id entry (entries id entry present).1
  · exact Nat.le_trans Std.ExtTreeMap.size_filter_le_size sound.bounded

/-- The gap is free, and everything below it is taken. -/
theorem firstGap_spec {id : UInt16} {keys : List UInt16} (sorted : keys.Pairwise (· < ·))
    (above : ∀ k ∈ keys, id ≤ k) (room : id.toNat + keys.length < 2 ^ 16) :
    ∃ gap, firstGap id keys = some gap ∧ gap ∉ keys ∧ id ≤ gap ∧ ∀ k, id ≤ k → k < gap → k ∈ keys := by
  induction keys generalizing id with
  | nil => exact ⟨id, rfl, List.not_mem_nil, UInt16.le_refl id,
      fun k low high => absurd high (UInt16.not_lt.mpr low)⟩
  | cons taken keys ih =>
      rw [List.pairwise_cons] at sorted
      rw [List.length_cons] at room
      rw [firstGap]
      split
      next other =>
          refine ⟨id, rfl, ?_, UInt16.le_refl id, fun k low high => absurd high (UInt16.not_lt.mpr low)⟩
          have low : id < taken := UInt16.lt_of_le_of_ne (above taken List.mem_cons_self) (Ne.symm other)
          intro member
          cases List.mem_cons.mp member with
          | inl same => exact other same.symm
          | inr later => exact absurd (UInt16.lt_trans low (sorted.1 id later)) (UInt16.lt_irrefl id)
      next same =>
          have here : taken = id := by simpa using same
          have step : (id + 1).toNat = id.toNat + 1 := by
            rw [UInt16.toNat_add]
            exact Nat.mod_eq_of_lt (by simpa using (by omega : id.toNat + 1 < 2 ^ 16))
          rw [if_pos (by omega)]
          have next : ∀ k, id < k → id + 1 ≤ k := by
            intro k high
            rw [UInt16.le_iff_toNat_le, step]
            exact UInt16.lt_iff_toNat_lt.mp high
          obtain ⟨gap, found, free, low, full⟩ :=
            @ih (id + 1) sorted.2 (fun k member => next k (here ▸ sorted.1 k member)) (by omega)
          have high : id < gap := by
            rw [UInt16.lt_iff_toNat_lt]
            have := UInt16.le_iff_toNat_le.mp low
            omega
          refine ⟨gap, found, ?_, UInt16.le_of_lt high, ?_⟩
          · intro member
            cases List.mem_cons.mp member with
            | inl first => exact absurd high (by rw [first, here]; exact UInt16.lt_irrefl id)
            | inr later => exact free later
          · intro k least below
            by_cases first : k = id
            · rw [first, ← here]
              exact List.mem_cons_self
            · have more := next k (UInt16.lt_of_le_of_ne least (Ne.symm first))
              exact List.mem_cons_of_mem _ (full k more below)

/-- The ids that some link holds. -/
def taken (t : LinkTable) : Finset UInt16 := t.uris.keys.toFinset

theorem mem_taken {t : LinkTable} {id : UInt16} : id ∈ t.taken ↔ id ∈ t.uris := by
  rw [taken, List.mem_toFinset, Std.ExtTreeMap.mem_keys]

theorem card_taken (t : LinkTable) : t.taken.card = t.uris.size := by
  rw [taken, List.toFinset_card_of_nodup Std.ExtTreeMap.nodup_keys, Std.ExtTreeMap.length_keys]

theorem Sound.mem_taken {t : LinkTable} (sound : t.Sound) {id : UInt16} :
    id ∈ t.taken ↔ ∃ h : Hyperlink, t.ids[h]? = some id := by
  rw [LinkTable.mem_taken]
  constructor
  · intro present
    obtain ⟨entry, here⟩ := Std.ExtTreeMap.mem_iff_isSome_getElem?.mp present |> Option.isSome_iff_exists.mp
    refine ⟨entry.1, (sound.inverse _ _).mpr ?_⟩
    rw [here, ← sound.named id entry here]
  · intro ⟨h, holds⟩
    rw [sound.inverse] at holds
    exact Std.ExtTreeMap.mem_iff_isSome_getElem?.mpr (by rw [holds]; rfl)

theorem Sound.zero_not_taken {t : LinkTable} (sound : t.Sound) : (0 : UInt16) ∉ t.taken := by
  intro present
  obtain ⟨h, holds⟩ := sound.mem_taken.mp present
  exact sound.nonzero 0 _ ((sound.inverse h 0).mp holds) rfl

/-- The verdict on a link that has no id, with some ids in use: the lowest free one,
unless there is none or the client would refuse the URI. -/
structure Fresh (used : Finset UInt16) (h : Hyperlink) (id : UInt16) : Prop where
  refused : id = 0 ↔ checkLinkUri 1 h.uri ≠ .ok () ∨ maxLinks ≤ used.card
  free : id ≠ 0 → id ∉ used
  lowest : ∀ k, k ≠ 0 → k < id → k ∈ used

/-- What `intern` does, for a link with an id and for one without. -/
inductive Interned (t : LinkTable) (h : Hyperlink) : UInt16 → LinkTable → Prop
  | known {id : UInt16} : t.ids[h]? = some id → Interned t h id t
  | refused : t.ids[h]? = none → Fresh t.taken h 0 → Interned t h 0 t
  | fresh {id : UInt16} : t.ids[h]? = none → id ≠ 0 → Fresh t.taken h id →
      Interned t h id { ids := t.ids.insert h id, uris := t.uris.insert id (h, h.uri) }

theorem sorted_keys (t : LinkTable) : t.uris.keys.Pairwise (· < ·) := by
  have ordered : t.uris.keys.Pairwise fun a b => compare a b = .lt := Std.ExtTreeMap.ordered_keys
  exact ordered.imp Std.compare_eq_lt.mp

theorem intern_interned {t : LinkTable} (sound : t.Sound) (h : Hyperlink) :
    ∃ id after, t.intern h = some (id, after) ∧ t.Interned h id after := by
  unfold intern
  cases known : t.ids[h]? with
  | some id => exact ⟨id, t, rfl, .known known⟩
  | none =>
      dsimp only
      split
      next refused =>
          refine ⟨0, t, rfl, .refused known ⟨⟨fun _ => ?_, fun _ => rfl⟩, fun nonzero => absurd rfl nonzero, ?_⟩⟩
          · rw [card_taken]
            exact refused.symm
          · exact fun k _ below => absurd below (UInt16.not_lt.mpr (UInt16.zero_le))
      next accepted =>
          rw [not_or, not_not] at accepted
          have length : t.uris.keys.length < maxLinks := by
            rw [Std.ExtTreeMap.length_keys]
            exact Nat.lt_of_not_le accepted.1
          have positive : ∀ k : UInt16, k ≠ 0 → 1 ≤ k := by
            intro k nonzero
            rw [UInt16.le_iff_toNat_le]
            have := mt UInt16.toNat_inj.mp nonzero
            exact Nat.pos_of_ne_zero this
          have above : ∀ k ∈ t.uris.keys, 1 ≤ k := by
            intro k member
            refine positive k fun zero => sound.zero_not_taken ?_
            rw [← zero, taken, List.mem_toFinset]
            exact member
          obtain ⟨gap, found, free, low, full⟩ := firstGap_spec (sorted_keys t) above
            (Nat.lt_of_lt_of_le (Nat.add_lt_add_left length _) (by decide))
          have nonzero : gap ≠ 0 := fun zero => absurd low (by rw [zero]; decide)
          refine ⟨gap, _, by rw [found]; rfl, .fresh known nonzero ⟨?_, ?_, ?_⟩⟩
          · rw [card_taken]
            exact ⟨fun zero => absurd zero nonzero, fun either =>
              either.elim (fun bad => absurd accepted.2 bad) fun many => absurd many accepted.1⟩
          · exact fun _ member => free (List.mem_toFinset.mp member)
          · exact fun k least below => List.mem_toFinset.mpr (full k (positive k least) below)

theorem Interned.sound {t after : LinkTable} {h : Hyperlink} {id : UInt16} (sound : t.Sound)
    (step : t.Interned h id after) : after.Sound := by
  cases step with
  | known => exact sound
  | refused => exact sound
  | fresh unknown nonzero fresh =>
      have free := fresh.free nonzero
      have accepted : checkLinkUri 1 h.uri = .ok () ∧ t.uris.size < maxLinks := by
        have both := mt fresh.refused.mpr nonzero
        rw [not_or, not_not, card_taken] at both
        exact ⟨both.1, Nat.lt_of_not_le both.2⟩
      have entries : ∀ (k : UInt16) (entry : Hyperlink × Text),
          (t.uris.insert id (h, h.uri))[k]? = some entry →
          (k = id ∧ entry = (h, h.uri)) ∨ t.uris[k]? = some entry := by
        intro k entry present
        rw [Std.ExtTreeMap.getElem?_insert] at present
        split at present
        next same =>
            cases present
            exact .inl ⟨(Std.LawfulEqCmp.eq_of_compare same).symm, rfl⟩
        next => exact .inr present
      refine ⟨?_, ?_, ?_, ?_, ?_⟩
      · intro k other
        rw [Std.ExtHashMap.getElem?_insert, Std.ExtTreeMap.getElem?_insert]
        by_cases link : h = k
        · subst link
          by_cases same : id = other
          · simp [same]
          · have absent : t.uris[other]? ≠ some (h, h.uri) := by
              intro present
              rw [(sound.inverse h other).mpr present] at unknown
              cases unknown
            simp [same, absent]
        · by_cases same : id = other
          · subst same
            have absent : t.ids[k]? ≠ some id := fun holds => free (sound.mem_taken.mpr ⟨k, holds⟩)
            simp [link, absent]
          · simp [link, same, sound.inverse]
      · intro k entry present
        cases entries k entry present with
        | inl new => rw [new.2]
        | inr old => exact sound.named k entry old
      · intro k entry present
        cases entries k entry present with
        | inl new => rw [new.1]; exact nonzero
        | inr old => exact sound.nonzero k entry old
      · intro k entry present
        cases entries k entry present with
        | inl new => rw [new.2]; exact accepted.1
        | inr old => exact sound.checked k entry old
      · exact Nat.le_trans Std.ExtTreeMap.size_insert_le accepted.2

theorem Interned.others {t after : LinkTable} {h : Hyperlink} {id : UInt16} (step : t.Interned h id after)
    {k : Hyperlink} (other : k ≠ h) : after.ids[k]? = t.ids[k]? := by
  cases step with
  | known => rfl
  | refused => rfl
  | fresh =>
      rw [Std.ExtHashMap.getElem?_insert, if_neg]
      simpa using Ne.symm other

theorem Interned.own {t after : LinkTable} {h : Hyperlink} {id : UInt16} (sound : t.Sound)
    (step : t.Interned h id after) (other : UInt16) :
    after.ids[h]? = some other ↔ id = other ∧ other ≠ 0 := by
  cases step with
  | known holds =>
      rw [holds, Option.some_inj]
      have nonzero := sound.nonzero id _ ((sound.inverse h id).mp holds)
      exact ⟨fun same => ⟨same, same ▸ nonzero⟩, And.left⟩
  | refused unknown => simp [unknown, eq_comm]
  | fresh unknown nonzero =>
      rw [Std.ExtHashMap.getElem?_insert_self, Option.some_inj]
      exact ⟨fun same => ⟨same, same ▸ nonzero⟩, And.left⟩

/-- The ids that some links have been given. -/
def given (idOf : Hyperlink → UInt16) (links : List Hyperlink) : Finset UInt16 :=
  (links.map idOf).toFinset.erase 0

theorem Interned.taken {t after : LinkTable} {h : Hyperlink} {id : UInt16} (sound : t.Sound)
    (step : t.Interned h id after) (k : UInt16) : k ∈ after.taken ↔ k ∈ t.taken ∨ (k = id ∧ k ≠ 0) := by
  have after_sound := step.sound sound
  rw [after_sound.mem_taken, sound.mem_taken]
  constructor
  · intro ⟨link, holds⟩
    by_cases same : link = h
    · rw [same, step.own sound] at holds
      exact .inr ⟨holds.1.symm, holds.2⟩
    · rw [step.others same] at holds
      exact .inl ⟨link, holds⟩
  · intro either
    cases either with
    | inl old =>
        obtain ⟨link, holds⟩ := old
        refine ⟨link, ?_⟩
        by_cases same : link = h
        · cases step with
          | known => exact holds
          | refused => exact holds
          | fresh unknown => rw [← same, holds] at unknown; cases unknown
        · rw [step.others same]
          exact holds
    | inr new => exact ⟨h, (step.own sound k).mpr ⟨new.1.symm, new.2⟩⟩

theorem Interned.kept {t after : LinkTable} {h : Hyperlink} {id other : UInt16}
    (step : t.Interned h id after) (holds : t.ids[h]? = some other) : id = other := by
  cases step with
  | known same => rw [holds] at same; cases same; rfl
  | refused unknown => rw [holds] at unknown; cases unknown
  | fresh unknown => rw [holds] at unknown; cases unknown

theorem Interned.verdict {t after : LinkTable} {h : Hyperlink} {id : UInt16}
    (step : t.Interned h id after) (unknown : t.ids[h]? = none) : Fresh t.taken h id := by
  cases step with
  | known same => rw [unknown] at same; cases same
  | refused _ fresh => exact fresh
  | fresh _ _ fresh => exact fresh

end LinkTable
end Oxutrm.Host
