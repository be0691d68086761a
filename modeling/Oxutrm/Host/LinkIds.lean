import Oxutrm.Host.Links

/-!
What a whole call of `assign` answers, and with it any number of calls in a row: which link
has which id, and that the table a state carries is made of the ids the cells were given.
-/
namespace Oxutrm.Host.LinkTable
open Proto

/-- A run of `intern` over links in order, each of them asked for once. -/
structure Ran (t : LinkTable) (order : List Hyperlink) (idOf : Hyperlink → UInt16) (after : LinkTable) :
    Prop where
  sound : after.Sound
  others : ∀ k ∉ order, after.ids[k]? = t.ids[k]?
  own : ∀ k ∈ order, ∀ id, after.ids[k]? = some id ↔ idOf k = id ∧ id ≠ 0
  kept : ∀ k ∈ order, ∀ id, t.ids[k]? = some id → idOf k = id
  fresh : ∀ front k back, order = front ++ k :: back → t.ids[k]? = none →
    Fresh (t.taken ∪ given idOf front) k (idOf k)

/-- The ids in use when a later link is reached, told from the table before the first one
and from the table after it. -/
theorem taken_given {t after : LinkTable} {h : Hyperlink} {idOf : Hyperlink → UInt16} (sound : t.Sound)
    (step : t.Interned h (idOf h) after) (front : List Hyperlink) :
    after.taken ∪ given idOf front = t.taken ∪ given idOf (h :: front) := by
  ext k
  simp only [Finset.mem_union, step.taken sound, given, List.map_cons, List.toFinset_cons, Finset.mem_erase,
    Finset.mem_insert]
  constructor
  · rintro ((old | new) | given)
    · exact .inl old
    · exact .inr ⟨new.2, .inl new.1⟩
    · exact .inr ⟨given.1, .inr given.2⟩
  · rintro (old | ⟨nonzero, first | later⟩)
    · exact .inl (.inl old)
    · exact .inl (.inr ⟨first, nonzero⟩)
    · exact .inr ⟨nonzero, later⟩

theorem Ran.cons {t mid after : LinkTable} {h : Hyperlink} {order : List Hyperlink}
    {idOf : Hyperlink → UInt16} (sound : t.Sound) (step : t.Interned h (idOf h) mid)
    (new : h ∉ order) (rest : mid.Ran order idOf after) : t.Ran (h :: order) idOf after := by
  refine ⟨rest.sound, ?_, ?_, ?_, ?_⟩
  · intro k absent
    rw [List.mem_cons, not_or] at absent
    rw [rest.others k absent.2, step.others absent.1]
  · intro k member id
    cases List.mem_cons.mp member with
    | inl first =>
        subst first
        rw [rest.others k new, step.own sound]
    | inr later => exact rest.own k later id
  · intro k member id holds
    cases List.mem_cons.mp member with
    | inl first =>
        subst first
        exact step.kept holds
    | inr later =>
        have other : k ≠ h := fun same => new (same ▸ later)
        exact rest.kept k later id (by rw [step.others other]; exact holds)
  · intro front k back split unknown
    cases front with
    | nil =>
        rw [List.nil_append, List.cons.injEq] at split
        have none : given idOf [] = ∅ := rfl
        rw [none, Finset.union_empty, ← split.1]
        exact step.verdict (by rw [split.1]; exact unknown)
    | cons first front =>
        rw [List.cons_append, List.cons.injEq] at split
        have later : k ∈ order := by
          rw [split.2]
          exact List.mem_append_right _ List.mem_cons_self
        have other : k ≠ h := fun same => new (same ▸ later)
        rw [← split.1, ← taken_given sound step]
        exact rest.fresh front k back split.2 (by rw [step.others other]; exact unknown)

/-- The verdict on a link, 0 if there is none. -/
def verdict (verdicts : Verdicts) (h : Hyperlink) : UInt16 := verdicts[h]?.getD 0

theorem internAll_ran {t : LinkTable} (sound : t.Sound) {order : List Hyperlink} (distinct : order.Nodup)
    (verdicts : Verdicts) :
    ∃ last after, t.internAll verdicts order = some (last, after) ∧ t.Ran order (verdict last) after ∧
      (∀ k ∈ order, last[k]? = some (verdict last k)) ∧ ∀ k ∉ order, last[k]? = verdicts[k]? := by
  induction order generalizing t verdicts with
  | nil =>
      refine ⟨verdicts, t, rfl, ⟨sound, fun _ _ => rfl, nofun, nofun, ?_⟩, nofun, fun _ _ => rfl⟩
      exact fun front k back split => absurd split (by simp)
  | cons h order ih =>
      rw [List.nodup_cons] at distinct
      obtain ⟨id, mid, interned, step⟩ := intern_interned sound h
      obtain ⟨last, after, run, ran, own, others⟩ := ih (step.sound sound) distinct.2 (verdicts.insert h id)
      have first : last[h]? = some id := by
        rw [others h distinct.1, Std.ExtHashMap.getElem?_insert_self]
      have here : verdict last h = id := by rw [verdict, first]; rfl
      refine ⟨last, after, ?_, ran.cons sound (here ▸ step) distinct.1, ?_, ?_⟩
      · rw [internAll, interned]
        exact run
      · intro k member
        cases List.mem_cons.mp member with
        | inl same => rw [same, here, first]
        | inr later => exact own k later
      · intro k absent
        rw [List.mem_cons, not_or] at absent
        rw [others k absent.2, Std.ExtHashMap.getElem?_insert, if_neg]
        simpa using Ne.symm absent.1

def answer (idOf : Hyperlink → UInt16) : Option Hyperlink → UInt16
  | none => 0
  | some h => idOf h

/-- Asking the cell before comes to the same as asking the verdicts. -/
theorem answers_eq {verdicts : Verdicts} {prev : Option (Hyperlink × UInt16)}
    {found : List (Option Hyperlink)} (judged : ∀ h, some h ∈ found → verdicts[h]? = some (verdict verdicts h))
    (recent : ∀ p id, prev = some (p, id) → id = verdict verdicts p) :
    answers verdicts prev found = some (found.map (answer (verdict verdicts))) := by
  induction found generalizing prev with
  | nil => rfl
  | cons cell found ih =>
      have later : ∀ h, some h ∈ found → verdicts[h]? = some (verdict verdicts h) := fun h member =>
        judged h (List.mem_cons_of_mem _ member)
      cases cell with
      | none =>
          rw [answers, ih later recent]
          rfl
      | some h =>
          rw [answers]
          split
          next p id same =>
              rw [Option.filter_eq_some_iff] at same
              have here : p = h := by simpa using same.2
              rw [ih later recent, recent p id same.1, here]
              rfl
          next =>
              rw [judged h List.mem_cons_self, Option.bind_eq_bind, Option.bind_some, ih later ?_]
              · rfl
              · intro p id same
                cases same
                rfl

/-- What one call of `assign` does to the table it finds. -/
structure Assigned (before : LinkTable) (found : List (Option Hyperlink)) (idOf : Hyperlink → UInt16)
    (after : LinkTable) : Prop where
  sound : after.Sound
  recorded : ∀ h id, after.ids[h]? = some id ↔ some h ∈ found ∧ idOf h = id ∧ id ≠ 0
  kept : ∀ h, some h ∈ found → ∀ id, before.ids[h]? = some id → idOf h = id
  fresh : ∀ front h back, firsts found = front ++ h :: back → before.ids[h]? = none →
    Fresh (((firsts found).filterMap fun k => before.ids[k]?).toFinset ∪ given idOf front) h (idOf h)

theorem nodup_eraseDups (links : List Hyperlink) : links.eraseDups.Nodup := by
  induction links using List.reverseRecOn with
  | nil => exact List.nodup_nil
  | append_singleton links h ih =>
      rw [eraseDups_snoc]
      split
      next => exact ih
      next new =>
          refine List.nodup_append.mpr ⟨ih, List.nodup_singleton h, ?_⟩
          intro k member other last same
          rw [List.mem_singleton] at last
          exact new (List.mem_eraseDups.mp (last ▸ same ▸ member))

theorem retain_dropped {t : LinkTable} {verdicts : Verdicts} {h : Hyperlink}
    (absent : ¬ verdicts.contains h = true) : (t.retain verdicts).ids[h]? = none := by
  rw [retain, Std.ExtHashMap.getElem?_filter']
  cases t.ids[h]? with
  | none => rfl
  | some id => simp [absent]

theorem retain_ids {t : LinkTable} {verdicts : Verdicts} {h : Hyperlink} (present : verdicts.contains h = true) :
    (t.retain verdicts).ids[h]? = t.ids[h]? := by
  rw [retain, Std.ExtHashMap.getElem?_filter']
  cases t.ids[h]? with
  | none => rfl
  | some id => simp [present]

theorem assign_assigned {t : LinkTable} (sound : t.Sound) (found : List (Option Hyperlink)) :
    ∃ idOf after, t.assign found = some (found.map (answer idOf), after) ∧ t.Assigned found idOf after := by
  have kept := sound.retain (survey found).verdicts
  have distinct : (firsts found).Nodup := nodup_eraseDups found.reduceOption
  obtain ⟨last, after, run, ran, own, -⟩ := internAll_ran kept distinct (survey found).verdicts
  have judged : ∀ h, some h ∈ found → last[h]? = some (verdict last h) := fun h member =>
    own h (mem_firsts.mpr member)
  have known : ∀ h, h ∈ firsts found → (t.retain (survey found).verdicts).ids[h]? = t.ids[h]? := fun h member =>
    retain_ids ((survey_contains found h).mpr member)
  have gone : ∀ h, h ∉ firsts found → (t.retain (survey found).verdicts).ids[h]? = none := fun h absent =>
    retain_dropped (mt (survey_contains found h).mp absent)
  have taken : (t.retain (survey found).verdicts).taken =
      ((firsts found).filterMap fun k => t.ids[k]?).toFinset := by
    ext id
    rw [kept.mem_taken, List.mem_toFinset, List.mem_filterMap]
    constructor
    · intro ⟨h, holds⟩
      by_cases member : h ∈ firsts found
      · exact ⟨h, member, (known h member) ▸ holds⟩
      · rw [gone h member] at holds
        cases holds
    · intro ⟨h, member, holds⟩
      exact ⟨h, (known h member).trans holds⟩
  refine ⟨verdict last, after, ?_, ran.sound, ?_, ?_, ?_⟩
  · have answered := @answers_eq last none found judged nofun
    simp only [assign, survey_order, run, answered, Option.bind_eq_bind, Option.bind_some]
  · intro h id
    by_cases member : h ∈ firsts found
    · rw [ran.own h member id]
      exact ⟨fun holds => ⟨mem_firsts.mp member, holds⟩, And.right⟩
    · rw [ran.others h member, gone h member]
      exact ⟨nofun, fun holds => absurd (mem_firsts.mpr holds.1) member⟩
  · exact fun h member id holds =>
      ran.kept h (mem_firsts.mpr member) id ((known h (mem_firsts.mpr member)).trans holds)
  · intro front h back split unknown
    have member : h ∈ firsts found := by
      rw [split]
      exact List.mem_append_right _ List.mem_cons_self
    rw [← taken]
    exact ran.fresh front h back split ((known h member).trans unknown)

theorem assignAll_sound {t : LinkTable} (sound : t.Sound) (calls : List (List (Option Hyperlink))) :
    ∃ after, t.assignAll calls = some after ∧ after.Sound := by
  induction calls generalizing t with
  | nil => exact ⟨t, rfl, sound⟩
  | cons found calls ih =>
      obtain ⟨idOf, next, call, assigned⟩ := assign_assigned sound found
      obtain ⟨after, rest, last⟩ := ih assigned.sound
      refine ⟨after, ?_, last⟩
      rw [assignAll, call]
      exact rest

theorem Sound.size_ids {t : LinkTable} (sound : t.Sound) : t.ids.size ≤ t.uris.size := by
  have entry : ∀ e ∈ t.uris.toList, t.ids[e.2.1]? = some e.1 := by
    intro e member
    have present := Std.ExtTreeMap.mem_toList_iff_getElem?_eq_some.mp member
    rw [sound.inverse, present, ← sound.named _ _ present]
  have distinct : (t.uris.toList.map fun e => (e.2.1, e.1)).Pairwise fun a b => (a.1 == b.1) = false := by
    rw [List.pairwise_map]
    refine List.Pairwise.imp_of_mem ?_ Std.ExtTreeMap.distinct_keys_toList
    intro a b left right other
    rw [beq_eq_false_iff_ne]
    intro same
    have first := entry a left
    have second := entry b right
    rw [same, second, Option.some_inj] at first
    exact other (first ▸ Std.ReflCmp.compare_self)
  have turned : t.ids = Std.ExtHashMap.ofList (t.uris.toList.map fun e => (e.2.1, e.1)) := by
    apply Std.ExtHashMap.ext_getElem?
    intro h
    cases holds : t.ids[h]? with
    | some id =>
        have present := (sound.inverse h id).mp holds
        have member := Std.ExtTreeMap.mem_toList_iff_getElem?_eq_some.mpr present
        exact (Std.ExtHashMap.getElem?_ofList_of_mem (BEq.rfl) distinct
          (List.mem_map.mpr ⟨_, member, rfl⟩)).symm
    | none =>
        refine (Std.ExtHashMap.getElem?_ofList_of_contains_eq_false ?_).symm
        rw [Bool.eq_false_iff, ne_eq, List.contains_iff_mem, List.map_map, List.mem_map]
        intro ⟨e, member, same⟩
        have held := entry e member
        rw [show e.2.1 = h from same, holds] at held
        cases held
  rw [turned]
  exact Nat.le_trans Std.ExtHashMap.size_ofList_le (by simp)

/-- A call in the middle of a run, with the ids it returned for the cells. -/
structure Lawful (before : LinkTable) (found : List (Option Hyperlink)) (ids : List UInt16)
    (after : LinkTable) (idOf : Hyperlink → UInt16) : Prop where
  inverse : ∀ (h : Hyperlink) (id : UInt16), after.ids[h]? = some id ↔ after.uris[id]? = some (h, h.uri)
  named : ∀ (id : UInt16) (entry : Hyperlink × Text), after.uris[id]? = some entry → entry.2 = entry.1.uri
  bounded : after.ids.size ≤ maxLinks ∧ after.uris.size ≤ maxLinks
  same : ids = found.map (answer idOf)
  keys : ∀ id, id ∈ after.table ↔ id ∈ ids ∧ id ≠ 0
  resolves : ∀ h, some h ∈ found → idOf h ≠ 0 → after.table[idOf h]? = some h.uri
  distinct : ∀ h k, some h ∈ found → some k ∈ found → idOf h ≠ 0 → idOf h = idOf k → h = k
  recorded : ∀ (h : Hyperlink) (id : UInt16), after.ids[h]? = some id ↔ some h ∈ found ∧ idOf h = id ∧ id ≠ 0
  kept : ∀ h, some h ∈ found → ∀ id, before.ids[h]? = some id → idOf h = id
  fresh : ∀ front h back, firsts found = front ++ h :: back → before.ids[h]? = none →
    Fresh (((firsts found).filterMap fun k => before.ids[k]?).toFinset ∪ given idOf front) h (idOf h)

theorem Assigned.table_keys {before after : LinkTable} {found : List (Option Hyperlink)}
    {idOf : Hyperlink → UInt16} (assigned : before.Assigned found idOf after) (id : UInt16) :
    id ∈ after.table ↔ id ∈ found.map (answer idOf) ∧ id ≠ 0 := by
  have holds : id ∈ after.table ↔ id ∈ after.taken := by
    rw [table, Std.ExtTreeMap.mem_map, mem_taken]
  rw [holds, assigned.sound.mem_taken, List.mem_map]
  constructor
  · intro ⟨h, here⟩
    obtain ⟨member, same, nonzero⟩ := (assigned.recorded h id).mp here
    exact ⟨⟨some h, member, same⟩, nonzero⟩
  · intro ⟨⟨cell, member, same⟩, nonzero⟩
    cases cell with
    | none => exact absurd same.symm nonzero
    | some h => exact ⟨h, (assigned.recorded h id).mpr ⟨member, same, nonzero⟩⟩

theorem Assigned.resolves {before after : LinkTable} {found : List (Option Hyperlink)}
    {idOf : Hyperlink → UInt16} (assigned : before.Assigned found idOf after) {h : Hyperlink}
    (member : some h ∈ found) (nonzero : idOf h ≠ 0) : after.table[idOf h]? = some h.uri := by
  have here := (assigned.recorded h (idOf h)).mpr ⟨member, rfl, nonzero⟩
  rw [assigned.sound.inverse] at here
  rw [table, Std.ExtTreeMap.getElem?_map, here]
  rfl

theorem link_ids_stay_lawful (calls : List (List (Option Hyperlink))) (found : List (Option Hyperlink)) :
    ∃ before ids after idOf, empty.assignAll calls = some before ∧ before.assign found = some (ids, after) ∧
      before.Lawful found ids after idOf := by
  obtain ⟨before, run, sound⟩ := assignAll_sound sound_empty calls
  obtain ⟨idOf, after, call, assigned⟩ := assign_assigned sound found
  have last := assigned.sound
  refine ⟨before, _, after, idOf, run, call, last.inverse, last.named,
    ⟨Nat.le_trans last.size_ids last.bounded, last.bounded⟩, rfl, assigned.table_keys,
    fun h member nonzero => assigned.resolves member nonzero, ?_, assigned.recorded, assigned.kept,
    assigned.fresh⟩
  intro h k first second nonzero same
  exact last.injective ((assigned.recorded h _).mpr ⟨first, rfl, nonzero⟩)
    ((assigned.recorded k _).mpr ⟨second, same.symm, nonzero⟩)

end Oxutrm.Host.LinkTable
