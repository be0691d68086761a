import Oxutrm.Sync.ScreenRoundTrip

/-!
`ScreenState` is a lawful replicated value: an honest diff passes every check of
`apply` and reproduces its target in every field.
-/
namespace Oxutrm.Sync
open Proto

section Checks

theorem checkLinks_entry {links : Links} (checked : checkLinks links = .ok ()) {id : UInt16}
    {uri : Text} (present : links[id]? = some uri) : id ≠ 0 ∧ checkLinkUri id uri = .ok () := by
  simp only [checkLinks, checked_seq_ok, checkEach_ok, refuse_ok] at checked
  exact checked.2 (id, uri) (Std.ExtTreeMap.mem_toList_iff_getElem?_eq_some.mpr present)

theorem checkLinks_size {links : Links} (checked : checkLinks links = .ok ()) :
    links.size ≤ maxLinks := by
  simp only [checkLinks, checked_seq_ok, refuse_ok, gt_iff_lt, not_lt] at checked
  exact checked.1

theorem length_linkChanges_le (target base : ScreenState) :
    (linkChanges target base).length ≤ target.links.size + base.links.size := by
  simp only [linkChanges, List.length_append, List.length_map]
  have sets := List.length_filter_le (fun p => decide (base.links[p.1]? ≠ some p.2))
    target.links.toList
  have removals := List.length_filter_le (fun id => decide ¬ target.links.contains id)
    base.links.keys
  rw [Std.ExtTreeMap.length_toList] at sets
  rw [Std.ExtTreeMap.length_keys] at removals
  exact Nat.add_le_add sets removals

theorem linkChanges_id {target base : ScreenState} (targetLinks : checkLinks target.links = .ok ())
    (baseLinks : checkLinks base.links = .ok ()) {p : UInt16 × Option Text}
    (member : p ∈ linkChanges target base) : p.1 ≠ 0 := by
  rcases List.mem_append.mp member with entry | removal
  · obtain ⟨q, found, rfl⟩ := List.mem_map.mp entry
    have present := (List.mem_filter.mp found).1
    exact (checkLinks_entry targetLinks
      (Std.ExtTreeMap.mem_toList_iff_getElem?_eq_some.mp present)).1
  · obtain ⟨id, found, rfl⟩ := List.mem_map.mp removal
    have present := Std.ExtTreeMap.mem_keys.mp (List.mem_filter.mp found).1
    obtain ⟨uri, held⟩ := Option.isSome_iff_exists.mp
      (Std.ExtTreeMap.mem_iff_isSome_getElem?.mp present)
    exact (checkLinks_entry baseLinks held).1

variable {target : ScreenState}

theorem changed_eq_some {α : Type} [DecidableEq α] {a b c : α} (some_ : changed a b = some c) :
    c = a := by
  simp only [changed] at some_
  split at some_
  · exact (Option.some.inj some_).symm
  · cases some_

theorem changed_getD {α : Type} [DecidableEq α] (a b : α) : (changed a b).getD b = a := by
  by_cases same : a = b
  · simp [changed, same]
  · simp [changed, same]

theorem check_diffFrom {base : ScreenState} (valid : target.Valid) (baseValid : base.Valid) :
    (ScreenState.diffFrom target base).check = .ok () := by
  simp only [ScreenDiff.check, checked_seq_ok, checkSome_ok, refuse_ok, checkEach_ok]
  refine ⟨?_, ?_, ?_, ?_⟩
  · intro t some_
    rw [changed_eq_some some_]
    exact valid.title
  · intro c some_
    rw [changed_eq_some some_]
    exact valid.clipboard
  · have length := length_linkChanges_le target base
    have sets := checkLinks_size valid.links
    have removals := checkLinks_size baseValid.links
    change ¬ (linkChanges target base).length > 2 * maxLinks
    omega
  · intro p member
    refine ⟨linkChanges_id valid.links baseValid.links member, ?_⟩
    intro uri some_
    have right := linkChanges_right target base p member
    rw [some_] at right
    exact (checkLinks_entry valid.links right.symm).2

theorem check_fullDiff (valid : target.Valid) :
    (ScreenState.fullDiff target).check = .ok () := by
  simp only [ScreenDiff.check, checked_seq_ok, checkSome_ok, refuse_ok, checkEach_ok]
  refine ⟨?_, ?_, ?_, ?_⟩
  · intro t some_
    rw [← Option.some.inj some_]
    exact valid.title
  · intro c some_
    rw [← Option.some.inj some_]
    exact valid.clipboard
  · have size := checkLinks_size valid.links
    have length : (ScreenState.fullDiff target).links.length = target.links.size := by
      simp only [ScreenState.fullDiff, List.length_map, Std.ExtTreeMap.length_toList]
    omega
  · intro p member
    obtain ⟨q, present, rfl⟩ := List.mem_map.mp member
    have entry := checkLinks_entry valid.links
      (Std.ExtTreeMap.mem_toList_iff_getElem?_eq_some.mp present)
    refine ⟨entry.1, ?_⟩
    intro uri some_
    rw [← Option.some.inj some_]
    exact entry.2

end Checks

section Apply

theorem apply_ok {s t : ScreenState} {base target : UInt64} {d : ScreenDiff} :
    ScreenState.apply s base target d = (t, .ok ()) ↔
      (base = 0 ∨ base = s.seq) ∧ d.check = .ok () ∧
        ∃ sized, ScreenState.applyResize s d.resize = (sized, .ok ()) ∧
          ∃ cells, paintRows sized.rows sized.cols d.rows sized.cells = (cells, .ok ()) ∧
            t = ScreenState.applyRest { sized with cells := cells } base target d := by
  have named : ¬ (base ≠ 0 ∧ base ≠ s.seq) ↔ base = 0 ∨ base = s.seq := by
    rw [not_and_or, not_not, not_not]
  simp only [ScreenState.apply, andThen_ok, Prod.mk.injEq, refuse_ok, named, and_true]
  constructor
  · rintro ⟨_, ⟨rfl, legal⟩, _, ⟨rfl, checked⟩, sized, resized, _, painted, rfl⟩
    simp only [ScreenState.applyRows, Prod.mk.injEq] at painted
    obtain ⟨rfl, result⟩ := painted
    exact ⟨legal, checked, sized, resized, _, Prod.ext rfl result, rfl⟩
  · rintro ⟨legal, checked, sized, resized, cells, painted, rfl⟩
    refine ⟨s, ⟨rfl, legal⟩, s, ⟨rfl, checked⟩, sized, resized, { sized with cells := cells },
      ?_, rfl⟩
    simp only [ScreenState.applyRows, painted]

variable {target base held : ScreenState}

theorem applyResize_size (valid : target.Valid) (s : ScreenState) :
    ScreenState.applyResize s (some target.size) =
      ({ s with
          rows := target.rows
          cols := target.cols
          cells := List.replicate (target.rows.toNat * target.cols.toNat) Cell.blank },
        .ok ()) := by
  simp only [ScreenState.applyResize, valid.bounds, andThen]
  rfl

theorem paintRows_blank (valid : target.Valid) {baseRow : Nat → Option (List Cell)}
    (none_ : ∀ r < target.rows.toNat, baseRow r = none) :
    paintRows target.rows target.cols (rowPatches target baseRow)
        (List.replicate (target.rows.toNat * target.cols.toNat) Cell.blank) =
      (target.cells, .ok ()) := by
  refine paintRows_rowPatches valid baseRow ?_ ?_
  · rw [List.length_replicate]
    exact valid.length.symm
  · intro r c below _ same
    rw [none_ r below] at same
    cases same

theorem paintRows_base (valid : target.Valid) (baseValid : base.Valid)
    (same : ¬ ScreenState.resized target base) :
    paintRows target.rows target.cols (rowPatches target (ScreenState.baseRow target base))
        base.cells =
      (target.cells, .ok ()) := by
  simp only [ScreenState.resized, not_or, not_not] at same
  obtain ⟨rows, cols⟩ := same
  have sizes : base.expected = target.expected := by
    simp only [ScreenState.expected, rows, cols]
  refine paintRows_rowPatches valid _ ?_ ?_
  · rw [baseValid.length, valid.length, sizes]
  · intro r c below inside kept
    have present : ScreenState.baseRow target base r = some (base.row r) := by
      have geometry : ¬ (ScreenState.resized target base ∨ r ≥ base.rows.toNat) := by
        simp only [ScreenState.resized, rows, cols, not_or, not_not, ne_eq, true_and, ge_iff_le,
          not_le, and_self]
        rwa [← rows]
      simp only [ScreenState.baseRow, geometry, if_false]
    rw [present] at kept
    simp only [unchanged, Bool.and_eq_true, beq_iff_eq] at kept
    have equal := kept.2
    rw [getElem?_row inside, getElem?_row (cols ▸ inside), ← cols] at equal
    exact equal.symm

theorem screen_apply_fullDiff (valid : target.Valid) :
    ScreenState.apply held 0 target.seq (ScreenState.fullDiff target) = (target, .ok ()) := by
  refine apply_ok.mpr ⟨Or.inl rfl, check_fullDiff valid, _, applyResize_size valid held, _,
    paintRows_blank valid fun _ _ => rfl, ?_⟩
  have links := allLinks_restore target
  simp only [ScreenState.applyRest, ScreenState.fullDiff, Option.getD_some, if_true, links]

theorem screen_apply_diffFrom (valid : target.Valid) (baseValid : base.Valid) :
    ScreenState.apply base base.seq target.seq (ScreenState.diffFrom target base) =
      (target, .ok ()) := by
  have links := linkChanges_restore target base
  by_cases geometry : ScreenState.resized target base
  · have resize : (ScreenState.diffFrom target base).resize = some target.size := by
      simp only [ScreenState.diffFrom, geometry, if_true]
    refine apply_ok.mpr ⟨Or.inr rfl, check_diffFrom valid baseValid, _,
      resize ▸ applyResize_size valid base, _, paintRows_blank valid ?_, ?_⟩
    · intro r _
      simp only [ScreenState.baseRow, geometry, true_or, if_true]
    · simp only [ScreenState.applyRest, ScreenState.diffFrom, changed_getD, baseValid.seq,
        if_false, links]
  · have resize : (ScreenState.diffFrom target base).resize = none := by
      simp only [ScreenState.diffFrom, geometry, if_false]
    have unmoved : ScreenState.applyResize base (ScreenState.diffFrom target base).resize =
        (base, .ok ()) := by
      rw [resize]
      rfl
    have painted := paintRows_base valid baseValid geometry
    simp only [ScreenState.resized, not_or, not_not] at geometry
    rw [geometry.1, geometry.2] at painted
    refine apply_ok.mpr ⟨Or.inr rfl, check_diffFrom valid baseValid, base, unmoved, _, painted, ?_⟩
    simp only [ScreenState.applyRest, ScreenState.diffFrom, changed_getD, baseValid.seq,
      if_false, links, ← geometry.1, ← geometry.2]

end Apply

instance : LawfulSyncState ScreenState where
  Sound s := s.validate = .ok ()
  Follows := Proto.ScreenState.CountersLe
  follows_trans := Proto.ScreenState.CountersLe.trans
  follows_setSeq _ follows := follows
  seq_setSeq _ _ := rfl
  sound_setSeq nonzero sound := by
    have valid := (Proto.ScreenState.validate_ok _).mp sound
    exact (Proto.ScreenState.validate_ok _).mpr
      ⟨valid.bounds, valid.length, nonzero, valid.cursor, valid.text, valid.title,
        valid.clipboard, valid.links, valid.known⟩
  sound_seq sound := ((Proto.ScreenState.validate_ok _).mp sound).seq
  accepts sound follows := (Proto.ScreenState.validateTransition_ok _ _).mpr ⟨sound, follows⟩
  apply_seq applied := by
    obtain ⟨-, -, _, -, _, -, rfl⟩ := apply_ok.mp applied
    rfl
  apply_base applied := (apply_ok.mp applied).1
  apply_diffFrom sound baseSound :=
    screen_apply_diffFrom ((Proto.ScreenState.validate_ok _).mp sound)
      ((Proto.ScreenState.validate_ok _).mp baseSound)
  apply_fullDiff sound _ := screen_apply_fullDiff ((Proto.ScreenState.validate_ok _).mp sound)

end Oxutrm.Sync
