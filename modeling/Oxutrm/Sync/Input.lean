import Oxutrm.Sync.Laws

/-!
The same machinery inverted: client to host, a byte stream rather than a screen.
A vector of the source holds fewer than `2 ^ 63` bytes, which is what makes the
conversions of its length to and from `u64` exact.
-/
namespace Oxutrm.Sync
open Proto

structure InputState where
  seq : UInt64
  pending : Bytes
  size : TermSize
  deriving DecidableEq, Repr

namespace InputState

/-- The sequence number is left alone: `Sender.update` mints it. -/
def append (s : InputState) (bytes : Bytes) (size : TermSize) : InputState :=
  { seq := s.seq, pending := s.pending ++ bytes, size := size }

def validate (s : InputState) : Checked := refuse (s.seq = 0) .seqZero

end InputState

structure InputDiff where
  consumed : UInt64
  appended : Bytes
  size : Option TermSize
  deriving DecidableEq, Repr

/-- The longest tail of the base, of at most `k` bytes, that is a head of the
target. -/
def overlap (target base : Bytes) : Nat → Nat
  | 0 => 0
  | k + 1 =>
      if base.drop (base.length - (k + 1)) = target.take (k + 1) then k + 1
      else overlap target base k

namespace InputState

def overlapWith (target base : InputState) : Nat :=
  overlap target.pending base.pending (min base.pending.length target.pending.length)

def diffFrom (target base : InputState) : InputDiff where
  consumed := UInt64.ofNat (base.pending.length - target.overlapWith base)
  appended := target.pending.drop (target.overlapWith base)
  size := if target.size ≠ base.size then some target.size else none

def fullDiff (target : InputState) : InputDiff where
  consumed := UInt64.ofNat (2 ^ 64 - 1)
  appended := target.pending
  size := some target.size

/-- Drop first, then append. -/
def apply (s : InputState) (base target : UInt64) (d : InputDiff) : InputState × Checked :=
  andThen (s, refuse (base ≠ 0 ∧ base ≠ s.seq) (.baseMismatch base s.seq)) fun s =>
  ({ seq := target
     pending := s.pending.drop (min d.consumed.toNat s.pending.length) ++ d.appended
     size := d.size.getD s.size }, .ok ())

end InputState

instance : SyncState InputState InputDiff where
  seq := InputState.seq
  setSeq s seq := { s with seq := seq }
  validate := InputState.validate
  diffFrom := InputState.diffFrom
  apply := InputState.apply
  fullDiff := InputState.fullDiff

theorem overlap_spec (target base : Bytes) (k : Nat) :
    overlap target base k ≤ k ∧
      base.drop (base.length - overlap target base k) =
        target.take (overlap target base k) := by
  induction k with
  | zero => simp [overlap]
  | succ k ih =>
      simp only [overlap]
      split
      · next found => exact ⟨Nat.le_refl _, found⟩
      · exact ⟨Nat.le_succ_of_le ih.1, ih.2⟩

theorem input_apply_ok {s t : InputState} {base target : UInt64} {d : InputDiff} :
    InputState.apply s base target d = (t, .ok ()) ↔
      (base = 0 ∨ base = s.seq) ∧
        t = { seq := target
              pending := s.pending.drop (min d.consumed.toNat s.pending.length) ++ d.appended
              size := d.size.getD s.size } := by
  have named : ¬ (base ≠ 0 ∧ base ≠ s.seq) ↔ base = 0 ∨ base = s.seq := by
    rw [not_and_or, not_not, not_not]
  simp only [InputState.apply, andThen_ok, Prod.mk.injEq, refuse_ok, named, and_true]
  constructor
  · rintro ⟨_, ⟨rfl, legal⟩, rfl⟩
    exact ⟨legal, rfl⟩
  · rintro ⟨legal, rfl⟩
    exact ⟨s, ⟨rfl, legal⟩, rfl⟩

theorem input_apply_diffFrom {target base : InputState} (short : base.pending.length < 2 ^ 64) :
    InputState.apply base base.seq target.seq (InputState.diffFrom target base) =
      (target, .ok ()) := by
  obtain ⟨bound, same⟩ := overlap_spec target.pending base.pending
    (min base.pending.length target.pending.length)
  change target.overlapWith base ≤ _ at bound
  change base.pending.drop (base.pending.length - target.overlapWith base) =
    target.pending.take (target.overlapWith base) at same
  have consumed : (UInt64.ofNat (base.pending.length - target.overlapWith base)).toNat =
      base.pending.length - target.overlapWith base :=
    UInt64.toNat_ofNat_of_lt' (show _ < 2 ^ 64 by omega)
  refine input_apply_ok.mpr ⟨Or.inr rfl, ?_⟩
  have pending : target.pending = base.pending.drop
      (min (base.pending.length - target.overlapWith base) base.pending.length) ++
      target.pending.drop (target.overlapWith base) := by
    rw [Nat.min_eq_left (by omega), same, List.take_append_drop]
  have size : (InputState.diffFrom target base).size.getD base.size = target.size := by
    by_cases kept : target.size = base.size
    · simp [InputState.diffFrom, kept]
    · simp [InputState.diffFrom, kept]
  rw [size]
  simp only [InputState.diffFrom, consumed, ← pending]

theorem input_apply_fullDiff {target held : InputState} (short : held.pending.length < 2 ^ 64) :
    InputState.apply held 0 target.seq (InputState.fullDiff target) = (target, .ok ()) := by
  have everything : (UInt64.ofNat (2 ^ 64 - 1)).toNat = 2 ^ 64 - 1 := by decide
  refine input_apply_ok.mpr ⟨Or.inl rfl, ?_⟩
  simp only [InputState.fullDiff, everything, Option.getD_some]
  rw [Nat.min_eq_right (by omega), List.drop_length, List.nil_append]

/-- No longer overlap exists. -/
theorem overlap_max {target base : Bytes} {k n : Nat} (small : n ≤ k)
    (same : base.drop (base.length - n) = target.take n) : n ≤ overlap target base k := by
  induction k with
  | zero => exact small
  | succ k ih =>
      simp only [overlap]
      split
      · exact small
      · rename_i different
        apply ih
        apply Nat.le_of_lt_succ
        refine Nat.lt_of_le_of_ne small ?_
        rintro rfl
        exact different same

/-- Whatever diff leads from the base to the target, it appends as much. -/
theorem appended_diffFrom_le {target base : InputState} {d : InputDiff} {named number : UInt64}
    (applied : InputState.apply base named number d = (target, .ok ())) :
    (InputState.diffFrom target base).appended.length ≤ d.appended.length := by
  obtain ⟨-, rfl⟩ := input_apply_ok.mp applied
  -- what is left of the base is an overlap
  have left : (base.pending.drop (min d.consumed.toNat base.pending.length)).length ≤
      InputState.overlapWith
        { seq := number
          pending := base.pending.drop (min d.consumed.toNat base.pending.length) ++ d.appended
          size := d.size.getD base.size } base := by
    apply overlap_max
    · simp only [List.length_append, List.length_drop]
      omega
    · rw [List.take_left, List.length_drop]
      congr 1
      omega
  simp only [InputState.diffFrom, List.length_drop, List.length_append] at left ⊢
  omega

/-- Every change of the input is undone by its diff, every state by its full diff, and
no shorter diff would do. -/
theorem input_diffs_undo_exactly (base target held : InputState)
    (short : base.pending.length < 2 ^ 64) (heldShort : held.pending.length < 2 ^ 64) :
    InputState.apply base base.seq target.seq (InputState.diffFrom target base) =
      (target, .ok ()) ∧
    InputState.apply held 0 target.seq (InputState.fullDiff target) = (target, .ok ()) ∧
    (∀ n, n ≤ target.pending.length → n ≤ base.pending.length →
      base.pending.drop (base.pending.length - n) = target.pending.take n →
        n ≤ target.overlapWith base) ∧
    (base.pending.drop (base.pending.length - target.overlapWith base) =
      target.pending.take (target.overlapWith base)) ∧
    (InputState.diffFrom target base).appended =
      target.pending.drop (target.overlapWith base) ∧
    ∀ d named number, InputState.apply base named number d = (target, .ok ()) →
      (InputState.diffFrom target base).appended.length ≤ d.appended.length :=
  ⟨input_apply_diffFrom short, input_apply_fullDiff heldShort,
    fun _ inTarget inBase same => overlap_max (Nat.le_min.mpr ⟨inBase, inTarget⟩) same,
    (overlap_spec target.pending base.pending _).2, rfl,
    fun _ _ _ applied => appended_diffFrom_le applied⟩

/-- Repeating bytes, of which only the last one is new. -/
theorem input_diffs_undo_exactly_repeating :
    InputState.diffFrom ⟨2, [121, 121, 121], ⟨80, 24⟩⟩ ⟨1, [121, 121], ⟨80, 24⟩⟩ =
      { consumed := 0, appended := [121], size := none } ∧
    InputState.apply ⟨1, [121, 121], ⟨80, 24⟩⟩ 1 2
      (InputState.diffFrom ⟨2, [121, 121, 121], ⟨80, 24⟩⟩ ⟨1, [121, 121], ⟨80, 24⟩⟩) =
        (⟨2, [121, 121, 121], ⟨80, 24⟩⟩, .ok ()) :=
  ⟨by decide,
    (input_diffs_undo_exactly ⟨1, [121, 121], ⟨80, 24⟩⟩ ⟨2, [121, 121, 121], ⟨80, 24⟩⟩
      ⟨1, [121, 121], ⟨80, 24⟩⟩ (by decide) (by decide)).1⟩

instance : LawfulSyncState InputState where
  Sound s := s.seq ≠ 0 ∧ s.pending.length < 2 ^ 64
  Follows _ _ := True
  follows_trans _ _ := trivial
  follows_setSeq _ _ := trivial
  seq_setSeq _ _ := rfl
  sound_setSeq nonzero sound := ⟨nonzero, sound.2⟩
  sound_seq sound := sound.1
  accepts sound _ := (refuse_ok _ _).mpr sound.1
  apply_seq applied := by
    obtain ⟨-, rfl⟩ := input_apply_ok.mp applied
    rfl
  apply_base applied := (input_apply_ok.mp applied).1
  apply_diffFrom _ baseSound := input_apply_diffFrom baseSound.2
  apply_fullDiff _ heldSound := input_apply_fullDiff heldSound.2

end Oxutrm.Sync
