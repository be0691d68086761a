import Oxutrm.Ui.Reading

/-!
One paste, cut into reads in any way: what reaches the sink does not depend on the cuts,
and the first end marker ends the paste.
-/
namespace Oxutrm.Ui

/-- A sink that keeps what it is given. -/
def push (given : List UInt8) (b : UInt8) : List UInt8 := given ++ [b]

theorem foldl_push (bytes given : List UInt8) : bytes.foldl push given = given ++ bytes := by
  induction bytes generalizing given with
  | nil => rw [List.foldl_nil, List.append_nil]
  | cons b bytes ih => rw [List.foldl_cons, ih, push, List.append_assoc, List.singleton_append]

/-- Reads given one after the other: the state they leave and what the sink was given. -/
def pasteReads : Option Matched × List UInt8 → List (List UInt8) → Option Matched × List UInt8
  | state, [] => state
  | state, read :: reads =>
      let (pasting, given, _) := pasteThrough push state.1 state.2 read
      pasteReads (pasting, given) reads

/-- What the sink was given and what was held back or returned make up the whole. -/
def AccountsFor (whole : List UInt8) : Option Matched × List UInt8 × List UInt8 → Prop
  | (some m, given, _) => given ++ pasteEnd.take m.val = whole
  | (none, given, rest) => given ++ pasteEnd ++ rest = whole

theorem pasteThrough_accounts (m : Matched) (given bytes : List UInt8) :
    AccountsFor (given ++ pasteEnd.take m.val ++ bytes)
      (pasteThrough push (some m) given bytes) := by
  induction bytes generalizing m given with
  | nil => exact (List.append_nil _).symm
  | cons b bytes ih =>
      rw [pasteThrough_cons]
      split
      · rename_i same
        have longer : given ++ pasteEnd.take (m.val + 1) ++ bytes =
            given ++ pasteEnd.take m.val ++ b :: bytes := by
          rw [take_succ_pasteEnd, same]
          simp only [List.append_assoc, List.singleton_append]
        split
        · rename_i last
          rw [← longer, last]
          rfl
        · rw [← longer]
          exact ih _ given
      · rw [foldl_push]
        split
        · rename_i begins
          have whole : given ++ pasteEnd.take m.val ++ pasteEnd.take 1 ++ bytes =
              given ++ pasteEnd.take m.val ++ b :: bytes := by
            rw [begins]
            simp only [List.append_assoc]
            rfl
          rw [← whole]
          exact ih 1 _
        · have whole : push (given ++ pasteEnd.take m.val) b ++ pasteEnd.take 0 ++ bytes =
              given ++ pasteEnd.take m.val ++ b :: bytes := by
            simp only [push, List.take_zero, List.append_nil, List.append_assoc,
              List.singleton_append]
          rw [← whole]
          exact ih 0 _

theorem pasteReads_open (reads : List (List UInt8)) (m : Matched) (given : List UInt8)
    (never : ¬ pasteEnd <:+: given ++ pasteEnd.take m.val ++ reads.flatten) :
    ∃ m' given', pasteReads (some m, given) reads = (some m', given') ∧
      given' ++ pasteEnd.take m'.val = given ++ pasteEnd.take m.val ++ reads.flatten := by
  induction reads generalizing m given with
  | nil => exact ⟨m, given, rfl, (List.append_nil _).symm⟩
  | cons read reads ih =>
      rw [List.flatten_cons, ← List.append_assoc] at never ⊢
      have accounts := pasteThrough_accounts m given read
      rcases first : pasteThrough push (some m) given read with ⟨matched, given', rest⟩
      rw [first] at accounts
      simp only [AccountsFor] at accounts
      simp only [pasteReads, first]
      cases matched with
      | none =>
          exfalso
          apply never
          rw [← accounts]
          simp only [List.append_assoc]
          exact ⟨given', rest ++ reads.flatten, by simp only [List.append_assoc]⟩
      | some m' =>
          rw [← accounts] at never ⊢
          exact ih m' given' never

theorem Owes.reads {reads : List (List UInt8)} {m : Matched} {given owed final after : List UInt8}
    (owes : Owes push m given owed final) (more : owed ≠ [])
    (whole : reads.flatten = owed ++ after) :
    ∃ earlier read later rest m' given', reads = earlier ++ read :: later ∧
      earlier.flatten.length < owed.length ∧ earlier.flatten ++ read = owed ++ rest ∧
      pasteReads (some m, given) earlier = (some m', given') ∧
      pasteThrough push (some m') given' read = (none, final, rest) := by
  induction reads generalizing m given owed with
  | nil =>
      have none_ : owed ++ after = [] := whole.symm
      exact absurd (List.append_eq_nil_iff.mp none_).1 more
  | cons read reads ih =>
      rw [List.flatten_cons] at whole
      rcases List.append_eq_append_iff.mp whole with ⟨left, same, rest⟩ | ⟨rest, same, -⟩
      · cases left with
        | nil =>
            rw [List.append_nil] at same
            refine ⟨[], read, reads, [], m, given, rfl, ?_, ?_, rfl, ?_⟩
            · exact List.length_pos_iff.mpr more
            · rw [same, List.append_nil]
              rfl
            · have done := owes []
              rwa [List.append_nil, same] at done
        | cons b left =>
            rw [same] at owes
            obtain ⟨m', given', first, next⟩ := owes.part push (List.cons_ne_nil b left)
            obtain ⟨earlier, last, later, beyond, m'', given'', split, short, joined, reached, ended⟩ :=
              ih next (List.cons_ne_nil b left) rest
            refine ⟨read :: earlier, last, later, beyond, m'', given'', ?_, ?_, ?_, ?_, ended⟩
            · rw [split, List.cons_append]
            · rw [same, List.flatten_cons, List.length_append, List.length_append]
              omega
            · rw [same, List.flatten_cons, List.append_assoc, joined, List.append_assoc]
            · simp only [pasteReads, first]
              exact reached
      · refine ⟨[], read, reads, rest, m, given, rfl, List.length_pos_iff.mpr more, same, rfl, ?_⟩
        rw [same]
        exact owes rest

/-- However a paste is cut into reads: without the end marker the sink was given all of
it but a beginning of the marker, which is what the state remembers; with it, the sink
was given what stands before the first one, and the read that holds its last byte ends
the paste and returns what follows. -/
theorem paste_ends_at_the_first_marker (reads : List (List UInt8)) :
    (¬ pasteEnd <:+: reads.flatten →
      ∃ m given, pasteReads (some 0, []) reads = (some m, given) ∧
        given ++ pasteEnd.take m.val = reads.flatten) ∧
    (∀ before after, reads.flatten = before ++ pasteEnd ++ after →
      ¬ pasteEnd <:+: before ++ pasteEnd.dropLast →
      ∃ earlier read later rest m given, reads = earlier ++ read :: later ∧
        earlier.flatten.length < (before ++ pasteEnd).length ∧
        earlier.flatten ++ read = before ++ pasteEnd ++ rest ∧
        pasteReads (some 0, []) earlier = (some m, given) ∧
        pasteThrough push (some m) given read = (none, before, rest)) := by
  constructor
  · intro never
    exact pasteReads_open reads 0 [] never
  · intro before after whole first
    have inner : ¬ pasteEnd <:+: before := fun found =>
      first (found.trans (List.prefix_append _ _).isInfix)
    have owes := owes_text push [] inner
    rw [foldl_push, List.nil_append] at owes
    exact owes.reads (List.append_ne_nil_of_right_ne_nil _ (by decide)) whole

example : pasteReads (some 0, []) [[97, 27, 91], [27, 91, 50], [48, 49, 126, 98]] = (none, [97, 27, 91]) := by
  decide

end Oxutrm.Ui
