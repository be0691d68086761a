import Oxutrm.Host.Snapshot

/-!
What fitting a text costs. Nothing if the check accepts it; otherwise its control scalars
and no more of its end than the limit asks for.
-/
namespace Oxutrm.Host
open Proto

/-- The longest of the prefixes of `text` that stay within `max` bytes. -/
structure LongestWithin (max : Nat) (text kept : Text) : Prop where
  isPrefix : kept <+: text
  within : kept.len ≤ max
  longest : ∀ longer : Text, longer <+: text → longer.len ≤ max → longer <+: kept

/-- A text without its control scalars. -/
def glyphs (text : Text) : Text := text.filter fun c => !isControlScalar c

/-- The least repair of a text after which a check with a limit of `max` bytes accepts it. -/
structure LeastRepair (check : Text → Checked) (max : Nat) (fit : Text → Text) : Prop where
  accepted : ∀ text, check (fit text) = .ok ()
  unchanged : ∀ text, fit text = text ↔ check text = .ok ()
  idempotent : ∀ text, fit (fit text) = fit text
  otherwise : ∀ text, check text ≠ .ok () → LongestWithin max (glyphs text) (fit text)

/-- What the loop still adds is a prefix of the glyphs to come, and every prefix of them
that fits behind what it has already is a prefix of what it adds. -/
theorem fitLoop_adds (max : Nat) (out text : Text) :
    ∃ kept, fitLoop max out text = out ++ kept ∧ kept <+: glyphs text ∧
      ∀ longer, longer <+: glyphs text → Text.len (out ++ longer) ≤ max → longer <+: kept := by
  induction text generalizing out with
  | nil => exact ⟨[], by simp [fitLoop], List.prefix_refl [], fun _ isPrefix _ => isPrefix⟩
  | cons c text ih =>
      rw [fitLoop]
      by_cases control : isControlScalar c = true
      · have skipped : glyphs (c :: text) = glyphs text := List.filter_cons_of_neg (by simp [control])
        rw [if_pos control, skipped]
        exact ih out
      · have kept : glyphs (c :: text) = c :: glyphs text := List.filter_cons_of_pos (by simpa using control)
        rw [if_neg control, kept]
        by_cases full : out.len + Text.len [c] > max
        · refine ⟨[], by rw [if_pos full, List.append_nil], List.nil_prefix, fun longer begins fits => ?_⟩
          -- Anything longer would begin with the character there is no room for.
          cases longer with
          | nil => exact List.nil_prefix
          | cons d rest =>
              obtain ⟨rfl, _⟩ := List.cons_prefix_cons.mp begins
              have split : Text.len (out ++ d :: rest) = out.len + Text.len [d] + Text.len rest := by
                rw [len_append, ← List.singleton_append, len_append, Nat.add_assoc]
              omega
        · obtain ⟨more, adds, isPrefix, longest⟩ := ih (out ++ [c])
          refine ⟨c :: more, ?_, (List.prefix_cons_inj c).mpr isPrefix, fun longer begins fits => ?_⟩
          · rw [if_neg full, adds, List.append_assoc, List.singleton_append]
          · cases longer with
            | nil => exact List.nil_prefix
            | cons d rest =>
                obtain ⟨rfl, behind⟩ := List.cons_prefix_cons.mp begins
                refine (List.prefix_cons_inj d).mpr (longest rest behind ?_)
                rwa [List.append_assoc, List.singleton_append]

theorem fitLoop_longest (max : Nat) (text : Text) : LongestWithin max (glyphs text) (fitLoop max [] text) := by
  obtain ⟨kept, adds, isPrefix, longest⟩ := fitLoop_adds max [] text
  have fits := (@fitLoop_fits max [] (Nat.zero_le _) nofun text).1
  rw [adds, List.nil_append] at fits ⊢
  exact ⟨isPrefix, fits, longest⟩

/-- To leave alone what is accepted and to keep the longest prefix of the rest is the
least repair. -/
theorem leastRepair_of_loop {check : Text → Checked} {max : Nat} {fit : Text → Text}
    (loop : ∀ text, fit text = if check text = .ok () then text else fitLoop max [] text)
    (accepted : ∀ text, check (fit text) = .ok ()) : LeastRepair check max fit := by
  have unchanged : ∀ text, check text = .ok () → fit text = text := fun text fits => by rw [loop, if_pos fits]
  refine ⟨accepted, fun text => ⟨fun same => ?_, unchanged text⟩, fun text => unchanged _ (accepted text),
    fun text refused => ?_⟩
  · rw [← same]
    exact accepted text
  · rw [loop, if_neg refused]
    exact fitLoop_longest max text

/-- Both of the texts that are painted are repaired no further than their check asks. -/
theorem fit_is_the_least_repair :
    LeastRepair checkCellText maxCellText fitCellText ∧ LeastRepair checkTitle maxTitle fitTitle :=
  ⟨leastRepair_of_loop (fun _ => rfl) fitCellText_ok, leastRepair_of_loop (fun _ => rfl) fitTitle_ok⟩

end Oxutrm.Host
