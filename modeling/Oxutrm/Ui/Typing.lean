import Oxutrm.Ui.Characters

/-!
What a text field makes of the bytes that are typed. It reads them hastily: the byte that
shows that a character is cut short goes with it, though it may be a character by itself or
begin one.
-/
namespace Oxutrm.Ui
open Subparts Transducer

def isText (c : Char) : Bool := !isControl c

/-- The characters of some bytes. What is ill-formed is dropped a maximal subpart at a time,
and what is not whole at the end is kept back. -/
def decoded (bytes : List UInt8) : Text := chars (feed utf8.careful [] bytes).2

/-- What a field should hold of the bytes typed into it. -/
def expected (bytes : List UInt8) : Text := first isText fieldMax (decoded bytes)

/-- `from_utf8` is never given more than one character. -/
theorem lead_snoc {p rest tail : List UInt8} {a b : UInt8} {c : Char}
    (short : p = [] ∨ reading p = .more) (split : p ++ [b] = a :: rest)
    (reads : lead a rest = .char c tail) : tail = [] := by
  have means := lead_means a rest
  rw [reads, Lead.Means, ← split] at means
  by_contra some
  obtain ⟨front, d, rfl⟩ : ∃ front d, tail = front ++ [d] :=
    ⟨_, _, (List.dropLast_concat_getLast some).symm⟩
  rw [← List.append_assoc] at means
  -- All of the character was there before the last byte.
  have before := (List.append_inj' means rfl).1
  rcases short with rfl | more
  · exact String.utf8EncodeChar_ne_nil (List.append_eq_nil_iff.mp before.symm).1
  · obtain ⟨e, ⟨later, same⟩, proper⟩ := reading_more.mp more
    rw [before, List.append_assoc] at same
    obtain ⟨rfl, none⟩ := encode_unique same.symm
    rw [(List.append_eq_nil_iff.mp none).1, List.append_nil] at before
    exact proper before

/-- What `from_utf8` makes of a reading. -/
def Utf8.of : Reading Char → Utf8
  | .whole c => .valid [c]
  | .more => .incomplete
  | .bad => .invalid

theorem fromUtf8_reading {p : List UInt8} (short : p = [] ∨ reading p = .more) (b : UInt8) :
    fromUtf8 (p ++ [b]) = Utf8.of (reading (p ++ [b])) := by
  obtain ⟨a, rest, split⟩ := List.exists_cons_of_ne_nil (List.append_ne_nil_of_right_ne_nil p (List.cons_ne_nil b []))
  rw [split, fromUtf8, List.length_cons, fromUtf8Fuel, reading]
  cases reads : lead a rest with
  | char c tail =>
      cases lead_snoc short split reads
      simp only [fromUtf8Fuel]
      rfl
  | short => rfl
  | invalid => rfl

/-- A field that has read some characters. -/
def Field.Holds (f : Field) (pending : List UInt8) (text : Text) : Prop :=
  f.pending = pending ∧ (pending = [] ∨ reading pending = .more) ∧ f.text = first isText fieldMax text

theorem push_first (text : Text) (c : Char) :
    ([c].filter isText).foldl Field.push (first isText fieldMax text) = first isText fieldMax (text ++ [c]) := by
  unfold first
  rw [List.filter_append]
  cases wanted : isText c with
  | false =>
      rw [List.filter_cons_of_neg (by simp [wanted]), List.filter_nil, List.append_nil]
      rfl
  | true =>
      rw [List.filter_cons_of_pos wanted, List.filter_nil, List.foldl_cons, List.foldl_nil, Field.push,
        List.length_take]
      split
      next room =>
          have short : (text.filter isText).length < fieldMax := by omega
          rw [List.take_of_length_le (by omega), List.take_of_length_le]
          rw [List.length_append, List.length_singleton]
          omega
      next full => rw [List.take_append_of_le_length (by omega)]

theorem Field.typeByte_holds {f : Field} {pending : List UInt8} {text : Text} (holds : f.Holds pending text)
    (b : UInt8) :
    (f.typeByte b).Holds (utf8.hasty pending b).1 (text ++ (utf8.hasty pending b).2) := by
  obtain ⟨rfl, short, same⟩ := holds
  have finds := fromUtf8_reading short b
  cases reads : reading (f.pending ++ [b]) with
  | whole c =>
      rw [Code.hasty, show utf8.read (f.pending ++ [b]) = .whole c from reads]
      rw [reads, Utf8.of] at finds
      rw [typeByte, finds]
      refine ⟨rfl, .inl rfl, ?_⟩
      rw [← push_first, ← same]
      rfl
  | more =>
      rw [Code.hasty, show utf8.read (f.pending ++ [b]) = .more from reads]
      rw [reads, Utf8.of] at finds
      rw [typeByte, finds, List.append_nil]
      exact ⟨rfl, .inr reads, same⟩
  | bad =>
      rw [Code.hasty, show utf8.read (f.pending ++ [b]) = .bad from reads]
      rw [reads, Utf8.of] at finds
      rw [typeByte, finds, List.append_nil]
      exact ⟨rfl, .inl rfl, same⟩

theorem Field.typeBytes_holds {f : Field} {pending : List UInt8} {text : Text} (holds : f.Holds pending text)
    (bytes : List UInt8) :
    (f.typeBytes bytes).Holds (feed utf8.hasty pending bytes).1
      (text ++ (feed utf8.hasty pending bytes).2) := by
  induction bytes generalizing f pending text with
  | nil =>
      rw [feed_nil, List.append_nil]
      exact holds
  | cons b bytes ih =>
      rw [feed_cons, ← List.append_assoc]
      exact ih (typeByte_holds holds b)

theorem cleared_holds : (Field.set []).Holds [] [] := ⟨rfl, .inl rfl, rfl⟩

/-- What is typed into a field that was cleared is there after every byte, exactly if no
character that there is room for comes right behind an odd number of characters that are
cut short. -/
theorem typed_text_iff_spared (bytes : List UInt8) :
    (∀ typed, typed <+: bytes → ((Field.set []).typeBytes typed).text = expected typed) ↔
      Spared isText fieldMax (feed utf8.careful [] bytes).2 := by
  rw [← first_hasty_iff]
  refine forall_congr' fun typed => forall_congr' fun _ => ?_
  have holds := (Field.typeBytes_holds cleared_holds typed).2.2
  rw [holds, List.nil_append]
  rfl

/-- The first byte of a character that is cut short by a letter takes the letter with it. -/
theorem typed_letter_lost :
    ¬ ∀ bytes : List UInt8, ((Field.set []).typeBytes bytes).text = expected bytes := by
  intro right
  have lost : ((Field.set []).typeBytes [0xc3, 0x41]).text = [] := by decide
  have there : expected [0xc3, 0x41] = ['A'] := by decide
  have same := right [0xc3, 0x41]
  rw [lost, there] at same
  cases same

end Oxutrm.Ui
