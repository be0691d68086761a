import Oxutrm.Lib.Subparts
import Oxutrm.Ui.Field

/-!
What is read at the beginning of some bytes is a character exactly if the bytes begin with
its encoding, and short exactly if they are the beginning of one. So UTF-8 is a code that
is read a byte at a time.
-/
namespace Oxutrm.Ui
open Subparts

theorem isTail_iff {b : UInt8} : isTail b = true ↔ 0x80 ≤ b.toNat ∧ b.toNat < 0xc0 := by
  simp only [isTail, Bool.and_eq_true, decide_eq_true_eq, UInt8.le_iff_toNat_le, UInt8.reduceToNat]
  omega

theorem isSecondOfThree_iff {first second : UInt8} :
    isSecondOfThree first second = true ↔ isTail second = true ∧
      (first.toNat = 0xe0 → 0xa0 ≤ second.toNat) ∧ (first.toNat = 0xed → second.toNat < 0xa0) := by
  rw [isTail_iff, isSecondOfThree]
  simp only [← UInt8.toNat_inj, UInt8.reduceToNat]
  split
  · simp only [Bool.and_eq_true, decide_eq_true_eq, UInt8.le_iff_toNat_le, UInt8.reduceToNat]
    omega
  · split
    · simp only [Bool.and_eq_true, decide_eq_true_eq, UInt8.le_iff_toNat_le, UInt8.reduceToNat]
      omega
    · rw [isTail_iff]
      omega

theorem isSecondOfFour_iff {first second : UInt8} :
    isSecondOfFour first second = true ↔ isTail second = true ∧
      (first.toNat = 0xf0 → 0x90 ≤ second.toNat) ∧ (first.toNat = 0xf4 → second.toNat < 0x90) := by
  rw [isTail_iff, isSecondOfFour]
  simp only [← UInt8.toNat_inj, UInt8.reduceToNat]
  split
  · simp only [Bool.and_eq_true, decide_eq_true_eq, UInt8.le_iff_toNat_le, UInt8.reduceToNat]
    omega
  · split
    · simp only [Bool.and_eq_true, decide_eq_true_eq, UInt8.le_iff_toNat_le, UInt8.reduceToNat]
      omega
    · rw [isTail_iff]
      omega

theorem lead_cases (b : UInt8) (rest : List UInt8) :
    b.toNat < 0x80 ∧ lead b rest = .char (Char.ofNat b.toNat) rest ∨
    0xc2 ≤ b.toNat ∧ b.toNat < 0xe0 ∧ lead b rest = leadOfTwo b rest ∨
    0xe0 ≤ b.toNat ∧ b.toNat < 0xf0 ∧ lead b rest = leadOfThree b rest ∨
    0xf0 ≤ b.toNat ∧ b.toNat < 0xf5 ∧ lead b rest = leadOfFour b rest ∨
    (0x80 ≤ b.toNat ∧ b.toNat < 0xc2 ∨ 0xf5 ≤ b.toNat) ∧ lead b rest = .invalid := by
  unfold lead
  simp only [Bool.and_eq_true, decide_eq_true_eq, UInt8.le_iff_toNat_le, UInt8.lt_iff_toNat_lt,
    UInt8.reduceToNat]
  split
  · exact .inl ⟨by assumption, rfl⟩
  · split
    · exact .inr (.inl ⟨by omega, by omega, rfl⟩)
    · split
      · exact .inr (.inr (.inl ⟨by omega, by omega, rfl⟩))
      · split
        · exact .inr (.inr (.inr (.inl ⟨by omega, by omega, rfl⟩)))
        · exact .inr (.inr (.inr (.inr ⟨by omega, rfl⟩)))

theorem byte_eq {n : Nat} {b : UInt8} (same : n = b.toNat) : UInt8.ofNat n = b := by
  rw [same, UInt8.ofNat_toNat]

theorem val_ofNat {n : Nat} (valid : n.isValidChar) : (Char.ofNat n).val.toNat = n := by
  rw [Char.ofNat, dif_pos valid]
  rfl

theorem encode_one {b : UInt8} (low : b.toNat < 0x80) :
    String.utf8EncodeChar (Char.ofNat b.toNat) = [b] := by
  simp only [String.utf8EncodeChar, val_ofNat (show b.toNat.isValidChar from .inl (by omega))]
  rw [if_pos (by omega), byte_eq rfl]

theorem encode_two {a b : UInt8} (first : 0xc2 ≤ a.toNat ∧ a.toNat < 0xe0) (tail : isTail b = true) :
    String.utf8EncodeChar (Char.ofNat (a.toNat % 32 * 64 + bits b)) = [a, b] := by
  have range := isTail_iff.mp tail
  unfold bits
  simp only [String.utf8EncodeChar,
    val_ofNat (show (a.toNat % 32 * 64 + b.toNat % 64).isValidChar from .inl (by omega))]
  rw [if_neg (by omega), if_pos (by omega), byte_eq (b := a) (by omega), byte_eq (b := b) (by omega)]

theorem encode_three {a b c : UInt8} (first : 0xe0 ≤ a.toNat ∧ a.toNat < 0xf0)
    (second : isSecondOfThree a b = true) (tail : isTail c = true) :
    String.utf8EncodeChar (Char.ofNat ((a.toNat % 16 * 64 + bits b) * 64 + bits c)) = [a, b, c] := by
  obtain ⟨tailB, low, high⟩ := isSecondOfThree_iff.mp second
  have rangeB := isTail_iff.mp tailB
  have rangeC := isTail_iff.mp tail
  unfold bits
  have valid : ((a.toNat % 16 * 64 + b.toNat % 64) * 64 + c.toNat % 64).isValidChar := by
    unfold Nat.isValidChar
    omega
  simp only [String.utf8EncodeChar, val_ofNat valid]
  rw [if_neg (by omega), if_neg (by omega), if_pos (by omega), byte_eq (b := a) (by omega),
    byte_eq (b := b) (by omega), byte_eq (b := c) (by omega)]

theorem encode_four {a b c d : UInt8} (first : 0xf0 ≤ a.toNat ∧ a.toNat < 0xf5)
    (second : isSecondOfFour a b = true) (tailC : isTail c = true) (tailD : isTail d = true) :
    String.utf8EncodeChar
      (Char.ofNat (((a.toNat % 8 * 64 + bits b) * 64 + bits c) * 64 + bits d)) = [a, b, c, d] := by
  obtain ⟨tailB, low, high⟩ := isSecondOfFour_iff.mp second
  have rangeB := isTail_iff.mp tailB
  have rangeC := isTail_iff.mp tailC
  have rangeD := isTail_iff.mp tailD
  unfold bits
  have valid : (((a.toNat % 8 * 64 + b.toNat % 64) * 64 + c.toNat % 64) * 64 + d.toNat % 64).isValidChar := by
    unfold Nat.isValidChar
    omega
  simp only [String.utf8EncodeChar, val_ofNat valid]
  rw [if_neg (by omega), if_neg (by omega), if_neg (by omega), byte_eq (b := a) (by omega),
    byte_eq (b := b) (by omega), byte_eq (b := c) (by omega), byte_eq (b := d) (by omega)]

/-- The bytes of a character. -/
inductive Formed : List UInt8 → Prop where
  | one {a : UInt8} (first : a.toNat < 0x80) : Formed [a]
  | two {a b : UInt8} (first : 0xc2 ≤ a.toNat ∧ a.toNat < 0xe0) (tail : isTail b = true) : Formed [a, b]
  | three {a b c : UInt8} (first : 0xe0 ≤ a.toNat ∧ a.toNat < 0xf0) (second : isSecondOfThree a b = true)
      (tail : isTail c = true) : Formed [a, b, c]
  | four {a b c d : UInt8} (first : 0xf0 ≤ a.toNat ∧ a.toNat < 0xf5) (second : isSecondOfFour a b = true)
      (third : isTail c = true) (tail : isTail d = true) : Formed [a, b, c, d]

theorem formed_encodes {bytes : List UInt8} (formed : Formed bytes) : ∃ c, String.utf8EncodeChar c = bytes := by
  cases formed with
  | one first => exact ⟨_, encode_one first⟩
  | two first tail => exact ⟨_, encode_two first tail⟩
  | three first second tail => exact ⟨_, encode_three first second tail⟩
  | four first second third tail => exact ⟨_, encode_four first second third tail⟩

theorem isTail_ofNat {n : Nat} (low : 0x80 ≤ n) (high : n < 0xc0) : isTail (UInt8.ofNat n) = true := by
  rw [isTail_iff, UInt8.toNat_ofNat_of_lt' (show n < 256 by omega)]
  exact ⟨low, high⟩

theorem encode_formed (c : Char) : Formed (String.utf8EncodeChar c) := by
  have valid := c.valid
  have tail : ∀ n, isTail (UInt8.ofNat (n % 0x40 + 0x80)) = true := fun n => isTail_ofNat (by omega) (by omega)
  simp only [UInt32.isValidChar, Nat.isValidChar] at valid
  simp only [String.utf8EncodeChar]
  generalize c.val.toNat = v at valid
  have small : ∀ n, n < 0x100 → (UInt8.ofNat n).toNat = n := fun n => UInt8.toNat_ofNat_of_lt'
  split
  · exact .one (by rw [small _ (by omega)]; omega)
  · split
    · exact .two (by rw [small _ (by omega)]; omega) (tail _)
    · split
      · refine .three (by rw [small _ (by omega)]; omega) ?_ (tail _)
        rw [isSecondOfThree_iff, small _ (by omega), small _ (by omega)]
        exact ⟨tail _, by omega, by omega⟩
      · refine .four (by rw [small _ (by omega)]; omega) ?_ (tail _) (tail _)
        rw [isSecondOfFour_iff, small _ (by omega), small _ (by omega)]
        exact ⟨tail _, by omega, by omega⟩

/-- What the bytes of a character begin with, or go on with. -/
def Lead.Means (bytes : List UInt8) : Lead → Prop
  | .char c tail => bytes = String.utf8EncodeChar c ++ tail
  | .short => ∃ more, more ≠ [] ∧ Formed (bytes ++ more)
  | .invalid => ∀ more, ¬ Formed (bytes ++ more)

theorem exists_secondOfThree (a : UInt8) : ∃ b, isSecondOfThree a b = true := by
  by_cases low : a.toNat = 0xe0
  · exact ⟨0xa0, isSecondOfThree_iff.mpr ⟨by decide, fun _ => by decide, by omega⟩⟩
  · exact ⟨0x80, isSecondOfThree_iff.mpr ⟨by decide, by omega, fun _ => by decide⟩⟩

theorem exists_secondOfFour (a : UInt8) : ∃ b, isSecondOfFour a b = true := by
  by_cases low : a.toNat = 0xf0
  · exact ⟨0x90, isSecondOfFour_iff.mpr ⟨by decide, fun _ => by decide, by omega⟩⟩
  · exact ⟨0x80, isSecondOfFour_iff.mpr ⟨by decide, by omega, fun _ => by decide⟩⟩

theorem isTail_least : isTail 0x80 = true := by decide

theorem formed_one {a : UInt8} {rest : List UInt8} (formed : Formed (a :: rest)) :
    a.toNat < 0x80 ∨ 0xc2 ≤ a.toNat ∧ a.toNat < 0xf5 := by
  cases formed with
  | one first | two first | three first | four first => omega

theorem formed_two {a : UInt8} {rest : List UInt8} (first : 0xc2 ≤ a.toNat ∧ a.toNat < 0xe0)
    (formed : Formed (a :: rest)) : ∃ b, rest = [b] ∧ isTail b = true := by
  cases formed with
  | one first' | three first' | four first' => omega
  | two _ tail => exact ⟨_, rfl, tail⟩

theorem formed_three {a : UInt8} {rest : List UInt8} (first : 0xe0 ≤ a.toNat ∧ a.toNat < 0xf0)
    (formed : Formed (a :: rest)) :
    ∃ b c, rest = [b, c] ∧ isSecondOfThree a b = true ∧ isTail c = true := by
  cases formed with
  | one first' | two first' | four first' => omega
  | three _ second tail => exact ⟨_, _, rfl, second, tail⟩

theorem formed_four {a : UInt8} {rest : List UInt8} (first : 0xf0 ≤ a.toNat ∧ a.toNat < 0xf5)
    (formed : Formed (a :: rest)) :
    ∃ b c d, rest = [b, c, d] ∧ isSecondOfFour a b = true ∧ isTail c = true ∧ isTail d = true := by
  cases formed with
  | one first' | two first' | three first' => omega
  | four _ second third tail => exact ⟨_, _, _, rfl, second, third, tail⟩

theorem leadOfTwo_means {a : UInt8} (first : 0xc2 ≤ a.toNat ∧ a.toNat < 0xe0) (rest : List UInt8) :
    (leadOfTwo a rest).Means (a :: rest) := by
  match rest with
  | [] => exact ⟨[0x80], List.cons_ne_nil _ _, .two first isTail_least⟩
  | b :: rest =>
      by_cases follows : isTail b = true
      · rw [leadOfTwo, if_pos follows, Lead.Means, encode_two first follows]
        rfl
      · rw [leadOfTwo, if_neg follows]
        intro more formed
        obtain ⟨_, same, tail⟩ := formed_two first formed
        obtain ⟨rfl, _⟩ := List.cons.inj same
        exact follows tail

theorem leadOfThree_means {a : UInt8} (first : 0xe0 ≤ a.toNat ∧ a.toNat < 0xf0) (rest : List UInt8) :
    (leadOfThree a rest).Means (a :: rest) := by
  match rest with
  | [] =>
      obtain ⟨b, second⟩ := exists_secondOfThree a
      exact ⟨[b, 0x80], List.cons_ne_nil _ _, .three first second isTail_least⟩
  | b :: rest =>
      unfold leadOfThree
      by_cases second : isSecondOfThree a b = true
      · simp only [if_pos second]
        match rest with
        | [] => exact ⟨[0x80], List.cons_ne_nil _ _, .three first second isTail_least⟩
        | c :: rest =>
            by_cases follows : isTail c = true
            · simp only [if_pos follows]
              rw [Lead.Means, encode_three first second follows]
              rfl
            · simp only [if_neg follows]
              intro more formed
              obtain ⟨_, _, same, _, tail⟩ := formed_three first formed
              obtain ⟨_, same⟩ := List.cons.inj same
              obtain ⟨rfl, _⟩ := List.cons.inj same
              exact follows tail
      · simp only [if_neg second]
        intro more formed
        obtain ⟨_, _, same, second', _⟩ := formed_three first formed
        obtain ⟨rfl, _⟩ := List.cons.inj same
        exact second second'

theorem leadOfFour_means {a : UInt8} (first : 0xf0 ≤ a.toNat ∧ a.toNat < 0xf5) (rest : List UInt8) :
    (leadOfFour a rest).Means (a :: rest) := by
  match rest with
  | [] =>
      obtain ⟨b, second⟩ := exists_secondOfFour a
      exact ⟨[b, 0x80, 0x80], List.cons_ne_nil _ _, .four first second isTail_least isTail_least⟩
  | b :: rest =>
      unfold leadOfFour
      by_cases second : isSecondOfFour a b = true
      · simp only [if_pos second]
        match rest with
        | [] => exact ⟨[0x80, 0x80], List.cons_ne_nil _ _, .four first second isTail_least isTail_least⟩
        | c :: rest =>
            by_cases third : isTail c = true
            · simp only [if_pos third]
              match rest with
              | [] => exact ⟨[0x80], List.cons_ne_nil _ _, .four first second third isTail_least⟩
              | d :: rest =>
                  by_cases follows : isTail d = true
                  · simp only [if_pos follows]
                    rw [Lead.Means, encode_four first second third follows]
                    rfl
                  · simp only [if_neg follows]
                    intro more formed
                    obtain ⟨_, _, _, same, _, _, tail⟩ := formed_four first formed
                    obtain ⟨_, same⟩ := List.cons.inj same
                    obtain ⟨_, same⟩ := List.cons.inj same
                    obtain ⟨rfl, _⟩ := List.cons.inj same
                    exact follows tail
            · simp only [if_neg third]
              intro more formed
              obtain ⟨_, _, _, same, _, third', _⟩ := formed_four first formed
              obtain ⟨_, same⟩ := List.cons.inj same
              obtain ⟨rfl, _⟩ := List.cons.inj same
              exact third third'
      · simp only [if_neg second]
        intro more formed
        obtain ⟨_, _, _, same, second', _⟩ := formed_four first formed
        obtain ⟨rfl, _⟩ := List.cons.inj same
        exact second second'

theorem lead_means (b : UInt8) (rest : List UInt8) : (lead b rest).Means (b :: rest) := by
  rcases lead_cases b rest with ⟨low, one⟩ | ⟨low, high, two⟩ | ⟨low, high, three⟩ | ⟨low, high, four⟩ |
      ⟨outside, none⟩
  · rw [one, Lead.Means, encode_one low]
    rfl
  · exact two ▸ leadOfTwo_means ⟨low, high⟩ rest
  · exact three ▸ leadOfThree_means ⟨low, high⟩ rest
  · exact four ▸ leadOfFour_means ⟨low, high⟩ rest
  · rw [none]
    intro more formed
    have first := formed_one formed
    omega

theorem encode_unique {c d : Char} {tail : List UInt8}
    (same : String.utf8EncodeChar c = String.utf8EncodeChar d ++ tail) : c = d ∧ tail = [] := by
  have whole := @ByteArray.utf8DecodeChar?_utf8EncodeChar_append ByteArray.empty c
  have front := @ByteArray.utf8DecodeChar?_utf8EncodeChar_append tail.toByteArray d
  rw [ByteArray.append_empty, same, List.toByteArray_append, front, Option.some_inj] at whole
  subst whole
  exact ⟨rfl, List.self_eq_append_right.mp same⟩

theorem formed_tails {a : UInt8} {rest : List UInt8} (formed : Formed (a :: rest)) :
    ∀ b ∈ rest, isTail b = true := by
  cases formed with
  | one => simp
  | two _ tail => simpa using tail
  | three _ second tail => simpa using ⟨(isSecondOfThree_iff.mp second).1, tail⟩
  | four _ second third tail => simpa using ⟨(isSecondOfFour_iff.mp second).1, third, tail⟩

theorem lead_tail {b : UInt8} (tail : isTail b = true) (rest : List UInt8) : lead b rest = .invalid := by
  have range := isTail_iff.mp tail
  rcases lead_cases b rest with h | h | h | h | h
  · omega
  · omega
  · omega
  · omega
  · exact h.2

/-- What some bytes are to `from_utf8`, which is given the bytes of one character at most. -/
def reading : List UInt8 → Reading Char
  | [] => .more
  | b :: rest =>
      match lead b rest with
      | .char c [] => .whole c
      | .char _ (_ :: _) => .bad
      | .short => .more
      | .invalid => .bad

/-- Bytes that a character begins with are bad only if they go on to none. -/
theorem reading_cases (p : List UInt8) :
    (∃ c, reading p = .whole c ∧ p = String.utf8EncodeChar c) ∨
    (∃ c more, reading p = .more ∧ more ≠ [] ∧ p ++ more = String.utf8EncodeChar c) ∨
    (reading p = .bad ∧ ∀ c more, p ++ more ≠ String.utf8EncodeChar c) := by
  match p with
  | [] => exact .inr (.inl ⟨' ', _, rfl, String.utf8EncodeChar_ne_nil, List.nil_append _⟩)
  | b :: rest =>
      have means := lead_means b rest
      cases reads : lead b rest with
      | char c tail =>
          rw [reads] at means
          cases tail with
          | nil => exact .inl ⟨c, by rw [reading, reads], means.trans (List.append_nil _)⟩
          | cons d tail =>
              refine .inr (.inr ⟨by rw [reading, reads], fun c' more same => ?_⟩)
              rw [show b :: rest = String.utf8EncodeChar c ++ d :: tail from means, List.append_assoc] at same
              cases (encode_unique same.symm).2
      | short =>
          rw [reads] at means
          obtain ⟨more, some, formed⟩ := means
          obtain ⟨c, same⟩ := formed_encodes formed
          exact .inr (.inl ⟨c, more, by rw [reading, reads], some, same.symm⟩)
      | invalid =>
          rw [reads] at means
          exact .inr (.inr ⟨by rw [reading, reads], fun c more same => means more (same ▸ encode_formed c)⟩)

theorem reading_whole {p : List UInt8} {c : Char} : reading p = .whole c ↔ p = String.utf8EncodeChar c := by
  rcases reading_cases p with ⟨d, reads, rfl⟩ | ⟨d, more, reads, some, same⟩ | ⟨reads, none⟩
  · rw [reads, Reading.whole.injEq]
    exact ⟨congrArg _, fun same => (encode_unique (same.trans (List.append_nil _).symm)).1⟩
  · refine ⟨fun whole => (nomatch reads.symm.trans whole), fun whole => ?_⟩
    exact absurd (encode_unique (same.symm.trans (congrArg (· ++ more) whole))).2 some
  · exact ⟨fun whole => (nomatch reads.symm.trans whole),
      fun whole => absurd ((List.append_nil p).trans whole) (none c [])⟩

theorem reading_more {p : List UInt8} :
    reading p = .more ↔ ∃ c, p <+: String.utf8EncodeChar c ∧ p ≠ String.utf8EncodeChar c := by
  rcases reading_cases p with ⟨d, reads, rfl⟩ | ⟨d, more, reads, some, same⟩ | ⟨reads, none⟩
  · refine ⟨fun more => (nomatch reads.symm.trans more), fun ⟨c, ⟨tail, split⟩, proper⟩ => ?_⟩
    obtain ⟨rfl, _⟩ := encode_unique split.symm
    exact absurd rfl proper
  · exact ⟨fun _ => ⟨d, ⟨more, same⟩, fun whole => some (List.append_right_eq_self.mp (same.trans whole.symm))⟩,
      fun _ => reads⟩
  · exact ⟨fun more => (nomatch reads.symm.trans more), fun ⟨c, ⟨tail, split⟩, _⟩ => absurd split (none c tail)⟩

/-- UTF-8, as a code that is read a byte at a time. -/
def utf8 : Code Char UInt8 where
  encode := String.utf8EncodeChar
  read := reading
  encode_ne_nil _ := String.utf8EncodeChar_ne_nil
  read_whole := reading_whole
  read_more := reading_more
  synchronized := by
    intro p b c some isPrefix
    obtain ⟨a, q, rfl⟩ := List.exists_cons_of_ne_nil some
    obtain ⟨more, split⟩ := isPrefix
    have formed := encode_formed c
    rw [← split, List.cons_append, List.cons_append] at formed
    have tail := formed_tails formed b (by simp)
    rw [reading, lead_tail tail]

end Oxutrm.Ui
