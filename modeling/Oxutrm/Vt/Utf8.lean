import Oxutrm.Lib.Transducer

/-!
UTF-8, one byte at a time. A character cut short becomes one bad character, however
many of its bytes were there.
-/
namespace Oxutrm.Vt.Utf8
open Transducer

def bad : Char := Char.ofNat 0xFFFD

/-- How many bytes a character has that starts with this one. -/
def extent (b : UInt8) : Nat :=
  if b.toNat < 0x80 then 1
  else if b.toNat < 0xE0 then 2
  else if b.toNat < 0xF0 then 3
  else 4

def isTail (b : UInt8) : Bool := decide (0x80 ≤ b.toNat) && decide (b.toNat < 0xC0)

/-- Bytes that encode no character are a bad one. -/
def read (bytes : List UInt8) : Char := (bytes.toByteArray.utf8DecodeChar? 0).getD bad

/-- The bytes so far of a character, or the character when they are all there. -/
def collect (first : UInt8) (bytes : List UInt8) : List UInt8 × List Char :=
  if bytes.length < extent first then (bytes, []) else ([], [read bytes])

def start (b : UInt8) : List UInt8 × List Char :=
  if isTail b || decide (0xF8 ≤ b.toNat) then ([], [bad]) else collect b [b]

/-- The state is the bytes of an unfinished character. -/
def step (pending : List UInt8) (b : UInt8) : List UInt8 × List Char :=
  match pending with
  | [] => start b
  | first :: rest =>
      if isTail b then collect first (first :: rest ++ [b])
      else ((start b).1, bad :: (start b).2)

def encode (text : List Char) : List UInt8 := text.flatMap String.utf8EncodeChar

@[simp] theorem encode_nil : encode [] = [] := rfl

theorem encode_cons (c : Char) (text : List Char) :
    encode (c :: text) = String.utf8EncodeChar c ++ encode text := rfl

theorem encode_append (s t : List Char) : encode (s ++ t) = encode s ++ encode t := by
  simp only [encode, List.flatMap_append]

theorem read_encodeChar (c : Char) : read (String.utf8EncodeChar c) = c := by
  have decoded := @ByteArray.utf8DecodeChar?_utf8EncodeChar_append ByteArray.empty c
  rw [ByteArray.append_empty] at decoded
  rw [read, decoded, Option.getD_some]

theorem isTail_ofNat {n : Nat} (low : 0x80 ≤ n) (high : n < 0xC0) :
    isTail (UInt8.ofNat n) = true := by
  have small : (UInt8.ofNat n).toNat = n := Nat.mod_eq_of_lt (by omega)
  simp only [isTail, small, low, high, decide_true, Bool.and_self]

theorem extent_ofNat {n size : Nat} (first : n < 0x80 ∧ size = 1 ∨ 0xC0 ≤ n ∧ n < 0xE0 ∧ size = 2 ∨
    0xE0 ≤ n ∧ n < 0xF0 ∧ size = 3 ∨ 0xF0 ≤ n ∧ n < 0xF8 ∧ size = 4) :
    extent (UInt8.ofNat n) = size ∧ isTail (UInt8.ofNat n) = false ∧
      (UInt8.ofNat n).toNat < 0xF8 := by
  have small : (UInt8.ofNat n).toNat = n := Nat.mod_eq_of_lt (by omega)
  simp only [extent, isTail, small]
  refine ⟨?_, ?_, by omega⟩
  · split
    · omega
    · split
      · omega
      · split
        · omega
        · omega
  · rw [Bool.and_eq_false_iff, decide_eq_false_iff_not, decide_eq_false_iff_not]
    omega

/-- A first byte that announces the length, then tails. -/
theorem encodeChar_shape (c : Char) : ∃ first tails, String.utf8EncodeChar c = first :: tails ∧
    (extent first = (first :: tails).length ∧ isTail first = false ∧ first.toNat < 0xF8) ∧
    ∀ b ∈ tails, isTail b = true := by
  have small : c.val.toNat < 0x110000 := by
    cases c.valid with
    | inl low => exact Nat.lt_trans low (by decide)
    | inr high => exact high.2
  simp only [String.utf8EncodeChar]
  generalize c.val.toNat = v at small
  have tail : ∀ n, isTail (UInt8.ofNat (n % 0x40 + 0x80)) = true := fun n =>
    isTail_ofNat (by omega) (by omega)
  split
  · exact ⟨_, _, rfl, extent_ofNat (by simp; omega), by simp⟩
  · split
    · exact ⟨_, _, rfl, extent_ofNat (by simp; omega), by
        simp only [List.forall_mem_cons, tail, true_and, List.not_mem_nil, false_implies,
          implies_true]⟩
    · split
      · exact ⟨_, _, rfl, extent_ofNat (by simp; omega), by
          simp only [List.forall_mem_cons, tail, true_and, List.not_mem_nil, false_implies,
            implies_true]⟩
      · exact ⟨_, _, rfl, extent_ofNat (by simp; omega), by
          simp only [List.forall_mem_cons, tail, true_and, List.not_mem_nil, false_implies,
            implies_true]⟩

theorem toNat_of_mem_encodeChar {c : Char} {b : UInt8} (member : b ∈ String.utf8EncodeChar c)
    (low : b.toNat < 0x80) : c.toNat = b.toNat := by
  have ascii : c.val.toNat ≤ 0x7f := by
    by_contra high
    have tail : ∀ n, ¬ (UInt8.ofNat (n % 0x40 + 0x80)).toNat < 0x80 := fun n low => by
      rw [UInt8.toNat_ofNat'] at low
      omega
    have lead : ∀ n, 0x80 ≤ n → n < 0x100 → ¬ (UInt8.ofNat n).toNat < 0x80 := fun n _ _ low => by
      rw [UInt8.toNat_ofNat'] at low
      omega
    simp only [String.utf8EncodeChar, if_neg high] at member
    split at member
    · simp only [List.mem_cons, List.not_mem_nil, or_false] at member
      rcases member with rfl | rfl
      · exact lead _ (by omega) (by omega) low
      · exact tail _ low
    · split at member
      · simp only [List.mem_cons, List.not_mem_nil, or_false] at member
        rcases member with rfl | rfl | rfl
        · exact lead _ (by omega) (by omega) low
        · exact tail _ low
        · exact tail _ low
      · simp only [List.mem_cons, List.not_mem_nil, or_false] at member
        rcases member with rfl | rfl | rfl | rfl
        · exact lead _ (by omega) (by omega) low
        · exact tail _ low
        · exact tail _ low
        · exact tail _ low
  simp only [String.utf8EncodeChar, if_pos ascii, List.mem_singleton] at member
  rw [member, UInt8.toNat_ofNat']
  exact (Nat.mod_eq_of_lt (Nat.lt_of_le_of_lt ascii (by decide))).symm

theorem feed_tails {first : UInt8} (rest : List UInt8) {tails : List UInt8} (owed : tails ≠ [])
    (extent : extent first = (first :: rest ++ tails).length)
    (follow : ∀ b ∈ tails, isTail b = true) :
    feed step (first :: rest) tails = ([], [read (first :: rest ++ tails)]) := by
  induction tails generalizing rest with
  | nil => exact absurd rfl owed
  | cons b tails ih =>
      have tail := follow b List.mem_cons_self
      cases tails with
      | nil =>
          have whole : ¬ (first :: rest ++ [b]).length < Utf8.extent first := by omega
          simp only [feed_cons, feed_nil, step, tail, if_true, collect, if_neg whole,
            List.append_nil]
      | cons b' tails =>
          have short : (first :: rest ++ [b]).length < Utf8.extent first := by
            rw [extent]
            simp only [List.length_append, List.length_cons, List.length_nil]
            omega
          have split : first :: (rest ++ [b]) ++ b' :: tails = first :: rest ++ b :: b' :: tails := by
            simp only [List.cons_append, List.append_assoc, List.nil_append]
          rw [feed_cons, step, if_pos tail, collect, if_pos short, List.cons_append,
            ih _ (by simp) (by rw [split]; exact extent)
              fun c member => follow c (List.mem_cons_of_mem _ member), split]
          rfl

theorem feed_encodeChar (c : Char) : feed step [] (String.utf8EncodeChar c) = ([], [c]) := by
  obtain ⟨first, tails, shape, ⟨extent, lead, low⟩, follow⟩ := encodeChar_shape c
  have whole := read_encodeChar c
  have begins : start first = collect first [first] := by
    rw [start, lead, Bool.false_or, if_neg]
    rw [decide_eq_true_eq]
    omega
  rw [shape] at whole ⊢
  rw [feed_cons, step, begins, collect]
  cases tails with
  | nil =>
      have done : ¬ [first].length < Utf8.extent first := by omega
      simp only [if_neg done, feed_nil, List.append_nil, whole]
  | cons b tails =>
      have short : [first].length < Utf8.extent first := by
        rw [extent]
        simp only [List.length_cons, List.length_nil]
        omega
      have rest := feed_tails [] (by simp) extent follow
      simp only [if_pos short, rest, List.nil_append, List.cons_append, whole]

/-- What is encoded is read back, character by character. -/
theorem feed_encode (text : List Char) : feed step [] (encode text) = ([], text) := by
  induction text with
  | nil => rfl
  | cons c text ih =>
      rw [encode_cons, feed_append, feed_encodeChar, ih]
      rfl

/-- A byte below 128 ends whatever character was unfinished. -/
theorem step_ascii (pending : List UInt8) {b : UInt8} (low : b.toNat < 0x80) :
    step pending b = ([], (if pending = [] then [] else [bad]) ++ [read [b]]) := by
  have tail : isTail b = false := by
    simp only [isTail, Bool.and_eq_false_iff, decide_eq_false_iff_not]
    omega
  have begins : start b = ([], [read [b]]) := by
    have high : ¬ 0xF8 ≤ b.toNat := by omega
    simp only [start, tail, high, decide_false, Bool.or_self, Bool.false_eq_true, if_false, collect,
      extent, if_pos low, List.length_cons, List.length_nil, Nat.lt_irrefl]
  cases pending with
  | nil => rw [step, begins, if_pos rfl, List.nil_append]
  | cons first rest =>
      rw [step, if_neg (by rw [tail]; decide), begins, if_neg (by simp)]
      rfl

end Oxutrm.Vt.Utf8
