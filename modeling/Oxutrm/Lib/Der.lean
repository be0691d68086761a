import Mathlib.Data.Nat.Digits.Lemmas

/-!
Tag-length-value strings with definite lengths: what a header announces, and the one header
strict DER writes.
-/
namespace Oxutrm.Der

/-- Octets as one number, the first the most significant. -/
def bigEndian (octets : List UInt8) : Nat := octets.foldl (fun n b => n * 256 + b.toNat) 0

/-- The definite forms: one octet below 128, or the number of octets that follow. -/
inductive LengthOctets : List UInt8 → Nat → Prop where
  | short (b : UInt8) (small : b.toNat < 128) : LengthOctets [b] b.toNat
  | long (b : UInt8) (octets : List UInt8) (count : b.toNat = 128 + octets.length)
      (some_ : 1 ≤ octets.length) (few : octets.length ≤ 4) :
      LengthOctets (b :: octets) (bigEndian octets)

/-- `whole` is one tag-length-value. -/
def Framed (tag : UInt8) (value whole : List UInt8) : Prop :=
  ∃ octets, LengthOctets octets value.length ∧ whole = tag :: octets ++ value

/-- The fewest octets that say `n`. -/
def lengthOctets (n : Nat) : List UInt8 :=
  if n < 128 then [UInt8.ofNat n]
  else
    UInt8.ofNat (128 + (Nat.digits 256 n).length) ::
      (Nat.digits 256 n).reverse.map UInt8.ofNat

def frame (tag : UInt8) (value : List UInt8) : List UInt8 :=
  tag :: lengthOctets value.length ++ value

/-- A value under one tag octet. -/
inductive Element where
  | primitive (tag : UInt8) (contents : List UInt8)
  | constructed (tag : UInt8) (parts : List Element)

mutual

def Element.encode : Element → List UInt8
  | .primitive tag contents => frame tag contents
  | .constructed tag parts => frame tag (encodeAll parts)

def encodeAll : List Element → List UInt8
  | [] => []
  | part :: parts => part.encode ++ encodeAll parts

end

theorem encodeAll_append (first second : List Element) :
    encodeAll (first ++ second) = encodeAll first ++ encodeAll second := by
  induction first with
  | nil => rfl
  | cons part parts ih => rw [List.cons_append, encodeAll, ih, encodeAll, List.append_assoc]

theorem foldl_reverse_ofDigits (digits : List Nat) :
    digits.reverse.foldl (fun n d => n * 256 + d) 0 = Nat.ofDigits 256 digits := by
  induction digits with
  | nil => rfl
  | cons d digits ih =>
      rw [List.reverse_cons, List.foldl_append, ih, Nat.ofDigits_cons]
      change Nat.ofDigits 256 digits * 256 + d = d + 256 * Nat.ofDigits 256 digits
      omega

theorem bigEndian_digits (n : Nat) :
    bigEndian ((Nat.digits 256 n).reverse.map UInt8.ofNat) = n := by
  have each : ∀ (digits : List Nat) (start : Nat), (∀ d ∈ digits, d < 256) →
      (digits.map UInt8.ofNat).foldl (fun n b => n * 256 + b.toNat) start =
        digits.foldl (fun n d => n * 256 + d) start := by
    intro digits
    induction digits with
    | nil => exact fun _ _ => rfl
    | cons d digits ih =>
        intro start small
        have value : (UInt8.ofNat d).toNat = d := by
          rw [UInt8.toNat_ofNat']
          exact Nat.mod_eq_of_lt (small d List.mem_cons_self)
        rw [List.map_cons, List.foldl_cons, List.foldl_cons, value]
        exact ih _ fun e member => small e (List.mem_cons_of_mem d member)
  have small : ∀ d ∈ (Nat.digits 256 n).reverse, d < 256 := fun d member =>
    Nat.digits_lt_base (by omega) (List.mem_reverse.mp member)
  rw [bigEndian, each _ 0 small, foldl_reverse_ofDigits, Nat.ofDigits_digits]

theorem lengthOctets_spec {n : Nat} (small : n < 2 ^ 32) : LengthOctets (lengthOctets n) n := by
  unfold lengthOctets
  split
  · rename_i short
    have value : (UInt8.ofNat n).toNat = n := by
      rw [UInt8.toNat_ofNat']
      exact Nat.mod_eq_of_lt (by omega)
    have octets := LengthOctets.short (UInt8.ofNat n) (by omega)
    rwa [value] at octets
  · rename_i long
    have few : (Nat.digits 256 n).length ≤ 4 := by
      rw [Nat.digits_length_le_iff (by omega)]
      exact lt_of_lt_of_eq small (by norm_num)
    have some_ : 1 ≤ (Nat.digits 256 n).length := by
      have digits : Nat.digits 256 n ≠ [] := Nat.digits_ne_nil_iff_ne_zero.mpr (by omega)
      exact List.length_pos_iff.mpr digits
    have length : ((Nat.digits 256 n).reverse.map UInt8.ofNat).length =
        (Nat.digits 256 n).length := by
      rw [List.length_map, List.length_reverse]
    have count : (UInt8.ofNat (128 + (Nat.digits 256 n).length)).toNat =
        128 + ((Nat.digits 256 n).reverse.map UInt8.ofNat).length := by
      rw [UInt8.toNat_ofNat', length]
      exact Nat.mod_eq_of_lt (by omega)
    have octets := LengthOctets.long _ _ count (by omega) (by omega)
    rwa [bigEndian_digits] at octets

theorem framed_frame (tag : UInt8) {value : List UInt8} (small : (frame tag value).length < 2 ^ 32) :
    Framed tag value (frame tag value) := by
  refine ⟨lengthOctets value.length, lengthOctets_spec ?_, rfl⟩
  rw [frame, List.length_append] at small
  omega

end Oxutrm.Der
