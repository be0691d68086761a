import Mathlib

/-!
Self-delimiting binary formats. A format carries its own round-trip law, so a
value composed from formats is known to survive its encoding by construction.
The primitives are those of a varint-based serde wire format: little-endian
base-128 numbers, one-byte tags, length-prefixed sequences and UTF-8 strings.
-/
namespace Oxutrm
universe u v
variable {α : Type u} {β : Type v}

/-- `put` writes a value and `get` reads it back, returning what follows it. -/
structure Format (α : Type u) where
  put : α → List UInt8
  get : List UInt8 → Option (α × List UInt8)
  get_put : ∀ a rest, get (put a ++ rest) = some (a, rest)

namespace Format

/-- Little-endian base 128, the high bit set on every byte but the last. The
first argument bounds the digits; `n` of them always suffice for `n`. -/
def putVarint : Nat → Nat → List UInt8
  | 0, n => [UInt8.ofNat n]
  | fuel + 1, n =>
      if n < 128 then [UInt8.ofNat n]
      else UInt8.ofNat (n % 128 + 128) :: putVarint fuel (n / 128)

def getVarint : List UInt8 → Option (Nat × List UInt8)
  | [] => none
  | b :: rest =>
      if b.toNat < 128 then some (b.toNat, rest)
      else (getVarint rest).map fun p => (b.toNat - 128 + 128 * p.1, p.2)

theorem getVarint_putVarint (fuel n : Nat) (enough : n ≤ fuel) (rest : List UInt8) :
    getVarint (putVarint fuel n ++ rest) = some (n, rest) := by
  induction fuel generalizing n with
  | zero =>
      obtain rfl : n = 0 := by omega
      rfl
  | succ fuel ih =>
      by_cases small : n < 128
      · have digit : (UInt8.ofNat n).toNat = n := by
          rw [UInt8.toNat_ofNat']; omega
        simp [putVarint, getVarint, small, digit]
      · have digit : (UInt8.ofNat (n % 128 + 128)).toNat = n % 128 + 128 := by
          rw [UInt8.toNat_ofNat']; omega
        have tail := ih (n / 128) (by omega)
        simp only [putVarint, small, if_false, List.cons_append, getVarint, digit, tail]
        rw [if_neg (by omega)]
        simp only [Option.map_some, Option.some.injEq, Prod.mk.injEq, and_true]
        omega

theorem length_putVarint_le (fuel n k : Nat) (bound : n < 128 ^ (k + 1)) :
    (putVarint fuel n).length ≤ k + 1 := by
  induction fuel generalizing n k with
  | zero => simp [putVarint]
  | succ fuel ih =>
      by_cases small : n < 128
      · simp [putVarint, small]
      · cases k with
        | zero => omega
        | succ k =>
            have quotient : n / 128 < 128 ^ (k + 1) := by
              rw [Nat.div_lt_iff_lt_mul (by omega), ← Nat.pow_succ]
              exact bound
            simpa [putVarint, small] using ih (n / 128) k quotient

def nat : Format Nat where
  put n := putVarint n n
  get := getVarint
  get_put n := getVarint_putVarint n n (Nat.le_refl n)

def byte : Format UInt8 where
  put b := [b]
  get
    | [] => none
    | b :: rest => some (b, rest)
  get_put _ _ := rfl

def pair (f : Format α) (g : Format β) : Format (α × β) where
  put p := f.put p.1 ++ g.put p.2
  get bytes := (f.get bytes).bind fun p => (g.get p.2).map fun q => ((p.1, q.1), q.2)
  get_put p rest := by simp [f.get_put, g.get_put, List.append_assoc]

/-- A format for `β` through a format for `α`; reading may refuse a value. -/
def via (f : Format α) (read : α → Option β) (write : β → α)
    (back : ∀ b, read (write b) = some b) : Format β where
  put b := f.put (write b)
  get bytes := (f.get bytes).bind fun p => (read p.1).map fun b => (b, p.2)
  get_put b rest := by simp [f.get_put, back]

def option (f : Format α) : Format (Option α) where
  put
    | none => [0]
    | some a => 1 :: f.put a
  get
    | [] => none
    | b :: rest =>
        if b = 0 then some (none, rest)
        else if b = 1 then (f.get rest).map fun p => (some p.1, p.2)
        else none
  get_put a rest := by cases a <;> simp [f.get_put]

def getMany (f : Format α) : Nat → List UInt8 → Option (List α × List UInt8)
  | 0, bytes => some ([], bytes)
  | n + 1, bytes =>
      (f.get bytes).bind fun p => (getMany f n p.2).map fun q => (p.1 :: q.1, q.2)

theorem getMany_flatMap (f : Format α) (xs : List α) (rest : List UInt8) :
    getMany f xs.length (xs.flatMap f.put ++ rest) = some (xs, rest) := by
  induction xs with
  | nil => rfl
  | cons x xs ih => simp [getMany, f.get_put, ih, List.append_assoc]

def list (f : Format α) : Format (List α) where
  put xs := nat.put xs.length ++ xs.flatMap f.put
  get bytes := (nat.get bytes).bind fun p => getMany f p.1 p.2
  get_put xs rest := by simp [nat.get_put, List.append_assoc, getMany_flatMap]

def bool : Format Bool :=
  byte.via (fun b => if b = 0 then some false else if b = 1 then some true else none)
    (fun b => if b then 1 else 0) (by intro b; cases b <;> rfl)

def uint16 : Format UInt16 :=
  nat.via (fun n => if n < 2 ^ 16 then some (UInt16.ofNat n) else none) UInt16.toNat
    (fun n => by simpa using n.toNat_lt)

def uint32 : Format UInt32 :=
  nat.via (fun n => if n < 2 ^ 32 then some (UInt32.ofNat n) else none) UInt32.toNat
    (fun n => by simpa using n.toNat_lt)

def uint64 : Format UInt64 :=
  nat.via (fun n => if n < 2 ^ 64 then some (UInt64.ofNat n) else none) UInt64.toNat
    (fun n => by simpa using n.toNat_lt)

/-- UTF-8, preceded by its length in bytes. -/
def text : Format (List Char) :=
  (list byte).via (fun bytes => bytes.toByteArray.utf8Decode?.map Array.toList)
    (fun cs => cs.flatMap String.utf8EncodeChar)
    (fun cs => by
      have encoded : (cs.flatMap String.utf8EncodeChar).toByteArray = cs.utf8Encode := rfl
      rw [encoded, List.utf8Decode?_utf8Encode]
      rfl)

theorem length_put_nat (n k : Nat) (bound : n < 128 ^ (k + 1)) :
    (nat.put n).length ≤ k + 1 :=
  length_putVarint_le n n k bound

@[simp] theorem length_put_byte (b : UInt8) : (byte.put b).length = 1 := rfl

@[simp] theorem length_put_pair (f : Format α) (g : Format β) (p : α × β) :
    ((pair f g).put p).length = (f.put p.1).length + (g.put p.2).length :=
  List.length_append

@[simp] theorem put_via (f : Format α) (read : α → Option β) (write : β → α)
    (back : ∀ b, read (write b) = some b) (b : β) :
    (f.via read write back).put b = f.put (write b) := rfl

theorem length_put_option_le (f : Format α) (o : Option α) (bound : Nat)
    (inner : ∀ a, o = some a → (f.put a).length ≤ bound) :
    ((option f).put o).length ≤ bound + 1 := by
  cases o with
  | none => simp [option]
  | some a => simpa [option] using inner a rfl

theorem length_put_list (f : Format α) (xs : List α) :
    ((list f).put xs).length =
      (nat.put xs.length).length + (xs.map fun x => (f.put x).length).sum := by
  simp [list, List.length_flatMap]

theorem length_put_list_le (f : Format α) (xs : List α) (bound : Nat)
    (each : ∀ x ∈ xs, (f.put x).length ≤ bound) :
    ((list f).put xs).length ≤ (nat.put xs.length).length + xs.length * bound := by
  rw [length_put_list]
  refine Nat.add_le_add_left ?_ _
  have := List.sum_le_card_nsmul (xs.map fun x => (f.put x).length) bound (by simpa using each)
  simpa using this

theorem length_put_bool (b : Bool) : (bool.put b).length = 1 := rfl

theorem length_put_uint16 (n : UInt16) : (uint16.put n).length ≤ 3 :=
  length_put_nat _ 2 (Nat.lt_trans n.toNat_lt (by decide))

theorem length_put_uint32 (n : UInt32) : (uint32.put n).length ≤ 5 :=
  length_put_nat _ 4 (Nat.lt_trans n.toNat_lt (by decide))

theorem length_put_uint64 (n : UInt64) : (uint64.put n).length ≤ 10 :=
  length_put_nat _ 9 (Nat.lt_trans n.toNat_lt (by decide))

theorem length_put_text (cs : List Char) :
    (text.put cs).length = (nat.put (cs.flatMap String.utf8EncodeChar).length).length +
      (cs.flatMap String.utf8EncodeChar).length := by
  have flat : ((cs.flatMap String.utf8EncodeChar).map fun b => (byte.put b).length).sum =
      (cs.flatMap String.utf8EncodeChar).length := by
    simp only [length_put_byte, List.map_const', List.sum_replicate, smul_eq_mul, mul_one]
  simp only [text, put_via, length_put_list, flat]

end Format
end Oxutrm
