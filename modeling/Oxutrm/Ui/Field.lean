import Mathlib.Data.List.Basic

/-!
One line of text being typed: the config screen's fields and the selector's rename.
Its input is UTF-8, one byte at a time.
-/
namespace Oxutrm.Ui

abbrev Text := List Char

def isControl (c : Char) : Bool := c.toNat < 0x20 || (0x7f ≤ c.toNat && c.toNat < 0xa0)

/-- What the first character of some bytes is. -/
inductive Lead where
  | char (c : Char) (rest : List UInt8)
  /-- The bytes end inside the character. -/
  | short
  | invalid
  deriving DecidableEq, Repr

/-- A byte that goes on with a character. -/
def isTail (b : UInt8) : Bool := 0x80 ≤ b && b ≤ 0xbf

/-- What the second byte of a character of three bytes may be. -/
def isSecondOfThree (first second : UInt8) : Bool :=
  if first = 0xe0 then 0xa0 ≤ second && second ≤ 0xbf
  else if first = 0xed then 0x80 ≤ second && second ≤ 0x9f
  else isTail second

def isSecondOfFour (first second : UInt8) : Bool :=
  if first = 0xf0 then 0x90 ≤ second && second ≤ 0xbf
  else if first = 0xf4 then 0x80 ≤ second && second ≤ 0x8f
  else isTail second

/-- The six bits a following byte has. -/
def bits (b : UInt8) : Nat := b.toNat % 64

def leadOfTwo (first : UInt8) : List UInt8 → Lead
  | [] => .short
  | b :: rest =>
      if isTail b then .char (Char.ofNat (first.toNat % 32 * 64 + bits b)) rest else .invalid

def leadOfThree (first : UInt8) : List UInt8 → Lead
  | [] => .short
  | b :: more =>
      if isSecondOfThree first b then
        match more with
        | [] => .short
        | c :: rest =>
            if isTail c then
              .char (Char.ofNat ((first.toNat % 16 * 64 + bits b) * 64 + bits c)) rest
            else .invalid
      else .invalid

def leadOfFour (first : UInt8) : List UInt8 → Lead
  | [] => .short
  | b :: more =>
      if isSecondOfFour first b then
        match more with
        | [] => .short
        | c :: more =>
            if isTail c then
              match more with
              | [] => .short
              | d :: rest =>
                  if isTail d then
                    .char (Char.ofNat
                      (((first.toNat % 8 * 64 + bits b) * 64 + bits c) * 64 + bits d)) rest
                  else .invalid
            else .invalid
      else .invalid

def lead (first : UInt8) (rest : List UInt8) : Lead :=
  if first < 0x80 then .char (Char.ofNat first.toNat) rest
  else if 0xc2 ≤ first && first ≤ 0xdf then leadOfTwo first rest
  else if 0xe0 ≤ first && first ≤ 0xef then leadOfThree first rest
  else if 0xf0 ≤ first && first ≤ 0xf4 then leadOfFour first rest
  else .invalid

/-- What `std::str::from_utf8` finds. -/
inductive Utf8 where
  | valid (text : Text)
  /-- An error with no length: the rest of the character may still come. -/
  | incomplete
  | invalid
  deriving DecidableEq, Repr

/-- The fuel is for the characters: there are no more than bytes. -/
def fromUtf8Fuel : Nat → List UInt8 → Utf8
  | _, [] => .valid []
  | 0, _ :: _ => .invalid
  | n + 1, b :: bytes =>
      match lead b bytes with
      | .char c rest =>
          match fromUtf8Fuel n rest with
          | .valid text => .valid (c :: text)
          | .incomplete => .incomplete
          | .invalid => .invalid
      | .short => .incomplete
      | .invalid => .invalid

def fromUtf8 (bytes : List UInt8) : Utf8 := fromUtf8Fuel bytes.length bytes

/-- The most a text field holds: a pasted file stops here. -/
def fieldMax : Nat := 256

/-- `pending` is the bytes of a character that has not arrived whole yet. -/
structure Field where
  text : Text := []
  pending : List UInt8 := []
  deriving DecidableEq, Repr

namespace Field

/-- Start afresh holding `text`. -/
def set (text : Text) : Field := { text := text }

/-- Backspace: the last character. -/
def erase (f : Field) : Field := { text := f.text.dropLast }

/-- A character is added while there is room. -/
def push (text : Text) (c : Char) : Text := if text.length < fieldMax then text ++ [c] else text

def typeByte (f : Field) (b : UInt8) : Field :=
  match fromUtf8 (f.pending ++ [b]) with
  | .valid s => { text := (s.filter fun c => !isControl c).foldl push f.text }
  | .incomplete => { f with pending := f.pending ++ [b] }
  | .invalid => { f with pending := [] }

def typeBytes (f : Field) (bytes : List UInt8) : Field := bytes.foldl typeByte f

@[simp] theorem typeBytes_nil (f : Field) : f.typeBytes [] = f := rfl

/-- What a field holds beyond what it held. -/
def Adds (before after : Text) : Prop :=
  ∃ added, after = before ++ added ∧ ∀ c ∈ added, isControl c = false

theorem Adds.refl (text : Text) : Adds text text := ⟨[], by simp⟩

theorem Adds.trans {s t u : Text} (first : Adds s t) (second : Adds t u) : Adds s u := by
  obtain ⟨added, rfl, plain⟩ := first
  obtain ⟨more, rfl, morePlain⟩ := second
  refine ⟨added ++ more, List.append_assoc _ _ _, ?_⟩
  intro c member
  cases List.mem_append.mp member with
  | inl old => exact plain c old
  | inr new => exact morePlain c new

theorem adds_push (text : Text) {c : Char} (plain : isControl c = false) :
    Adds text (push text c) := by
  unfold push
  split
  · exact ⟨[c], rfl, by simpa using plain⟩
  · exact Adds.refl text

theorem adds_foldl_push {s : Text} (text : Text) (plain : ∀ c ∈ s, isControl c = false) :
    Adds text (s.foldl push text) := by
  induction s generalizing text with
  | nil => exact Adds.refl text
  | cons c s ih =>
      apply (adds_push text (plain c (by simp))).trans
      exact ih _ fun d member => plain d (by simp [member])

theorem adds_typeByte (f : Field) (b : UInt8) : Adds f.text (f.typeByte b).text := by
  unfold typeByte
  split
  · apply adds_foldl_push
    intro c member
    simpa using (List.mem_filter.mp member).2
  · exact Adds.refl f.text
  · exact Adds.refl f.text

theorem adds_typeBytes (f : Field) (bytes : List UInt8) :
    Adds f.text (f.typeBytes bytes).text := by
  induction bytes generalizing f with
  | nil => exact Adds.refl f.text
  | cons b bytes ih => exact (adds_typeByte f b).trans (ih _)

theorem length_push {text : Text} (c : Char) (fits : text.length ≤ fieldMax) :
    (push text c).length ≤ fieldMax := by
  unfold push
  split
  · simpa using by omega
  · exact fits

theorem length_foldl_push (s : Text) {text : Text} (fits : text.length ≤ fieldMax) :
    (s.foldl push text).length ≤ fieldMax := by
  induction s generalizing text with
  | nil => exact fits
  | cons c s ih => exact ih (length_push c fits)

theorem length_typeBytes {f : Field} (bytes : List UInt8) (fits : f.text.length ≤ fieldMax) :
    (f.typeBytes bytes).text.length ≤ fieldMax := by
  induction bytes generalizing f with
  | nil => exact fits
  | cons b bytes ih =>
      apply ih
      unfold typeByte
      split
      · exact length_foldl_push _ fits
      · exact fits
      · exact fits

-- Two bytes of one character, a newline and an `a`.
example : ({} : Field).typeBytes [0xc3, 0xb6, 0x0a, 0x61] = Field.set ['ö', 'a'] := by decide

end Field

end Oxutrm.Ui
