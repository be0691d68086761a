import Mathlib.Data.List.Induction
import Oxutrm.Lib.Transducer

/-!
Codes that are read one symbol at a time, and what two readers make of input that is not
well formed. The careful one drops the longest beginning of a character and looks again at
the symbol that does not go on with it. The hasty one drops that symbol too.
-/
namespace Oxutrm.Subparts
open Transducer

/-- What some symbols are to a reader that begins with the first of them. -/
inductive Reading (α : Type*) where
  | whole (c : α)
  | more
  | bad

/-- A code is its own reader's. No symbol that goes on with a character begins one. -/
structure Code (α β : Type*) where
  encode : α → List β
  read : List β → Reading α
  encode_ne_nil : ∀ c, encode c ≠ []
  read_whole : ∀ {p c}, read p = .whole c ↔ p = encode c
  read_more : ∀ {p}, read p = .more ↔ ∃ c, p <+: encode c ∧ p ≠ encode c
  synchronized : ∀ {p b c}, p ≠ [] → p ++ [b] <+: encode c → read [b] = .bad

/-- What an input consists of: characters, beginnings of characters that are cut short,
and symbols that begin no character. -/
inductive Piece (α β : Type*) where
  | whole (c : α)
  | broken (p : List β)
  | stray (b : β)
  deriving DecidableEq, Repr

variable {α β : Type*}

def Piece.char? : Piece α β → Option α
  | .whole c => some c
  | .broken _ | .stray _ => none

/-- The characters that are whole. -/
def chars (pieces : List (Piece α β)) : List α := pieces.filterMap Piece.char?

namespace Code
variable (code : Code α β)

def Begins (p : List β) : Prop := ∃ c, p <+: code.encode c

/-- The state is the symbols of a character that is not whole yet. -/
def start (b : β) : List β × List (Piece α β) :=
  match code.read [b] with
  | .whole c => ([], [.whole c])
  | .more => ([b], [])
  | .bad => ([], [.stray b])

def careful (pending : List β) (b : β) : List β × List (Piece α β) :=
  if pending = [] then code.start b
  else
    match code.read (pending ++ [b]) with
    | .whole c => ([], [.whole c])
    | .more => (pending ++ [b], [])
    | .bad => ((code.start b).1, .broken pending :: (code.start b).2)

def hasty (pending : List β) (b : β) : List β × List α :=
  match code.read (pending ++ [b]) with
  | .whole c => ([], [c])
  | .more => (pending ++ [b], [])
  | .bad => ([], [])

variable {code}

theorem careful_nil (b : β) : code.careful [] b = code.start b := if_pos rfl

theorem careful_whole {p : List β} {b : β} {c : α} (whole : p ++ [b] = code.encode c) :
    code.careful p b = ([], [.whole c]) := by
  have reads := code.read_whole.mpr whole
  unfold careful
  split
  next empty => rw [start, show [b] = p ++ [b] by rw [empty, List.nil_append], reads]
  next => rw [reads]

theorem careful_more {p : List β} {b : β} (reads : code.read (p ++ [b]) = .more) :
    code.careful p b = (p ++ [b], []) := by
  unfold careful
  split
  next empty =>
      subst empty
      rw [List.nil_append] at reads
      rw [start, reads, List.nil_append]
  next => rw [reads]

theorem careful_bad {p : List β} {b : β} (some : p ≠ []) (reads : code.read (p ++ [b]) = .bad) :
    code.careful p b = ((code.start b).1, .broken p :: (code.start b).2) := by
  rw [careful, if_neg some, reads]

/-- The new pieces end with the character, if there is one. -/
theorem careful_char {p : List β} {b : β} {front back : List (Piece α β)} {c : α}
    (pieces : (code.careful p b).2 = front ++ .whole c :: back) : back = [] := by
  have one : ∀ {first piece : Piece α β} {front back : List (Piece α β)},
      [piece] = front ++ first :: back → back = [] := by
    intro first piece front back same
    cases front with
    | nil => exact (List.cons.inj same).2.symm
    | cons _ _ => simp at same
  have start : ∀ {front back : List (Piece α β)}, (code.start b).2 = front ++ .whole c :: back → back = [] := by
    intro front back same
    unfold start at same
    split at same
    · exact one same
    · simp at same
    · exact one same
  unfold careful at pieces
  split at pieces
  · exact start pieces
  · split at pieces
    · exact one pieces
    · simp at pieces
    · cases front with
      | nil => cases (List.cons.inj pieces).1
      | cons _ front => exact start (List.cons.inj pieces).2

theorem feed_reaches {p input : List β} {front back : List (Piece α β)} {c : α}
    (pieces : (feed code.careful p input).2 = front ++ .whole c :: back) :
    ∃ typed, typed <+: input ∧ (feed code.careful p typed).2 = front ++ [.whole c] := by
  induction input generalizing p front with
  | nil => simp at pieces
  | cons b input ih =>
      rw [feed_cons] at pieces
      rcases List.append_eq_append_iff.mp pieces with ⟨more, split, later⟩ | ⟨more, split, later⟩
      · -- The character is behind what the first symbol makes.
        obtain ⟨typed, isPrefix, reached⟩ := ih later
        refine ⟨b :: typed, (List.prefix_cons_inj b).mpr isPrefix, ?_⟩
        rw [feed_cons, reached, split, List.append_assoc]
      · cases more with
        | nil =>
            have later : (feed code.careful (code.careful p b).1 input).2 = [] ++ .whole c :: back := later.symm
            obtain ⟨typed, isPrefix, reached⟩ := ih later
            refine ⟨b :: typed, (List.prefix_cons_inj b).mpr isPrefix, ?_⟩
            rw [feed_cons, reached, split, List.append_nil, List.nil_append]
        | cons piece more =>
            obtain ⟨rfl, _⟩ := List.cons.inj later
            have last := careful_char split
            refine ⟨[b], (List.prefix_cons_inj b).mpr List.nil_prefix, ?_⟩
            rw [feed_cons, feed_nil, List.append_nil, split, last]

end Code

/-- What the hasty reader hears of the pieces. It is deaf to what comes right behind the
beginning of a character that it has heard. -/
def hear (deaf : Bool) : Piece α β → Bool × List α
  | .whole c => (false, if deaf then [] else [c])
  | .broken _ => (!deaf, [])
  | .stray _ => (false, [])

/-- An odd number of beginnings that are cut short, one right behind the other, comes last. -/
def deaf (pieces : List (Piece α β)) : Bool := (feed hear false pieces).1

/-- The characters that are heard. -/
def kept (pieces : List (Piece α β)) : List α := (feed hear false pieces).2

theorem hear_char (deaf : Bool) (piece : Piece α β) :
    (hear deaf piece).2 = if deaf then [] else piece.char?.toList := by
  cases piece <;> cases deaf <;> rfl

theorem kept_snoc (pieces : List (Piece α β)) (piece : Piece α β) :
    kept (pieces ++ [piece]) = kept pieces ++ if deaf pieces then [] else piece.char?.toList := by
  rw [kept, feed_append, feed_cons, feed_nil, List.append_nil, ← hear_char]
  rfl

theorem chars_snoc (pieces : List (Piece α β)) (piece : Piece α β) :
    chars (pieces ++ [piece]) = chars pieces ++ piece.char?.toList := by
  rw [chars, List.filterMap_append]
  cases piece <;> rfl

theorem kept_sublist (pieces : List (Piece α β)) : (kept pieces).Sublist (chars pieces) := by
  induction pieces using List.reverseRecOn with
  | nil => exact List.Sublist.refl []
  | append_singleton pieces piece ih =>
      rw [kept_snoc, chars_snoc]
      refine ih.append ?_
      split
      · exact List.nil_sublist _
      · exact List.Sublist.refl _

namespace Code
variable {code : Code α β}

/-- The hasty reader holds what the careful one does, unless it is deaf to it. -/
def Agree (pending : List β) (deaf : Bool) (held : List β) : Prop :=
  (pending = [] → deaf = false) ∧ held = if deaf then [] else pending

/-- A symbol that the careful reader starts with is heard by a reader that holds nothing. -/
theorem agree_start (b : β) :
    Agree (code.start b).1 (feed hear false (code.start b).2).1 (code.hasty [] b).1 ∧
      (code.hasty [] b).2 = (feed hear false (code.start b).2).2 := by
  unfold start hasty
  rw [List.nil_append]
  cases code.read [b] <;> exact ⟨⟨fun _ => rfl, rfl⟩, rfl⟩

/-- A reader that drops the symbol is deaf to what the careful one starts with it. -/
theorem agree_dropped (b : β) :
    Agree (code.start b).1 (feed hear true (code.start b).2).1 [] ∧
      [] = (feed hear true (code.start b).2).2 := by
  unfold start
  cases code.read [b] with
  | whole c => exact ⟨⟨fun _ => rfl, rfl⟩, rfl⟩
  | more => exact ⟨⟨fun none => absurd none (List.cons_ne_nil b []), rfl⟩, rfl⟩
  | bad => exact ⟨⟨fun _ => rfl, rfl⟩, rfl⟩

/-- A reader that was deaf to the beginning is deaf to a symbol that goes on with it. -/
theorem hasty_deaf {p : List β} {b : β} (some : p ≠ []) (begins : code.Begins (p ++ [b])) :
    code.hasty [] b = ([], []) := by
  obtain ⟨c, isPrefix⟩ := begins
  rw [hasty, List.nil_append, code.synchronized some isPrefix]

theorem agree_step {p held : List β} {deaf : Bool} (agree : Agree p deaf held) (b : β) :
    Agree (code.careful p b).1 (feed hear deaf (code.careful p b).2).1 (code.hasty held b).1 ∧
      (code.hasty held b).2 = (feed hear deaf (code.careful p b).2).2 := by
  obtain ⟨fresh, rfl⟩ := agree
  by_cases empty : p = []
  · rw [fresh empty, empty, careful_nil]
    exact agree_start b
  · cases reads : code.read (p ++ [b]) with
    | whole c =>
        rw [careful_whole (code.read_whole.mp reads)]
        cases deaf with
        | false => exact ⟨⟨fun _ => rfl, by simp [hasty, reads, hear, feed]⟩, by simp [hasty, reads, hear, feed]⟩
        | true =>
            have whole : code.Begins (p ++ [b]) := ⟨c, code.read_whole.mp reads ▸ List.prefix_refl _⟩
            rw [if_pos rfl, hasty_deaf empty whole]
            exact ⟨⟨fun _ => rfl, rfl⟩, rfl⟩
    | more =>
        rw [careful_more reads]
        have some : p ++ [b] ≠ [] := List.append_ne_nil_of_right_ne_nil p (List.cons_ne_nil b [])
        cases deaf with
        | false => exact ⟨⟨fun _ => rfl, by simp [hasty, reads]⟩, by simp [hasty, reads]⟩
        | true =>
            obtain ⟨c, isPrefix, _⟩ := code.read_more.mp reads
            rw [if_pos rfl, hasty_deaf empty ⟨c, isPrefix⟩]
            exact ⟨⟨fun none => absurd none some, rfl⟩, rfl⟩
    | bad =>
        rw [careful_bad empty reads, feed_cons]
        cases deaf with
        | false =>
            -- Both drop the beginning. The hasty one drops the symbol with it.
            have drops : code.hasty p b = ([], []) := by rw [hasty, reads]
            rw [if_neg Bool.false_ne_true, drops]
            exact agree_dropped b
        | true => exact agree_start b

theorem agree_feed {p held : List β} {deaf : Bool} (agree : Agree p deaf held) (input : List β) :
    Agree (feed code.careful p input).1 (feed hear deaf (feed code.careful p input).2).1
        (feed code.hasty held input).1 ∧
      (feed code.hasty held input).2 = (feed hear deaf (feed code.careful p input).2).2 := by
  induction input generalizing p held deaf with
  | nil => exact ⟨agree, rfl⟩
  | cons b input ih =>
      obtain ⟨next, heard⟩ := @agree_step _ _ code _ _ _ agree b
      obtain ⟨last, rest⟩ := ih next
      rw [feed_cons, feed_cons code.hasty, feed_append, heard, rest]
      exact ⟨last, rfl⟩

theorem feed_hasty (input : List β) : (feed code.hasty [] input).2 = kept (feed code.careful [] input).2 :=
  (agree_feed ⟨fun _ => rfl, rfl⟩ input).2

end Code

section Spared
variable (wanted : α → Bool) (room : Nat)

/-- The characters that are wanted, as many as there is room for. -/
def first (text : List α) : List α := (text.filter wanted).take room

/-- No wanted character that there is room for is one to which the hasty reader is deaf. -/
def Spared (pieces : List (Piece α β)) : Prop :=
  ∀ front c back, pieces = front ++ .whole c :: back → wanted c = true →
    ((chars front).filter wanted).length < room → deaf front = false

variable {wanted room}

theorem take_append_congr {s t : List α} (same : s.take room = t.take room) (u : List α) :
    (s ++ u).take room = (t ++ u).take room := by
  rw [List.take_append, List.take_append, same]
  have lengths := congrArg List.length same
  rw [List.length_take, List.length_take] at lengths
  by_cases full : room ≤ s.length
  · rw [Nat.sub_eq_zero_of_le full, Nat.sub_eq_zero_of_le (by omega)]
  · rw [show s.length = t.length by omega]

theorem first_kept {pieces : List (Piece α β)} (spared : Spared wanted room pieces) :
    first wanted room (kept pieces) = first wanted room (chars pieces) := by
  induction pieces using List.reverseRecOn with
  | nil => rfl
  | append_singleton pieces piece ih =>
      have before := ih fun front c back split =>
        spared front c (back ++ [piece]) (by rw [split, List.append_assoc, List.cons_append])
      rw [kept_snoc, chars_snoc]
      unfold first at before ⊢
      rw [List.filter_append, List.filter_append]
      cases hears : deaf pieces with
      | false => exact take_append_congr before _
      | true =>
          rw [if_pos rfl, List.filter_nil, List.append_nil, before]
          cases piece with
          | broken p | stray b => exact congrArg (List.take room) (List.append_nil _).symm
          | whole c =>
              cases want : wanted c with
              | false => simp [Piece.char?, want]
              | true =>
                  -- It is lost, and there was no room for it.
                  have full : room ≤ ((chars pieces).filter wanted).length := by
                    by_contra short
                    have := spared pieces c [] rfl want (by omega)
                    rw [hears] at this
                    cases this
                  rw [List.take_append_of_le_length full]

/-- The hasty reader has the wanted characters after every part of the input exactly if
none of them is lost. -/
theorem first_hasty_iff (code : Code α β) (input : List β) :
    (∀ typed, typed <+: input →
        first wanted room (feed code.hasty [] typed).2 =
          first wanted room (chars (feed code.careful [] typed).2)) ↔
      Spared wanted room (feed code.careful [] input).2 := by
  constructor
  · intro right front c back split want short
    obtain ⟨typed, isPrefix, reached⟩ := Code.feed_reaches split
    have same := right typed isPrefix
    rw [Code.feed_hasty, reached, kept_snoc, chars_snoc] at same
    by_contra hears
    rw [if_pos (by simpa using hears), List.append_nil] at same
    -- What is lost is missing.
    have fewer := ((kept_sublist front).filter wanted).length_le
    have lengths := congrArg List.length same
    simp only [first, List.length_take, List.filter_append, List.length_append, Piece.char?,
      Option.toList_some, List.filter_cons_of_pos want, List.filter_nil, List.length_singleton] at lengths
    omega
  · intro spared typed isPrefix
    obtain ⟨more, pieces⟩ := feed_isPrefix code.careful [] isPrefix
    rw [Code.feed_hasty]
    refine first_kept fun front c back split => spared front c (back ++ more) ?_
    rw [← pieces, split, List.append_assoc, List.cons_append]

end Spared
end Oxutrm.Subparts
