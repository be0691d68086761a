import Oxutrm.Ui.Paste

/-!
How a read is taken apart: whole keys one after the other, and a paste up to its end
wherever the reads are cut.
-/
namespace Oxutrm.Ui

/-- The final byte of a CSI sequence. -/
def isFinal (b : UInt8) : Bool := 0x40 ≤ b && b ≤ 0x7e

/-- Bytes that are whole keys, none of them the start of a paste. -/
inductive Keys : List UInt8 → Prop where
  | nil : Keys []
  | byte {b : UInt8} {rest : List UInt8} (plain : b ≠ esc) (more : Keys rest) : Keys (b :: rest)
  | csi {params : List UInt8} {final : UInt8} {rest : List UInt8}
      (inner : ∀ b ∈ params, isFinal b = false) (last : isFinal final = true)
      (key : 0x5b :: (params ++ [final]) ≠ pasteStartTail) (more : Keys rest) :
      Keys (esc :: 0x5b :: (params ++ final :: rest))
  | ss3 {b : UInt8} {rest : List UInt8} (more : Keys rest) : Keys (esc :: 0x4f :: b :: rest)
  | alt {b : UInt8} {rest : List UInt8} (other : b ≠ 0x5b ∧ b ≠ 0x4f) (more : Keys rest) :
      Keys (esc :: b :: rest)

section PasteThrough
variable {φ : Type} (sink : φ → UInt8 → φ)

theorem pasteThrough_cons (m : Matched) (s : φ) (b : UInt8) (rest : List UInt8) :
    pasteThrough sink (some m) s (b :: rest) =
      if b = pasteEnd.get m then
        if last : m.val + 1 = 6 then (none, s, rest)
        else pasteThrough sink (some ⟨m.val + 1, by omega⟩) s rest
      else if b = esc then pasteThrough sink (some 1) ((pasteEnd.take m.val).foldl sink s) rest
      else pasteThrough sink (some 0) (sink ((pasteEnd.take m.val).foldl sink s) b) rest := rfl

theorem pasteThrough_append (m : Matched) (s : φ) (xs ys : List UInt8) :
    pasteThrough sink (some m) s (xs ++ ys) =
      match pasteThrough sink (some m) s xs with
      | (none, s', rest) => (none, s', rest ++ ys)
      | (some m', s', _) => pasteThrough sink (some m') s' ys := by
  induction xs generalizing m s with
  | nil => rfl
  | cons b xs ih =>
      rw [List.cons_append, pasteThrough_cons, pasteThrough_cons]
      split
      · split
        · rfl
        · exact ih _ s
      · split
        · exact ih _ _
        · exact ih _ _

theorem length_pasteThrough (m : Option Matched) (s : φ) (bytes : List UInt8) :
    (pasteThrough sink m s bytes).2.2.length ≤ bytes.length := by
  induction bytes generalizing m s with
  | nil => exact Nat.le_refl 0
  | cons b bytes ih =>
      simp only [pasteThrough]
      split
      · split
        · exact Nat.le_succ _
        · exact Nat.le_succ_of_le (ih _ _)
      · split
        · exact Nat.le_succ_of_le (ih _ _)
        · exact Nat.le_succ_of_le (ih _ _)

/-- The end marker itself, after as much of another one. -/
theorem pasteThrough_end (m : Matched) (s : φ) (after : List UInt8) :
    pasteThrough sink (some m) s (pasteEnd ++ after) =
      (none, (pasteEnd.take m.val).foldl sink s, after) :=
  match m with
  | 0 | 1 | 2 | 3 | 4 | 5 => rfl

theorem take_succ_pasteEnd (m : Matched) :
    pasteEnd.take (m.val + 1) = pasteEnd.take m.val ++ [pasteEnd.get m] :=
  match m with
  | 0 | 1 | 2 | 3 | 4 | 5 => rfl

/-- A text that holds no end marker is pasted whole, whatever of the marker was seen
before it. -/
theorem pasteThrough_text (m : Matched) (s : φ) {text : List UInt8}
    (inner : ¬ pasteEnd <:+: pasteEnd.take m.val ++ text) (after : List UInt8) :
    pasteThrough sink (some m) s (text ++ pasteEnd ++ after) =
      (none, (pasteEnd.take m.val ++ text).foldl sink s, after) := by
  induction text generalizing m s with
  | nil => rw [List.nil_append, pasteThrough_end, List.append_nil]
  | cons b text ih =>
      -- what follows the byte holds no end marker either
      have rest : ¬ pasteEnd <:+: b :: text := fun found =>
        inner (found.trans (List.suffix_append _ _).isInfix)
      rw [List.cons_append, List.cons_append, pasteThrough_cons]
      split
      · rename_i same
        have joined : pasteEnd.take (m.val + 1) ++ text = pasteEnd.take m.val ++ b :: text := by
          rw [take_succ_pasteEnd, same, List.append_assoc, List.singleton_append]
        split
        · rename_i last
          exfalso
          apply inner
          rw [← joined, last]
          exact (List.prefix_append _ _).isInfix
        · rw [ih, joined]
          rwa [joined]
      · split
        · rename_i begins
          rw [ih 1 _ (by rw [begins] at rest; exact rest), begins, List.foldl_append,
            List.foldl_append]
          rfl
        · rw [ih 0 _ fun found => rest (found.trans (List.suffix_cons b text).isInfix)]
          simp only [List.foldl_append, List.foldl_cons, Fin.val_zero, List.take_zero,
            List.foldl_nil]

theorem pasteThrough_open {m m' : Matched} {s s' : φ} {bytes rest : List UInt8}
    (goes : pasteThrough sink (some m) s bytes = (some m', s', rest)) : rest = [] := by
  induction bytes generalizing m s with
  | nil =>
      cases goes
      rfl
  | cons b bytes ih =>
      rw [pasteThrough_cons] at goes
      split at goes
      · split at goes
        · cases goes
        · exact ih goes
      · split at goes
        · exact ih goes
        · exact ih goes

/-- A paste is open, and `rest` is what it is waiting for. -/
def Owes (m : Matched) (s : φ) (rest : List UInt8) (final : φ) : Prop :=
  ∀ after, pasteThrough sink (some m) s (rest ++ after) = (none, final, after)

theorem owes_text (s : φ) {text : List UInt8} (inner : ¬ pasteEnd <:+: text) :
    Owes sink 0 s (text ++ pasteEnd) (text.foldl sink s) :=
  fun after => pasteThrough_text sink 0 s inner after

/-- A part of what is owed leaves the paste open, and it is waiting for the rest. -/
theorem Owes.part {m : Matched} {s final : φ} {part rest : List UInt8}
    (owes : Owes sink m s (part ++ rest) final) (more : rest ≠ []) :
    ∃ m' s', pasteThrough sink (some m) s part = (some m', s', []) ∧
      Owes sink m' s' rest final := by
  rcases first : pasteThrough sink (some m) s part with ⟨matched, s', left⟩
  cases matched with
  | none =>
      have joined := owes []
      rw [List.append_assoc, pasteThrough_append, first] at joined
      have nothing : left ++ (rest ++ []) = [] := congrArg (·.2.2) joined
      simp [more] at nothing
  | some m' =>
      cases pasteThrough_open sink first
      refine ⟨m', s', rfl, ?_⟩
      intro after
      have joined := owes after
      rw [List.append_assoc, pasteThrough_append, first] at joined
      exact joined

end PasteThrough

namespace Reader
variable {σ : Type} {r : Reader σ} {s : σ} {lone : Bool}

theorem length_paste (s : σ) (bytes : List UInt8) : (r.paste s bytes).2.length ≤ bytes.length :=
  length_pasteThrough _ _ _ _

theorem walk_fuel {n m : Nat} {bytes : List UInt8} (enough : bytes.length ≤ n)
    (enough' : bytes.length ≤ m) (s : σ) : r.walk lone n s bytes = r.walk lone m s bytes := by
  induction n generalizing m bytes s with
  | zero =>
      cases bytes with
      | nil => cases m <;> rfl
      | cons b tail => exact absurd enough (Nat.not_succ_le_zero _)
  | succ n ih =>
      cases bytes with
      | nil => cases m <;> rfl
      | cons b tail =>
          cases m with
          | zero => exact absurd enough' (Nat.not_succ_le_zero _)
          | succ m =>
              have shorter {rest : List UInt8} (s : σ) (short : rest.length ≤ tail.length) :
                  r.walk lone n s rest = r.walk lone m s rest :=
                ih (Nat.le_trans short (Nat.le_of_succ_le_succ enough))
                  (Nat.le_trans short (Nat.le_of_succ_le_succ enough')) s
              have dropped (used : Nat) : (tail.drop used).length ≤ tail.length := by
                rw [List.length_drop]
                exact Nat.sub_le _ _
              simp only [walk]
              rw [shorter _ (Nat.le_refl _)]
              split
              · split
                · split
                  · rw [shorter _ (dropped _)]
                  · split
                    · exact shorter _ (Nat.le_trans (length_paste _ _) (dropped _))
                    · exact shorter _ (dropped _)
                · rfl
              · rfl

theorem walk_eq_read {n : Nat} {bytes : List UInt8} (enough : bytes.length ≤ n) (s : σ) :
    r.walk lone n s bytes = r.read lone s bytes := walk_fuel enough (Nat.le_refl _) s

@[simp] theorem read_nil (s : σ) : r.read lone s [] = (s, false) := rfl

/-- What a key does to the read it stands in. -/
def thenRead (r : Reader σ) (lone : Bool) (s : σ) (k : Key) (rest : List UInt8) : σ × Bool :=
  if (r.key s k).2 then ((r.key s k).1, true) else r.read lone (r.key s k).1 rest

theorem read_down {b : UInt8} {tail : List UInt8} (down : r.up s = false) :
    r.read lone s (b :: tail) = (s, true) := by
  simp only [read, List.length_cons, walk, down, Bool.false_eq_true, if_false]

theorem read_byte {b : UInt8} {tail : List UInt8} (up : r.up s = true)
    (plain : ¬ (b = esc ∧ lone = false)) :
    r.read lone s (b :: tail) = r.thenRead lone s (.byte b) tail := by
  simp only [read, List.length_cons, walk, up, if_true, if_neg plain]
  rfl

/-- What an escape sequence does to the read it stands in. -/
def afterEscape (r : Reader σ) (s : σ) (key : Option Key) (rest : List UInt8) : σ × Bool :=
  match key with
  | some k => r.thenRead false s k rest
  | none => r.read false s rest

theorem read_escape {tail : List UInt8} (up : r.up s = true)
    (other : pasteStartTail.isPrefixOf tail = false) :
    r.read false s (esc :: tail) = r.afterEscape s (escape tail).1 (tail.drop (escape tail).2) := by
  rcases sequence : escape tail with ⟨key, used⟩
  have short : (tail.drop used).length ≤ tail.length := by simp
  simp only [read, List.length_cons, walk, up, if_true, true_and, sequence, other,
    Bool.false_eq_true, if_false]
  cases key with
  | none => exact walk_eq_read short s
  | some k =>
      simp only [walk_eq_read short]
      rfl

theorem escape_start (rest : List UInt8) : escape (pasteStartTail ++ rest) = (none, 5) := by
  cases rest <;> rfl

theorem read_start (up : r.up s = true) (rest : List UInt8) :
    r.read false s (pasteStart ++ rest) =
      r.read false (r.paste (r.setPasting s (some 0)) rest).1
        (r.paste (r.setPasting s (some 0)) rest).2 := by
  have marker : pasteStartTail.isPrefixOf (pasteStartTail ++ rest) = true := by
    rw [List.isPrefixOf_iff_prefix]
    exact List.prefix_append _ _
  have after : (pasteStartTail ++ rest).drop 5 = rest := rfl
  have short : (r.paste (r.setPasting s (some 0)) rest).2.length ≤
      (pasteStartTail ++ rest).length := by
    rw [List.length_append]
    exact Nat.le_trans (length_paste _ _) (Nat.le_add_left _ _)
  rw [pasteStart, List.cons_append, read, List.length_cons]
  simp only [walk, up, if_true, true_and, escape_start, marker, after]
  exact walk_eq_read short _

theorem escape_bracket {tail : List UInt8} (other : pasteStartTail.isPrefixOf (0x5b :: tail) = false) :
    escape (0x5b :: tail) =
      if tail.head? = some 0x41 then (some .up, 2)
      else if tail.head? = some 0x42 then (some .down, 2)
      else (none, 1 + csiLength tail) := by
  simp only [escape, true_or, true_and, other, Bool.false_eq_true, if_false, if_true]

section Csi
variable {params : List UInt8} {final : UInt8} (inner : ∀ b ∈ params, isFinal b = false)
  (last : isFinal final = true)
include inner last

theorem csiLength_append (rest : List UInt8) :
    csiLength (params ++ final :: rest) = params.length + 1 := by
  have before : params.findIdx? (fun b => 0x40 ≤ b && b ≤ 0x7e) = none :=
    List.findIdx?_eq_none_iff.mpr inner
  have here : (final :: rest).findIdx? (fun b => 0x40 ≤ b && b ≤ 0x7e) = some 0 := by
    rw [List.findIdx?_cons]
    exact if_pos last
  rw [csiLength, List.findIdx?_append, before, here]
  simp

theorem not_start (key : 0x5b :: (params ++ [final]) ≠ pasteStartTail) (rest : List UInt8) :
    pasteStartTail.isPrefixOf (0x5b :: (params ++ final :: rest)) = false := by
  cases start : pasteStartTail.isPrefixOf (0x5b :: (params ++ final :: rest)) with
  | false => rfl
  | true =>
      exfalso
      obtain ⟨more, same⟩ := List.isPrefixOf_iff_prefix.mp start
      have marker : [0x32, 0x30, 0x30, 0x7e] ++ more = params ++ final :: rest :=
        (List.cons.inj same).2
      -- the first final byte of the marker is its last, so that the sequence is the marker
      have four : csiLength (params ++ final :: rest) = 4 := by
        rw [← marker]
        rfl
      rw [csiLength_append inner last] at four
      apply key
      have front : (params ++ final :: rest).take 4 = params ++ [final] := by
        rw [← four, List.take_length_add_append]
        rfl
      rw [← front, ← marker]
      rfl

/-- A CSI sequence is one key whatever follows it. -/
theorem escape_csi (key : 0x5b :: (params ++ [final]) ≠ pasteStartTail) (rest : List UInt8) :
    escape (0x5b :: (params ++ final :: rest)) =
      ((escape (0x5b :: (params ++ [final]))).1, params.length + 2) := by
  have head : (params ++ final :: rest).head? = (params ++ [final]).head? := by
    cases params <;> rfl
  rw [escape_bracket (not_start inner last key rest),
    escape_bracket (not_start inner last key []), head, csiLength_append inner last]
  cases params with
  | nil =>
      split
      · rfl
      · split <;> rfl
  | cons b params =>
      have plain : isFinal b = false := inner b List.mem_cons_self
      have notA : ¬ (b :: params ++ [final]).head? = some 0x41 := by
        intro same
        cases same
        exact absurd plain (by decide)
      have notB : ¬ (b :: params ++ [final]).head? = some 0x42 := by
        intro same
        cases same
        exact absurd plain (by decide)
      rw [if_neg notA, if_neg notB, if_neg notA, if_neg notB, Nat.add_comm 1]

end Csi

/-- A sequence that is whole whatever follows it. -/
structure Sequence (seq : List UInt8) (key : Option Key) : Prop where
  takes : ∀ rest, escape (seq ++ rest) = (key, seq.length)
  other : ∀ rest, pasteStartTail.isPrefixOf (seq ++ rest) = false

theorem sequence_csi {params : List UInt8} {final : UInt8}
    (inner : ∀ b ∈ params, isFinal b = false) (last : isFinal final = true)
    (key : 0x5b :: (params ++ [final]) ≠ pasteStartTail) :
    Sequence (0x5b :: (params ++ [final])) (escape (0x5b :: (params ++ [final]))).1 where
  takes rest := by
    rw [List.cons_append, List.append_assoc, List.singleton_append, escape_csi inner last key]
    simp
  other rest := by
    rw [List.cons_append, List.append_assoc, List.singleton_append]
    exact not_start inner last key rest

theorem sequence_ss3 (b : UInt8) : Sequence [0x4f, b] (escape [0x4f, b]).1 where
  takes rest := by
    simp only [escape, List.cons_append, List.nil_append, List.head?_cons]
    split
    · rfl
    · split
      · rfl
      · rfl
  other rest := rfl

theorem sequence_alt {b : UInt8} (other : b ≠ 0x5b ∧ b ≠ 0x4f) : Sequence [b] none where
  takes rest := by
    have prefixed : pasteStartTail.isPrefixOf (b :: rest) = false := by
      simp only [pasteStartTail, List.isPrefixOf_cons_cons, Bool.and_eq_false_iff]
      exact .inl (beq_false_of_ne other.1.symm)
    simp only [escape, List.cons_append, List.nil_append, other.1, other.2, prefixed, or_self,
      false_and, if_false, Bool.false_eq_true]
    rfl
  other rest := by
    simp only [pasteStartTail, List.cons_append, List.isPrefixOf_cons_cons, Bool.and_eq_false_iff]
    exact .inl (beq_false_of_ne other.1.symm)

/-- These keys are read one by one, whatever follows them. -/
def ReadsOn (r : Reader σ) (keys : List UInt8) : Prop :=
  ∀ (s : σ) (rest : List UInt8), r.read false s (keys ++ rest) =
    if (r.read false s keys).2 then ((r.read false s keys).1, true)
    else r.read false (r.read false s keys).1 rest

theorem ReadsOn.thenRead {keys : List UInt8} (on : r.ReadsOn keys) (k : Key) (s : σ)
    (rest : List UInt8) :
    r.thenRead false s k (keys ++ rest) =
      if (r.thenRead false s k keys).2 then ((r.thenRead false s k keys).1, true)
      else r.read false (r.thenRead false s k keys).1 rest := by
  unfold Reader.thenRead
  cases (r.key s k).2 with
  | true => rfl
  | false => exact on _ rest

theorem Sequence.readsOn {seq keys : List UInt8} {key : Option Key} (sequence : Sequence seq key)
    (on : r.ReadsOn keys) : r.ReadsOn (esc :: (seq ++ keys)) := by
  intro s rest
  cases up : r.up s with
  | false =>
      rw [List.cons_append, read_down up, read_down up]
      rfl
  | true =>
      rw [List.cons_append, List.append_assoc, read_escape up (sequence.other _),
        read_escape up (sequence.other _), sequence.takes, sequence.takes, List.drop_left,
        List.drop_left]
      cases key with
      | none => exact on s rest
      | some k => exact on.thenRead k s rest

theorem readsOn_of_keys {keys : List UInt8} (whole : Keys keys) (r : Reader σ) :
    r.ReadsOn keys := by
  induction whole with
  | nil => exact fun s rest => rfl
  | @byte b keys plain more ih =>
      intro s rest
      cases up : r.up s with
      | false =>
          rw [List.cons_append, read_down up, read_down up]
          rfl
      | true =>
          rw [List.cons_append, read_byte up (fun both => plain both.1),
            read_byte up (fun both => plain both.1)]
          exact ih.thenRead _ s rest
  | @csi params final keys inner last key more ih =>
      have on := (sequence_csi inner last key).readsOn ih
      rwa [List.cons_append, List.append_assoc, List.singleton_append] at on
  | @ss3 b keys more ih => exact (sequence_ss3 b).readsOn ih
  | @alt b keys other more ih => exact (sequence_alt other).readsOn ih

section Keeping
variable {P : σ → Prop} (keep : ∀ s k, P s → (r.key s k).2 = false → P (r.key s k).1)
include keep

theorem thenRead_keeps {keys : List UInt8}
    (more : ∀ s, P s → (r.read false s keys).2 = false → P (r.read false s keys).1)
    (k : Key) (start : P s) (going : (r.thenRead false s k keys).2 = false) :
    P (r.thenRead false s k keys).1 := by
  unfold thenRead at going ⊢
  cases ended : (r.key s k).2 with
  | true =>
      rw [ended] at going
      cases going
  | false =>
      rw [ended] at going
      exact more _ (keep s k start ended) going

theorem Sequence.keeps {seq keys : List UInt8} {key : Option Key} (sequence : Sequence seq key)
    (more : ∀ s, P s → (r.read false s keys).2 = false → P (r.read false s keys).1)
    (start : P s) (going : (r.read false s (esc :: (seq ++ keys))).2 = false) :
    P (r.read false s (esc :: (seq ++ keys))).1 := by
  cases up : r.up s with
  | false =>
      rw [read_down up] at going
      cases going
  | true =>
      rw [read_escape up (sequence.other _), sequence.takes, List.drop_left] at going ⊢
      cases key with
      | none => exact more s start going
      | some k => exact thenRead_keeps keep more k start going

/-- What every key keeps that does not end the read, whole keys keep. -/
theorem read_keeps {keys : List UInt8} (whole : Keys keys) (start : P s)
    (going : (r.read false s keys).2 = false) : P (r.read false s keys).1 := by
  induction whole generalizing s with
  | nil => exact start
  | @byte b keys plain more ih =>
      cases up : r.up s with
      | false =>
          rw [read_down up] at going
          cases going
      | true =>
          rw [read_byte up fun both => plain both.1] at going ⊢
          exact thenRead_keeps keep (fun _ => ih) _ start going
  | @csi params final keys inner last key more ih =>
      have same : params ++ final :: keys = params ++ [final] ++ keys := by simp
      rw [same] at going ⊢
      exact (sequence_csi inner last key).keeps keep (fun _ => ih) start going
  | @ss3 b keys more ih => exact (sequence_ss3 b).keeps keep (fun _ => ih) start going
  | @alt b keys other more ih => exact (sequence_alt other).keeps keep (fun _ => ih) start going

end Keeping

/-- Whether a paste is open is kept beside everything else. -/
structure Lawful (r : Reader σ) : Prop where
  pasting_set : ∀ s p, r.pasting (r.setPasting s p) = p
  set_set : ∀ s p q, r.setPasting (r.setPasting s p) q = r.setPasting s q
  set_pasting : ∀ s, r.setPasting s (r.pasting s) = s
  pasted_set : ∀ s p b, r.pasted (r.setPasting s p) b = r.setPasting (r.pasted s b) p
  pasting_pasted : ∀ s b, r.pasting (r.pasted s b) = r.pasting s

/-- A text goes where a paste goes. -/
def typed (r : Reader σ) (s : σ) (text : List UInt8) : σ := text.foldl r.pasted s

namespace Lawful
variable (lawful : r.Lawful)
include lawful

theorem paste_set (s : σ) (m : Matched) (bytes : List UInt8) :
    r.paste (r.setPasting s (some m)) bytes =
      (r.setPasting (pasteThrough r.pasted (some m) s bytes).2.1
        (pasteThrough r.pasted (some m) s bytes).1,
        (pasteThrough r.pasted (some m) s bytes).2.2) := by
  have mapped := pasteThrough_map (f := fun s => r.setPasting s (some m))
    (fun s b => lawful.pasted_set s (some m) b) (some m) s bytes
  simp only [paste, lawful.pasting_set, mapped, lawful.set_set]

theorem pasting_typed (s : σ) (text : List UInt8) : r.pasting (r.typed s text) = r.pasting s := by
  induction text generalizing s with
  | nil => rfl
  | cons b text ih =>
      have step := ih (r.pasted s b)
      rwa [lawful.pasting_pasted] at step

theorem paste_part {good : σ → Prop} (keep : ∀ s b, good s → good (r.pasted s b)) {m : Matched}
    {s final : σ} (start : good s) {part rest : List UInt8}
    (owes : Owes r.pasted m s (part ++ rest) final) (more : rest ≠ []) :
    ∃ m' s', r.paste (r.setPasting s (some m)) part = (r.setPasting s' (some m'), []) ∧ good s' ∧
      Owes r.pasted m' s' rest final := by
  obtain ⟨m', s', goes, owes⟩ := owes.part r.pasted more
  refine ⟨m', s', ?_, ?_, owes⟩
  · rw [lawful.paste_set, goes]
  · have kept := pasteThrough_keeps keep start (some m) part
    rwa [goes] at kept

theorem paste_end {m : Matched} {s final : σ} {rest : List UInt8}
    (owes : Owes r.pasted m s rest final) (after : List UInt8) :
    r.paste (r.setPasting s (some m)) (rest ++ after) = (r.setPasting final none, after) := by
  rw [lawful.paste_set, owes after]

theorem read_open {good : σ → Prop} (keep : ∀ s b, good s → good (r.pasted s b))
    {keys part rest text : List UInt8} {s s' : σ} (start : good s') (whole : Keys keys)
    (going : r.read false s keys = (s', false)) (up : r.up s' = true)
    (inner : ¬ pasteEnd <:+: text) (cut : part ++ rest = text ++ pasteEnd) (more : rest ≠ []) :
    ∃ m t, r.read false s (keys ++ (pasteStart ++ part)) = (r.setPasting t (some m), false) ∧
      good t ∧ Owes r.pasted m t rest (r.typed s' text) := by
  have owes : Owes r.pasted 0 s' (part ++ rest) (r.typed s' text) := by
    rw [cut]
    exact owes_text r.pasted s' inner
  obtain ⟨m, t, pasted, kept, owes⟩ := lawful.paste_part keep start owes more
  refine ⟨m, t, ?_, kept, owes⟩
  rw [readsOn_of_keys whole r, going]
  simp only [Bool.false_eq_true, if_false]
  rw [read_start up, pasted, read_nil]

theorem read_whole {keys text : List UInt8} {s s' : σ} (whole : Keys keys)
    (going : r.read false s keys = (s', false)) (up : r.up s' = true)
    (closed : r.pasting s' = none) (inner : ¬ pasteEnd <:+: text) (after : List UInt8) :
    r.read false s (keys ++ (pasteStart ++ (text ++ pasteEnd ++ after))) =
      r.read false (r.typed s' text) after := by
  have done_ := lawful.paste_end (owes_text r.pasted s' inner) after
  rw [readsOn_of_keys whole r, going]
  simp only [Bool.false_eq_true, if_false]
  rw [read_start up, done_]
  have same : r.setPasting (r.typed s' text) none = r.typed s' text := by
    rw [← closed, ← lawful.pasting_typed s' text, lawful.set_pasting]
  exact congrArg (fun t => r.read false t after) same

end Lawful

end Reader

end Oxutrm.Ui
