import Oxutrm.Ui.Field

/-!
The keys of one read, as the config screen and the selector take them: an escape
sequence is one key, and what stands between the two markers of a bracketed paste
is none. Both screens read with the same loop, each with its own keys.
-/
namespace Oxutrm.Ui

def esc : UInt8 := 0x1b

inductive Key where
  | up
  | down
  | byte (b : UInt8)
  deriving DecidableEq, Repr

def pasteEnd : List UInt8 := [0x1b, 0x5b, 0x32, 0x30, 0x31, 0x7e]

def pasteStartTail : List UInt8 := [0x5b, 0x32, 0x30, 0x30, 0x7e]

def pasteStart : List UInt8 := esc :: pasteStartTail

/-- How many bytes of the end marker have been seen: never all of them. -/
abbrev Matched := Fin 6

/-- A bracketed paste's text, read up to its end if the end is there: each byte
goes to `sink`, and what follows the end is returned. A read that stops inside
the end marker leaves it to the next read to say whether it was one. -/
def pasteThrough {φ : Type} (sink : φ → UInt8 → φ) :
    Option Matched → φ → List UInt8 → Option Matched × φ × List UInt8
  | pasting, s, [] => (pasting, s, [])
  | pasting, s, b :: rest =>
      let matched := pasting.getD 0
      if b = pasteEnd.get matched then
        if last : matched.val + 1 = 6 then (none, s, rest)
        else pasteThrough sink (some ⟨matched.val + 1, by omega⟩) s rest
      else
        -- What looked like the end's beginning was text after all. Only its ESC
        -- can begin the end again.
        let s := (pasteEnd.take matched.val).foldl sink s
        if b = esc then pasteThrough sink (some 1) s rest
        else pasteThrough sink (some 0) (sink s b) rest

/-- How far a CSI sequence runs: up to its final byte. -/
def csiLength (bytes : List UInt8) : Nat :=
  match bytes.findIdx? fun b => 0x40 ≤ b && b ≤ 0x7e with
  | some i => i + 1
  | none => bytes.length

/-- The key an escape sequence stands for, and how many bytes after the ESC the
sequence took. A paste's start is no key, with its five bytes used. -/
def escape : List UInt8 → Option Key × Nat
  | [] => (none, 0)
  | b :: rest =>
      if (b = 0x5b ∨ b = 0x4f) ∧ rest.head? = some 0x41 then (some .up, 2)
      else if (b = 0x5b ∨ b = 0x4f) ∧ rest.head? = some 0x42 then (some .down, 2)
      else if pasteStartTail.isPrefixOf (b :: rest) then (none, 5)
      else if b = 0x5b then (none, 1 + csiLength rest)
      else if b = 0x4f ∧ rest ≠ [] then (none, 2)
      else (none, 1)

/-- A screen that reads keys. -/
structure Reader (σ : Type) where
  /-- The screen is still up. -/
  up : σ → Bool
  /-- One key, and whether the read is over with it. -/
  key : σ → Key → σ × Bool
  /-- One byte of a paste. -/
  pasted : σ → UInt8 → σ
  pasting : σ → Option Matched
  setPasting : σ → Option Matched → σ

namespace Reader
variable {σ τ : Type} (r : Reader σ)

/-- A paste's text up to its end, if the end is there. Returns what follows. -/
def paste (s : σ) (bytes : List UInt8) : σ × List UInt8 :=
  let (pasting, s, rest) := pasteThrough r.pasted (r.pasting s) s bytes
  (r.setPasting s pasting, rest)

/-- The loop of a read. Every turn takes a byte, so that the bytes are fuel
enough. -/
def walk (loneEsc : Bool) : Nat → σ → List UInt8 → σ × Bool
  | _, s, [] => (s, false)
  | 0, s, _ :: _ => (s, false)
  | n + 1, s, b :: tail =>
      if r.up s then
        if b = esc ∧ loneEsc = false then
          match escape tail with
          | (some key, used) =>
              if (r.key s key).2 then ((r.key s key).1, true)
              else walk loneEsc n (r.key s key).1 (tail.drop used)
          | (none, used) =>
              if pasteStartTail.isPrefixOf tail then
                let (s, rest) := r.paste (r.setPasting s (some 0)) (tail.drop used)
                walk loneEsc n s rest
              else walk loneEsc n s (tail.drop used)
        else if (r.key s (.byte b)).2 then ((r.key s (.byte b)).1, true)
        else walk loneEsc n (r.key s (.byte b)).1 tail
      else (s, true)

/-- The keys of `bytes`, and whether one of them ended the read. -/
def read (loneEsc : Bool) (s : σ) (bytes : List UInt8) : σ × Bool :=
  r.walk loneEsc bytes.length s bytes

/-- The rest of a paste that began in an earlier read is the paste's. -/
def resume (s : σ) (bytes : List UInt8) : σ × List UInt8 :=
  if (r.pasting s).isSome then r.paste s bytes else (s, bytes)

/-- What holds while a read goes on, and what holds once a key has ended it. -/
structure Keeps (going stopped : σ → Prop) : Prop where
  key : ∀ s k, going s → (r.key s k).2 = false → going (r.key s k).1
  last : ∀ s k, going s → (r.key s k).2 = true → stopped (r.key s k).1
  pasted : ∀ s b, going s → going (r.pasted s b)
  setPasting : ∀ s p, going s → going (r.setPasting s p)

theorem pasteThrough_keeps {φ : Type} {sink : φ → UInt8 → φ} {good : φ → Prop}
    (keeps : ∀ s b, good s → good (sink s b)) {s : φ} (start : good s) (pasting : Option Matched)
    (bytes : List UInt8) : good (pasteThrough sink pasting s bytes).2.1 := by
  have fold : ∀ (xs : List UInt8) (s : φ), good s → good (xs.foldl sink s) := by
    intro xs
    induction xs with
    | nil => exact fun s start => start
    | cons x xs ih => exact fun s start => ih _ (keeps s x start)
  induction bytes generalizing pasting s with
  | nil => exact start
  | cons b bytes ih =>
      simp only [pasteThrough]
      split
      · split
        · exact start
        · exact ih start _
      · split
        · exact ih (fold _ s start) _
        · exact ih (keeps _ b (fold _ s start)) _

variable {r} {going stopped : σ → Prop}

theorem Keeps.paste (keeps : r.Keeps going stopped) {s : σ} (start : going s)
    (bytes : List UInt8) : going (r.paste s bytes).1 :=
  keeps.setPasting _ _ (pasteThrough_keeps keeps.pasted start _ _)

theorem Keeps.resume (keeps : r.Keeps going stopped) {s : σ} (start : going s)
    (bytes : List UInt8) : going (r.resume s bytes).1 := by
  unfold Reader.resume
  split
  · exact keeps.paste start bytes
  · exact start

theorem Keeps.walk (keeps : r.Keeps going stopped) (loneEsc : Bool) (n : Nat) {s : σ}
    (start : going s) (bytes : List UInt8) :
    going (r.walk loneEsc n s bytes).1 ∨ stopped (r.walk loneEsc n s bytes).1 := by
  induction n generalizing s bytes with
  | zero => cases bytes <;> exact .inl start
  | succ n ih =>
      cases bytes with
      | nil => exact .inl start
      | cons b tail =>
          -- a key either ends the read here or leaves the rest of it to the loop
          have one : ∀ (k : Key) (rest : List UInt8),
              going (if (r.key s k).2 then ((r.key s k).1, true)
                else r.walk loneEsc n (r.key s k).1 rest).1 ∨
              stopped (if (r.key s k).2 then ((r.key s k).1, true)
                else r.walk loneEsc n (r.key s k).1 rest).1 := by
            intro k rest
            cases ended : (r.key s k).2 with
            | true => exact .inr (keeps.last s k start ended)
            | false => exact ih (keeps.key s k start ended) rest
          unfold Reader.walk
          split
          · split
            · split
              · exact one _ _
              · split
                · exact ih (keeps.paste (keeps.setPasting s _ start) _) _
                · exact ih start _
            · exact one _ _
          · exact .inl start

theorem Keeps.read (keeps : r.Keeps going stopped) (loneEsc : Bool) {s : σ} (start : going s)
    (bytes : List UInt8) :
    going (r.read loneEsc s bytes).1 ∨ stopped (r.read loneEsc s bytes).1 :=
  keeps.walk loneEsc _ start bytes

section Hom
variable {r' : Reader τ} {f : σ → τ}

/-- One screen is another with something more written down. -/
structure Hom (r : Reader σ) (r' : Reader τ) (f : σ → τ) : Prop where
  up : ∀ s, r'.up (f s) = r.up s
  key : ∀ s k, r'.key (f s) k = (f (r.key s k).1, (r.key s k).2)
  pasted : ∀ s b, r'.pasted (f s) b = f (r.pasted s b)
  pasting : ∀ s, r'.pasting (f s) = r.pasting s
  setPasting : ∀ s p, r'.setPasting (f s) p = f (r.setPasting s p)

theorem pasteThrough_map {φ ψ : Type} {sink : φ → UInt8 → φ} {sink' : ψ → UInt8 → ψ} {f : φ → ψ}
    (same : ∀ s b, sink' (f s) b = f (sink s b)) (pasting : Option Matched) (s : φ)
    (bytes : List UInt8) :
    pasteThrough sink' pasting (f s) bytes =
      ((pasteThrough sink pasting s bytes).1, f (pasteThrough sink pasting s bytes).2.1,
        (pasteThrough sink pasting s bytes).2.2) := by
  have fold : ∀ (xs : List UInt8) (s : φ), xs.foldl sink' (f s) = f (xs.foldl sink s) := by
    intro xs
    induction xs with
    | nil => exact fun s => rfl
    | cons x xs ih => exact fun s => by rw [List.foldl_cons, same, ih, List.foldl_cons]
  induction bytes generalizing pasting s with
  | nil => rfl
  | cons b bytes ih =>
      simp only [pasteThrough]
      split
      · split
        · rfl
        · exact ih _ s
      · split
        · rw [fold, ih]
        · rw [fold, same, ih]

theorem Hom.paste (hom : Hom r r' f) (s : σ) (bytes : List UInt8) :
    r'.paste (f s) bytes = (f (r.paste s bytes).1, (r.paste s bytes).2) := by
  simp only [Reader.paste, hom.pasting, pasteThrough_map hom.pasted, hom.setPasting]

theorem Hom.resume (hom : Hom r r' f) (s : σ) (bytes : List UInt8) :
    r'.resume (f s) bytes = (f (r.resume s bytes).1, (r.resume s bytes).2) := by
  simp only [Reader.resume, hom.pasting]
  split
  · exact hom.paste s bytes
  · rfl

theorem Hom.walk (hom : Hom r r' f) (loneEsc : Bool) (n : Nat) (s : σ) (bytes : List UInt8) :
    r'.walk loneEsc n (f s) bytes = (f (r.walk loneEsc n s bytes).1, (r.walk loneEsc n s bytes).2) := by
  induction n generalizing s bytes with
  | zero => cases bytes <;> rfl
  | succ n ih =>
      cases bytes with
      | nil => rfl
      | cons b tail =>
          have one : ∀ (k : Key) (rest : List UInt8),
              (if (r'.key (f s) k).2 then ((r'.key (f s) k).1, true)
                else r'.walk loneEsc n (r'.key (f s) k).1 rest) =
              (f (if (r.key s k).2 then ((r.key s k).1, true)
                else r.walk loneEsc n (r.key s k).1 rest).1,
              (if (r.key s k).2 then ((r.key s k).1, true)
                else r.walk loneEsc n (r.key s k).1 rest).2) := by
            intro k rest
            rw [hom.key]
            cases (r.key s k).2 with
            | true => rfl
            | false => exact ih _ rest
          simp only [Reader.walk, hom.up]
          split
          · split
            · split
              · exact one _ _
              · split
                · rw [hom.setPasting, hom.paste]
                  exact ih _ _
                · exact ih s _
            · exact one _ _
          · rfl

theorem Hom.read (hom : Hom r r' f) (loneEsc : Bool) (s : σ) (bytes : List UInt8) :
    r'.read loneEsc (f s) bytes = (f (r.read loneEsc s bytes).1, (r.read loneEsc s bytes).2) :=
  hom.walk loneEsc _ s bytes

end Hom

end Reader

end Oxutrm.Ui
