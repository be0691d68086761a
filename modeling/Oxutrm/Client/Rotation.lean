import Mathlib.Algebra.Ring.Nat
import Mathlib.Data.List.Perm.Basic
import Mathlib.Logic.Function.Basic
import Oxutrm.Lib.Transition

/-!
The shared `client.log`. Every file operation of `write_line` and `rotate` is a
step of its own, so the steps of several clients interleave between the length
that was read and the rename or the write it led to.
-/
namespace Oxutrm.Client
open Transition

abbrev Line := List UInt8

def Line.bytes (text : Line) : List UInt8 := text ++ [10]

/-- Where a call of `write_line` stands: the operation it makes next. -/
inductive Stage where
  /-- No call is running. -/
  | ready
  /-- `self.file.metadata()`, for the identity of the handle. -/
  | identify (text : Line)
  /-- `std::fs::metadata(&self.path)`. -/
  | follow (text : Line)
  /-- `append(&self.path)`, the name having moved on. -/
  | reopen (text : Line)
  /-- `self.file.metadata()`, for the length. -/
  | measure (text : Line)
  /-- `std::fs::rename(&self.path, rotated(&self.path))`. -/
  | rename (text : Line)
  /-- `append(&self.path)`, after the rename. -/
  | renew (text : Line)
  /-- `self.file.write_all(..)`. -/
  | write (text : Line)
  deriving DecidableEq

/-- A client and its `LogFile`. A client whose file failed is `off` for the rest
of its session. -/
inductive Writer where
  | closed
  | open (file : Nat) (stage : Stage)
  | off
  deriving DecidableEq

/-- The directory, every file that was ever made in it, and the clients. A file
is the list of the lines appended to it and who appended them; `client.log` and
`client.log.1` name files by their place in that list. -/
structure LogDir (n : Nat) where
  files : List (List (Fin n × Line)) := []
  log : Option Nat := none
  rotated : Option Nat := none
  writers : Fin n → Writer := fun _ => .closed
  /-- The calls of `write_line` that came back with `Ok`, oldest first. -/
  returned : List (Fin n × Line) := []
  /-- For every rename that moved a file, the file's length and that of the
  bytes about to be written. -/
  renames : List (Nat × Nat) := []

/-- What a client may do next: open its log, ask for a line to be written, make
the next operation of the call it is in, or fail in it. -/
inductive LogEvent (n : Nat) where
  | open (p : Fin n)
  | call (p : Fin n) (text : Line)
  | next (p : Fin n)
  | fail (p : Fin n)
  deriving DecidableEq

def size {n : Nat} (entries : List (Fin n × Line)) : Nat :=
  (entries.map fun entry => entry.2.bytes.length).sum

namespace LogDir
variable {n : Nat} (cap : Nat)

def lengthOf (s : LogDir n) (file : Nat) : Nat := size ((s.files[file]?).getD [])

/-- `len > 0 && len + bytes.len() > cap`. -/
def full (len : Nat) (text : Line) : Prop := 0 < len ∧ cap < len + text.bytes.length

instance (len : Nat) (text : Line) : Decidable (full cap len text) :=
  inferInstanceAs (Decidable (_ ∧ _))

def put (s : LogDir n) (p : Fin n) (writer : Writer) : LogDir n :=
  { s with writers := Function.update s.writers p writer }

/-- `append`: the file `client.log` names, made if there is none. -/
def append (s : LogDir n) : LogDir n × Nat :=
  match s.log with
  | some file => (s, file)
  | none => ({ s with files := s.files ++ [[]], log := some s.files.length }, s.files.length)

/-- `rename(2)`, which does nothing when there is no `client.log`. -/
def rename (s : LogDir n) (text : Line) : LogDir n :=
  match s.log with
  | some file =>
      { s with
        log := none
        rotated := some file
        renames := s.renames ++ [(s.lengthOf file, text.bytes.length)] }
  | none => s

def write (s : LogDir n) (p : Fin n) (file : Nat) (text : Line) : LogDir n :=
  { s with
    files := s.files.modify file (· ++ [(p, text)])
    returned := s.returned ++ [(p, text)] }

/-- The next operation of the call the client is in. -/
def next (s : LogDir n) (p : Fin n) : Option (LogDir n) :=
  match s.writers p with
  | .open file (.identify text) => some (s.put p (.open file (.follow text)))
  | .open file (.follow text) =>
      if s.log = some file then some (s.put p (.open file (.measure text)))
      else some (s.put p (.open file (.reopen text)))
  | .open _ (.reopen text) => some (s.append.1.put p (.open s.append.2 (.measure text)))
  | .open file (.measure text) =>
      if full cap (s.lengthOf file) text then some (s.put p (.open file (.rename text)))
      else some (s.put p (.open file (.write text)))
  | .open file (.rename text) => some ((s.rename text).put p (.open file (.renew text)))
  | .open _ (.renew text) => some (s.append.1.put p (.open s.append.2 (.write text)))
  | .open file (.write text) => some ((s.write p file text).put p (.open file .ready))
  | .open _ .ready => none
  | .closed => none
  | .off => none

def step (s : LogDir n) : LogEvent n → Option (LogDir n)
  | .open p =>
      match s.writers p with
      | .closed => some (s.append.1.put p (.open s.append.2 .ready))
      | _ => none
  | .call p text =>
      match s.writers p with
      | .open file .ready => some (s.put p (.open file (.identify text)))
      | _ => none
  | .next p => s.next cap p
  | .fail p =>
      match s.writers p with
      | .off => none
      | _ => some (s.put p .off)

/-- What `client.log` and `client.log.1` hold together. -/
def held (s : LogDir n) : Nat :=
  (s.log.map s.lengthOf).getD 0 + (s.rotated.map s.lengthOf).getD 0

/-- No generation is given up before it is full, no line is lost or doubled, and
the two files stay within twice the cap, or a line for every client more where
single lines are longer than the cap. -/
structure Safe (s : LogDir n) : Prop where
  full : ∀ moved ∈ s.renames, cap < moved.1 + moved.2
  once : s.files.flatten.Perm s.returned
  bounded : ∀ longest, (∀ entry ∈ s.returned, entry.2.bytes.length ≤ longest) →
    s.held ≤ 2 * cap + if cap < longest then n * longest else 0

/-- What the interleaving has to leave alone: at a rename `client.log` is still
the file that was measured, unless it is gone, and at a write the file is empty
or still has room. The last clause is about a lone client with huge lines. -/
def Undisturbed (s : LogDir n) : LogEvent n → Prop
  | .next p =>
      match s.writers p with
      | .open file (.rename _) => s.log = none ∨ s.log = some file
      | .open file (.write text) =>
          ¬ full cap (s.lengthOf file) text ∧ (2 ≤ n ∨ text.bytes.length ≤ 2 * cap)
      | _ => True
  | _ => True

section Steps
variable {cap}

/-- Everything a step can do to the directory. -/
inductive Moves (cap : Nat) (s : LogDir n) : LogEvent n → LogDir n → Prop
  | turn {e : LogEvent n} (p : Fin n) (file : Nat) (before after : Stage)
      (held : s.writers p = .open file before)
      (measured : ∀ text, after = .rename text → full cap (s.lengthOf file) text) :
      Moves cap s e (s.put p (.open file after))
  | quit {e : LogEvent n} (p : Fin n) : Moves cap s e (s.put p .off)
  | enter {e : LogEvent n} (p : Fin n) (after : Stage) (calm : ∀ text, after ≠ .rename text) :
      Moves cap s e (s.append.1.put p (.open s.append.2 after))
  | rename (p : Fin n) (file : Nat) (text : Line)
      (held : s.writers p = .open file (.rename text)) :
      Moves cap s (.next p) ((s.rename text).put p (.open file (.renew text)))
  | write (p : Fin n) (file : Nat) (text : Line)
      (held : s.writers p = .open file (.write text)) :
      Moves cap s (.next p) ((s.write p file text).put p (.open file .ready))

theorem next_moves {s t : LogDir n} {p : Fin n} (taken : s.next cap p = some t) :
    Moves cap s (.next p) t := by
  unfold next at taken
  split at taken
  · next file text held =>
      cases taken
      exact .turn p file _ _ held (fun _ other => by cases other)
  · next file text held =>
      split at taken
      · cases taken
        exact .turn p file _ _ held (fun _ other => by cases other)
      · cases taken
        exact .turn p file _ _ held (fun _ other => by cases other)
  · cases taken
    exact .enter p _ (fun _ other => by cases other)
  · next file text held =>
      split at taken
      · next passes =>
          cases taken
          refine .turn p file _ _ held (fun other same => ?_)
          cases same
          exact passes
      · cases taken
        exact .turn p file _ _ held (fun _ other => by cases other)
  · next file text held =>
      cases taken
      exact .rename p file text held
  · cases taken
    exact .enter p _ (fun _ other => by cases other)
  · next file text held =>
      cases taken
      exact .write p file text held
  · cases taken
  · cases taken
  · cases taken

theorem step_moves {s t : LogDir n} {e : LogEvent n} (taken : s.step cap e = some t) :
    Moves cap s e t := by
  cases e with
  | «open» p =>
      simp only [step] at taken
      split at taken
      · cases taken
        exact .enter p _ (fun _ other => by cases other)
      · cases taken
  | call p text =>
      simp only [step] at taken
      split at taken
      · next file held =>
          cases taken
          exact .turn p file _ _ held (fun _ other => by cases other)
      · cases taken
  | next p => exact next_moves taken
  | fail p =>
      simp only [step] at taken
      split at taken
      · cases taken
      · cases taken
        exact .quit p

end Steps

section Lengths

theorem writers_put_self (s : LogDir n) (p : Fin n) (writer : Writer) :
    (s.put p writer).writers p = writer := by
  simp only [put, Function.update_self]

theorem writers_put_of_ne (s : LogDir n) {p q : Fin n} (other : q ≠ p) (writer : Writer) :
    (s.put p writer).writers q = s.writers q := by
  simp only [put, Function.update_of_ne other]

@[simp] theorem lengthOf_put (s : LogDir n) (p : Fin n) (writer : Writer) (file : Nat) :
    (s.put p writer).lengthOf file = s.lengthOf file := rfl

@[simp] theorem lengthOf_rename (s : LogDir n) (text : Line) (file : Nat) :
    (s.rename text).lengthOf file = s.lengthOf file := by
  simp only [rename]
  split <;> rfl

@[simp] theorem lengthOf_append (s : LogDir n) (file : Nat) :
    s.append.1.lengthOf file = s.lengthOf file := by
  simp only [append]
  split
  · rfl
  · rcases Nat.lt_trichotomy file s.files.length with old | new | beyond
    · simp only [lengthOf, List.getElem?_append_left old]
    · simp [lengthOf, new]
    · have none_ : (s.files ++ [[]])[file]? = none := by
        rw [List.getElem?_eq_none]
        simpa [Nat.succ_le_iff] using beyond
      simp only [lengthOf, none_, List.getElem?_eq_none (Nat.le_of_lt beyond)]

theorem lengthOf_le_write (s : LogDir n) (p : Fin n) (file : Nat) (text : Line) (other : Nat) :
    s.lengthOf other ≤ (s.write p file text).lengthOf other := by
  simp only [lengthOf, write, List.getElem?_modify]
  cases s.files[other]? with
  | none => simp [size]
  | some contents =>
      simp only [Option.map_eq_map, Option.map_some, Option.getD_some]
      split
      · simp [size]
      · exact Nat.le_refl _

end Lengths
section Once
variable {cap} {s t : LogDir n}

/-- Names and handles lead to files, and the files hold what was written. -/
structure Sane (s : LogDir n) : Prop where
  named : ∀ file, s.log = some file → file < s.files.length
  handles : ∀ p file stage, s.writers p = .open file stage → file < s.files.length
  once : s.files.flatten.Perm s.returned

theorem Sane.put (sane : s.Sane) (p : Fin n) (writer : Writer)
    (inside : ∀ file stage, writer = .open file stage → file < s.files.length) :
    (s.put p writer).Sane where
  named := sane.named
  handles := by
    intro q file stage held
    by_cases same : q = p
    · subst same
      rw [writers_put_self] at held
      exact inside file stage held
    · rw [writers_put_of_ne s same] at held
      exact sane.handles q file stage held
  once := sane.once

theorem Sane.append (sane : s.Sane) :
    s.append.1.Sane ∧ s.append.2 < s.append.1.files.length := by
  unfold LogDir.append
  split
  · next file named => exact ⟨sane, sane.named file named⟩
  · have longer : s.files.length < (s.files ++ [[]]).length := by simp
    refine ⟨⟨?_, ?_, ?_⟩, longer⟩
    · rintro file ⟨⟩
      exact longer
    · intro p file stage held
      exact Nat.lt_trans (sane.handles p file stage held) longer
    · simpa using sane.once

theorem Sane.rename (sane : s.Sane) (text : Line) : (s.rename text).Sane := by
  unfold LogDir.rename
  split
  · exact ⟨fun _ named => (by cases named), sane.handles, sane.once⟩
  · exact sane

theorem flatten_modify_perm {α : Type} (files : List (List α)) (file : Nat) (entry : α)
    (inside : file < files.length) :
    (files.modify file (· ++ [entry])).flatten.Perm (files.flatten ++ [entry]) := by
  induction files generalizing file with
  | nil => cases inside
  | cons contents files ih =>
      cases file with
      | zero =>
          simp only [List.modify_zero_cons, List.flatten_cons, List.append_assoc]
          exact List.Perm.append_left _ List.perm_append_comm
      | succ file =>
          simp only [List.modify_succ_cons, List.flatten_cons, List.append_assoc]
          exact (ih file (Nat.lt_of_succ_lt_succ inside)).append_left contents

theorem Sane.write (sane : s.Sane) (p : Fin n) {file : Nat} (inside : file < s.files.length)
    (text : Line) : (s.write p file text).Sane where
  named other named := by
    simpa only [LogDir.write, List.length_modify] using sane.named other named
  handles q other stage held := by
    simpa only [LogDir.write, List.length_modify] using sane.handles q other stage held
  once := (flatten_modify_perm s.files file (p, text) inside).trans (sane.once.append_right _)

theorem Sane.step {e : LogEvent n} (sane : s.Sane) (taken : s.step cap e = some t) :
    t.Sane := by
  cases step_moves taken with
  | turn p file before after held measured =>
      refine sane.put p _ ?_
      rintro _ _ ⟨⟩
      exact sane.handles p file before held
  | quit p => exact sane.put p _ (fun _ _ other => by cases other)
  | enter p after calm =>
      refine sane.append.1.put p _ ?_
      rintro _ _ ⟨⟩
      exact sane.append.2
  | rename p file text held =>
      refine (sane.rename text).put p _ ?_
      rintro _ _ ⟨⟩
      have inside := sane.handles p file _ held
      simp only [LogDir.rename]
      split <;> exact inside
  | write p file text held =>
      have inside := sane.handles p file _ held
      refine (sane.write p inside text).put p _ ?_
      rintro _ _ ⟨⟩
      simpa only [LogDir.write, List.length_modify] using inside

theorem sane_start : (({} : LogDir n)).Sane where
  named _ named := by cases named
  handles _ _ _ held := by cases held
  once := List.Perm.nil

/-- However the operations interleave, each line that was reported written is in
the files once. -/
theorem every_line_written_once (run : Reaches (LogDir.step cap) free {} s) :
    s.files.flatten.Perm s.returned :=
  (run.invariant (fun _ _ _ sane _ taken => Sane.step sane taken) sane_start).once

end Once

section Bounds
variable {cap} {s t : LogDir n}

/-- A file within the cap, or one that holds nothing but one line. -/
def Small (cap : Nat) (contents : List (Fin n × Line)) : Prop :=
  size contents ≤ cap ∨
    ∃ entry, contents = [entry] ∧ (2 ≤ n ∨ entry.2.bytes.length ≤ 2 * cap)

/-- What undisturbed steps keep. -/
structure Kept (cap : Nat) (s : LogDir n) : Prop where
  sane : s.Sane
  measured : ∀ p file text, s.writers p = .open file (.rename text) →
    full cap (s.lengthOf file) text
  moved : ∀ moved ∈ s.renames, cap < moved.1 + moved.2
  small : ∀ contents ∈ s.files, Small cap contents

theorem full_mono {len len' : Nat} {text : Line} (passes : full cap len text)
    (grown : len ≤ len') : full cap len' text :=
  ⟨Nat.lt_of_lt_of_le passes.1 grown,
    Nat.lt_of_lt_of_le passes.2 (Nat.add_le_add_right grown _)⟩

/-- The clients' stages after one of them moved in a directory whose files only
grew. -/
theorem Kept.measured_put (kept : s.Kept cap) {u : LogDir n}
    (writers : u.writers = s.writers) (grown : ∀ file, s.lengthOf file ≤ u.lengthOf file)
    (p : Fin n) {writer : Writer}
    (own : ∀ file text, writer = .open file (.rename text) → full cap (u.lengthOf file) text) :
    ∀ q file text, (u.put p writer).writers q = .open file (.rename text) →
      full cap ((u.put p writer).lengthOf file) text := by
  intro q file text held
  by_cases same : q = p
  · subst same
    rw [writers_put_self] at held
    exact own file text held
  · rw [writers_put_of_ne u same, writers] at held
    exact full_mono (kept.measured q file text held) (grown file)

theorem small_write (small : ∀ contents ∈ s.files, Small cap contents) {p : Fin n} {file : Nat}
    {text : Line} (room : ¬ full cap (s.lengthOf file) text)
    (fits : 2 ≤ n ∨ text.bytes.length ≤ 2 * cap) :
    ∀ contents ∈ (s.write p file text).files, Small cap contents := by
  intro contents member
  obtain ⟨i, found⟩ := List.mem_iff_getElem?.mp member
  simp only [LogDir.write, List.getElem?_modify, Option.map_eq_map,
    Option.map_eq_some_iff] at found
  obtain ⟨old, there, changed⟩ := found
  split at changed
  · next same =>
      subst same
      have length : s.lengthOf file = size old := by simp only [lengthOf, there, Option.getD_some]
      simp only [full, length, not_and_or, Nat.not_lt] at room
      rw [← changed]
      rcases room with empty | within
      · -- The line is the first of its file, whatever its length.
        cases old with
        | nil => exact Or.inr ⟨(p, text), rfl, fits⟩
        | cons entry old => simp [size, Line.bytes] at empty
      · exact Or.inl (by simpa [size] using within)
  · rw [← changed]
    exact small old (List.mem_of_getElem? there)

theorem Kept.step {e : LogEvent n} (kept : s.Kept cap) (calm : s.Undisturbed cap e)
    (taken : s.step cap e = some t) : t.Kept cap := by
  have sane := kept.sane.step taken
  cases step_moves taken with
  | turn p file before after held measured =>
      refine ⟨sane, kept.measured_put rfl (fun _ => Nat.le_refl _) p ?_, kept.moved, kept.small⟩
      rintro _ text ⟨⟩
      exact measured text rfl
  | quit p =>
      exact ⟨sane, kept.measured_put rfl (fun _ => Nat.le_refl _) p
        (fun _ _ other => by cases other), kept.moved, kept.small⟩
  | enter p after notRename =>
      have writers : s.append.1.writers = s.writers := by
        unfold LogDir.append
        split <;> rfl
      have renames : s.append.1.renames = s.renames := by
        unfold LogDir.append
        split <;> rfl
      refine ⟨sane, kept.measured_put writers (fun file => by simp) p ?_, ?_, ?_⟩
      · rintro _ text ⟨⟩
        exact absurd rfl (notRename text)
      · intro moved member
        exact kept.moved moved (renames ▸ member)
      · intro contents member
        simp only [LogDir.put, LogDir.append] at member
        split at member
        · exact kept.small contents member
        · rcases List.mem_append.mp member with old | new
          · exact kept.small contents old
          · rw [List.mem_singleton.mp new]
            exact Or.inl (Nat.zero_le _)
  | rename p file text held =>
      have writers : (s.rename text).writers = s.writers := by
        unfold LogDir.rename
        split <;> rfl
      have files : (s.rename text).files = s.files := by
        unfold LogDir.rename
        split <;> rfl
      refine ⟨sane, kept.measured_put writers (fun file => by simp) p
        (fun _ _ other => by cases other), ?_, fun contents member => ?_⟩
      · simp only [Undisturbed, held] at calm
        intro moved member
        simp only [LogDir.put, LogDir.rename] at member
        split at member
        · next named there =>
            -- The file that is moved is the one whose length was read.
            have same : named = file := by
              rcases calm with gone | still
              · rw [there] at gone
                cases gone
              · rw [there] at still
                exact Option.some.inj still
            rcases List.mem_append.mp member with old | new
            · exact kept.moved moved old
            · rw [List.mem_singleton.mp new, same]
              exact (kept.measured p file text held).2
        · exact kept.moved moved member
      · rw [LogDir.put, files] at member
        exact kept.small contents member
  | write p file text held =>
      simp only [Undisturbed, held] at calm
      have writers : (s.write p file text).writers = s.writers := rfl
      exact ⟨sane, kept.measured_put writers (lengthOf_le_write s p file text) p
        (fun _ _ other => by cases other), kept.moved, small_write kept.small calm.1 calm.2⟩

theorem kept_start : (({} : LogDir n)).Kept cap :=
  ⟨sane_start, fun _ _ _ held => (by cases held), fun _ member => absurd member List.not_mem_nil,
    fun _ member => absurd member List.not_mem_nil⟩

theorem Kept.lengthOf_le (kept : s.Kept cap) {longest : Nat}
    (lines : ∀ entry ∈ s.returned, entry.2.bytes.length ≤ longest) (file : Nat) :
    s.lengthOf file ≤ cap ∨
      (0 < n ∧ s.lengthOf file ≤ longest ∧ (2 ≤ n ∨ s.lengthOf file ≤ 2 * cap)) := by
  cases there : s.files[file]? with
  | none =>
      left
      simp [lengthOf, there, size]
  | some contents =>
      have member := List.mem_of_getElem? there
      simp only [lengthOf, there, Option.getD_some]
      rcases kept.small contents member with within | ⟨entry, rfl, fits⟩
      · exact Or.inl within
      · have written : entry ∈ s.returned := by
          refine (kept.sane.once.mem_iff).mp ?_
          exact List.mem_flatten.mpr ⟨_, member, List.mem_singleton_self _⟩
        have length : size [entry] = entry.2.bytes.length := by simp [size]
        rw [length]
        exact Or.inr ⟨Fin.pos entry.1, lines entry written, fits⟩

theorem Kept.held_le (kept : s.Kept cap) {longest : Nat}
    (lines : ∀ entry ∈ s.returned, entry.2.bytes.length ≤ longest) :
    s.held ≤ 2 * cap + if cap < longest then n * longest else 0 := by
  have bound : ∀ named : Option Nat, (named.map s.lengthOf).getD 0 ≤ cap ∨
      (0 < n ∧ (named.map s.lengthOf).getD 0 ≤ longest ∧
        (2 ≤ n ∨ (named.map s.lengthOf).getD 0 ≤ 2 * cap)) := by
    intro named
    cases named with
    | none => exact Or.inl (Nat.zero_le _)
    | some file => exact kept.lengthOf_le lines file
  have one : 0 < n → longest ≤ n * longest := Nat.le_mul_of_pos_left longest
  have two : 2 ≤ n → 2 * longest ≤ n * longest := Nat.mul_le_mul_right longest
  have log := bound s.log
  have rotated := bound s.rotated
  simp only [held]
  split <;> omega

/-- In every run in which nobody else has moved `client.log` on when a client
renames it, or filled the file when a client writes to it, the rotation is
safe. -/
theorem rotation_loses_whole_generations
    (run : Reaches (LogDir.step cap) (LogDir.Undisturbed cap) {} s) : s.Safe cap := by
  have kept : s.Kept cap :=
    run.invariant (fun _ _ _ kept calm taken => kept.step calm taken) kept_start
  exact ⟨kept.moved, kept.sane.once, fun longest lines => kept.held_le lines⟩

/-- The first client fills `client.log` to the cap of eight bytes, the second rotates it
and fills the next one, and the first finds that one and rotates it in its turn. -/
def inTurn : List (LogEvent 2) :=
  [.open 0, .open 1, .call 0 [1, 1, 1, 1, 1, 1, 1], .next 0, .next 0, .next 0, .next 0,
    .call 1 [2, 2, 2, 2, 2, 2, 2], .next 1, .next 1, .next 1, .next 1, .next 1, .next 1,
    .call 0 [3, 3], .next 0, .next 0, .next 0, .next 0, .next 0, .next 0, .next 0]

instance decidableUndisturbed (s : LogDir n) (e : LogEvent n) : Decidable (s.Undisturbed cap e) :=
  match e with
  | .next p =>
      match at_ : s.writers p with
      | .open file (.rename _) =>
          decidable_of_iff (s.log = none ∨ s.log = some file) (by simp only [Undisturbed, at_])
      | .open file (.write text) =>
          decidable_of_iff
            (¬ full cap (s.lengthOf file) text ∧ (2 ≤ n ∨ text.bytes.length ≤ 2 * cap))
            (by simp only [Undisturbed, at_])
      | .open _ .ready | .open _ (.identify _) | .open _ (.follow _) | .open _ (.reopen _)
      | .open _ (.measure _) | .open _ (.renew _) | .closed | .off =>
          .isTrue (by simp only [Undisturbed, at_])
  | .open _ | .call _ _ | .fail _ => .isTrue trivial

theorem rotation_loses_whole_generations_inTurn :
    ∃ s : LogDir 2, Reaches (LogDir.step 8) (LogDir.Undisturbed 8) {} s ∧
      s.renames = [(8, 8), (8, 3)] ∧ s.held = 11 ∧ s.Safe 8 := by
  have outcome : ((runFrom (LogDir.step 8) ({} : LogDir 2) inTurn).map fun s =>
      (s.renames, s.held)) = some ([(8, 8), (8, 3)], 11) := by decide +kernel
  obtain ⟨s, run, shown⟩ := Option.map_eq_some_iff.mp outcome
  simp only [Prod.mk.injEq] at shown
  have reached : Reaches (LogDir.step 8) (LogDir.Undisturbed 8) {} s :=
    reaches_of_runFrom inTurn (by decide +kernel) run
  exact ⟨s, reached, shown.1, shown.2, rotation_loses_whole_generations reached⟩

/-- Two clients find `client.log` full at the same moment. The first renames it
and writes its line to a new one before the second renames what is there. -/
def twoClients : List (LogEvent 2) :=
  [.open 0, .open 1, .call 0 [1, 1, 1, 1, 1, 1, 1], .next 0, .next 0, .next 0, .next 0,
    .call 0 [2], .next 0, .next 0, .next 0, .call 1 [3], .next 1, .next 1, .next 1,
    .next 0, .next 0, .next 0, .next 1]

/-- The full generation is gone and `client.log.1` holds one short line. -/
theorem rotation_loses_a_fresh_generation :
    ∃ s : LogDir 2, Reaches (LogDir.step 8) free {} s ∧ ¬ s.Safe 8 ∧
      s.files = [[(0, [1, 1, 1, 1, 1, 1, 1])], [(0, [2])]] ∧ s.log = none ∧
      s.rotated = some 1 ∧ s.renames = [(8, 2), (2, 2)] := by
  have outcome : ((runFrom (LogDir.step 8) ({} : LogDir 2) twoClients).map fun s =>
      (s.files, s.log, s.rotated, s.renames)) =
      some ([[((0 : Fin 2), ([1, 1, 1, 1, 1, 1, 1] : Line))], [(0, [2])]], none, some 1,
        [(8, 2), (2, 2)]) := by
    rfl
  obtain ⟨s, run, shown⟩ := Option.map_eq_some_iff.mp outcome
  simp only [Prod.mk.injEq] at shown
  obtain ⟨files, log, rotated, renames⟩ := shown
  refine ⟨s, reaches_of_runFrom _ (admits_free _ _ _) run, fun safe => ?_, files, log, rotated,
    renames⟩
  have small := safe.full (2, 2) (by rw [renames]; simp)
  omega

end Bounds
end LogDir
end Oxutrm.Client
