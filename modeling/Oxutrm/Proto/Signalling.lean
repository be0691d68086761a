import Oxutrm.Config.Settings
import Oxutrm.Vt.Utf8

/-!
Signalling: one message a line, after whatever a login printed first, read by a blocking and
by an asynchronous reader. The reader is the bytes its stream still has; `serde_json` is a
parameter, and so is what a message carries besides its version.
-/
namespace Oxutrm.Signalling

open Oxutrm.Proto (Text)
open Oxutrm.Config (trim isWhiteSpace)

def maxSignalLine : Nat := 1024 * 1024

def protoVersion : UInt32 := 7

inductive Signal (α : Type) where
  | hostHello (proto : UInt32) (hello : α)
  | sessions (list : α)
  | choose (choice : α)
  | clientHello (proto : UInt32) (hello : α)
  | candidateUpdate (candidates : α)
  | established (path : α)
  | failed (reason : α)
  deriving DecidableEq

def Signal.proto {α : Type} : Signal α → Option UInt32
  | .hostHello proto _ | .clientHello proto _ => some proto
  | _ => none

inductive ErrorKind where
  | unexpectedEof
  | invalidData
  deriving DecidableEq

inductive ProtoError where
  | versionMismatch (peer ours : UInt32)
  | malformed (why : Text)
  | io (kind : ErrorKind) (why : Text)
  | signalLineTooLong (limit : Nat)
  deriving DecidableEq

/-- `serde_json` over signals. -/
structure Serde (α : Type) where
  encode : Signal α → Except Text Text
  fromStr : Text → Except Text (Signal α)

/-- What is promised of it for a message: one line, an object, that reads back. -/
def Serde.RoundTrips {α : Type} (serde : Serde α) (s : Signal α) : Prop :=
  ∃ text, serde.encode s = .ok text ∧ '\n' ∉ text ∧ text.head? = some '{' ∧
    text.getLast? = some '}' ∧ serde.fromStr text = .ok s

def closed : ProtoError :=
  .io .unexpectedEof "signalling stream closed before a message arrived".toList

def notUtf8 : ProtoError := .io .invalidData "signalling line is not valid UTF-8".toList

def fromUtf8 (raw : List UInt8) : Option Text :=
  (String.fromUTF8? raw.toByteArray).map String.toList

def looksLikeSignal (line : Text) : Bool :=
  (line.dropWhile isWhiteSpace).head? == some '{'

/-- `read_until(b'\n')` on a reader limited to `n` bytes: what was read, and what is left. -/
def readUntil : Nat → List UInt8 → List UInt8 × List UInt8
  | 0, s => ([], s)
  | _ + 1, [] => ([], [])
  | n + 1, b :: s =>
      if b = 10 then ([b], s)
      else ((b :: (readUntil n s).1), (readUntil n s).2)

section Framing

theorem readUntil_append (n : Nat) (s : List UInt8) :
    (readUntil n s).1 ++ (readUntil n s).2 = s := by
  fun_induction readUntil n s with
  | case1 => rfl
  | case2 => rfl
  | case3 => rfl
  | case4 n b s other ih => rw [List.cons_append, ih]

theorem length_readUntil (n : Nat) (s : List UInt8) : (readUntil n s).1.length ≤ n := by
  fun_induction readUntil n s with
  | case1 => exact Nat.le_refl 0
  | case2 => exact Nat.zero_le _
  | case3 n s =>
      rw [List.length_singleton]
      omega
  | case4 n b s other ih =>
      rw [List.length_cons]
      omega

theorem newline_last (n : Nat) (s : List UInt8) : 10 ∉ (readUntil n s).1.dropLast := by
  fun_induction readUntil n s with
  | case1 => exact List.not_mem_nil
  | case2 => exact List.not_mem_nil
  | case3 => exact List.not_mem_nil
  | case4 n b s other ih =>
      cases rest : (readUntil n s).1 with
      | nil => exact List.not_mem_nil
      | cons c line =>
          rw [rest] at ih
          rw [List.dropLast_cons_cons, List.mem_cons, not_or]
          exact ⟨fun same => other same.symm, ih⟩

/-- Neither a newline nor the whole budget: the stream has ended. -/
theorem readUntil_short {n : Nat} {s : List UInt8} (short : (readUntil n s).1.length < n)
    (open_ : (readUntil n s).1.getLast? ≠ some 10) : (readUntil n s).2 = [] := by
  fun_induction readUntil n s with
  | case1 s => exact absurd short (Nat.not_lt_zero _)
  | case2 => rfl
  | case3 n s => exact absurd rfl open_
  | case4 n b s other ih =>
      rw [List.length_cons] at short
      apply ih (by omega)
      intro last
      apply open_
      rw [List.getLast?_cons, last]
      rfl

theorem readUntil_line {n : Nat} {content : List UInt8} (plain : 10 ∉ content)
    (room : content.length + 1 ≤ n) (rest : List UInt8) :
    readUntil n (content ++ 10 :: rest) = (content ++ [10], rest) := by
  induction content generalizing n with
  | nil =>
      obtain ⟨m, rfl⟩ := Nat.exists_eq_add_of_le' room
      rfl
  | cons b content ih =>
      obtain ⟨m, rfl⟩ := Nat.exists_eq_add_of_le' room
      rw [List.mem_cons, not_or] at plain
      have next := @ih (m + content.length + 1) plain.2 (by omega)
      have other : b ≠ 10 := fun same => plain.1 same.symm
      have size : m + ((b :: content).length + 1) = (m + content.length + 1) + 1 := by
        rw [List.length_cons]
        omega
      rw [size, List.cons_append, readUntil, if_neg other, next]
      rfl

/-- Without a newline in it, the whole budget or the whole stream is read. -/
theorem readUntil_open {n : Nat} {content : List UInt8} (plain : 10 ∉ content)
    (room : content.length ≤ n) {rest : List UInt8} (end_ : content.length = n ∨ rest = []) :
    readUntil n (content ++ rest) = (content, rest) := by
  induction content generalizing n with
  | nil =>
      cases n with
      | zero => rfl
      | succ n =>
          cases end_ with
          | inl length => cases length
          | inr ended =>
              rw [ended]
              rfl
  | cons b content ih =>
      obtain ⟨m, rfl⟩ := Nat.exists_eq_add_of_le' room
      rw [List.mem_cons, not_or] at plain
      have other : b ≠ 10 := fun same => plain.1 same.symm
      have next := @ih (m + content.length) plain.2 (by omega) (by
        cases end_ with
        | inl length =>
            rw [List.length_cons] at length
            omega
        | inr ended => exact .inr ended)
      have size : m + (b :: content).length = (m + content.length) + 1 := by
        rw [List.length_cons]
        omega
      rw [size, List.cons_append, readUntil, if_neg other, next]

theorem readUntil_self (n : Nat) (s : List UInt8) :
    readUntil n (readUntil n s).1 = ((readUntil n s).1, []) := by
  fun_induction readUntil n s with
  | case1 => rfl
  | case2 => rfl
  | case3 n s => rfl
  | case4 n b s other ih =>
      rw [readUntil, if_neg other, ih]

theorem length_rest {n : Nat} {s : List UInt8} (some_ : (readUntil n s).1.length ≠ 0) :
    (readUntil n s).2.length < s.length := by
  have whole := congrArg List.length (readUntil_append n s)
  rw [List.length_append] at whole
  omega

end Framing

section Reading
variable {α : Type} (serde : Serde α)

def checkVersion (s : Signal α) : Except ProtoError Unit :=
  match s.proto with
  | some peer => if peer ≠ protoVersion then .error (.versionMismatch peer protoVersion) else .ok ()
  | none => .ok ()

def writeSignal (s : Signal α) : Except ProtoError (List UInt8) :=
  match serde.encode s with
  | .error why => .error (.malformed ("encoding signal: ".toList ++ why))
  | .ok line => .ok (Vt.Utf8.encode line ++ [10])

/-- What one line comes to; `none` is a line to be skipped. -/
def parseLine (raw : List UInt8) : Option (Except ProtoError (Signal α)) :=
  match fromUtf8 raw with
  | none => some (.error notUtf8)
  | some line =>
      if !looksLikeSignal line then none
      else
        match serde.fromStr (trim line) with
        | .error why => some (.error (.malformed ("signal json: ".toList ++ why)))
        | .ok s =>
            match checkVersion s with
            | .error e => some (.error e)
            | .ok () => some (.ok s)

def readSignal (s : List UInt8) : Except ProtoError (Signal α) × List UInt8 :=
  let raw := (readUntil maxSignalLine s).1
  let rest := (readUntil maxSignalLine s).2
  if _h : raw.length = 0 then (.error closed, rest)
  else if raw.length = maxSignalLine ∧ raw.getLast? ≠ some 10 then
    (.error (.signalLineTooLong maxSignalLine), rest)
  else
    match parseLine serde raw with
    | none => readSignal rest
    | some result => (result, rest)
termination_by s.length
decreasing_by exact length_rest _h

/-- The asynchronous reader: the framing over again, and the line through `readSignal`. -/
def readSignalAsync (s : List UInt8) : Except ProtoError (Signal α) × List UInt8 :=
  let raw := (readUntil maxSignalLine s).1
  let rest := (readUntil maxSignalLine s).2
  if _h : raw.length = 0 then (.error closed, rest)
  else if raw.length = maxSignalLine ∧ raw.getLast? ≠ some 10 then
    (.error (.signalLineTooLong maxSignalLine), rest)
  else
    match (readSignal serde raw).1 with
    | .ok signal => (.ok signal, rest)
    | .error (.io .unexpectedEof _) => readSignalAsync rest
    | .error e => (.error e, rest)
termination_by s.length
decreasing_by exact length_rest _h

/-- What the first `k` calls return. -/
def calls : Nat → List UInt8 → List (Except ProtoError (Signal α))
  | 0, _ => []
  | k + 1, s => (readSignal serde s).1 :: calls k (readSignal serde s).2

end Reading

section Text

theorem fromUtf8_encode (text : Text) : fromUtf8 (Vt.Utf8.encode text) = some text := by
  have bytes : (Vt.Utf8.encode text).toByteArray = (String.ofList text).toByteArray := rfl
  have valid := (String.ofList text).isValidUTF8
  have whole : String.fromUTF8? (String.ofList text).toByteArray = some (String.ofList text) := by
    rw [String.fromUTF8?, dif_pos valid]
    rfl
  rw [fromUtf8, bytes, whole, Option.map_some, String.toList_ofList]

theorem newline_of_mem_encode {text : Text} (member : 10 ∈ Vt.Utf8.encode text) :
    '\n' ∈ text := by
  obtain ⟨c, inside, byte⟩ := List.mem_flatMap.mp member
  have same : c = '\n' := by
    obtain ⟨first, tails, shape, ⟨extent, _⟩, tail⟩ := Vt.Utf8.encodeChar_shape c
    rw [shape] at byte
    cases byte with
    | tail _ later =>
        have low := tail 10 later
        cases low
    | head =>
        have one : c.utf8Size = 1 := by
          rw [← String.length_utf8EncodeChar, shape, ← extent]
          rfl
        have single := String.utf8EncodeChar_eq_singleton one
        rw [shape] at single
        have value : (10 : UInt8) = c.val.toUInt8 := (List.cons.inj single).1
        have small : c.val.toNat < 128 := by
          have bound := UInt32.le_iff_toNat_le.mp (Char.utf8Size_eq_one_iff.mp one)
          exact Nat.lt_succ_of_le bound
        have number : c.val.toNat = 10 := by
          have low := congrArg UInt8.toNat value
          rw [UInt32.toNat_toUInt8, Nat.mod_eq_of_lt (by omega)] at low
          exact low.symm
        exact Char.ext (UInt32.toNat_inj.mp number)
  exact same ▸ inside

theorem dropWhile_of_head {text : Text} {c : Char} (first : text.head? = some c)
    (visible : isWhiteSpace c = false) : text.dropWhile isWhiteSpace = text := by
  cases text with
  | nil => cases first
  | cons d text =>
      cases first
      rw [List.dropWhile_cons_of_neg (by rw [visible]; exact Bool.false_ne_true)]

theorem trim_line {text : Text} (first : text.head? = some '{') (last : text.getLast? = some '}') :
    trim (text ++ ['\n']) = text ∧ looksLikeSignal (text ++ ['\n']) = true := by
  have head : (text ++ ['\n']).head? = some '{' := by
    rw [List.head?_append, first]
    rfl
  have front := dropWhile_of_head head rfl
  have back := @dropWhile_of_head text.reverse '}' (by rw [List.head?_reverse, last]) rfl
  constructor
  · rw [trim, front, List.reverse_append]
    change (List.dropWhile isWhiteSpace ('\n' :: text.reverse)).reverse = text
    rw [List.dropWhile_cons_of_pos rfl, back, List.reverse_reverse]
  · rw [looksLikeSignal, front, head]
    rfl

end Text

/-- A line with its newline, within the limit. -/
def Terminated (raw : List UInt8) : Prop :=
  ∃ content, raw = content ++ [10] ∧ 10 ∉ content ∧ raw.length ≤ maxSignalLine

/-- A line, or what stands at the end of the stream without a newline. -/
def IsLine (raw rest : List UInt8) : Prop :=
  Terminated raw ∨ raw ≠ [] ∧ 10 ∉ raw ∧ raw.length < maxSignalLine ∧ rest = []

section Lines
variable {α : Type} (serde : Serde α)

/-- A line that is skipped, or a message of this version. -/
inductive Good : List UInt8 → Option (Signal α) → Prop where
  | noise {raw : List UInt8} {text : Text} (utf8 : fromUtf8 raw = some text)
      (other : looksLikeSignal text = false) : Good raw none
  | message {raw : List UInt8} {text : Text} {s : Signal α} (utf8 : fromUtf8 raw = some text)
      (looks : looksLikeSignal text = true) (parsed : serde.fromStr (trim text) = .ok s)
      (version : ∀ peer, s.proto = some peer → peer = protoVersion) : Good raw (some s)

/-- What is refused, with what stands behind it, and how. -/
inductive Faulty : List UInt8 → List UInt8 → ProtoError → Prop where
  | overLong {bad rest : List UInt8} (length : bad.length = maxSignalLine) (open_ : 10 ∉ bad) :
      Faulty bad rest (.signalLineTooLong maxSignalLine)
  | notUtf8 {bad rest : List UInt8} (line : IsLine bad rest) (other : fromUtf8 bad = none) :
      Faulty bad rest notUtf8
  | malformed {bad rest : List UInt8} {text why : Text} (line : IsLine bad rest)
      (utf8 : fromUtf8 bad = some text) (looks : looksLikeSignal text = true)
      (failed : serde.fromStr (trim text) = .error why) :
      Faulty bad rest (.malformed ("signal json: ".toList ++ why))
  | version {bad rest : List UInt8} {text : Text} {s : Signal α} {peer : UInt32}
      (line : IsLine bad rest) (utf8 : fromUtf8 bad = some text)
      (looks : looksLikeSignal text = true) (parsed : serde.fromStr (trim text) = .ok s)
      (carries : s.proto = some peer) (other : peer ≠ protoVersion) :
      Faulty bad rest (.versionMismatch peer protoVersion)

variable {serde}

theorem checkVersion_ok {s : Signal α} :
    checkVersion s = .ok () ↔ ∀ peer, s.proto = some peer → peer = protoVersion := by
  unfold checkVersion
  cases s.proto with
  | none => exact ⟨fun _ _ => nofun, fun _ => rfl⟩
  | some peer =>
      by_cases same : peer = protoVersion
      · simp [same]
      · simp [same]

theorem parseLine_good {raw : List UInt8} {m : Option (Signal α)} (good : Good serde raw m) :
    parseLine serde raw = m.map .ok := by
  unfold parseLine
  cases good with
  | noise utf8 other =>
      rw [utf8]
      simp only [other, Bool.not_false, if_true]
      rfl
  | message utf8 looks parsed version =>
      rw [utf8]
      simp only [looks, Bool.not_true, Bool.false_eq_true, if_false, parsed,
        checkVersion_ok.mpr version]
      rfl

section Equations
variable {s : List UInt8}

theorem readSignal_closed (none_ : (readUntil maxSignalLine s).1.length = 0) :
    readSignal serde s = (.error closed, (readUntil maxSignalLine s).2) := by
  rw [readSignal]
  simp only [dif_pos none_]

variable (some_ : (readUntil maxSignalLine s).1.length ≠ 0)
include some_

theorem readSignal_spent (spent : (readUntil maxSignalLine s).1.length = maxSignalLine ∧
    (readUntil maxSignalLine s).1.getLast? ≠ some 10) :
    readSignal serde s =
      (.error (.signalLineTooLong maxSignalLine), (readUntil maxSignalLine s).2) := by
  rw [readSignal]
  simp only [dif_neg some_, if_pos spent]

theorem readSignal_parse (whole : ¬ ((readUntil maxSignalLine s).1.length = maxSignalLine ∧
    (readUntil maxSignalLine s).1.getLast? ≠ some 10)) :
    readSignal serde s =
      match parseLine serde (readUntil maxSignalLine s).1 with
      | none => readSignal serde (readUntil maxSignalLine s).2
      | some result => (result, (readUntil maxSignalLine s).2) := by
  rw [readSignal]
  simp only [dif_neg some_, if_neg whole]

end Equations

/-- One line of the stream, in its frame. -/
theorem readUntil_isLine {raw rest : List UInt8} (line : IsLine raw rest) :
    readUntil maxSignalLine (raw ++ rest) = (raw, rest) ∧ raw.length ≠ 0 ∧
      ¬ (raw.length = maxSignalLine ∧ raw.getLast? ≠ some 10) := by
  cases line with
  | inl terminated =>
      obtain ⟨content, rfl, plain, room⟩ := terminated
      rw [List.length_append, List.length_singleton] at room
      refine ⟨?_, ?_, ?_⟩
      · rw [List.append_assoc]
        exact readUntil_line plain room rest
      · rw [List.length_append, List.length_singleton]
        omega
      · rw [List.getLast?_append]
        exact fun spent => spent.2 rfl
  | inr last =>
      obtain ⟨some_, plain, room, ended⟩ := last
      refine ⟨readUntil_open plain room.le (.inr ended), ?_, ?_⟩
      · exact fun none_ => some_ (List.length_eq_zero_iff.mp none_)
      · exact fun spent => absurd spent.1 room.ne

theorem readSignal_line {raw rest : List UInt8} (line : IsLine raw rest) :
    readSignal serde (raw ++ rest) =
      match parseLine serde raw with
      | none => readSignal serde rest
      | some result => (result, rest) := by
  obtain ⟨framed, some_, whole⟩ := readUntil_isLine line
  have equation := @readSignal_parse α serde (raw ++ rest)
  rw [framed] at equation
  exact equation some_ whole

theorem readSignal_nil : readSignal serde [] = (.error closed, []) := readSignal_closed rfl

theorem readSignal_faulty {bad rest : List UInt8} {e : ProtoError} (faulty : Faulty serde bad rest e) :
    readSignal serde (bad ++ rest) = (.error e, rest) := by
  cases faulty with
  | overLong length open_ =>
      have framed := @readUntil_open _ bad open_ length.le rest (.inl length)
      have some_ : bad.length ≠ 0 := by
        rw [length]
        decide
      have last : bad.getLast? ≠ some 10 := fun newline =>
        open_ (List.mem_of_getLast? newline)
      have equation := @readSignal_spent α serde (bad ++ rest)
      rw [framed] at equation
      exact equation some_ ⟨length, last⟩
  | notUtf8 line other =>
      rw [readSignal_line line, parseLine, other]
  | malformed line utf8 looks failed =>
      rw [readSignal_line line, parseLine, utf8]
      simp only [looks, Bool.not_true, Bool.false_eq_true, if_false, failed]
  | version line utf8 looks parsed carries other =>
      rw [readSignal_line line, parseLine, utf8]
      simp only [looks, Bool.not_true, Bool.false_eq_true, if_false, parsed, checkVersion, carries,
        ne_eq, other, not_false_eq_true, if_true]

theorem calls_nil (k : Nat) : calls serde k [] = List.replicate k (.error closed) := by
  induction k with
  | zero => rfl
  | succ k ih => rw [calls, readSignal_nil, ih, List.replicate_succ]

/-- Calls read through good lines, a message each. -/
theorem calls_good {lines : List (List UInt8 × Option (Signal α))}
    (good : ∀ l ∈ lines, Terminated l.1 ∧ Good serde l.1 l.2) (k : Nat) (tail : List UInt8) :
    calls serde ((lines.filterMap Prod.snd).length + k) (lines.flatMap Prod.fst ++ tail) =
      (lines.filterMap Prod.snd).map .ok ++ calls serde k tail := by
  induction lines with
  | nil =>
      rw [List.filterMap_nil, List.length_nil, Nat.zero_add]
      rfl
  | cons l lines ih =>
      obtain ⟨terminated, first⟩ := good l List.mem_cons_self
      have next := ih fun l' member => good l' (List.mem_cons_of_mem l member)
      have step := @readSignal_line α serde l.1 (lines.flatMap Prod.fst ++ tail) (.inl terminated)
      rw [parseLine_good first] at step
      rw [List.flatMap_cons, List.append_assoc]
      cases message : l.2 with
      | none =>
          rw [message] at step
          rw [List.filterMap_cons_none message]
          rw [← next]
          cases (lines.filterMap Prod.snd).length + k with
          | zero => rfl
          | succ n =>
              rw [calls, calls, step]
              rfl
      | some s =>
          rw [message] at step
          rw [List.filterMap_cons_some message, List.length_cons, Nat.add_right_comm, calls, step,
            List.map_cons, List.cons_append, ← next]
          rfl

/-- A line is never taken for the end of the stream. -/
theorem parseLine_ne_eof (raw : List UInt8) (why : Text) :
    parseLine serde raw ≠ some (.error (.io .unexpectedEof why)) := by
  unfold parseLine
  split
  · exact nofun
  · split
    · exact nofun
    · split
      · exact nofun
      · split
        · rename_i s _ e refused
          intro same
          cases same
          unfold checkVersion at refused
          split at refused
          · split at refused
            · cases refused
            · cases refused
          · cases refused
        · exact nofun

/-- The line that was read, given to the blocking reader alone. -/
theorem readSignal_raw {s : List UInt8} (some_ : (readUntil maxSignalLine s).1.length ≠ 0)
    (whole : ¬ ((readUntil maxSignalLine s).1.length = maxSignalLine ∧
      (readUntil maxSignalLine s).1.getLast? ≠ some 10)) :
    (readSignal serde (readUntil maxSignalLine s).1).1 =
      (parseLine serde (readUntil maxSignalLine s).1).getD (.error closed) := by
  have equation := @readSignal_parse α serde (readUntil maxSignalLine s).1
  rw [readUntil_self] at equation
  rw [equation some_ whole]
  cases parseLine serde (readUntil maxSignalLine s).1 with
  | none => exact congrArg Prod.fst readSignal_nil
  | some result => rfl

theorem readSignalAsync_eq (s : List UInt8) : readSignalAsync serde s = readSignal serde s := by
  induction size : s.length using Nat.strong_induction_on generalizing s with
  | _ n ih =>
      rw [readSignalAsync]
      by_cases none_ : (readUntil maxSignalLine s).1.length = 0
      · simp only [dif_pos none_]
        exact (readSignal_closed none_).symm
      · by_cases spent : (readUntil maxSignalLine s).1.length = maxSignalLine ∧
            (readUntil maxSignalLine s).1.getLast? ≠ some 10
        · simp only [dif_neg none_, if_pos spent]
          exact (readSignal_spent none_ spent).symm
        · have shorter := length_rest none_
          have again := ih _ (by omega) (readUntil maxSignalLine s).2 rfl
          simp only [dif_neg none_, if_neg spent, readSignal_raw none_ spent]
          rw [readSignal_parse none_ spent]
          cases parsed : parseLine serde (readUntil maxSignalLine s).1 with
          | none => exact again
          | some result =>
              rw [Option.getD_some]
              split
              · rfl
              · rename_i why
                exact absurd parsed (parseLine_ne_eof _ why)
              · rfl

/-- Lines as one call reads them: whole ones, but perhaps for the last. -/
structure Pieces (read : List (List UInt8)) : Prop where
  each : ∀ line ∈ read, line ≠ [] ∧ line.length ≤ maxSignalLine ∧ 10 ∉ line.dropLast
  ended : ∀ line ∈ read.dropLast, line.getLast? = some 10

theorem Pieces.cons {line : List UInt8} {read : List (List UInt8)} (pieces : Pieces read)
    (first : line ≠ [] ∧ line.length ≤ maxSignalLine ∧ 10 ∉ line.dropLast)
    (ended : read ≠ [] → line.getLast? = some 10) : Pieces (line :: read) := by
  constructor
  · intro other member
    cases member with
    | head => exact first
    | tail _ member => exact pieces.each other member
  · intro other member
    cases read with
    | nil => cases member
    | cons second read =>
        rw [List.dropLast_cons_cons] at member
        cases member with
        | head => exact ended (List.cons_ne_nil second read)
        | tail _ member => exact pieces.ended other member

theorem piece_of_some {s : List UInt8} (some_ : (readUntil maxSignalLine s).1.length ≠ 0) :
    (readUntil maxSignalLine s).1 ≠ [] ∧ (readUntil maxSignalLine s).1.length ≤ maxSignalLine ∧
      10 ∉ (readUntil maxSignalLine s).1.dropLast :=
  ⟨fun none_ => some_ (List.length_eq_zero_iff.mpr none_), length_readUntil _ _, newline_last _ _⟩

/-- A line without its newline is spent, or the last of the stream. -/
theorem newline_of_more {s : List UInt8} (more : (readUntil maxSignalLine s).2 ≠ [])
    (unspent : ¬ ((readUntil maxSignalLine s).1.length = maxSignalLine ∧
      (readUntil maxSignalLine s).1.getLast? ≠ some 10)) :
    (readUntil maxSignalLine s).1.getLast? = some 10 := by
  by_contra open_
  have limit := length_readUntil maxSignalLine s
  have other : (readUntil maxSignalLine s).1.length ≠ maxSignalLine :=
    fun length => unspent ⟨length, open_⟩
  exact more (readUntil_short (by omega) open_)

theorem readSignal_pieces (s : List UInt8) :
    ∃ read : List (List UInt8), s = read.flatten ++ (readSignal serde s).2 ∧ Pieces read := by
  induction size : s.length using Nat.strong_induction_on generalizing s with
  | _ n ih =>
      have whole := readUntil_append maxSignalLine s
      have stops : (readUntil maxSignalLine s).1.length ≠ 0 →
          (readSignal serde s).2 = (readUntil maxSignalLine s).2 →
          ∃ read : List (List UInt8), s = read.flatten ++ (readSignal serde s).2 ∧ Pieces read := by
        intro some_ rest
        refine ⟨[(readUntil maxSignalLine s).1], ?_, Pieces.cons ⟨nofun, nofun⟩
          (piece_of_some some_) fun no => absurd rfl no⟩
        rw [rest, List.flatten_singleton, whole]
      by_cases none_ : (readUntil maxSignalLine s).1.length = 0
      · refine ⟨[], ?_, nofun, nofun⟩
        rw [List.length_eq_zero_iff.mp none_] at whole
        rw [readSignal_closed none_]
        exact whole.symm
      · by_cases spent : (readUntil maxSignalLine s).1.length = maxSignalLine ∧
            (readUntil maxSignalLine s).1.getLast? ≠ some 10
        · exact stops none_ (by rw [readSignal_spent none_ spent])
        · cases parsed : parseLine serde (readUntil maxSignalLine s).1 with
          | some result =>
              exact stops none_ (by rw [readSignal_parse none_ spent, parsed])
          | none =>
              have shorter := length_rest none_
              obtain ⟨read, split, pieces⟩ := ih _ (by omega) (readUntil maxSignalLine s).2 rfl
              have next : readSignal serde s = readSignal serde (readUntil maxSignalLine s).2 := by
                rw [readSignal_parse none_ spent, parsed]
              refine ⟨(readUntil maxSignalLine s).1 :: read, ?_,
                pieces.cons (piece_of_some none_) fun some_ => newline_of_more ?_ spent⟩
              · rw [next, List.flatten_cons, List.append_assoc, ← split, whole]
              · intro blank
                rw [blank] at split
                have nothing := (List.append_eq_nil_iff.mp split.symm).1
                obtain ⟨second, read', rfl⟩ := List.exists_cons_of_ne_nil some_
                exact (pieces.each second List.mem_cons_self).1
                  (List.append_eq_nil_iff.mp nothing).1

theorem good_or_faulty {raw rest : List UInt8} (line : IsLine raw rest) :
    (∃ m, Good serde raw m) ∨ ∃ e, Faulty serde raw rest e := by
  cases utf8 : fromUtf8 raw with
  | none => exact .inr ⟨_, .notUtf8 line utf8⟩
  | some text =>
      cases looks : looksLikeSignal text with
      | false => exact .inl ⟨none, .noise utf8 looks⟩
      | true =>
          cases parsed : serde.fromStr (trim text) with
          | error why => exact .inr ⟨_, .malformed line utf8 looks parsed⟩
          | ok s =>
              by_cases version : ∀ peer, s.proto = some peer → peer = protoVersion
              · exact .inl ⟨some s, .message utf8 looks parsed version⟩
              · push Not at version
                obtain ⟨peer, carries, other⟩ := version
                exact .inr ⟨_, .version line utf8 looks parsed carries other⟩

theorem front_cases (s : List UInt8) :
    s = [] ∨
      ((readUntil maxSignalLine s).1.length = maxSignalLine ∧ 10 ∉ (readUntil maxSignalLine s).1) ∨
      IsLine (readUntil maxSignalLine s).1 (readUntil maxSignalLine s).2 := by
  have whole := readUntil_append maxSignalLine s
  have limit := length_readUntil maxSignalLine s
  have plain := newline_last maxSignalLine s
  by_cases newline : (readUntil maxSignalLine s).1.getLast? = some 10
  · right
    right
    left
    refine ⟨(readUntil maxSignalLine s).1.dropLast, ?_, plain, limit⟩
    exact (List.dropLast_append_getLast? 10 newline).symm
  · by_cases spent : (readUntil maxSignalLine s).1.length = maxSignalLine
    · refine .inr (.inl ⟨spent, fun member => ?_⟩)
      have some_ : (readUntil maxSignalLine s).1 ≠ [] := List.ne_nil_of_mem member
      rw [← List.dropLast_append_getLast some_, List.mem_append, List.mem_singleton] at member
      cases member with
      | inl inner => exact plain inner
      | inr last =>
          apply newline
          rw [List.getLast?_eq_getLast_of_ne_nil some_, last]
    · have ended := readUntil_short (show _ < maxSignalLine by omega) newline
      by_cases none_ : (readUntil maxSignalLine s).1 = []
      · left
        rw [← whole, none_, ended]
        rfl
      · refine .inr (.inr (.inr ⟨none_, fun member => ?_, by omega, ended⟩))
        rw [← List.dropLast_append_getLast none_, List.mem_append, List.mem_singleton] at member
        cases member with
        | inl inner => exact plain inner
        | inr last =>
            apply newline
            rw [List.getLast?_eq_getLast_of_ne_nil none_, last]

/-- Every stream is good lines up to its end or to the first that is refused. -/
theorem stream_cases (s : List UInt8) :
    ∃ lines : List (List UInt8 × Option (Signal α)), ∃ tail,
      (∀ l ∈ lines, Terminated l.1 ∧ Good serde l.1 l.2) ∧
      s = lines.flatMap Prod.fst ++ tail ∧
      (tail = [] ∨ (IsLine tail [] ∧ ∃ m, Good serde tail m) ∨
        ∃ bad rest e, tail = bad ++ rest ∧ Faulty serde bad rest e) := by
  induction size : s.length using Nat.strong_induction_on generalizing s with
  | _ n ih =>
      have whole := readUntil_append maxSignalLine s
      obtain empty | ⟨spent, open_⟩ | line := front_cases s
      · exact ⟨[], s, nofun, rfl, .inl empty⟩
      · exact ⟨[], s, nofun, rfl, .inr (.inr ⟨_, _, _, whole.symm, .overLong spent open_⟩)⟩
      · obtain ⟨m, good⟩ | ⟨e, faulty⟩ := @good_or_faulty α serde _ _ line
        · cases line with
          | inl terminated =>
              have some_ := (readUntil_isLine (.inl terminated : IsLine _
                (readUntil maxSignalLine s).2)).2.1
              have shorter := length_rest some_
              obtain ⟨lines, tail, each, split, ending⟩ :=
                ih _ (by omega) (readUntil maxSignalLine s).2 rfl
              refine ⟨((readUntil maxSignalLine s).1, m) :: lines, tail, ?_, ?_, ending⟩
              · intro l member
                cases member with
                | head => exact ⟨terminated, good⟩
                | tail _ member => exact each l member
              · rw [List.flatMap_cons, List.append_assoc, ← split, whole]
          | inr last =>
              have only : (readUntil maxSignalLine s).1 = s := by
                rw [last.2.2.2, List.append_nil] at whole
                exact whole
              rw [only] at last good
              exact ⟨[], s, nofun, rfl,
                .inr (.inl ⟨.inr ⟨last.1, last.2.1, last.2.2.1, rfl⟩, m, good⟩)⟩
        · exact ⟨[], s, nofun, rfl, .inr (.inr ⟨_, _, e, whole.symm, faulty⟩)⟩

/-- A line of the stream: noise, or a message of this version as it was written. -/
inductive Sent (serde : Serde α) : List UInt8 → Option (Signal α) → Prop where
  | noise {raw : List UInt8} {text : Text} (line : Terminated raw) (utf8 : fromUtf8 raw = some text)
      (other : looksLikeSignal text = false) : Sent serde raw none
  | written {raw : List UInt8} {s : Signal α}
      (version : ∀ peer, s.proto = some peer → peer = protoVersion)
      (written : writeSignal serde s = .ok raw) (room : raw.length ≤ maxSignalLine) :
      Sent serde raw (some s)

theorem Sent.good {raw : List UInt8} {m : Option (Signal α)} (sent : Sent serde raw m)
    (promised : ∀ s, m = some s → serde.RoundTrips s) : Terminated raw ∧ Good serde raw m := by
  cases sent with
  | noise line utf8 other => exact ⟨line, .noise utf8 other⟩
  | written version written room =>
      rename_i s
      obtain ⟨text, encoded, single, first, last, parsed⟩ := promised s rfl
      rw [writeSignal, encoded] at written
      cases written
      obtain ⟨trimmed, looks⟩ := trim_line first last
      have bytes : Vt.Utf8.encode text ++ [10] = Vt.Utf8.encode (text ++ ['\n']) := by
        rw [Vt.Utf8.encode_append]
        rfl
      refine ⟨⟨_, rfl, fun newline => single (newline_of_mem_encode newline), room⟩, ?_⟩
      exact .message (bytes ▸ fromUtf8_encode _) looks (trimmed.symm ▸ parsed) version

end Lines

/-- Messages come through in order past any noise; on any stream a call reads whole lines
within the limit, the first bad line is refused for what is wrong with it, and the two
readers agree. -/
theorem signals_come_through {α : Type} (serde : Serde α)
    (lines : List (List UInt8 × Option (Signal α))) (sent : ∀ l ∈ lines, Sent serde l.1 l.2)
    (promised : ∀ l ∈ lines, ∀ s, l.2 = some s → serde.RoundTrips s) :
    (∀ k, calls serde ((lines.filterMap Prod.snd).length + k) (lines.flatMap Prod.fst) =
      (lines.filterMap Prod.snd).map .ok ++ List.replicate k (.error closed)) ∧
    (∀ s, ∃ read : List (List UInt8), s = read.flatten ++ (readSignal serde s).2 ∧
      (∀ line ∈ read, line ≠ [] ∧ line.length ≤ maxSignalLine ∧ 10 ∉ line.dropLast) ∧
      ∀ line ∈ read.dropLast, line.getLast? = some 10) ∧
    (∀ good : List (List UInt8 × Option (Signal α)),
      (∀ l ∈ good, Terminated l.1 ∧ Good serde l.1 l.2) →
      ∀ bad rest e, Faulty serde bad rest e →
        calls serde ((good.filterMap Prod.snd).length + 1) (good.flatMap Prod.fst ++ (bad ++ rest)) =
          (good.filterMap Prod.snd).map .ok ++ [.error e]) ∧
    (∀ s, ∃ good : List (List UInt8 × Option (Signal α)), ∃ tail,
      (∀ l ∈ good, Terminated l.1 ∧ Good serde l.1 l.2) ∧
      s = good.flatMap Prod.fst ++ tail ∧
      (tail = [] ∨ (IsLine tail [] ∧ ∃ m, Good serde tail m) ∨
        ∃ bad rest e, tail = bad ++ rest ∧ Faulty serde bad rest e)) ∧
    ∀ s, readSignalAsync serde s = readSignal serde s := by
  refine ⟨fun k => ?_, fun s => ?_, fun good each bad rest e faulty => ?_, stream_cases,
    readSignalAsync_eq⟩
  · have through := calls_good
      (fun l member => (sent l member).good (promised l member)) k []
    rwa [List.append_nil, calls_nil] at through
  · obtain ⟨read, split, pieces⟩ := @readSignal_pieces α serde s
    exact ⟨read, split, pieces.each, pieces.ended⟩
  · rw [calls_good each, calls, readSignal_faulty faulty]
    rfl

/-- What `serde_json` writes of a failure without a reason. -/
def failedText : Text := "\x7b\"t\":\"Failed\",\"reason\":\"\"\x7d".toList

def failedSerde : Serde Unit where
  encode _ := .ok failedText
  fromStr text := if text = failedText then .ok (.failed ()) else .error "expected value".toList

def motd : List UInt8 := Vt.Utf8.encode "Welcome\n".toList

def failedLine : List UInt8 := Vt.Utf8.encode failedText ++ [10]

theorem signals_come_through_motd :
    calls failedSerde 2 (motd ++ failedLine) = [.ok (.failed ()), .error closed] := by
  have promised : failedSerde.RoundTrips (.failed ()) :=
    ⟨failedText, rfl, by decide, by decide, by decide, rfl⟩
  have noise : Sent failedSerde motd none :=
    .noise ⟨Vt.Utf8.encode "Welcome".toList, by decide +kernel, by decide +kernel, by decide +kernel⟩
      (fromUtf8_encode _) (by decide +kernel)
  have written : Sent failedSerde failedLine (some (.failed ())) :=
    .written nofun rfl (by decide +kernel)
  refine (signals_come_through failedSerde [(motd, none), (failedLine, some (.failed ()))]
    ?_ ?_).1 1
  · intro l member
    simp only [List.mem_cons, List.not_mem_nil, or_false] at member
    obtain rfl | rfl := member
    · exact noise
    · exact written
  · intro l member s carried
    simp only [List.mem_cons, List.not_mem_nil, or_false] at member
    obtain rfl | rfl := member
    · cases carried
    · cases carried
      exact promised

end Oxutrm.Signalling
