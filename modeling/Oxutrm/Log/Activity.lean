import Oxutrm.Log.Dates
import Oxutrm.Ui.Entries

/-!
The activity log: a ring of the last entries for the popup, and a file for afterwards. What
happens again and again is one entry of the ring and at most two lines of the file.
-/
namespace Oxutrm.Log
open Proto (Text)

/-- How many entries the popup can scroll back through. -/
def ringCap : Nat := 200

/-- The most characters of one entry's text the file keeps. -/
def fileTextCap : Nat := 4096

def reasonShown : Nat := 120

inductive Kind where
  | link
  | standby
  | failover
  | rebuild
  | input
  | log
  | outage
  | config
  | session
  deriving DecidableEq, Repr

def Kind.name : Kind → Text
  | .link => "link".toList
  | .standby => "standby".toList
  | .failover => "failover".toList
  | .rebuild => "rebuild".toList
  | .input => "input".toList
  | .log => "log".toList
  | .outage => "outage".toList
  | .config => "config".toList
  | .session => "session".toList

/-- `str::lines`: a line that ends with a newline may end with a carriage return before it. -/
def textLines (text : Text) : List Text :=
  let parts := text.splitOn '\n'
  (parts.dropLast.map fun line => if line.getLast? = some '\r' then line.dropLast else line) ++
    parts.getLast?.toList.filter (· ≠ [])

/-- No more than so many characters. -/
def cutAt (cap : Nat) (text : Text) : Text :=
  if text.length ≤ cap then text else text.take cap ++ "...".toList

/-- One line of a reason. -/
def summarised (reason : Text) : Text :=
  cutAt reasonShown (Ui.legible (Config.trim ((textLines reason).head?.getD [])))

def fileText (text : Text) : Text :=
  cutAt fileTextCap
    ((" | ".toList).intercalate ((((textLines text).map Config.trim).filter (· ≠ [])).map Ui.legible))

structure Entry where
  /-- When it last happened. -/
  at_ : SystemTime
  /-- When its run of identical entries began. -/
  since : SystemTime
  kind : Kind
  text : Text
  shown : Text
  full : Text
  detail : Bool
  repeats : Nat
  deriving DecidableEq, Repr

/-- A call of one of the three ways in, at the time it is made. -/
inductive Call where
  | record (kind : Kind) (text : Text) (at_ : SystemTime)
  | recordDetail (kind : Kind) (text : Text) (at_ : SystemTime)
  | recordShown (kind : Kind) (text shown : Text) (at_ : SystemTime)

/-- The entry that is made of the arguments of `record_entry`. -/
def entryOf (kind : Kind) (text : Text) (shown : Option Text) (detail : Bool) (at_ : SystemTime) : Entry where
  at_ := at_
  since := at_
  kind := kind
  text := summarised text
  shown := (shown.map summarised).getD (summarised text)
  full := fileText text
  detail := detail
  repeats := 0

def Call.entry : Call → Entry
  | .record kind text at_ => entryOf kind text none false at_
  | .recordDetail kind text at_ => entryOf kind text none true at_
  | .recordShown kind text shown at_ => entryOf kind text (some shown) false at_

def Entry.again (last e : Entry) : Bool :=
  last.kind = e.kind && last.full = e.full && last.shown = e.shown && last.detail = e.detail

def saturatingSucc (n : Nat) : Nat := if n + 1 < 2 ^ 32 then n + 1 else n

/-- The oldest detail gives way first, and with no other detail than the newest the oldest
entry does. -/
def evict (ring : List Entry) : List Entry :=
  if _ : ring.length > ringCap then
    match _found : (ring.take (ring.length - 1)).findIdx? (·.detail) with
    | some i => evict (ring.eraseIdx i)
    | none => evict ring.tail
  else ring
termination_by ring.length
decreasing_by
  · have inside := (List.findIdx?_eq_some_iff_findIdx_eq.mp _found).1
    rw [List.length_take] at inside
    rw [List.length_eraseIdx]
    split
    · omega
    · omega
  · rw [List.length_tail]
    omega

/-- `client.log` and `client.log.1`, as long as no other client writes to them and nothing
fails. -/
structure LogFile where
  cap : Nat
  named : Text := []
  rotated : Text := []
  /-- What the rotations before the last one have overwritten. -/
  overwritten : Text := []
  deriving DecidableEq, Repr

def LogFile.rotate (file : LogFile) : LogFile :=
  { file with named := [], rotated := file.named, overwritten := file.overwritten ++ file.rotated }

def LogFile.writeLine (file : LogFile) (line : Text) : Except Text LogFile :=
  let bytes := line ++ ['\n']
  let file := if file.named.len > 0 ∧ file.named.len + bytes.len > file.cap then file.rotate else file
  .ok { file with named := file.named ++ bytes }

structure Activity (φ : Type*) where
  ring : List Entry
  file : Option φ
  /-- What every line of the file carries after its time. -/
  tag : Text

/-- A line of the file, without its newline. -/
def lineOf (tag : Text) (at_ : SystemTime) (kind : Kind) (text : Text) (run : Option (Nat × SystemTime)) :
    Text :=
  rfc3339Utc at_ ++ [' '] ++ tag ++ [' '] ++ kind.name ++ [' '] ++ text ++
    match run with
    | none => []
    | some (n, since) =>
        " (repeated ".toList ++ Nat.toDigits 10 n ++ ['\u00d7'] ++ " since ".toList ++ hhMmUtc since ++ [')']

namespace Activity
variable {φ : Type*}

def push (a : Activity φ) (e : Entry) : Activity φ := { a with ring := evict (a.ring ++ [e]) }

/-- The file is gone for the rest of the session. -/
def fileOff (a : Activity φ) (now : SystemTime) (e : Text) : Activity φ :=
  let text := summarised ("log file off: ".toList ++ e)
  a.push
    { at_ := now, since := now, kind := .log, text := text, shown := text, full := text, detail := false,
      repeats := 0 }

def withFile (file : Except Text φ) (now : SystemTime) (target sessionId : Text) : Activity φ :=
  let start := sessionId.take 8
  let short := if start = [] then ['-'] else Ui.legible start
  let a : Activity φ := { ring := [], file := none, tag := Ui.legible target ++ [' '] ++ short }
  match file with
  | .ok f => { a with file := some f }
  | .error e => a.fileOff now e

section Writing
variable (writeLine : φ → Text → Except Text φ)

/-- `now` is for the entry that says that the file is gone. -/
def write (a : Activity φ) (now : SystemTime) (line : Text) : Activity φ :=
  match a.file with
  | none => a
  | some file =>
      match writeLine file line with
      | .ok file => { a with file := some file }
      | .error e => { a with file := none }.fileOff now e

/-- The newest entry's repeats, as one line. -/
def endRun (a : Activity φ) (now : SystemTime) : Activity φ :=
  match a.ring.getLast? with
  | none => a
  | some last =>
      if last.repeats = 0 then a
      else a.write writeLine now (lineOf a.tag last.at_ last.kind last.full (some (last.repeats, last.since)))

def recordEntry (a : Activity φ) (e : Entry) : Activity φ :=
  match a.ring.getLast? with
  | some last =>
      if last.again e then
        { a with ring := a.ring.dropLast ++ [{ last with repeats := saturatingSucc last.repeats, at_ := e.at_ }] }
      else fresh
  | none => fresh
where
  /-- The run before is over. -/
  fresh : Activity φ :=
    let a := a.endRun writeLine e.at_
    let line := lineOf a.tag e.at_ e.kind e.full none
    (a.push e).write writeLine e.at_ line

def record (a : Activity φ) (call : Call) : Activity φ := a.recordEntry writeLine call.entry

def run (a : Activity φ) (calls : List Call) : Activity φ := calls.foldl (record writeLine) a

/-- A run still folding when the session ends is written out. -/
def drop (a : Activity φ) (now : SystemTime) : Activity φ := a.endRun writeLine now

end Writing
end Activity
end Oxutrm.Log
