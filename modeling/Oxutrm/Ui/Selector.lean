import Mathlib.Data.List.Sort
import Oxutrm.Ui.Entries
import Oxutrm.Ui.Paste
import Oxutrm.Client.Standby

/-!
The session selector's state and keys. The list is the host's, set whenever a fetch
comes back; the keys come back as an `Out`: a request to send, or where the popup
goes.
-/
namespace Oxutrm.Ui
open Client

/-- How long a question must have been up before a key answers it. -/
def answerGuard : Nat := 500000000

theorem late_of_not_early {at_ now : Instant} (late : ¬ now - at_ < answerGuard) :
    at_ + answerGuard ≤ now := by
  have waits : 0 < answerGuard := by decide
  have gap : answerGuard ≤ now - at_ := Nat.not_lt.mp late
  exact Nat.add_le_of_le_sub' (Nat.le_of_lt (Nat.lt_of_sub_pos (Nat.lt_of_lt_of_le waits gap))) gap

inductive Out where
  | ask (ask : Ask)
  | back
  | close
  | quit
  deriving DecidableEq, Repr

/-- A question the selector asks before it acts. -/
inductive Question where
  | takeOver (id : SessionId) (label : Text) (unknown : Bool)
  | kill (id : SessionId) (label : Text) (inUse : Bool)
  deriving DecidableEq, Repr

/-- What the selector needs to know about the session, read by read. -/
structure Ctx where
  live : Bool
  lobby : Bool
  busy : Bool
  deriving DecidableEq, Repr

def notLive : Text := "the link is down; try again once it is back".toList

def busyText : Text := "waiting for the host to answer".toList

def otherVersion (e : SessionEntry) : Text :=
  label e ++ " runs another version of oxutrm; it can be ended only by ending its shell".toList

def notDetachable (e : SessionEntry) : Text :=
  label e ++ " is not detachable: it tunnels its data through the ssh that ".toList ++
    "created it, so it cannot be reattached".toList

/-- `cursor` is a row of `rows`, or their number: `+ new session`. A rename holds
the id and not the cursor, for a refetch can move the rows. -/
structure Selector where
  rows : List SessionEntry := []
  cursor : Nat := 0
  loading : Bool := false
  question : Option (Question × Instant) := none
  rename : Option (SessionId × Field) := none
  note : Option Text := none
  listFailed : Option Text := none
  pasting : Option Matched := none
  deriving DecidableEq, Repr

namespace Selector

/-- `open`: whatever the last list said is gone until the next one arrives. -/
def openAfresh : Selector := { loading := true }

def row (s : Selector) : Option SessionEntry := s.rows[s.cursor]?

/-- The session the cursor is on. -/
def selected (s : Selector) : Option SessionId := s.row.map (·.id)

def byStart (rows : List SessionEntry) : List SessionEntry :=
  rows.insertionSort fun a b => a.createdUnix ≤ b.createdUnix

/-- A rename whose session is no longer listed ends, and the note says so. -/
def dropRename (s : Selector) (rows : List SessionEntry) : Selector :=
  match s.rename with
  | none => s
  | some (id, _) =>
      if rows.any (·.id = id) then s
      else
        let gone := ((s.rows.find? (·.id = id)).map label).getD id.short
        { s with note := some (gone ++ " has ended; it was not renamed".toList), rename := none }

/-- Where the cursor goes when a list comes. -/
def place (s : Selector) (rows : List SessionEntry) : Nat :=
  if s.loading then (rows.findIdx? (·.this)).getD 0
  else
    match s.selected with
    | some id => (rows.findIdx? (·.id = id)).getD (min s.cursor rows.length)
    | none => rows.length

def setRows (s : Selector) (rows : List SessionEntry) : Selector :=
  let rows := byStart rows
  let s := s.dropRename rows
  { s with rows := rows, cursor := s.place rows, loading := false, listFailed := none }

def failList (s : Selector) (why : Text) : Selector :=
  { s with question := none, loading := false, listFailed := some why }

def fail (s : Selector) (why : Text) : Selector :=
  { s with question := none, note := some why }

/-- `ask`, unless the link is down or a request is under way. -/
def act (s : Selector) (ctx : Ctx) (ask : Ask) : Selector × Option Out :=
  if !ctx.live then ({ s with note := some notLive }, none)
  else if ctx.busy then ({ s with note := some busyText }, none)
  else (s, some (.ask ask))

/-- `⏎` on the cursor's row. -/
def enter (s : Selector) (ctx : Ctx) (now : Instant) : Selector × Option Out :=
  match s.row with
  | none => s.act ctx (.new none)
  | some row =>
      if row.this then (s, some .close)
      else if !row.detachable then ({ s with note := some (notDetachable row) }, none)
      else
        match row.attached with
        | .otherVersion => ({ s with note := some (otherVersion row) }, none)
        | .elsewhere => ({ s with question := some (.takeOver row.id (label row) false, now) }, none)
        | .unknown => ({ s with question := some (.takeOver row.id (label row) true, now) }, none)
        | .no | .here => s.act ctx (.switch row.id)

/-- A key while a question is up: `y` acts, `n` and `Esc` drop it, and anything
else, or anything before the guard has passed, does nothing. -/
def answer (s : Selector) (question : Question) (asked : Instant) (key : Key) (ctx : Ctx)
    (now : Instant) : Selector × Option Out :=
  if now - asked < answerGuard then (s, none)
  else if key = .byte 0x79 then
    let ask := match question with
      | .takeOver id _ _ => Ask.switch id
      | .kill id _ _ => Ask.kill id
    { s with question := none }.act ctx ask
  else if key = .byte 0x6e ∨ key = .byte esc then ({ s with question := none }, none)
  else (s, none)

def isEnter (key : Key) : Bool := key = .byte 0x0d || key = .byte 0x0a

def isErase (key : Key) : Bool := key = .byte 0x7f || key = .byte 0x08

/-- The name a typed text stands for: nothing typed clears it. -/
def typedName (text : Text) : Except Text (Option Name) :=
  if Config.trim text = [] then .ok none
  else (Name.parse (Config.trim text)).map some

/-- A key while a name is typed in place. -/
def renameKey (s : Selector) (id : SessionId) (field : Field) (key : Key) (ctx : Ctx) :
    Selector × Option Out :=
  if key = .byte esc then ({ s with rename := none }, none)
  else if isEnter key then
    match typedName field.text with
    | .error why => ({ s with note := some why }, none)
    | .ok name =>
        let (s, out) := s.act ctx (.rename id name)
        (if out.isSome then { s with rename := none } else s, out)
  else if isErase key then ({ s with rename := some (id, field.erase) }, none)
  else
    match key with
    | .byte b =>
        if 0x20 ≤ b then ({ s with rename := some (id, field.typeByte b) }, none) else (s, none)
    | .up | .down => (s, none)

def startRename (s : Selector) : Selector :=
  match s.row with
  | none => s
  | some row =>
      if row.attached = .otherVersion then { s with note := some (otherVersion row) }
      else { s with rename := some (row.id, Field.set ((row.name.map Name.text).getD [])) }

def askKill (s : Selector) (now : Instant) : Selector :=
  match s.row with
  | none => s
  | some row =>
      if row.attached = .otherVersion then { s with note := some (otherVersion row) }
      else
        let question := Question.kill row.id (label row) (row.attached = .elsewhere)
        { s with question := some (question, now) }

def listKey (s : Selector) (key : Key) (ctx : Ctx) (now : Instant) : Selector × Option Out :=
  if key = .up ∨ key = .byte 0x6b then ({ s with cursor := s.cursor - 1 }, none)
  else if key = .down ∨ key = .byte 0x6a then
    ({ s with cursor := min (s.cursor + 1) s.rows.length }, none)
  else if isEnter key then s.enter ctx now
  else if key = .byte 0x6e then s.act ctx (.new none)
  else if key = .byte 0x72 then (s.startRename, none)
  else if key = .byte 0x78 then (s.askKill now, none)
  else if key = .byte 0x71 ∨ key = .byte esc then (s, some (if ctx.lobby then .quit else .back))
  else (s, none)

def key (s : Selector) (key : Key) (ctx : Ctx) (now : Instant) : Selector × Option Out :=
  match s.question with
  | some (question, asked) => s.answer question asked key ctx now
  | none =>
      match s.rename with
      | some (id, field) => s.renameKey id field key ctx
      | none => s.listKey key ctx now

/-- A paste's text is typed into the rename field; anywhere else it is dropped. -/
def pasteByte (s : Selector) (b : UInt8) : Selector :=
  { s with rename := s.rename.map fun (id, field) => (id, field.typeByte b) }

def reader (ctx : Ctx) (now : Instant) : Reader (Selector × Option Out) where
  up _ := true
  key s k := (s.1.key k ctx now, (s.1.key k ctx now).2.isSome)
  pasted s b := (s.1.pasteByte b, s.2)
  pasting s := s.1.pasting
  setPasting s p := ({ s.1 with pasting := p }, s.2)

/-- One read's bytes. The first key that produces an `Out` ends the read. -/
def keys (s : Selector) (bytes : List UInt8) (ctx : Ctx) (now : Instant) : Selector × Option Out :=
  let (s, rest) := (reader ctx now).resume ({ s with note := none }, none) bytes
  ((reader ctx now).read (bytes == [esc]) s rest).1

end Selector

end Oxutrm.Ui
