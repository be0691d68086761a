import Oxutrm.Ui.Field
import Oxutrm.Config.Settings

/-!
A session as the host lists it, and the names a session may have.
-/
namespace Oxutrm.Ui

structure SessionId where
  bytes : List UInt8
  size : bytes.length = 16
  deriving DecidableEq, Repr

/-- The first eight characters: two for each byte. -/
def SessionId.short (id : SessionId) : Text :=
  (id.bytes.take 4).flatMap fun b => [Config.hexDigit (b.toNat / 16), Config.hexDigit (b.toNat % 16)]

def maxName : Nat := 24

/-- A name that would read as the beginning of a session id. -/
def readsAsId (text : Text) : Bool :=
  text.all fun c => ('0' ≤ c && c ≤ '9') || ('a' ≤ c && c ≤ 'f')

/-- Why a text cannot be a name. -/
def nameError (text : Text) : Option Text :=
  if text.length = 0 then some "a name cannot be empty".toList
  else if maxName < text.length then some "a name has at most 24 characters".toList
  else if text.any isControl then some "a name cannot contain control characters".toList
  else if Config.trim text ≠ text then some "a name cannot start or end with a space".toList
  else if readsAsId text then
    some "a name needs a character outside 0-9 and a-f, or it reads as a session id".toList
  else none

structure Name where
  text : Text
  valid : nameError text = none
  deriving DecidableEq, Repr

def Name.parse (text : Text) : Except Text Name :=
  match h : nameError text with
  | some why => .error why
  | none => .ok ⟨text, h⟩

inductive Attached where
  | no
  | here
  | elsewhere
  | unknown
  | otherVersion
  deriving DecidableEq, Repr

structure SessionEntry where
  id : SessionId
  name : Option Name
  createdUnix : UInt64
  detachable : Bool
  attached : Attached
  /-- The session the asker is in. -/
  this : Bool
  deriving DecidableEq, Repr

/-- A control character as the popup shows it. -/
def legibleChar (c : Char) : Text :=
  if c.toNat < 0x20 then ['^', Char.ofNat (c.toNat + 64)]
  else if c.toNat = 0x7f then ['^', '?']
  else if 0x80 ≤ c.toNat && c.toNat < 0xa0 then
    ['<', (Config.hexDigit (c.toNat / 16)).toUpper, (Config.hexDigit (c.toNat % 16)).toUpper, '>']
  else [c]

def legible (text : Text) : Text := text.flatMap legibleChar

/-- A session as the selector names it: its name, else the start of its id. -/
def label (e : SessionEntry) : Text :=
  match e.name with
  | some name => legible name.text
  | none => e.id.short

/-- What the selector asks the host. -/
inductive Ask where
  | sessions
  | switch (target : SessionId)
  | new (name : Option Name)
  | kill (id : SessionId)
  | rename (id : SessionId) (name : Option Name)
  deriving DecidableEq, Repr

end Oxutrm.Ui
