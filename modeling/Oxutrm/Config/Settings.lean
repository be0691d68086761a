import Oxutrm.Config.Toml

/-!
The table of settings: what each may be, how the file writes it and how it is
read back. Durations are in nanoseconds. How a duration is spelled is left to
the library that spells it, and so is the quoting of a text in a message.
-/
namespace Oxutrm.Config
open Proto

/-- What the config code takes from outside. -/
structure Formats where
  /-- Rust's debug quoting of a text. -/
  quoted : Text → Text
  /-- A duration in words, as `20s` or `1m 30s`. -/
  showDuration : Nat → Text
  /-- A signed duration in words, `none` when it is not one. -/
  parseDuration : Text → Option Int

def secs (n : Nat) : Nat := n * 1000000000

/-- What the client runs with. -/
structure Settings where
  popupKey : Option UInt8 := some 0x1c
  autoOpenAfter : Option Nat := some (secs 2)
  linger : Nat := secs 3
  splash : Bool := true
  silentAfter : Nat := secs 2
  rebuildAfter : Nat := secs 20
  connectTimeout : Nat := secs 10
  standby : Bool := true
  stunServers : List Text :=
    ["stun.cloudflare.com:3478".toList, "stun.l.google.com:19302".toList,
      "stun.nextcloud.com:443".toList, "stun.sipgate.net:3478".toList]
  portMapping : Bool := true
  birthday : Bool := true
  clipboard : Bool := true
  hyperlinks : Bool := true
  deriving DecidableEq, Repr

/-- No key and no auto-open. -/
def Settings.unreachable (s : Settings) : Bool := s.popupKey.isNone && s.autoOpenAfter.isNone

inductive Value where
  | bool (b : Bool)
  | duration (d : Option Nat)
  | key (k : Option UInt8)
  | list (l : List Text)
  deriving DecidableEq, Repr

inductive Shape where
  | key
  | duration (min max : Nat) (off wholeSecs : Bool)
  | bool
  | servers
  deriving DecidableEq, Repr

structure Setting where
  section_ : Key
  name : Key
  shape : Shape
  get : Settings → Value
  set : Settings → Value → Settings

section Rows

def keyRow (section_ name : Key) (get : Settings → Option UInt8)
    (set : Settings → Option UInt8 → Settings) : Setting where
  section_ := section_
  name := name
  shape := .key
  get s := .key (get s)
  set s v := match v with
    | .key k => set s k
    | _ => s

def offRow (section_ name : Key) (min max : Nat) (get : Settings → Option Nat)
    (set : Settings → Option Nat → Settings) : Setting where
  section_ := section_
  name := name
  shape := .duration min max true false
  get s := .duration (get s)
  set s v := match v with
    | .duration d => set s d
    | _ => s

def durationRow (section_ name : Key) (min max : Nat) (wholeSecs : Bool) (get : Settings → Nat)
    (set : Settings → Nat → Settings) : Setting where
  section_ := section_
  name := name
  shape := .duration min max false wholeSecs
  get s := .duration (some (get s))
  set s v := match v with
    | .duration (some d) => set s d
    | _ => s

def boolRow (section_ name : Key) (get : Settings → Bool) (set : Settings → Bool → Settings) :
    Setting where
  section_ := section_
  name := name
  shape := .bool
  get s := .bool (get s)
  set s v := match v with
    | .bool b => set s b
    | _ => s

def serversRow (section_ name : Key) (get : Settings → List Text)
    (set : Settings → List Text → Settings) : Setting where
  section_ := section_
  name := name
  shape := .servers
  get s := .list (get s)
  set s v := match v with
    | .list l => set s l
    | _ => s

end Rows

/-- `SETTINGS`, in the order the file, the screen and the docs show them. -/
def settings : List Setting :=
  [ keyRow "popup" "key" (·.popupKey) fun s k => { s with popupKey := k },
    offRow "popup" "auto_open_after" (secs 0) (secs 600) (·.autoOpenAfter)
      fun s d => { s with autoOpenAfter := d },
    durationRow "popup" "linger" (secs 0) (secs 60) false (·.linger)
      fun s d => { s with linger := d },
    boolRow "popup" "splash" (·.splash) fun s b => { s with splash := b },
    durationRow "recovery" "silent_after" (secs 1) (secs 60) false (·.silentAfter)
      fun s d => { s with silentAfter := d },
    durationRow "recovery" "rebuild_after" (secs 5) (secs 600) false (·.rebuildAfter)
      fun s d => { s with rebuildAfter := d },
    durationRow "recovery" "connect_timeout" (secs 1) (secs 120) true (·.connectTimeout)
      fun s d => { s with connectTimeout := d },
    boolRow "network" "standby" (·.standby) fun s b => { s with standby := b },
    serversRow "network" "stun_servers" (·.stunServers) fun s l => { s with stunServers := l },
    boolRow "network" "port_mapping" (·.portMapping) fun s b => { s with portMapping := b },
    boolRow "network" "birthday" (·.birthday) fun s b => { s with birthday := b },
    boolRow "terminal" "clipboard" (·.clipboard) fun s b => { s with clipboard := b },
    boolRow "terminal" "hyperlinks" (·.hyperlinks) fun s b => { s with hyperlinks := b } ]

/-- A row of the table. Every index the client uses is one. -/
abbrev Row := Fin 13

instance neZero_rows : NeZero 13 := ⟨by decide⟩

def setting (i : Row) : Setting := settings.get i

def popupKey : Row := 0

def autoOpen : Row := 1

/-- The built-in default, which is the value the default settings have. -/
def Setting.defaultValue (row : Setting) : Value := row.get {}

/-- Where `section.name` is in the table. -/
def indexOf (section_ name : Key) : Option Row :=
  (List.finRange 13).find? fun i =>
    (setting i).section_ = section_ && (setting i).name = name

section Keys
variable (fmt : Formats)

def hexDigit (n : Nat) : Char := if n < 10 then Char.ofNat (48 + n) else Char.ofNat (87 + n)

/-- A key's name, as the file and the screen write it. -/
def keyName : Option UInt8 → Text
  | none => "off".toList
  | some b =>
      if 1 ≤ b ∧ b ≤ 0x1a then "ctrl-".toList ++ [Char.ofNat (97 + b.toNat - 1)]
      else if b = 0x1c then "ctrl-\\".toList
      else if b = 0x1d then "ctrl-]".toList
      else if b = 0x1e then "ctrl-^".toList
      else if b = 0x1f then "ctrl-_".toList
      else "0x".toList ++ [hexDigit (b.toNat / 16), hexDigit (b.toNat % 16)]

/-- Whether `byte` may open the popup. -/
def checkKey (byte : UInt8) : Except Text (Option UInt8) :=
  if byte = 0x08 then .error "ctrl-h is Backspace".toList
  else if byte = 0x09 then .error "ctrl-i is Tab".toList
  else if byte = 0x0a then .error "ctrl-j is a line feed".toList
  else if byte = 0x0d then .error "ctrl-m is Enter".toList
  else if byte = 0x1b then .error "ctrl-[ is Esc".toList
  else if 1 ≤ byte ∧ byte ≤ 0x1f then .ok (some byte)
  else .error (fmt.quoted [Char.ofNat byte.toNat] ++ " is not a ctrl key".toList)

def notAKey (text : Text) : Text :=
  fmt.quoted text ++
    " is not a key; write ctrl-<letter>, ctrl-\\, ctrl-], ctrl-^, ctrl-_ or off".toList

def parseKey (text : Text) : Except Text (Option UInt8) :=
  if text = "off".toList then .ok none
  else
    match text with
    | ['c', 't', 'r', 'l', '-', c] =>
        if 97 ≤ c.toLower.toNat ∧ c.toLower.toNat ≤ 122 then
          checkKey fmt (UInt8.ofNat (c.toLower.toNat - 97 + 1))
        else if c = '\\' then checkKey fmt 0x1c
        else if c = ']' then checkKey fmt 0x1d
        else if c = '^' then checkKey fmt 0x1e
        else if c = '_' then checkKey fmt 0x1f
        else .error (notAKey fmt text)
    | _ => .error (notAKey fmt text)

end Keys

section Durations
variable (fmt : Formats)

/-- What a duration may be, in words. -/
def range (min max : Nat) (off : Bool) : Text :=
  fmt.showDuration min ++ "–".toList ++ fmt.showDuration max ++
    if off then " or off".toList else []

def parseDuration (min max : Nat) (off wholeSecs : Bool) (text : Text) :
    Except Text (Option Nat) :=
  if off ∧ text = "off".toList then .ok none
  else
    match fmt.parseDuration text with
    | none =>
        .error (fmt.quoted text ++ " is not a duration; write e.g. \"20s\" or \"1m\"".toList)
    | some signed =>
        if signed < 0 then .error (text ++ " is negative".toList)
        else if wholeSecs ∧ signed.toNat % secs 1 ≠ 0 then
          .error (text ++ " is not a whole number of seconds".toList)
        else if signed.toNat < min ∨ max < signed.toNat then
          .error (fmt.showDuration signed.toNat ++ " is outside ".toList ++ range fmt min max off)
        else .ok (some signed.toNat)

end Durations

section Servers
variable (fmt : Formats)

def maxServers : Nat := 16

/-- `str::parse::<u16>`: digits, with or without a plus in front. -/
def parseU16 (text : Text) : Option Nat :=
  let digits := if text.head? = some '+' then text.tail else text
  if digits ≠ [] ∧ digits.all Char.isDigit then
    let n := digits.foldl (fun n c => 10 * n + (c.toNat - 48)) 0
    if n < 65536 then some n else none
  else none

/-- `rsplit_once(':')`. -/
def splitLastColon (text : Text) : Option (Text × Text) :=
  if ':' ∈ text then
    some ((text.reverse.dropWhile (· ≠ ':')).tail.reverse,
      (text.reverse.takeWhile (· ≠ ':')).reverse)
  else none

/-- Whether `server` is `host:port` or `[v6]:port`. -/
def checkServer (server : Text) : Except Text Unit :=
  let bad := fmt.quoted server ++ " is not host:port or [v6]:port".toList
  match splitLastColon server with
  | none => .error bad
  | some (host, port) =>
      match (parseU16 port).filter (· ≠ 0) with
      | none => .error bad
      | some _ =>
          let bracketed := host.head? = some '[' ∧ host.getLast? = some ']' ∧ 2 < host.len
          let plain := host ≠ [] ∧ ∀ c ∈ ['[', ']', ':', ' '], c ∉ host
          if bracketed ∨ plain then .ok () else .error bad

def checkEachServer : List Text → Except Text Unit
  | [] => .ok ()
  | server :: rest => do
      checkServer fmt server
      checkEachServer rest

/-- A whole `network.stun_servers` list, checked. -/
def checkServers (l : List Text) : Except Text Value :=
  if maxServers < l.length then
    .error ((toString l.length).toList ++ " servers is more than 16".toList)
  else do
    checkEachServer fmt l
    pure (.list l)

/-- The characters `str::trim` takes off. -/
def isWhiteSpace (c : Char) : Bool :=
  c.toNat ∈ [0x20, 0x85, 0xa0, 0x1680, 0x2028, 0x2029, 0x202f, 0x205f, 0x3000] ||
    (9 ≤ c.toNat && c.toNat ≤ 13) || (0x2000 ≤ c.toNat && c.toNat ≤ 0x200a)

def trim (text : Text) : Text :=
  ((text.dropWhile isWhiteSpace).reverse.dropWhile isWhiteSpace).reverse

end Servers

section Parse
variable (fmt : Formats)

/-- A value typed on the screen, checked against `shape`. -/
def parseText (shape : Shape) (text : Text) : Except Text Value :=
  match shape with
  | .key => (parseKey fmt text).map .key
  | .duration min max off wholeSecs =>
      (parseDuration fmt min max off wholeSecs text).map .duration
  | .bool =>
      if text = "on".toList ∨ text = "true".toList then .ok (.bool true)
      else if text = "off".toList ∨ text = "false".toList then .ok (.bool false)
      else .error (fmt.quoted text ++ " is not on or off".toList)
  | .servers => checkServers fmt (((text.splitOn ',').map trim).filter (· ≠ []))

/-- A value from the file, checked against `shape`. -/
def parseItem (shape : Shape) (item : Toml) : Except Text Value :=
  match shape with
  | .bool =>
      match item.asBool with
      | some b => .ok (.bool b)
      | none => .error "expected true or false".toList
  | .key =>
      match item.asStr with
      | some text => parseText fmt .key text
      | none => .error "expected a string such as \"ctrl-]\"".toList
  | .duration min max off wholeSecs =>
      match item.asStr with
      | some text => parseText fmt (.duration min max off wholeSecs) text
      | none => .error "expected a string such as \"20s\"".toList
  | .servers =>
      match item.asArray.bind fun items => items.mapM Toml.asStr with
      | some l => checkServers fmt l
      | none => .error "expected a list of \"host:port\" strings".toList

/-- A value as the file writes it. -/
def toToml : Value → Toml
  | .bool b => .bool b
  | .duration none => .str "off".toList
  | .duration (some d) => .str (fmt.showDuration d)
  | .key k => .str (keyName k)
  | .list l => .array (l.map .str)

end Parse
end Oxutrm.Config
