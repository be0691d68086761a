import Oxutrm.Config.Settings
import Oxutrm.Lib.Transition

/-!
The layers of every setting and the state of the config screen. What the file
says is read into layers; what is changed on the screen is kept as pending edits
over them until it is saved.
-/
namespace Oxutrm.Config
open Proto

/-- Which file layer a value is written at. -/
inductive Level where
  | global
  | host
  deriving DecidableEq, Repr

/-- Where a value in effect came from. -/
inductive Origin where
  | default
  | global
  | host
  deriving DecidableEq, Repr

def Origin.level : Origin → Option Level
  | .default => none
  | .global => some .global
  | .host => some .host

/-- Every layer's value of one key, not only the winner. -/
structure KeyLayers where
  default : Value
  global : Option Value
  host : Option Value
  deriving DecidableEq

namespace KeyLayers

/-- The value in effect, and where it came from. -/
def winner (l : KeyLayers) : Origin × Value :=
  match l.host, l.global with
  | some v, _ => (.host, v)
  | none, some v => (.global, v)
  | none, none => (.default, l.default)

/-- The value with `level` taken out: what `x` shows through. -/
def without (l : KeyLayers) (level : Level) : Origin × Value :=
  match level, l.host, l.global with
  | .global, some v, _ => (.host, v)
  | .host, _, some v => (.global, v)
  | _, _, _ => (.default, l.default)

def put (l : KeyLayers) : Level → Option Value → KeyLayers
  | .global, v => { l with global := v }
  | .host, v => { l with host := v }

end KeyLayers

/-- `KeyLayers` for every row of the table. -/
abbrev Layers := Row → KeyLayers

/-- Nothing written anywhere. -/
def Layers.defaults : Layers := fun i =>
  { default := (setting i).defaultValue, global := none, host := none }

/-- One unsaved change on the screen. -/
inductive Edit where
  | set (value : Value)
  | remove (level : Level)
  deriving DecidableEq

/-- The unsaved changes, by row. -/
abbrev Pending := Row → Option Edit

def Pending.new : Pending := fun _ => none

/-- What a row shows with `edit` pending. -/
def shownWith (l : KeyLayers) : Option Edit → Option Origin × Value
  | some (.set v) => (none, v)
  | some (.remove level) => (some (l.without level).1, (l.without level).2)
  | none => (some l.winner.1, l.winner.2)

/-- The settings in effect with `pending` applied. -/
def inEffect (layers : Layers) (pending : Pending) : Settings :=
  (List.finRange 13).foldl
    (fun s i => (setting i).set s (shownWith (layers i) (pending i)).2) {}

def Layers.settings (layers : Layers) : Settings := inEffect layers Pending.new

/-- One line for the activity log: the key it is about, if any, and why. -/
structure Warning where
  path : List Key
  why : Text
  deriving DecidableEq

section Read
variable (fmt : Formats)

/-- Reads one section's table, whose keys stand at `path`. -/
def readEntries (path : List Key) (section_ : Key) (level : Level) :
    Entries → Layers × List Warning → Layers × List Warning
  | [], read => read
  | (name, item) :: rest, (layers, warnings) =>
      match indexOf section_ name with
      | none =>
          readEntries path section_ level rest
            (layers, warnings ++ [⟨path ++ [name], "unknown setting".toList⟩])
      | some i =>
          match parseItem fmt (setting i).shape item with
          | .ok v =>
              readEntries path section_ level rest
                (Function.update layers i ((layers i).put level (some v)), warnings)
          | .error why =>
              readEntries path section_ level rest (layers, warnings ++ [⟨path ++ [name], why⟩])

def readSection (above : List Key) (section_ : Key) (item : Toml) (level : Level)
    (read : Layers × List Warning) : Layers × List Warning :=
  let path := above ++ [section_]
  if ∃ i, (setting i).section_ = section_ then
    match item.asTableLike with
    | some entries => readEntries fmt path section_ level entries read
    | none => (read.1, read.2 ++ [⟨path, "expected a table".toList⟩])
  else (read.1, read.2 ++ [⟨path, "unknown section".toList⟩])

/-- The sections of this target's own table. -/
def readHost (target : Key) : Entries → Layers × List Warning → Layers × List Warning
  | [], read => read
  | (section_, item) :: rest, read =>
      readHost target rest (readSection fmt ["host", target] section_ item .host read)

def readDocument (target : Key) : Entries → Layers × List Warning → Layers × List Warning
  | [], read => read
  | (key, item) :: rest, read =>
      if key ≠ "host" then
        readDocument target rest (readSection fmt [] key item .global read)
      else
        match item.asTableLike with
        | none =>
            readDocument target rest
              (read.1, read.2 ++ [⟨["host"], "expected a table of hosts".toList⟩])
        | some hosts =>
            match hosts.get target with
            | none => readDocument target rest read
            | some ours =>
                match ours.asTableLike with
                | none =>
                    readDocument target rest
                      (read.1, read.2 ++ [⟨["host", target], "expected a table".toList⟩])
                | some entries => readDocument target rest (readHost fmt target entries read)

end Read

section Reachable
variable (target : Key)

def droppedPath : Level → List Key
  | .host => ["host", target, "popup", "auto_open_after"]
  | .global => ["popup", "auto_open_after"]

/-- The loop of `keep_the_popup_reachable`, `none` while it is still running
after `fuel` rounds. -/
def keepLoop : Nat → Layers × List Warning → Option (Layers × List Warning)
  | 0, _ => none
  | fuel + 1, (layers, warnings) =>
      if layers.settings.unreachable then
        match (layers autoOpen).winner.1.level with
        -- The default opens it; never reached.
        | none => some (layers, warnings)
        | some level =>
            keepLoop fuel
              (Function.update layers autoOpen ((layers autoOpen).put level none),
                warnings ++ [⟨droppedPath target level,
                  "\"off\" with popup.key = \"off\" would leave the popup unreachable; the next layer's auto_open_after is used".toList⟩])
      else some (layers, warnings)

/-- Each round takes one of two layers out, so the third finds nothing to do. -/
def keepThePopupReachable (read : Layers × List Warning) : Layers × List Warning :=
  (keepLoop target 3 read).getD read

end Reachable

/-- What toml_edit does with a text: the parsed document, or its complaint on
one line; and the other way. -/
structure TomlEdit where
  parse : Text → Except Text Entries
  print : Entries → Text

structure Resolved where
  settings : Settings
  layers : Layers
  warnings : List Warning

section Resolve
variable (fmt : Formats) (toml : TomlEdit)

/-- Resolves the file's text for `target`. `none` is a missing file. -/
def resolve (text : Option Text) (target : Key) : Resolved :=
  let read : Layers × List Warning :=
    match text with
    | none => (Layers.defaults, [])
    | some text =>
        match toml.parse text with
        | .ok doc => readDocument fmt target doc (Layers.defaults, [])
        | .error why =>
            (Layers.defaults, [⟨[], "config.toml is not valid TOML (".toList ++ why ++
              "), so every setting is its default".toList⟩])
  let kept := keepThePopupReachable target read
  { settings := kept.1.settings, layers := kept.1, warnings := kept.2 }

end Resolve
end Oxutrm.Config
