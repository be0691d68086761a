import Oxutrm.Config.Layers

/-!
Writing the config file back: only the keys the screen changed, at the level the
user chose.
-/
namespace Oxutrm.Config
open Proto

/-- One change to the file. -/
inductive Change where
  | write (level : Level) (i : Row) (value : Value)
  | remove (level : Level) (i : Row)
  deriving DecidableEq

/-- What saving one pending edit at `level` writes. -/
def changesOf (level : Level) (i : Row) : Edit → List Change
  | .set v =>
      match level with
      -- For every host, and so for this one next time too: its own override
      -- of the key goes with it.
      | .global => [.write .global i v, .remove .host i]
      | .host => [.write .host i v]
  | .remove .host => [.remove .host i]
  | .remove .global =>
      match level with
      | .global => [.remove .global i]
      -- The global value stays where it is, and this host gets the default in
      -- front of it.
      | .host => [.write .host i (setting i).defaultValue]

def changes (level : Level) (pending : Pending) : List Change :=
  (List.finRange 13).flatMap fun i =>
    match pending i with
    | some edit => changesOf level i edit
    | none => []

section Tables

def notATable (at_ : Text) : Text :=
  at_ ++ " in config.toml is not a table, so it cannot be changed".toList

/-- Works on the table at `key` in `parent`, made as `create` says if it is not
there. `none` when it is not there and nothing is to be made. -/
def tableIn (parent : Entries) (key : Key) (create : Option TableKind) (at_ : Text)
    (body : Entries → Except Text (Option Entries)) : Except Text (Option Entries) :=
  match parent.get key with
  | none =>
      match create with
      | none => .ok none
      | some kind => (body []).map (Option.map fun inner => parent.insert key (.table kind inner))
  | some (.table kind inner) =>
      (body inner).map (Option.map fun inner => parent.insert key (.table kind inner))
  | some _ => .error (notATable at_)

/-- After a removal from this host's table: a section left empty goes, then the
host's table if that left it empty, then `host` itself. -/
def pruneSection (ours : Entries) (section_ : Key) : Entries :=
  match ours.get section_ with
  | some (.table _ inner) => if inner.isEmpty then ours.remove section_ else ours
  | _ => ours

def pruneTarget (hosts : Entries) (target section_ : Key) : Entries :=
  match hosts.get target with
  | some (.table kind ours) =>
      if (pruneSection ours section_).isEmpty then hosts.remove target
      else hosts.insert target (.table kind (pruneSection ours section_))
  | _ => hosts

def prune (doc : Entries) (target section_ : Key) : Entries :=
  match doc.get "host" with
  | some (.table kind hosts) =>
      if (pruneTarget hosts target section_).isEmpty then doc.remove "host"
      else doc.insert "host" (.table kind (pruneTarget hosts target section_))
  | _ => doc

end Tables

section Save
variable (fmt : Formats)

/-- The row's section at `level`, worked on by `body`. -/
def sectionIn (doc : Entries) (target : Key) (level : Level) (i : Row) (create : Bool)
    (body : Entries → Entries) : Except Text (Option Entries) :=
  let row := setting i
  let made (kind : TableKind) : Option TableKind := if create then some kind else none
  match level with
  | .global =>
      tableIn doc row.section_ (made .header) row.section_.toList fun entries =>
        .ok (some (body entries))
  | .host =>
      let at_ := "host.".toList ++ fmt.quoted target.toList
      tableIn doc "host" (made .implicit) "host".toList fun hosts =>
        tableIn hosts target (made .header) at_ fun ours =>
          tableIn ours row.section_ (made .dotted) (at_ ++ ['.'] ++ row.section_.toList)
            fun entries => .ok (some (body entries))

def applyChange (target : Key) (doc : Entries) : Change → Except Text Entries
  | .write level i v => do
      let written ← sectionIn fmt doc target level i true fun entries =>
        entries.insert (setting i).name (toToml fmt v)
      pure (written.getD doc)
  | .remove level i => do
      let removed ← sectionIn fmt doc target level i false fun entries =>
        entries.remove (setting i).name
      match level, removed with
      | _, none => pure doc
      | .global, some doc => pure doc
      | .host, some doc => pure (prune doc target (setting i).section_)

/-- The document with `pending` saved into it. -/
def applyChanges (target : Key) : List Change → Entries → Except Text Entries
  | [], doc => .ok doc
  | change :: rest, doc => do
      let doc ← applyChange fmt target doc change
      applyChanges target rest doc

variable (toml : TomlEdit)

/-- Writes `pending` into the file, which holds `old`. `reading` and `writing`
are what the file system answers. The text written. -/
def save (old : Option Text) (reading writing : Except Text Unit) (target : Key) (level : Level)
    (pending : Pending) : Except Text Text := do
  reading
  let doc ← match old with
    | none => pure []
    | some text =>
        (toml.parse text).mapError fun why =>
          "config.toml is not valid TOML (".toList ++ why ++ "); fix it by hand first".toList
  let doc ← applyChanges fmt target (changes level pending) doc
  writing
  pure (toml.print doc)

end Save
end Oxutrm.Config
