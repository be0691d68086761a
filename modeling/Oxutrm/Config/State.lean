import Mathlib.Data.Nat.Digits.Defs
import Oxutrm.Config.Save

/-!
The config screen of a running session, over a file that anybody may edit by
hand meanwhile. Whatever is set, taken back or saved, one of the two ways to the
popup stays open.
-/
namespace Oxutrm.Config
open Proto Transition

/-- The config as the session holds it. -/
structure ConfigState where
  /-- Where the file is; `none` when there is nowhere to save it. -/
  dir : Option Text
  target : Key
  layers : Layers
  /-- How many warnings the file produced, for the screen's header. -/
  warnings : Nat
  pending : Pending
  /-- The settings the session runs with. -/
  applied : Settings

def unreachableRefusal : Text :=
  "refused: with popup.key and auto_open_after both off the popup could never open".toList

namespace ConfigState

def new (dir : Option Text) (target : Key) (resolved : Resolved) : ConfigState where
  dir := dir
  target := target
  layers := resolved.layers
  warnings := resolved.warnings.length
  pending := Pending.new
  applied := resolved.layers.settings

/-- `next` instead of the pending edits, which differ from them in row `i` only,
unless it leaves the popup unreachable. -/
def commit (c : ConfigState) (i : Row) (next : Pending) : ConfigState × Except Text Settings :=
  let s := (setting i).set c.applied (shownWith (c.layers i) (next i)).2
  if s.unreachable ∨ (inEffect c.layers next).unreachable then (c, .error unreachableRefusal)
  else ({ c with pending := next, applied := s }, .ok s)

/-- Row `i` set to `value` on the screen. Setting it back to what the file says
is no change at all. -/
def set (c : ConfigState) (i : Row) (value : Value) : ConfigState × Except Text Settings :=
  if (c.layers i).winner.2 = value then c.commit i (Function.update c.pending i none)
  else c.commit i (Function.update c.pending i (some (.set value)))

/-- An unsaved change is dropped; otherwise the value is marked for removal at
the level it came from. -/
def reset (c : ConfigState) (i : Row) : ConfigState × Except Text Settings :=
  match c.pending i with
  | some _ => c.commit i (Function.update c.pending i none)
  | none =>
      match (c.layers i).winner.1.level with
      | none => (c, .error "already the default".toList)
      | some level => c.commit i (Function.update c.pending i (some (.remove level)))

section Save
variable (fmt : Formats) (toml : TomlEdit)

/-- The pending edits written to the file at `level`. The state, what the file
holds afterwards, and the warnings of the text written. -/
def save (c : ConfigState) (file : Option Text) (reading writing : Except Text Unit)
    (level : Level) : ConfigState × Option Text × Except Text (List Warning) :=
  if ∀ i, c.pending i = none then (c, file, .error "nothing has changed".toList)
  else
    match c.dir with
    | none =>
        (c, file, .error
          "there is no config directory: neither XDG_CONFIG_HOME nor HOME is set".toList)
    | some _ =>
        match Config.save fmt toml file reading writing c.target level c.pending with
        | .error why => (c, file, .error why)
        | .ok text =>
            let r := resolve fmt toml (some text) c.target
            ({ c with layers := r.layers, warnings := r.warnings.length, pending := Pending.new },
              some text, .ok r.warnings)

end Save
end ConfigState

/-- A session's config and the file it came from. -/
structure Screen where
  config : ConfigState
  file : Option Text

inductive ScreenEvent where
  | set (i : Row) (value : Value)
  | reset (i : Row)
  | save (reading writing : Except Text Unit) (level : Level)
  /-- Somebody else writes the file, or takes it away. -/
  | hand (file : Option Text)

section Runs
variable (fmt : Formats) (toml : TomlEdit)

def Screen.step (s : Screen) : ScreenEvent → Option Screen
  | .set i value => some { s with config := (s.config.set i value).1 }
  | .reset i => some { s with config := (s.config.reset i).1 }
  | .save reading writing level =>
      let (config, file, _) := s.config.save fmt toml s.file reading writing level
      some { config := config, file := file }
  | .hand file => some { s with file := file }

def Screen.connected (dir : Option Text) (target : Key) (file : Option Text) : Screen where
  config := .new dir target (resolve fmt toml file target)
  file := file

end Runs

section Repair

theorem autoOpenAfter_set (i : Row) (s : Settings) (v : Value) :
    ((setting i).set s v).autoOpenAfter =
      if i = autoOpen then (match v with | .duration d => d | _ => s.autoOpenAfter)
      else s.autoOpenAfter := by
  fin_cases i <;> cases v <;> first | rfl | (rename_i d; cases d <;> rfl)

theorem autoOpenAfter_inEffect (layers : Layers) (pending : Pending) :
    (inEffect layers pending).autoOpenAfter =
      match (shownWith (layers autoOpen) (pending autoOpen)).2 with
      | .duration d => d
      | _ => some (secs 2) := by
  have rows : List.finRange 13 = [0, 1, 2, 3, 4, 5, 6, 7, 8, 9, 10, 11, 12] := by decide
  simp only [inEffect, rows, List.foldl_cons, List.foldl_nil, autoOpenAfter_set]
  rfl

def KeyLayers.written (l : KeyLayers) : Nat := l.host.isSome.toNat + l.global.isSome.toNat

theorem KeyLayers.written_put_none {l : KeyLayers} {level : Level}
    (won : l.winner.1.level = some level) : (l.put level none).written + 1 = l.written := by
  obtain ⟨default, global, host⟩ := l
  cases host with
  | some v =>
      obtain rfl : Level.host = level := by simpa [winner, Origin.level] using won
      simp [put, written, Nat.add_comm]
  | none =>
      cases global with
      | some v =>
          obtain rfl : Level.global = level := by simpa [winner, Origin.level] using won
          simp [put, written]
      | none => simp [winner, Origin.level] at won

theorem KeyLayers.default_put (l : KeyLayers) (level : Level) (v : Option Value) :
    (l.put level v).default = l.default := by
  cases level <;> rfl

/-- The loop is over once every layer of the auto-open has been taken out. -/
theorem keepLoop_isSome (target : Key) (fuel : Nat) (read : Layers × List Warning)
    (enough : (read.1 autoOpen).written < fuel) : (keepLoop target fuel read).isSome := by
  induction fuel generalizing read with
  | zero => omega
  | succ fuel ih =>
      simp only [keepLoop]
      split
      · cases won : (read.1 autoOpen).winner.1.level with
        | none => rfl
        | some level =>
            refine ih _ ?_
            have less := KeyLayers.written_put_none won
            simp only [Function.update_self]
            omega
      · rfl

theorem keepThePopupReachable_eq (target : Key) (read : Layers × List Warning) :
    keepLoop target 3 read = some (keepThePopupReachable target read) := by
  have few : (read.1 autoOpen).written < 3 := by
    simp only [KeyLayers.written]
    have host := (read.1 autoOpen).host.isSome.toNat_le
    have global := (read.1 autoOpen).global.isSome.toNat_le
    omega
  obtain ⟨kept, done⟩ := Option.isSome_iff_exists.mp (keepLoop_isSome target 3 read few)
  rw [keepThePopupReachable, done, Option.getD_some]

/-- Layers whose last resort opens the popup. -/
def Layers.Opening (layers : Layers) : Prop :=
  (layers autoOpen).default = .duration (some (secs 2))

theorem Layers.Opening.put {layers : Layers} (opening : layers.Opening) (i : Row) (level : Level)
    (v : Option Value) : Layers.Opening (Function.update layers i ((layers i).put level v)) := by
  by_cases same : i = autoOpen
  · subst same
    simp only [Layers.Opening, Function.update_self, KeyLayers.default_put]
    exact opening
  · simp only [Layers.Opening, Function.update_of_ne (Ne.symm same)]
    exact opening

theorem keepLoop_reachable {target : Key} {fuel : Nat} {read kept : Layers × List Warning}
    (opening : read.1.Opening) (done : keepLoop target fuel read = some kept) :
    kept.1.settings.unreachable = false := by
  induction fuel generalizing read with
  | zero => cases done
  | succ fuel ih =>
      simp only [keepLoop] at done
      split at done
      · next unreachable =>
          cases won : (read.1 autoOpen).winner.1.level with
          | some level =>
              rw [won] at done
              exact ih (opening.put autoOpen level none) done
          | none =>
              -- Nothing is written for the auto-open, so its default is shown.
              exfalso
              have default : (read.1 autoOpen).winner.2 = .duration (some (secs 2)) := by
                revert won
                simp only [KeyLayers.winner]
                split
                · intro won
                  cases won
                · intro won
                  cases won
                · intro _
                  exact opening
              have shown := autoOpenAfter_inEffect read.1 Pending.new
              simp only [Pending.new, shownWith, default] at shown
              simp only [Settings.unreachable, Layers.settings, shown, Option.isNone_some,
                Bool.and_false, Bool.false_eq_true] at unreachable
      · next reachable =>
          obtain rfl := Option.some.inj done
          exact Bool.eq_false_of_not_eq_true reachable

end Repair

section Reading
variable {fmt : Formats}

theorem readEntries_opening (path : List Key) (section_ : Key) (level : Level) (entries : Entries)
    {read : Layers × List Warning} (opening : read.1.Opening) :
    (readEntries fmt path section_ level entries read).1.Opening := by
  induction entries generalizing read with
  | nil => exact opening
  | cons entry rest ih =>
      obtain ⟨name, item⟩ := entry
      obtain ⟨layers, warnings⟩ := read
      simp only [readEntries]
      split
      · exact ih opening
      · next i _ =>
          split
          · exact ih (Layers.Opening.put opening i level _)
          · exact ih opening

theorem readSection_opening (above : List Key) (section_ : Key) (item : Toml) (level : Level)
    {read : Layers × List Warning} (opening : read.1.Opening) :
    (readSection fmt above section_ item level read).1.Opening := by
  simp only [readSection]
  split
  · split
    · exact readEntries_opening _ _ _ _ opening
    · exact opening
  · exact opening

theorem readHost_opening (target : Key) (entries : Entries) {read : Layers × List Warning}
    (opening : read.1.Opening) : (readHost fmt target entries read).1.Opening := by
  induction entries generalizing read with
  | nil => exact opening
  | cons entry rest ih => exact ih (readSection_opening _ _ _ _ opening)

theorem readDocument_opening (target : Key) (doc : Entries) {read : Layers × List Warning}
    (opening : read.1.Opening) : (readDocument fmt target doc read).1.Opening := by
  induction doc generalizing read with
  | nil => exact opening
  | cons entry rest ih =>
      obtain ⟨key, item⟩ := entry
      simp only [readDocument]
      split
      · exact ih (readSection_opening _ _ _ _ opening)
      · split
        · exact ih opening
        · split
          · exact ih opening
          · split
            · exact ih opening
            · exact ih (readHost_opening target _ opening)

/-- Whatever the file says, one way to the popup stays open. -/
theorem resolve_reachable (fmt : Formats) (toml : TomlEdit) (text : Option Text) (target : Key) :
    (resolve fmt toml text target).settings.unreachable = false := by
  have defaults : Layers.defaults.Opening := rfl
  refine keepLoop_reachable ?_ (keepThePopupReachable_eq target _)
  cases text with
  | none => exact defaults
  | some text =>
      cases parsed : toml.parse text with
      | error why =>
          simp only [parsed]
          exact defaults
      | ok doc =>
          simp only [parsed]
          exact readDocument_opening target doc defaults

theorem resolve_shown_reachable (fmt : Formats) (toml : TomlEdit) (text : Option Text)
    (target : Key) :
    (inEffect (resolve fmt toml text target).layers Pending.new).unreachable = false := by
  have reachable := resolve_reachable fmt toml text target
  simp only [resolve, Layers.settings] at reachable ⊢
  exact reachable

end Reading

section Sessions

/-- The session and the screen each leave the popup within reach. -/
structure ConfigState.Open (c : ConfigState) : Prop where
  applied : c.applied.unreachable = false
  shown : (inEffect c.layers c.pending).unreachable = false

namespace ConfigState
variable {c : ConfigState}

/-- A change is refused with nothing changed, or leaves the popup reachable. -/
theorem commit_cases (c : ConfigState) (i : Row) (next : Pending) :
    c.commit i next = (c, .error unreachableRefusal) ∨
      ∃ s, c.commit i next = ({ c with pending := next, applied := s }, .ok s) ∧
        s.unreachable = false ∧ (inEffect c.layers next).unreachable = false := by
  simp only [commit]
  split
  · exact Or.inl rfl
  · next reachable =>
      rw [not_or, Bool.not_eq_true, Bool.not_eq_true] at reachable
      exact Or.inr ⟨_, rfl, reachable⟩

theorem set_cases (c : ConfigState) (i : Row) (value : Value) :
    ∃ next, c.set i value = c.commit i next := by
  simp only [set]
  split
  · exact ⟨_, rfl⟩
  · exact ⟨_, rfl⟩

theorem reset_cases (c : ConfigState) (i : Row) :
    c.reset i = (c, .error "already the default".toList) ∨
      ∃ next, c.reset i = c.commit i next := by
  simp only [reset]
  split
  · exact Or.inr ⟨_, rfl⟩
  · split
    · exact Or.inl rfl
    · exact Or.inr ⟨_, rfl⟩

theorem Open.commit (open_ : c.Open) (i : Row) (next : Pending) : (c.commit i next).1.Open := by
  rcases commit_cases c i next with refused | ⟨s, done, applied, shown⟩
  · rw [refused]
    exact open_
  · rw [done]
    exact ⟨applied, shown⟩

theorem Open.set (open_ : c.Open) (i : Row) (value : Value) : (c.set i value).1.Open := by
  obtain ⟨next, same⟩ := set_cases c i value
  rw [same]
  exact open_.commit i next

theorem Open.reset (open_ : c.Open) (i : Row) : (c.reset i).1.Open := by
  rcases reset_cases c i with default | ⟨next, same⟩
  · rw [default]
    exact open_
  · rw [same]
    exact open_.commit i next

theorem Open.save (open_ : c.Open) (fmt : Formats) (toml : TomlEdit) (file : Option Text)
    (reading writing : Except Text Unit) (level : Level) :
    (c.save fmt toml file reading writing level).1.Open := by
  simp only [ConfigState.save]
  split
  · exact open_
  · split
    · exact open_
    · split
      · exact open_
      · next text _ =>
          exact ⟨open_.applied, resolve_shown_reachable fmt toml (some text) c.target⟩

theorem Open.of_resolve (fmt : Formats) (toml : TomlEdit) (dir file : Option Text) (target : Key) :
    (ConfigState.new dir target (resolve fmt toml file target)).Open where
  applied := by
    simp only [ConfigState.new, Layers.settings]
    exact resolve_shown_reachable fmt toml file target
  shown := resolve_shown_reachable fmt toml file target

theorem commit_refused {i : Row} {next : Pending} {why : Text}
    (refused : (c.commit i next).2 = .error why) : (c.commit i next).1 = c := by
  rcases commit_cases c i next with same | ⟨s, done, -, -⟩
  · rw [same]
  · rw [done] at refused
    cases refused

end ConfigState

variable {fmt : Formats} {toml : TomlEdit}

theorem Screen.step_open {s t : Screen} {e : ScreenEvent} (open_ : s.config.Open)
    (taken : s.step fmt toml e = some t) : t.config.Open := by
  cases e with
  | set i value =>
      cases taken
      exact open_.set i value
  | reset i =>
      cases taken
      exact open_.reset i
  | save reading writing level =>
      cases taken
      exact open_.save fmt toml s.file reading writing level
  | hand file =>
      cases taken
      exact open_

/-- In every run, whatever the file says at any moment, neither the session, nor
the screen, nor the next connect is left without a way to the popup; a refused
change changes nothing; and the repair of the layers always comes to an end. -/
theorem popup_can_always_be_reached (fmt : Formats) (toml : TomlEdit) (dir file : Option Text)
    (target : Key) :
    (∀ s, Reaches (Screen.step fmt toml) free (Screen.connected fmt toml dir target file) s →
        s.config.applied.unreachable = false ∧
          (inEffect s.config.layers s.config.pending).unreachable = false ∧
          (resolve fmt toml s.file target).settings.unreachable = false) ∧
      (∀ (c : ConfigState) (i : Row) (value : Value) (why : Text),
        (c.set i value).2 = .error why → (c.set i value).1 = c) ∧
      (∀ (c : ConfigState) (i : Row) (why : Text),
        (c.reset i).2 = .error why → (c.reset i).1 = c) ∧
      ∀ read : Layers × List Warning,
        keepLoop target 3 read = some (keepThePopupReachable target read) := by
  refine ⟨fun s run => ?_, fun c i value why refused => ?_, fun c i why refused => ?_,
    keepThePopupReachable_eq target⟩
  · have open_ : s.config.Open :=
      run.invariant (fun _ _ _ open_ _ taken => Screen.step_open open_ taken)
        (ConfigState.Open.of_resolve fmt toml dir file target)
    exact ⟨open_.applied, open_.shown, resolve_reachable fmt toml s.file target⟩
  · obtain ⟨next, same⟩ := ConfigState.set_cases c i value
    rw [same] at refused ⊢
    exact ConfigState.commit_refused refused
  · rcases ConfigState.reset_cases c i with default | ⟨next, same⟩
    · rw [default]
    · rw [same] at refused ⊢
      exact ConfigState.commit_refused refused

/-- Durations in nanoseconds only, and quotes without escapes. -/
def plainFormats : Formats where
  quoted text := ['"'] ++ text ++ ['"']
  showDuration d := (Nat.digits 10 d).reverse.map (fun n => Char.ofNat (48 + n)) ++ ['n', 's']
  parseDuration text :=
    if text.drop (text.length - 2) = ['n', 's'] then
      some (Int.ofNat
        (Nat.ofDigits 10 ((text.take (text.length - 2)).reverse.map fun c => c.toNat - 48)))
    else none

def keyOff : Text := "popup.key = \"off\"\n".toList

def keyOffToml : TomlEdit where
  parse text :=
    if text = keyOff then .ok [("popup", .table .dotted [("key", .str "off".toList)])]
    else .error "line 1: not read".toList
  print _ := keyOff

/-- With the key off in the file, turning the auto-open off on the screen is
refused. -/
theorem popup_can_always_be_reached_keyOff :
    let s := Screen.connected plainFormats keyOffToml none "t" (some keyOff)
    (s.config.set autoOpen (.duration none)).2 = .error unreachableRefusal ∧
      (s.config.set autoOpen (.duration none)).1 = s.config ∧
      s.config.applied.popupKey = none ∧ s.config.applied.unreachable = false := by
  intro s
  have reached := popup_can_always_be_reached plainFormats keyOffToml none (some keyOff) "t"
  have refused : (s.config.set autoOpen (.duration none)).2 = .error unreachableRefusal := by rfl
  exact ⟨refused, reached.2.1 _ _ _ _ refused, rfl, (reached.1 s .refl).1⟩

end Sessions
end Oxutrm.Config
