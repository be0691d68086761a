import Oxutrm.Config.Layers
import Oxutrm.Config.Tables

/-!
What `read_document` reads: for every row the value at two paths of the
document, and nothing else. A value that may be set reads back as itself.
-/
namespace Oxutrm.Config
open Proto

/-- Where a row is written at each level. -/
def rowPath (target : Key) (i : Row) : Level → List Key
  | .global => [(setting i).section_, (setting i).name]
  | .host => ["host", target, (setting i).section_, (setting i).name]

section Rows

theorem section_ne_host : ∀ i : Row, (setting i).section_ ≠ "host" := by decide

theorem indexOf_setting : ∀ i : Row,
    indexOf (setting i).section_ (setting i).name = some i := by decide

theorem indexOf_eq_some {section_ name : Key} {i : Row} (found : indexOf section_ name = some i) :
    (setting i).section_ = section_ ∧ (setting i).name = name := by
  have here := List.find?_some found
  simpa only [Bool.and_eq_true, decide_eq_true_eq] using here

end Rows

section Read
variable (fmt : Formats)

/-- What a row reads at a path: a value it may have, or nothing. -/
def readAt (i : Row) (item : Option Toml) : Option Value :=
  item.bind fun item => (parseItem fmt (setting i).shape item).toOption

/-- A layer is set where there is a value. -/
def KeyLayers.overlay (l : KeyLayers) (level : Level) : Option Value → KeyLayers
  | some v => l.put level (some v)
  | none => l

theorem KeyLayers.overlay_comm (l : KeyLayers) (g h : Option Value) :
    (l.overlay .host h).overlay .global g = (l.overlay .global g).overlay .host h := by
  cases g <;> cases h <;> rfl

def inSection (i : Row) (item : Option Toml) : Option Toml :=
  (item.bind Toml.asTableLike).bind fun entries => Entries.get entries (setting i).name

variable {fmt}

theorem readEntries_layers (path : List Key) (section_ : Key) (level : Level) (entries : Entries)
    (nodup : (entries.map Prod.fst).Nodup) (read : Layers × List Warning) (i : Row) :
    (readEntries fmt path section_ level entries read).1 i =
      if (setting i).section_ = section_ then
        (read.1 i).overlay level (readAt fmt i (entries.get (setting i).name))
      else read.1 i := by
  induction entries generalizing read with
  | nil => simp [readEntries, Entries.get, readAt, KeyLayers.overlay]
  | cons entry rest ih =>
      obtain ⟨name, item⟩ := entry
      obtain ⟨layers, warnings⟩ := read
      rw [List.map_cons, List.nodup_cons] at nodup
      have step := fun read => ih nodup.2 read
      simp only [readEntries]
      by_cases own : (setting i).section_ = section_ ∧ (setting i).name = name
      · -- The row's own key: nothing in the rest names it again.
        obtain ⟨rfl, rfl⟩ := own
        have missing : Entries.get rest (setting i).name = none := by
          rw [Entries.get_eq_none_iff]
          intro entry member same
          exact nodup.1 (List.mem_map.mpr ⟨entry, member, same⟩)
        rw [indexOf_setting i]
        simp only [Entries.get, if_true]
        cases parsed : parseItem fmt (setting i).shape item with
        | error why =>
            simp only [step, missing, if_true]
            simp [readAt, parsed, Except.toOption]
        | ok v =>
            simp only [step, missing, if_true, Function.update_self]
            simp [readAt, parsed, Except.toOption, KeyLayers.overlay]
      · have same : Entries.get ((name, item) :: rest) (setting i).name =
            Entries.get rest (setting i).name ∨ (setting i).section_ ≠ section_ := by
          by_cases here : (setting i).section_ = section_
          · left
            simp only [Entries.get]
            exact if_neg fun equal => own ⟨here, equal.symm⟩
          · exact Or.inr here
        have rest_ : ∀ read : Layers × List Warning, read.1 i = layers i →
            (readEntries fmt path section_ level rest read).1 i =
              if (setting i).section_ = section_ then
                (layers i).overlay level
                  (readAt fmt i (Entries.get ((name, item) :: rest) (setting i).name))
              else layers i := by
          intro read kept
          rw [step, kept]
          rcases same with same | other
          · rw [same]
          · rw [if_neg other, if_neg other]
        cases found : indexOf section_ name with
        | none =>
            refine rest_ _ ?_
            rfl
        | some j =>
            have other : i ≠ j := by
              rintro rfl
              exact own (indexOf_eq_some found)
            cases parsed : parseItem fmt (setting j).shape item with
            | error why =>
                simp only [parsed]
                refine rest_ _ ?_
                rfl
            | ok v =>
                simp only [parsed]
                refine rest_ _ ?_
                exact Function.update_of_ne other _ _

theorem readSection_layers (above : List Key) (section_ : Key) (item : Toml) (level : Level)
    (nodup : ∀ entries, item.asTableLike = some entries → (entries.map Prod.fst).Nodup)
    (read : Layers × List Warning) (i : Row) :
    (readSection fmt above section_ item level read).1 i =
      if (setting i).section_ = section_ then
        (read.1 i).overlay level (readAt fmt i (inSection i (some item)))
      else read.1 i := by
  simp only [readSection, inSection, Option.bind_some]
  split
  · cases table : item.asTableLike with
    | none => simp [readAt, KeyLayers.overlay]
    | some entries => exact readEntries_layers _ _ _ entries (nodup entries table) read i
  · next unknown =>
      have other : (setting i).section_ ≠ section_ := fun same => unknown ⟨i, same⟩
      simp [other]

theorem get_of_mem {entries : Entries} (nodup : (entries.map Prod.fst).Nodup) {key : Key}
    {item : Toml} (member : (key, item) ∈ entries) : entries.get key = some item := by
  induction entries with
  | nil => cases member
  | cons entry rest ih =>
      obtain ⟨k, old⟩ := entry
      rw [List.map_cons, List.nodup_cons] at nodup
      rcases List.mem_cons.mp member with here | there
      · cases here
        simp [Entries.get]
      · have other : k ≠ key := by
          rintro rfl
          exact nodup.1 (List.mem_map.mpr ⟨_, there, rfl⟩)
        simp only [Entries.get, if_neg other]
        exact ih nodup.2 there

theorem keyed_of_get {entries inner : Entries} (keyed : entries.Keyed) {key : Key} {item : Toml}
    (found : entries.get key = some item) (table : item.asTableLike = some inner) :
    inner.Keyed := by
  cases item with
  | table kind entries =>
      obtain rfl := Option.some.inj table
      exact (Entries.keyed_iff.mp keyed).2 key kind _ found
  | str | bool | integer | float | datetime | array | tables => cases table

/-- A section's entries have no key twice. -/
def TablesNodup (entries : Entries) : Prop :=
  ∀ key item, (key, item) ∈ entries → ∀ inner, item.asTableLike = some inner →
    (inner.map Prod.fst).Nodup

theorem tablesNodup_of_keyed {entries : Entries} (keyed : entries.Keyed) : TablesNodup entries := by
  intro key item member inner table
  have found := get_of_mem (Entries.keyed_iff.mp keyed).1 member
  exact (Entries.keyed_iff.mp (keyed_of_get keyed found table)).1

theorem readHost_layers (target : Key) (entries : Entries) (nodup : (entries.map Prod.fst).Nodup)
    (tables : TablesNodup entries) (read : Layers × List Warning) (i : Row) :
    (readHost fmt target entries read).1 i =
      (read.1 i).overlay .host
        (readAt fmt i (inSection i (entries.get (setting i).section_))) := by
  induction entries generalizing read with
  | nil => rfl
  | cons entry rest ih =>
      obtain ⟨section_, item⟩ := entry
      rw [List.map_cons, List.nodup_cons] at nodup
      have first := @readSection_layers fmt ["host", target] section_ item .host
        (tables section_ item List.mem_cons_self) read i
      simp only [readHost, Entries.get]
      rw [ih nodup.2 (fun key item member => tables key item (List.mem_cons_of_mem _ member)),
        first]
      by_cases own : (setting i).section_ = section_
      · have missing : Entries.get rest (setting i).section_ = none := by
          rw [Entries.get_eq_none_iff]
          intro entry member same
          exact nodup.1 (List.mem_map.mpr ⟨entry, member, same.trans own⟩)
        rw [if_pos own, if_pos own.symm, missing]
        rfl
      · rw [if_neg own, if_neg fun same => own same.symm]

/-- This target's own table. -/
def oursIn (target : Key) (host : Option Toml) : Option Toml :=
  (host.bind Toml.asTableLike).bind fun hosts => Entries.get hosts target

def sectionOf (i : Row) (item : Option Toml) : Option Toml :=
  (item.bind Toml.asTableLike).bind fun ours => Entries.get ours (setting i).section_

theorem readHosts_layers {entries : Entries} (keyed : entries.Keyed) (target : Key) {item : Toml}
    (found : entries.get "host" = some item) (rest : Entries) (read : Layers × List Warning)
    (i : Row) :
    ∃ read' : Layers × List Warning,
      readDocument fmt target (("host", item) :: rest) read = readDocument fmt target rest read' ∧
        read'.1 i = (read.1 i).overlay .host
          (readAt fmt i (inSection i (sectionOf i (oursIn target (some item))))) := by
  simp only [readDocument, ne_eq, not_true_eq_false, if_false, oursIn, Option.bind_some]
  cases hosts : item.asTableLike with
  | none => exact ⟨_, rfl, rfl⟩
  | some hosts_ =>
      simp only [Option.bind_some]
      cases ours : Entries.get hosts_ target with
      | none => exact ⟨_, rfl, rfl⟩
      | some table =>
          simp only [sectionOf, Option.bind_some]
          cases sections : table.asTableLike with
          | none => exact ⟨_, rfl, rfl⟩
          | some entries_ =>
              have keyed' := keyed_of_get (keyed_of_get keyed found hosts) ours sections
              exact ⟨_, rfl, readHost_layers target entries_ (Entries.keyed_iff.mp keyed').1
                (tablesNodup_of_keyed keyed') read i⟩

/-- The document read entry by entry, the rest of it at a time. -/
theorem readDocument_rest {doc : Entries} (keyed : doc.Keyed) (target : Key) (i : Row)
    (entries : Entries) (suffix : entries <:+ doc) (read : Layers × List Warning) :
    (readDocument fmt target entries read).1 i =
      ((read.1 i).overlay .global
          (readAt fmt i (inSection i (entries.get (setting i).section_)))).overlay .host
        (readAt fmt i (inSection i (sectionOf i (oursIn target (entries.get "host"))))) := by
  have nodup : (entries.map Prod.fst).Nodup :=
    (Entries.keyed_iff.mp keyed).1.sublist (suffix.sublist.map Prod.fst)
  induction entries generalizing read with
  | nil => rfl
  | cons entry rest ih =>
      obtain ⟨key, item⟩ := entry
      have member : (key, item) ∈ doc := suffix.subset List.mem_cons_self
      have inner := ih ((List.suffix_cons _ _).trans suffix)
      rw [List.map_cons, List.nodup_cons] at nodup
      have gone : ∀ k, key = k → Entries.get rest k = none := by
        rintro k rfl
        rw [Entries.get_eq_none_iff]
        intro entry there same
        exact nodup.1 (List.mem_map.mpr ⟨entry, there, same⟩)
      have host := section_ne_host i
      by_cases isHost : key = "host"
      · subst isHost
        obtain ⟨read', same, value⟩ := @readHosts_layers fmt doc keyed target item
          (get_of_mem (Entries.keyed_iff.mp keyed).1 member) rest read i
        rw [same, inner _ nodup.2, value]
        simp only [Entries.get, if_true, if_neg (Ne.symm host), gone "host" rfl]
        exact KeyLayers.overlay_comm _ _ _
      · have first := @readSection_layers fmt [] key item .global
          (tablesNodup_of_keyed keyed key item member) read i
        simp only [readDocument, ne_eq, isHost, not_false_eq_true, if_true]
        rw [inner _ nodup.2, first]
        simp only [Entries.get, if_neg isHost]
        by_cases own : (setting i).section_ = key
        · rw [if_pos own, if_pos own.symm, gone _ own.symm]
          rfl
        · rw [if_neg own, if_neg fun same => own same.symm]

end Read

section Leaves
variable {fmt : Formats}

theorem readAt_filter (i : Row) (item : Option Toml) :
    readAt fmt i (item.filter fun item => item.asTableLike.isNone) = readAt fmt i item := by
  cases item with
  | none => rfl
  | some item =>
      cases item with
      | table kind entries =>
          have refused : ∀ shape, (parseItem fmt shape (.table kind entries)).toOption = none := by
            intro shape
            cases shape <;> rfl
          simp only [readAt, Option.bind_some, refused]
          rfl
      | str | bool | integer | float | datetime | array | tables => rfl

theorem find_two (entries : Entries) (a b : Key) :
    entries.find [a, b] = ((entries.get a).bind Toml.asTableLike).bind fun inner =>
      Entries.get inner b := by
  simp only [Entries.find]
  cases entries.get a with
  | none => rfl
  | some item =>
      simp only [Option.bind_some]
      cases item.asTableLike with
      | none => rfl
      | some inner =>
          simp only [Option.bind_some]
          cases Entries.get inner b <;> rfl

theorem find_four (entries : Entries) (a b c d : Key) :
    entries.find [a, b, c, d] = ((entries.find [a, b]).bind Toml.asTableLike).bind fun inner =>
      Entries.find inner [c, d] := by
  rw [find_two]
  simp only [Entries.find]
  cases entries.get a with
  | none => rfl
  | some item =>
      simp only [Option.bind_some]
      cases item.asTableLike with
      | none => rfl
      | some inner =>
          simp only [Option.bind_some]
          cases Entries.get inner b with
          | none => rfl
          | some item =>
              simp only [Option.bind_some]
              cases item.asTableLike <;> rfl

/-- What `read_document` reads for a row: the values at its two paths. -/
theorem readDocument_layers {doc : Entries} (keyed : doc.Keyed) (target : Key) (i : Row) :
    (readDocument fmt target doc (Layers.defaults, [])).1 i =
      { default := (setting i).defaultValue
        global := readAt fmt i (doc.leaf (rowPath target i .global))
        host := readAt fmt i (doc.leaf (rowPath target i .host)) } := by
  have read := @readDocument_rest fmt doc keyed target i doc (List.suffix_refl doc)
    (Layers.defaults, [])
  have global : inSection i (doc.get (setting i).section_) =
      doc.find (rowPath target i .global) := (find_two doc _ _).symm
  have host : inSection i (sectionOf i (oursIn target (doc.get "host"))) =
      doc.find (rowPath target i .host) := by
    rw [rowPath, find_four, find_two]
    simp only [inSection, sectionOf, oursIn, find_two, Option.bind_assoc]
  rw [global, host] at read
  rw [read, Entries.leaf, Entries.leaf, readAt_filter, readAt_filter]
  cases readAt fmt i (doc.find (rowPath target i .global)) <;>
    cases readAt fmt i (doc.find (rowPath target i .host)) <;> rfl

end Leaves

section Values
variable {fmt : Formats}

/-- Beyond the longest signed duration: its seconds are an `i64`. -/
def durationLimit : Nat := secs 9223372036854775808

/-- The spelling of a duration can be read back, and is not the word `off`. -/
def Formats.Faithful (fmt : Formats) : Prop :=
  ∀ d < durationLimit, fmt.parseDuration (fmt.showDuration d) = some (d : Int) ∧
    fmt.showDuration d ≠ "off".toList

/-- A row of durations none of which is too long to be signed. -/
def Shape.Signed : Shape → Prop
  | .duration _ max _ _ => max < durationLimit
  | _ => True

instance : (shape : Shape) → Decidable shape.Signed
  | .duration _ max _ _ => inferInstanceAs (Decidable (max < durationLimit))
  | .key | .bool | .servers => inferInstanceAs (Decidable True)

theorem setting_signed : ∀ i : Row, (setting i).shape.Signed := by decide +kernel

/-- The values the checks of a shape let through. -/
def Allowed (fmt : Formats) : Shape → Value → Prop
  | .key, .key k => k = none ∨ ∃ b, k = some b ∧ checkKey fmt b = .ok (some b)
  | .duration min max off wholeSecs, .duration d =>
      match d with
      | none => off = true
      | some d => min ≤ d ∧ d ≤ max ∧ (wholeSecs = true → d % secs 1 = 0)
  | .bool, .bool _ => True
  | .servers, .list l => checkServers fmt l = .ok (.list l)
  | _, _ => False

theorem checkKey_ok {byte : UInt8} {k : Option UInt8} (checked : checkKey fmt byte = .ok k) :
    k = some byte ∧ byte ≠ 0x1b ∧ 1 ≤ byte.toNat ∧ byte.toNat ≤ 0x1f := by
  simp only [checkKey] at checked
  repeat' split at checked
  all_goals try cases checked
  next _ _ _ _ notEsc inside =>
    exact ⟨rfl, notEsc, UInt8.le_iff_toNat_le.mp inside.1, UInt8.le_iff_toNat_le.mp inside.2⟩

theorem parseKey_ok {text : Text} {k : Option UInt8} (parsed : parseKey fmt text = .ok k) :
    k = none ∨ ∃ b, checkKey fmt b = .ok k := by
  simp only [parseKey] at parsed
  split at parsed
  · cases parsed
    exact Or.inl rfl
  · split at parsed
    · repeat' split at parsed
      all_goals first | exact Or.inr ⟨_, parsed⟩ | cases parsed
    · cases parsed

theorem parseKey_keyName {byte : UInt8} (notEsc : byte ≠ 0x1b) (low : 1 ≤ byte.toNat)
    (high : byte.toNat ≤ 0x1f) : parseKey fmt (keyName (some byte)) = checkKey fmt byte := by
  obtain ⟨n, rfl⟩ : ∃ n, byte = UInt8.ofNat n := ⟨byte.toNat, by simp⟩
  have small : (UInt8.ofNat n).toNat = n % 256 := by simp
  rw [small] at low high
  have same : UInt8.ofNat n = UInt8.ofNat (n % 256) := by
    apply UInt8.toNat_inj.mp
    simp
  rw [same] at notEsc ⊢
  generalize n % 256 = m at low high notEsc
  interval_cases m
  all_goals first | rfl | exact absurd rfl notEsc

theorem parseDuration_allowed {min max : Nat} {off wholeSecs : Bool} {text : Text}
    {d : Option Nat} (parsed : parseDuration fmt min max off wholeSecs text = .ok d) :
    Allowed fmt (.duration min max off wholeSecs) (.duration d) := by
  simp only [parseDuration] at parsed
  split at parsed
  · next isOff =>
      cases parsed
      exact isOff.1
  · split at parsed
    · cases parsed
    · repeat' split at parsed
      all_goals try cases parsed
      next _ whole inside =>
        rw [not_or, Nat.not_lt, Nat.not_lt] at inside
        refine ⟨inside.1, inside.2, fun wanted => ?_⟩
        by_contra fraction
        exact whole ⟨wanted, fraction⟩

theorem checkServers_allowed {l : List Text} {v : Value} (checked : checkServers fmt l = .ok v) :
    Allowed fmt .servers v := by
  have list : v = .list l := by
    simp only [checkServers] at checked
    split at checked
    · cases checked
    · cases servers : checkEachServer fmt l with
      | error why =>
          rw [servers] at checked
          cases checked
      | ok _ =>
          rw [servers] at checked
          cases checked
          rfl
  subst list
  exact checked

/-- Whatever the screen accepts as text is a value the file may hold. -/
theorem parseText_allowed {shape : Shape} {text : Text} {v : Value}
    (parsed : parseText fmt shape text = .ok v) : Allowed fmt shape v := by
  cases shape with
  | key =>
      simp only [parseText] at parsed
      cases key : parseKey fmt text with
      | error why =>
          rw [key] at parsed
          cases parsed
      | ok k =>
          rw [key] at parsed
          cases parsed
          rcases parseKey_ok key with rfl | ⟨b, checked⟩
          · exact Or.inl rfl
          · obtain ⟨rfl, -⟩ := checkKey_ok checked
            exact Or.inr ⟨b, rfl, checked⟩
  | duration min max off wholeSecs =>
      simp only [parseText] at parsed
      cases duration : parseDuration fmt min max off wholeSecs text with
      | error why =>
          rw [duration] at parsed
          cases parsed
      | ok d =>
          rw [duration] at parsed
          cases parsed
          exact parseDuration_allowed duration
  | bool =>
      simp only [parseText] at parsed
      repeat' split at parsed
      all_goals cases parsed
      all_goals trivial
  | servers => exact checkServers_allowed parsed

theorem mapM_asStr (l : List Text) : (l.map Toml.str).mapM Toml.asStr = some l := by
  induction l with
  | nil => rfl
  | cons text rest ih => simp [ih, Toml.asStr]

theorem parseItem_toToml (faithful : fmt.Faithful) {shape : Shape} {v : Value}
    (signed : shape.Signed) (allowed : Allowed fmt shape v) :
    parseItem fmt shape (toToml fmt v) = .ok v := by
  cases shape with
  | key =>
      cases v with
      | key k =>
          rcases allowed with rfl | ⟨b, rfl, checked⟩
          · rfl
          · obtain ⟨-, notEsc, low, high⟩ := checkKey_ok checked
            simp only [parseItem, toToml, Toml.asStr, parseText,
              parseKey_keyName notEsc low high, checked]
            rfl
      | bool | duration | list => exact absurd allowed id
  | duration min max off wholeSecs =>
      cases v with
      | duration d =>
          cases d with
          | none =>
              have isOff : off = true := allowed
              simp only [parseItem, toToml, Toml.asStr, parseText, parseDuration, isOff, and_self,
                if_true]
              rfl
          | some d =>
              obtain ⟨low, high, whole⟩ := allowed
              have spelled := faithful d (Nat.lt_of_le_of_lt high signed)
              have fraction : ¬ (wholeSecs = true ∧ d % secs 1 ≠ 0) :=
                fun both => both.2 (whole both.1)
              have range_ : ¬ (d < min ∨ max < d) := by omega
              have negative : ¬ (d : Int) < 0 := by omega
              simp only [parseItem, toToml, Toml.asStr, parseText, parseDuration, spelled.1,
                spelled.2, and_false, if_false, negative, Int.toNat_natCast, fraction, range_]
              rfl
      | bool | key | list => exact absurd allowed id
  | bool =>
      cases v with
      | bool b => rfl
      | key | duration | list => exact absurd allowed id
  | servers =>
      cases v with
      | list l =>
          simp only [parseItem, toToml, Toml.asArray, Option.bind_some, mapM_asStr]
          exact allowed
      | bool | key | duration => exact absurd allowed id

theorem checkServer_plain (server host port : Text) (n : Nat)
    (split : splitLastColon server = some (host, port)) (number : parseU16 port = some n)
    (positive : n ≠ 0) (nonempty : host ≠ [])
    (plain : ['[', ']', ':', ' '].all (fun c => !host.contains c) = true) :
    checkServer fmt server = .ok () := by
  have free : ∀ c ∈ ['[', ']', ':', ' '], c ∉ host := by
    intro c member
    simpa using List.all_eq_true.mp plain c member
  simp only [checkServer, split, number, Option.filter_some, decide_not, positive, decide_false,
    Bool.not_false, if_true]
  exact if_pos (Or.inr ⟨nonempty, free⟩)

theorem defaultServers_checked :
    checkServers fmt ({} : Settings).stunServers = .ok (.list ({} : Settings).stunServers) := by
  have cloudflare : checkServer fmt "stun.cloudflare.com:3478".toList = .ok () :=
    checkServer_plain _ "stun.cloudflare.com".toList "3478".toList 3478
      (by decide) (by decide) (by decide) (by decide) (by decide)
  have google : checkServer fmt "stun.l.google.com:19302".toList = .ok () :=
    checkServer_plain _ "stun.l.google.com".toList "19302".toList 19302
      (by decide) (by decide) (by decide) (by decide) (by decide)
  have nextcloud : checkServer fmt "stun.nextcloud.com:443".toList = .ok () :=
    checkServer_plain _ "stun.nextcloud.com".toList "443".toList 443
      (by decide) (by decide) (by decide) (by decide) (by decide)
  have sipgate : checkServer fmt "stun.sipgate.net:3478".toList = .ok () :=
    checkServer_plain _ "stun.sipgate.net".toList "3478".toList 3478
      (by decide) (by decide) (by decide) (by decide) (by decide)
  simp only [checkServers, maxServers, List.length_cons, List.length_nil, checkEachServer,
    cloudflare, google, nextcloud, sipgate]
  rfl

theorem defaultValue_allowed (i : Row) :
    Allowed fmt (setting i).shape (setting i).defaultValue := by
  fin_cases i
  case «0» => exact Or.inr ⟨0x1c, rfl, rfl⟩
  case «8» => exact defaultServers_checked
  case «3» | «7» | «9» | «10» | «11» | «12» => trivial
  all_goals exact ⟨by decide, by decide, by decide⟩

theorem toToml_not_table (v : Value) : (toToml fmt v).asTableLike = none := by
  cases v with
  | duration d => cases d <;> rfl
  | bool | key | list => rfl

end Values
end Oxutrm.Config
