import Oxutrm.Config.State
import Oxutrm.Config.Reading

/-!
Saving writes exactly the edits. Each change of a save is followed through the
tables it goes down into: it sets what is at its own path and keeps the rest of
the document.
-/
namespace Oxutrm.Config
open Proto Transition

namespace Change

def row : Change → Row
  | write _ i _ => i
  | remove _ i => i

def level : Change → Level
  | write level _ _ => level
  | remove level _ => level

def path (target : Key) (change : Change) : List Key := rowPath target change.row change.level

/-- What is at the change's path once it is made. -/
def value (fmt : Formats) : Change → Option Toml
  | write _ _ v => some (toToml fmt v)
  | remove _ _ => none

end Change

section Tables
variable {parent parent' inner inner' : Entries} {key : Key} {kind : TableKind}
  {edited emptied : List Key → Prop}

/-- The entries of the table at `key`, none if there is no table yet. -/
def Within (parent : Entries) (key : Key) (inner : Entries) : Prop :=
  (∃ kind, parent.get key = some (.table kind inner)) ∨ (parent.get key = none ∧ inner = [])

theorem Within.leaf (within : Within parent key inner) (path : List Key) :
    parent.leaf (key :: path) = inner.leaf path := by
  rcases within with ⟨kind, found⟩ | ⟨missing, rfl⟩
  · exact Entries.leaf_cons_of_table found path
  · rw [Entries.leaf_cons_of_none missing, Entries.leaf_empty]

theorem Within.keyed (within : Within parent key inner) (keyed : parent.Keyed) : inner.Keyed := by
  rcases within with ⟨kind, found⟩ | ⟨-, rfl⟩
  · exact (Entries.keyed_iff.mp keyed).2 key kind inner found
  · exact Entries.keyed_nil

theorem Within.kept (within : Within parent key inner)
    (kept : Entries.Kept (fun path => edited (key :: path)) (fun path => emptied (key :: path))
      inner inner') :
    Entries.Kept edited emptied parent (parent.insert key (.table kind inner')) := by
  rcases within with ⟨kind, found⟩ | ⟨missing, rfl⟩
  · exact .descend (Entries.sameBut_insert _ _ _) found Entries.get_insert_self kept
  · exact .create (Entries.sameBut_insert _ _ _) missing Entries.get_insert_self kept

theorem tableIn_some {create : Option TableKind} {at_ : Text}
    {body : Entries → Except Text (Option Entries)}
    (done : tableIn parent key create at_ body = .ok (some parent')) :
    ∃ inner inner' kind, Within parent key inner ∧ body inner = .ok (some inner') ∧
      parent' = parent.insert key (.table kind inner') := by
  have worked : ∀ (inner : Entries) (kind : TableKind),
      (body inner).map (Option.map fun inner => parent.insert key (.table kind inner)) =
        .ok (some parent') →
      ∃ inner', body inner = .ok (some inner') ∧
        parent' = parent.insert key (.table kind inner') := by
    intro inner kind made
    cases result : body inner with
    | error why =>
        rw [result] at made
        cases made
    | ok changed =>
        cases changed with
        | none =>
            rw [result] at made
            cases made
        | some inner' =>
            rw [result] at made
            cases made
            exact ⟨inner', rfl, rfl⟩
  simp only [tableIn] at done
  split at done
  · next missing =>
      split at done
      · cases done
      · next kind =>
          obtain ⟨inner', result, same⟩ := worked [] kind done
          exact ⟨[], inner', kind, Or.inr ⟨missing, rfl⟩, result, same⟩
  · next kind inner found =>
      obtain ⟨inner', result, same⟩ := worked inner kind done
      exact ⟨inner, inner', kind, Or.inl ⟨kind, found⟩, result, same⟩
  · cases done

/-- Nothing to work on, here or further down. -/
theorem tableIn_none {at_ : Text} {body : Entries → Except Text (Option Entries)}
    (done : tableIn parent key none at_ body = .ok none) :
    ∃ inner, Within parent key inner ∧ (inner = [] ∨ body inner = .ok none) := by
  simp only [tableIn] at done
  split at done
  · next missing => exact ⟨[], Or.inr ⟨missing, rfl⟩, Or.inl rfl⟩
  · next kind inner found =>
      refine ⟨inner, Or.inl ⟨kind, found⟩, Or.inr ?_⟩
      cases result : body inner with
      | error why =>
          rw [result] at done
          cases done
      | ok changed =>
          cases changed with
          | none => rfl
          | some inner' =>
              rw [result] at done
              cases done
  · cases done

end Tables

section Prune
variable (ours hosts doc : Entries) (target section_ : Key)

/-- Nothing is edited by a prune. -/
def untouched : List Key → Prop := fun _ => False

theorem pruneSection_kept :
    Entries.Kept untouched (· <+: [section_]) ours (pruneSection ours section_) := by
  simp only [pruneSection]
  split
  · next kind inner found =>
      split
      · next empty =>
          obtain rfl := List.isEmpty_iff.mp empty
          exact .drop (Entries.sameBut_remove _ _) found Entries.get_remove_self
            (List.prefix_refl _) (Entries.Kept.refl [])
      · exact .refl ours
  · exact .refl ours

/-- One table further up, on the way to the section. -/
theorem prune_cons {key : Key} {path : List Key} {inner inner' : Entries}
    (kept : Entries.Kept untouched (· <+: path) inner inner') :
    Entries.Kept untouched (fun other => key :: other <+: key :: path) inner inner' :=
  kept.mono (fun _ => id) fun _ inside => List.cons_prefix_cons.mpr ⟨rfl, inside⟩

theorem pruneTarget_kept : Entries.Kept untouched (· <+: [target, section_]) hosts
    (pruneTarget hosts target section_) := by
  simp only [pruneTarget]
  split
  · next kind ours found =>
      have kept := pruneSection_kept ours section_
      split
      · next empty =>
          rw [List.isEmpty_iff.mp empty] at kept
          exact .drop (Entries.sameBut_remove _ _) found Entries.get_remove_self
            (List.prefix_append _ _) (prune_cons kept)
      · exact .descend (Entries.sameBut_insert _ _ _) found Entries.get_insert_self
          (prune_cons kept)
  · exact .refl hosts

theorem prune_kept : Entries.Kept untouched (· <+: ["host", target, section_]) doc
    (prune doc target section_) := by
  simp only [prune]
  split
  · next kind hosts found =>
      have kept := pruneTarget_kept hosts target section_
      split
      · next empty =>
          rw [List.isEmpty_iff.mp empty] at kept
          exact .drop (Entries.sameBut_remove _ _) found Entries.get_remove_self
            (List.prefix_append _ _) (prune_cons kept)
      · exact .descend (Entries.sameBut_insert _ _ _) found Entries.get_insert_self
          (prune_cons kept)
  · exact .refl doc

variable {ours hosts doc}

theorem pruneSection_keyed (keyed : ours.Keyed) : (pruneSection ours section_).Keyed := by
  simp only [pruneSection]
  split
  · split
    · exact keyed.remove
    · exact keyed
  · exact keyed

theorem pruneTarget_keyed (keyed : hosts.Keyed) : (pruneTarget hosts target section_).Keyed := by
  simp only [pruneTarget]
  split
  · next kind ours found =>
      split
      · exact keyed.remove
      · exact keyed.insert_table
          (pruneSection_keyed section_ ((Entries.keyed_iff.mp keyed).2 target kind ours found))
  · exact keyed

theorem prune_keyed (keyed : doc.Keyed) : (prune doc target section_).Keyed := by
  simp only [prune]
  split
  · next kind hosts found =>
      split
      · exact keyed.remove
      · exact keyed.insert_table (pruneTarget_keyed target section_
          ((Entries.keyed_iff.mp keyed).2 "host" kind hosts found))
  · exact keyed

end Prune

section Confined

theorem remove_insert (entries : Entries) (key : Key) (item : Toml) :
    (entries.insert key item).remove key = entries.remove key := by
  induction entries with
  | nil => simp [Entries.insert, Entries.remove]
  | cons entry rest ih =>
      obtain ⟨k, old⟩ := entry
      simp only [Entries.remove, ne_eq, decide_not] at ih
      by_cases same : k = key
      · simp [Entries.insert, Entries.remove, same]
      · simp [Entries.insert, Entries.remove, same, ih]

theorem remove_remove (entries : Entries) (key : Key) :
    (entries.remove key).remove key = entries.remove key := by
  simp [Entries.remove]

def hostsOf (doc : Entries) : Entries := ((doc.get "host").bind Toml.asTableLike).getD []

/-- Outside `host.<target>` the document is the same, entry by entry. -/
structure Confined (target : Key) (before after : Entries) : Prop where
  sections : after.remove "host" = before.remove "host"
  hosts : (hostsOf after).remove target = (hostsOf before).remove target

theorem Confined.refl (target : Key) (doc : Entries) : Confined target doc doc := ⟨rfl, rfl⟩

theorem Confined.trans {target : Key} {a b c : Entries} (first : Confined target a b)
    (second : Confined target b c) : Confined target a c :=
  ⟨second.sections.trans first.sections, second.hosts.trans first.hosts⟩

theorem Within.hostsOf {doc hosts : Entries} (within : Within doc "host" hosts) :
    Config.hostsOf doc = hosts := by
  rcases within with ⟨kind, found⟩ | ⟨missing, rfl⟩
  · simp [Config.hostsOf, found, Toml.asTableLike]
  · simp [Config.hostsOf, missing]

theorem hostsOf_insert (doc : Entries) (kind : TableKind) (hosts : Entries) :
    hostsOf (doc.insert "host" (.table kind hosts)) = hosts := by
  simp [hostsOf, Toml.asTableLike]

theorem prune_confined (doc : Entries) (target section_ : Key) :
    Confined target doc (prune doc target section_) := by
  simp only [prune]
  split
  · next kind hosts found =>
      have before : hostsOf doc = hosts := Within.hostsOf (Or.inl ⟨kind, found⟩)
      have inner : (pruneTarget hosts target section_).remove target =
          Entries.remove hosts target := by
        simp only [pruneTarget]
        split
        · split
          · exact remove_remove hosts target
          · exact remove_insert hosts target _
        · rfl
      split
      · next empty =>
          refine ⟨remove_remove doc "host", ?_⟩
          have gone : hostsOf (doc.remove "host") = [] := by simp [hostsOf]
          rw [gone, before, ← inner, List.isEmpty_iff.mp empty]
      · refine ⟨remove_insert doc "host" _, ?_⟩
        rw [hostsOf_insert, before, inner]
  · exact .refl target doc

end Confined

section Changes
variable {fmt : Formats} {target : Key} {doc doc' : Entries}

/-- What a change of one row's entry does inside its section. -/
structure SetsName (name : Key) (value : Option Toml) (body : Entries → Entries) : Prop where
  kept : ∀ (emptied : List Key → Prop) inner,
    Entries.Kept (fun path => [name] <+: path) emptied inner (body inner)
  keyed : ∀ inner : Entries, inner.Keyed → (body inner).Keyed
  value : ∀ inner, (body inner).leaf [name] = value

theorem setsName_insert (name : Key) {item : Toml} (plain : item.asTableLike = none) :
    SetsName name (some item) fun inner => inner.insert name item where
  kept _ inner := .of_sameBut (Entries.sameBut_insert inner name item)
  keyed _ keyed := keyed.insert_value plain
  value _ := by
    simp [Entries.leaf, Entries.find_singleton, plain]

theorem setsName_remove (name : Key) : SetsName name none fun inner => inner.remove name where
  kept _ inner := .of_sameBut (Entries.sameBut_remove inner name)
  keyed _ keyed := keyed.remove
  value _ := Entries.leaf_cons_of_none Entries.get_remove_self []

/-- What a change leaves behind. -/
structure Made (target : Key) (level : Level) (path : List Key) (value : Option Toml)
    (before after : Entries) : Prop where
  kept : Entries.Kept (fun other => path <+: other)
    (fun other => level = .host ∧ other <+: path) before after
  keyed : after.Keyed
  value : after.leaf path = value
  confined : level = .host → Confined target before after

theorem kept_cons {path : List Key} {key : Key} {emptied : List Key → Prop}
    {inner inner' : Entries}
    (kept : Entries.Kept (fun other => path <+: other) emptied inner inner') :
    Entries.Kept (fun other => key :: path <+: key :: other) emptied inner inner' :=
  kept.mono (fun _ inside => List.cons_prefix_cons.mpr ⟨rfl, inside⟩) fun _ => id

theorem sectionIn_some {level : Level} {i : Row} {create : Bool} {value : Option Toml}
    {body : Entries → Entries} (sets : SetsName (setting i).name value body) (keyed : doc.Keyed)
    (done : sectionIn fmt doc target level i create body = .ok (some doc')) :
    Made target level (rowPath target i level) value doc doc' := by
  simp only [sectionIn] at done
  cases level with
  | global =>
      obtain ⟨entries, entries', kind, within, result, rfl⟩ := tableIn_some done
      cases result
      refine ⟨within.kept (kept_cons (sets.kept _ entries)),
        keyed.insert_table (sets.keyed entries (within.keyed keyed)), ?_, fun host => by cases host⟩
      rw [rowPath, Entries.leaf_cons_of_table Entries.get_insert_self, sets.value]
  | host =>
      obtain ⟨hosts, hosts', kind, inHosts, inner, rfl⟩ := tableIn_some done
      obtain ⟨ours, ours', kind', inOurs, innermost, rfl⟩ := tableIn_some inner
      obtain ⟨entries, entries', kind'', within, result, rfl⟩ := tableIn_some innermost
      cases result
      have keyedHosts := inHosts.keyed keyed
      have keyedOurs := inOurs.keyed keyedHosts
      refine ⟨?_, ?_, ?_, fun _ => ⟨remove_insert doc "host" _, ?_⟩⟩
      · exact inHosts.kept (kept_cons (inOurs.kept (kept_cons (within.kept
          (kept_cons (sets.kept _ entries))))))
      · exact keyed.insert_table (keyedHosts.insert_table (keyedOurs.insert_table
          (sets.keyed entries (within.keyed keyedOurs))))
      · rw [rowPath, Entries.leaf_cons_of_table Entries.get_insert_self,
          Entries.leaf_cons_of_table Entries.get_insert_self,
          Entries.leaf_cons_of_table Entries.get_insert_self, sets.value]
      · rw [hostsOf_insert, inHosts.hostsOf, remove_insert]

theorem sectionIn_none {level : Level} {i : Row} {body : Entries → Entries}
    (done : sectionIn fmt doc target level i false body = .ok none) :
    doc.leaf (rowPath target i level) = none := by
  simp only [sectionIn, Bool.false_eq_true, if_false] at done
  cases level with
  | global =>
      obtain ⟨entries, within, nothing⟩ := tableIn_none done
      rw [rowPath, within.leaf]
      rcases nothing with rfl | result
      · exact Entries.leaf_empty _
      · cases result
  | host =>
      obtain ⟨hosts, inHosts, nothing⟩ := tableIn_none done
      rw [rowPath, inHosts.leaf]
      rcases nothing with rfl | result
      · exact Entries.leaf_empty _
      obtain ⟨ours, inOurs, nothing⟩ := tableIn_none result
      rw [inOurs.leaf]
      rcases nothing with rfl | result
      · exact Entries.leaf_empty _
      obtain ⟨entries, within, nothing⟩ := tableIn_none result
      rw [within.leaf]
      rcases nothing with rfl | result
      · exact Entries.leaf_empty _
      · cases result

theorem tableIn_create {parent : Entries} {key : Key} {kind : TableKind} {at_ : Text}
    {body : Entries → Except Text (Option Entries)}
    (works : ∀ inner, body inner ≠ .ok none) :
    tableIn parent key (some kind) at_ body ≠ .ok none := by
  have worked : ∀ (inner : Entries) (kind : TableKind),
      (body inner).map (Option.map fun inner => parent.insert key (.table kind inner)) ≠
        .ok none := by
    intro inner kind made
    cases result : body inner with
    | error why =>
        rw [result] at made
        cases made
    | ok changed =>
        cases changed with
        | none => exact works inner result
        | some inner' =>
            rw [result] at made
            cases made
  intro done
  simp only [tableIn] at done
  split at done
  · exact worked _ _ done
  · exact worked _ _ done
  · cases done

theorem sectionIn_create (fmt : Formats) (doc : Entries) (target : Key) (level : Level) (i : Row)
    (body : Entries → Entries) : sectionIn fmt doc target level i true body ≠ .ok none := by
  have works : ∀ entries, (.ok (some (body entries)) : Except Text (Option Entries)) ≠ .ok none :=
    fun _ same => by cases same
  simp only [sectionIn, if_true]
  cases level with
  | global => exact tableIn_create works
  | host => exact tableIn_create fun _ => tableIn_create fun _ => tableIn_create works

theorem Made.prune {path : List Key} (made : Made target .host path none doc doc')
    {section_ : Key} (leads : ["host", target, section_] <+: path) :
    Made target .host path none doc (prune doc' target section_) where
  kept := made.kept.trans ((prune_kept doc' target section_).mono (fun _ never => never.elim)
    fun _ inside => ⟨rfl, inside.trans leads⟩)
  keyed := prune_keyed target section_ made.keyed
  value := by rw [(prune_kept doc' target section_).values path (fun never => never), made.value]
  confined host := (made.confined host).trans (prune_confined doc' target section_)

theorem applyChange_made {change : Change} (keyed : doc.Keyed)
    (done : applyChange fmt target doc change = .ok doc') :
    Made target change.level (change.path target) (change.value fmt) doc doc' := by
  cases change with
  | write level i v =>
      simp only [applyChange] at done
      cases written : sectionIn fmt doc target level i true
          (fun entries => entries.insert (setting i).name (toToml fmt v)) with
      | error why =>
          rw [written] at done
          cases done
      | ok result =>
          cases result with
          | none => exact absurd written (sectionIn_create fmt doc target level i _)
          | some changed =>
              rw [written] at done
              cases done
              exact sectionIn_some (setsName_insert _ (toToml_not_table v)) keyed written
  | remove level i =>
      simp only [applyChange] at done
      cases removed : sectionIn fmt doc target level i false
          (fun entries => entries.remove (setting i).name) with
      | error why =>
          rw [removed] at done
          cases done
      | ok result =>
          rw [removed] at done
          cases result with
          | none =>
              cases done
              exact ⟨.refl doc, keyed, sectionIn_none removed, fun _ => .refl target doc⟩
          | some changed =>
              have made := sectionIn_some (setsName_remove _) keyed removed
              cases level with
              | global =>
                  cases done
                  exact made
              | host =>
                  cases done
                  exact made.prune (List.prefix_append _ _)

end Changes

section Runs
variable {fmt : Formats} {target : Key} {doc doc' : Entries}

theorem rowPath_prefix {i j : Row} {level level' : Level}
    (inside : rowPath target i level <+: rowPath target j level') : i = j ∧ level = level' := by
  have apart := section_ne_host
  cases level <;> cases level' <;>
    simp only [rowPath, List.cons_prefix_cons, List.nil_prefix, and_true, true_and,
      List.prefix_nil, reduceCtorEq, and_false] at inside
  · have same : indexOf (setting i).section_ (setting i).name =
        indexOf (setting j).section_ (setting j).name := by rw [inside.1, inside.2]
    rw [indexOf_setting, indexOf_setting] at same
    exact ⟨Option.some.inj same, rfl⟩
  · exact absurd inside.1 (apart i)
  · have same : indexOf (setting i).section_ (setting i).name =
        indexOf (setting j).section_ (setting j).name := by rw [inside.1, inside.2]
    rw [indexOf_setting, indexOf_setting] at same
    exact ⟨Option.some.inj same, rfl⟩

/-- What the changes leave at a row's path: what the last one for it sets. -/
def outcome (fmt : Formats) (i : Row) (level : Level) : List Change → Option Toml → Option Toml
  | [], before => before
  | change :: rest, before =>
      outcome fmt i level rest
        (if change.row = i ∧ change.level = level then change.value fmt else before)

theorem outcome_append (i : Row) (level : Level) (first second : List Change)
    (before : Option Toml) : outcome fmt i level (first ++ second) before =
      outcome fmt i level second (outcome fmt i level first before) := by
  induction first generalizing before with
  | nil => rfl
  | cons change rest ih => exact ih _

theorem outcome_other {i : Row} {level : Level} {changes : List Change}
    (others : ∀ change ∈ changes, change.row ≠ i) (before : Option Toml) :
    outcome fmt i level changes before = before := by
  induction changes generalizing before with
  | nil => rfl
  | cons change rest ih =>
      have other := others change List.mem_cons_self
      rw [outcome, if_neg fun own => other own.1]
      exact ih (fun change member => others change (List.mem_cons_of_mem _ member)) before

theorem applyChanges_made {changes : List Change} {edited emptied : List Key → Prop}
    (keyed : doc.Keyed)
    (within : ∀ change ∈ changes, ∀ path, change.path target <+: path → edited path)
    (leads : ∀ change ∈ changes, change.level = .host → ∀ path, path <+: change.path target →
      emptied path)
    (done : applyChanges fmt target changes doc = .ok doc') :
    Entries.Kept edited emptied doc doc' ∧ doc'.Keyed ∧
      ((∀ change ∈ changes, change.level = .host) → Confined target doc doc') ∧
      ∀ i level, doc'.leaf (rowPath target i level) =
        outcome fmt i level changes (doc.leaf (rowPath target i level)) := by
  induction changes generalizing doc with
  | nil =>
      obtain rfl := Except.ok.inj done
      exact ⟨.refl doc, keyed, fun _ => .refl target doc, fun _ _ => rfl⟩
  | cons change rest ih =>
      simp only [applyChanges] at done
      cases first : applyChange fmt target doc change with
      | error why =>
          rw [first] at done
          cases done
      | ok middle =>
          rw [first] at done
          have made := applyChange_made keyed first
          obtain ⟨kept, keyed', confined, leaves⟩ := ih made.keyed
            (fun change member => within change (List.mem_cons_of_mem _ member))
            (fun change member => leads change (List.mem_cons_of_mem _ member)) done
          refine ⟨?_, keyed', fun hosts => ?_, fun i level => ?_⟩
          · exact (made.kept.mono (within change List.mem_cons_self)
              fun path inside => leads change List.mem_cons_self inside.1 path inside.2).trans kept
          · exact (made.confined (hosts change List.mem_cons_self)).trans
              (confined fun change member => hosts change (List.mem_cons_of_mem _ member))
          · rw [leaves, outcome]
            by_cases own : change.row = i ∧ change.level = level
            · obtain ⟨rfl, rfl⟩ := own
              rw [if_pos ⟨rfl, rfl⟩]
              exact congrArg _ made.value
            · rw [if_neg own, made.kept.values]
              intro inside
              obtain ⟨row, level⟩ := rowPath_prefix inside
              exact own ⟨row, level⟩

theorem changesOf_row {level : Level} {i : Row} {edit : Edit} :
    ∀ change ∈ changesOf level i edit, change.row = i := by
  intro change member
  cases edit with
  | set v =>
      cases level with
      | global =>
          simp only [changesOf, List.mem_cons, List.not_mem_nil, or_false] at member
          rcases member with rfl | rfl
          · rfl
          · rfl
      | host =>
          obtain rfl := List.mem_singleton.mp member
          rfl
  | remove removed =>
      cases removed with
      | host =>
          obtain rfl := List.mem_singleton.mp member
          rfl
      | global =>
          cases level with
          | global | host =>
              obtain rfl := List.mem_singleton.mp member
              rfl

theorem changesOf_host {i : Row} {edit : Edit} :
    ∀ change ∈ changesOf .host i edit, change.level = .host := by
  intro change member
  cases edit with
  | set v =>
      obtain rfl := List.mem_singleton.mp member
      rfl
  | remove removed =>
      cases removed with
      | host | global =>
          obtain rfl := List.mem_singleton.mp member
          rfl

def rowChanges (level : Level) (pending : Pending) (i : Row) : List Change :=
  match pending i with
  | some edit => changesOf level i edit
  | none => []

theorem mem_changes {level : Level} {pending : Pending} {change : Change} :
    change ∈ changes level pending ↔ ∃ i edit, pending i = some edit ∧
      change ∈ changesOf level i edit := by
  simp only [changes, List.mem_flatMap, List.mem_finRange, true_and]
  refine exists_congr fun i => ?_
  cases pending i with
  | none => simp
  | some edit => simp

theorem outcome_changes (level : Level) (pending : Pending) (i : Row) (at_ : Level)
    (before : Option Toml) :
    outcome fmt i at_ (changes level pending) before =
      outcome fmt i at_ (rowChanges level pending i) before := by
  have own : ∀ j, ∀ change ∈ rowChanges level pending j, change.row = j := by
    intro j change member
    simp only [rowChanges] at member
    cases edit : pending j with
    | none => simp [edit] at member
    | some edit_ =>
        rw [edit] at member
        exact changesOf_row change member
  have split : ∀ rows : List Row, rows.Nodup → i ∈ rows → ∀ before,
      outcome fmt i at_ (rows.flatMap (rowChanges level pending)) before =
        outcome fmt i at_ (rowChanges level pending i) before := by
    intro rows nodup member
    induction rows with
    | nil => cases member
    | cons j rest ih =>
        intro before
        rw [List.nodup_cons] at nodup
        rw [List.flatMap_cons, outcome_append]
        by_cases here : j = i
        · subst here
          refine outcome_other (fun change member => ?_) _
          obtain ⟨k, inRest, there⟩ := List.mem_flatMap.mp member
          rw [own k change there]
          rintro rfl
          exact nodup.1 inRest
        · have later := (List.mem_cons.mp member).resolve_left fun same => here same.symm
          have others : ∀ change ∈ rowChanges level pending j, change.row ≠ i := by
            intro change there
            rw [own j change there]
            exact here
          rw [outcome_other others]
          exact ih nodup.2 later before
  exact split (List.finRange 13) (List.nodup_finRange 13) (List.mem_finRange i) before

end Runs

/-- What toml_edit prints of the document is parsed to one that holds the same. -/
def TomlEdit.Faithful (toml : TomlEdit) (doc : Entries) : Prop :=
  ∃ again, toml.parse (toml.print doc) = .ok again ∧ again.Keyed ∧
    ∀ path, again.leaf path = doc.leaf path

section Edits
variable (fmt : Formats)

/-- What the screen may do to the pending edits. -/
inductive EditEvent where
  | set (i : Row) (value : Value)
  | reset (i : Row)

def ConfigState.edit (c : ConfigState) : EditEvent → Option ConfigState
  | .set i value => some (c.set i value).1
  | .reset i => some (c.reset i).1

/-- A value is set once it has passed the check of its row. -/
def Checked (_ : ConfigState) : EditEvent → Prop
  | .set i value => Allowed fmt (setting i).shape value
  | .reset _ => True

variable {fmt}

/-- What a pending edit of a row can be. -/
def Edit.Fits (fmt : Formats) (i : Row) (l : KeyLayers) : Edit → Prop
  | .set value => Allowed fmt (setting i).shape value
  | .remove level => l.winner.1.level = some level

def Sensible (fmt : Formats) (c : ConfigState) : Prop :=
  ∀ i edit, c.pending i = some edit → edit.Fits fmt i (c.layers i)

/-- The edits stay sensible, over the same layers of the same target. -/
structure Editing (fmt : Formats) (start c : ConfigState) : Prop where
  dir : c.dir = start.dir
  target : c.target = start.target
  layers : c.layers = start.layers
  sensible : Sensible fmt c

theorem Editing.commit {start c : ConfigState} (editing : Editing fmt start c) {i : Row}
    {next : Option Edit}
    (own : ∀ edit, next = some edit → edit.Fits fmt i (c.layers i)) :
    Editing fmt start (c.commit i (Function.update c.pending i next)).1 := by
  rcases ConfigState.commit_cases c i (Function.update c.pending i next) with
    refused | ⟨s, done, -, -⟩
  · rw [refused]
    exact editing
  · rw [done]
    refine ⟨editing.dir, editing.target, editing.layers, fun j edit found => ?_⟩
    by_cases same : j = i
    · subst same
      simp only [Function.update_self] at found
      exact own edit found
    · simp only [Function.update_of_ne same] at found
      exact editing.sensible j edit found

theorem Editing.edit {start c c' : ConfigState} {e : EditEvent} (editing : Editing fmt start c)
    (checked : Checked fmt c e) (taken : c.edit e = some c') : Editing fmt start c' := by
  cases e with
  | set i value =>
      cases taken
      simp only [ConfigState.set]
      split
      · exact editing.commit fun edit none_ => by cases none_
      · refine editing.commit fun edit same => ?_
        cases same
        exact checked
  | reset i =>
      cases taken
      simp only [ConfigState.reset]
      split
      · exact editing.commit fun edit none_ => by cases none_
      · split
        · exact editing
        · next level won =>
            refine editing.commit fun edit same => ?_
            cases same
            exact won

end Edits

section Saved
variable {fmt : Formats} {toml : TomlEdit} {target : Key}

/-- The document in the file; a missing file is an empty one. -/
def opened (toml : TomlEdit) : Option Text → Except Text Entries
  | none => .ok []
  | some text => toml.parse text

/-- What `read_document` makes of a document. -/
def layersOf (fmt : Formats) (target : Key) (doc : Entries) : Layers :=
  (readDocument fmt target doc (Layers.defaults, [])).1

/-- At or below a place where an edited row of this target is written. -/
def EditedPath (target : Key) (pending : Pending) (path : List Key) : Prop :=
  ∃ i level, pending i ≠ none ∧ rowPath target i level <+: path

/-- On the way to the place of an edited row in this target's own table. -/
def LeadsToEdit (target : Key) (pending : Pending) (path : List Key) : Prop :=
  ∃ i, pending i ≠ none ∧ path <+: rowPath target i .host

/-- What a save that succeeded has done to the document. -/
structure Written (fmt : Formats) (toml : TomlEdit) (level : Level) (c : ConfigState)
    (before after : Entries) : Prop where
  /-- Every edited row reads as the screen showed it. -/
  shown : ∀ i edit, c.pending i = some edit →
    (layersOf fmt c.target after i).winner.2 = (shownWith (c.layers i) (some edit)).2
  /-- Every other key is as it was, in every table. -/
  others : ∀ path, ¬ EditedPath c.target c.pending path → after.leaf path = before.leaf path
  /-- The other rows read as before, for this target and for any other. -/
  rows : ∀ target i, c.pending i = none → layersOf fmt target after i = layersOf fmt target before i
  /-- Another target's own values read as before in every row. -/
  hosts : ∀ target, target ≠ c.target → ∀ i,
    (layersOf fmt target after i).host = (layersOf fmt target before i).host
  /-- For this host only: nothing outside its table changes. -/
  confined : level = .host → Confined c.target before after
  /-- A table goes only if it leads to an edited row of this target and held nothing
  but edited rows and tables that go with it. -/
  tables : ∀ path, ¬ EditedPath c.target c.pending path → before.IsTable path →
    after.IsTable path ∨
      Entries.Spent (EditedPath c.target c.pending) (LeadsToEdit c.target c.pending) before path
  /-- The text in the file is read back so. -/
  again : ∃ doc, toml.parse (toml.print after) = .ok doc ∧
    layersOf fmt c.target doc = layersOf fmt c.target after ∧ ∀ path, doc.leaf path = after.leaf path

theorem layersOf_congr {doc doc' : Entries} (keyed : doc.Keyed) (keyed' : doc'.Keyed)
    (target : Key) (i : Row)
    (same : ∀ level, doc'.leaf (rowPath target i level) = doc.leaf (rowPath target i level)) :
    layersOf fmt target doc' i = layersOf fmt target doc i := by
  rw [layersOf, layersOf, readDocument_layers keyed', readDocument_layers keyed, same, same]

/-- What the layers say once a row's edit has been saved is what was shown. -/
theorem winner_saved (faithful : fmt.Faithful) (target : Key) (level : Level) (i : Row)
    {edit : Edit} {doc doc' : Entries} (keyed : doc.Keyed) (keyed' : doc'.Keyed)
    (leaves : ∀ at_, doc'.leaf (rowPath target i at_) =
      outcome fmt i at_ (changesOf level i edit) (doc.leaf (rowPath target i at_)))
    (sensible : edit.Fits fmt i (layersOf fmt target doc i)) :
    (layersOf fmt target doc' i).winner.2 =
      (shownWith (layersOf fmt target doc i) (some edit)).2 := by
  have reads : ∀ v, Allowed fmt (setting i).shape v →
      readAt fmt i (some (toToml fmt v)) = some v := by
    intro v allowed
    simp only [readAt, Option.bind_some, parseItem_toToml faithful (setting_signed i) allowed]
    rfl
  have absent : readAt fmt i none = none := rfl
  have global := leaves .global
  have host := leaves .host
  rw [layersOf, readDocument_layers keyed', global, host]
  rw [layersOf, readDocument_layers keyed] at sensible ⊢
  cases edit with
  | set v =>
      cases level with
      | global =>
          simp [changesOf, outcome, Change.row, Change.level, Change.value, reads v sensible,
            absent, KeyLayers.winner, shownWith]
      | host =>
          simp [changesOf, outcome, Change.row, Change.level, Change.value, reads v sensible,
            KeyLayers.winner, shownWith]
  | remove removed =>
      cases removed with
      | host =>
          simp only [changesOf, outcome, Change.row, Change.level, Change.value, and_true, if_true,
            reduceCtorEq, and_false, if_false, absent, shownWith, KeyLayers.winner,
            KeyLayers.without]
          cases readAt fmt i (doc.leaf (rowPath target i .global)) <;> rfl
      | global =>
          -- The row came from the global layer, so this host had no value of its own.
          have none_ : readAt fmt i (doc.leaf (rowPath target i .host)) = none := by
            cases own : readAt fmt i (doc.leaf (rowPath target i .host)) with
            | none => rfl
            | some v => simp [own, Edit.Fits, KeyLayers.winner, Origin.level] at sensible
          cases level with
          | global =>
              simp [changesOf, outcome, Change.row, Change.level, Change.value, absent, none_,
                shownWith, KeyLayers.winner, KeyLayers.without]
          | host =>
              simp [changesOf, outcome, Change.row, Change.level, Change.value, none_, shownWith,
                KeyLayers.winner, KeyLayers.without, reads _ (defaultValue_allowed i)]

theorem applyChanges_written (jiff : fmt.Faithful) {c : ConfigState} {doc doc' : Entries}
    (faithful : toml.Faithful doc') (keyed : doc.Keyed) (layers : c.layers = layersOf fmt c.target doc)
    (sensible : Sensible fmt c) {level : Level}
    (done : applyChanges fmt c.target (changes level c.pending) doc = .ok doc') :
    Written fmt toml level c doc doc' := by
  have within : ∀ change ∈ changes level c.pending, ∀ path,
      change.path c.target <+: path → EditedPath c.target c.pending path := by
    intro change member path inside
    obtain ⟨i, edit, found, there⟩ := mem_changes.mp member
    refine ⟨change.row, change.level, ?_, inside⟩
    rw [changesOf_row change there, found]
    exact Option.some_ne_none edit
  have leads : ∀ change ∈ changes level c.pending, change.level = .host → ∀ path,
      path <+: change.path c.target → LeadsToEdit c.target c.pending path := by
    intro change member host path inside
    obtain ⟨i, edit, found, there⟩ := mem_changes.mp member
    refine ⟨change.row, ?_, ?_⟩
    · rw [changesOf_row change there, found]
      exact Option.some_ne_none edit
    · rwa [← host]
  obtain ⟨kept, keyed', confined, leaves⟩ := applyChanges_made keyed within leads done
  have unedited : ∀ target i at_, (c.pending i = none ∨ (target ≠ c.target ∧ at_ = .host)) →
      ¬ EditedPath c.target c.pending (rowPath target i at_) := by
    rintro target i at_ other ⟨j, level, edited, inside⟩
    by_cases same : target = c.target
    · subst same
      obtain ⟨rfl, -⟩ := rowPath_prefix inside
      rcases other with none_ | ⟨differs, -⟩
      · exact edited none_
      · exact differs rfl
    · have apart := section_ne_host
      cases level <;> cases at_ <;>
        simp only [rowPath, List.cons_prefix_cons, List.nil_prefix, and_true, true_and,
          List.prefix_nil, reduceCtorEq, and_false] at inside
      · have row : indexOf (setting j).section_ (setting j).name =
            indexOf (setting i).section_ (setting i).name := by rw [inside.1, inside.2]
        rw [indexOf_setting, indexOf_setting] at row
        obtain rfl := Option.some.inj row
        rcases other with none_ | ⟨-, host⟩
        · exact edited none_
        · cases host
      · exact apart j inside.1
      · exact same inside.1.symm
  refine ⟨fun i edit found => ?_, kept.values, fun target i none_ => ?_,
    fun target differs i => ?_, fun host => ?_, kept.tables, ?_⟩
  · rw [layers]
    refine winner_saved jiff c.target level i keyed keyed' (fun at_ => ?_) ?_
    · rw [leaves, outcome_changes, rowChanges, found]
    · have own := sensible i edit found
      rwa [layers] at own
  · exact layersOf_congr keyed keyed' target i fun at_ =>
      kept.values _ (unedited target i at_ (Or.inl none_))
  · rw [layersOf, layersOf, readDocument_layers keyed', readDocument_layers keyed]
    exact congrArg (readAt fmt i) (kept.values _ (unedited target i .host (Or.inr ⟨differs, rfl⟩)))
  · refine confined fun change member => ?_
    obtain ⟨i, edit, -, there⟩ := mem_changes.mp member
    subst host
    exact changesOf_host change there
  · obtain ⟨again, parsed, keyedAgain, same⟩ := faithful
    refine ⟨again, parsed, ?_, same⟩
    funext i
    exact layersOf_congr keyed' keyedAgain c.target i fun at_ => same _

/-- A save fails with nothing changed, or the text it wrote is in the file. -/
theorem ConfigState.save_cases (fmt : Formats) (toml : TomlEdit) (c : ConfigState)
    (file : Option Text) (reading writing : Except Text Unit) (level : Level) :
    (∃ why, c.save fmt toml file reading writing level = (c, file, .error why)) ∨
      ∃ text r, Config.save fmt toml file reading writing c.target level c.pending = .ok text ∧
        c.save fmt toml file reading writing level =
          ({ c with
              layers := (resolve fmt toml (some text) c.target).layers
              warnings := (resolve fmt toml (some text) c.target).warnings.length
              pending := Pending.new }, some text, .ok r) := by
  simp only [ConfigState.save]
  split
  · exact Or.inl ⟨_, rfl⟩
  · split
    · exact Or.inl ⟨_, rfl⟩
    · split
      · exact Or.inl ⟨_, rfl⟩
      · next text saved => exact Or.inr ⟨text, _, saved, rfl⟩

/-- The text written is the file's document with the changes made. -/
theorem save_ok {file : Option Text} {doc : Entries} (parsed : opened toml file = .ok doc)
    {reading writing : Except Text Unit} {level : Level} {pending : Pending} {text : Text}
    (saved : Config.save fmt toml file reading writing target level pending = .ok text) :
    ∃ doc', applyChanges fmt target (changes level pending) doc = .ok doc' ∧
      text = toml.print doc' := by
  have made : ∀ doc, (do
      let doc ← applyChanges fmt target (changes level pending) doc
      writing
      pure (toml.print doc) : Except Text Text) = .ok text →
      ∃ doc', applyChanges fmt target (changes level pending) doc = .ok doc' ∧
        text = toml.print doc' := by
    intro doc made
    cases applied : applyChanges fmt target (changes level pending) doc with
    | error why =>
        rw [applied] at made
        cases made
    | ok doc' =>
        rw [applied] at made
        cases writing with
        | error why => cases made
        | ok _ =>
            cases made
            exact ⟨doc', rfl, rfl⟩
  cases reading with
  | error why => cases saved
  | ok _ =>
      cases file with
      | none =>
          obtain rfl := Except.ok.inj parsed
          exact made [] saved
      | some text =>
          have same : toml.parse text = .ok doc := parsed
          simp only [Config.save, same] at saved
          exact made doc saved

/-- A save that succeeds has written exactly the edits the screen showed, at the
level it was asked for; one that fails has changed nothing. -/
theorem save_writes_exactly_the_edits (toml : TomlEdit) (jiff : fmt.Faithful)
    (file : Option Text) {doc : Entries} (parsed : opened toml file = .ok doc) (keyed : doc.Keyed) {start c : ConfigState} (fresh : start.pending = Pending.new)
    (read : start.layers = layersOf fmt start.target doc)
    (edits : Reaches ConfigState.edit (Checked fmt) start c)
    (reading writing : Except Text Unit) (level : Level)
    (faithful : ∀ doc', applyChanges fmt c.target (changes level c.pending) doc = .ok doc' →
      toml.Faithful doc') :
    (∀ c' file' warnings, c.save fmt toml file reading writing level = (c', file', .ok warnings) →
        ∃ doc', file' = some (toml.print doc') ∧ Written fmt toml level c doc doc') ∧
      ∀ c' file' why, c.save fmt toml file reading writing level = (c', file', .error why) →
        c' = c ∧ file' = file := by
  have editing : Editing fmt start c := by
    refine edits.invariant (fun _ _ _ editing checked taken => editing.edit checked taken) ?_
    refine ⟨rfl, rfl, rfl, fun i edit found => ?_⟩
    rw [fresh] at found
    cases found
  have layers : c.layers = layersOf fmt c.target doc := by
    rw [editing.layers, editing.target, read]
  rcases ConfigState.save_cases fmt toml c file reading writing level with
    ⟨why, failed⟩ | ⟨text, warnings, saved, done⟩
  · rw [failed]
    refine ⟨fun c' file' warnings same => (by cases same), fun c' file' why same => ?_⟩
    cases same
    exact ⟨rfl, rfl⟩
  · rw [done]
    refine ⟨fun c' file' warnings same => ?_, fun c' file' why same => by cases same⟩
    obtain ⟨doc', applied, rfl⟩ := save_ok parsed saved
    cases same
    exact ⟨doc', rfl, applyChanges_written jiff (faithful doc' applied) keyed layers
      editing.sensible applied⟩

theorem plainFormats_faithful : plainFormats.Faithful := by
  intro d _
  have digit : ∀ n ∈ Nat.digits 10 d, (Char.ofNat (48 + n)).toNat - 48 = n := by
    intro n member
    have small := Nat.digits_lt_base (by decide : 1 < 10) member
    interval_cases n <;> rfl
  have read : ((Nat.digits 10 d).map fun n => (Char.ofNat (48 + n)).toNat - 48) =
      Nat.digits 10 d := by
    rw [List.map_congr_left digit, List.map_id']
  constructor
  · simp [plainFormats, List.map_reverse, Function.comp_def, read, Nat.ofDigits_digits]
  · intro same
    have last := congrArg List.getLast? same
    simp [plainFormats] at last

/-- A file that has the standby off for every host, and what it looks like with
the standby on for the host `t`. -/
def standbyOff : Text := "[network]\nstandby = false\n".toList

def standbyOn : Text :=
  "[network]\nstandby = false\n\n[host.t]\nnetwork.standby = true\n".toList

def standbyOffDoc : Entries := [("network", .table .header [("standby", .bool false)])]

def standbyOnDoc : Entries :=
  [("network", .table .header [("standby", .bool false)]),
    ("host", .table .implicit
      [("t", .table .header [("network", .table .dotted [("standby", .bool true)])])])]

def standbyToml : TomlEdit where
  parse text :=
    if text = standbyOff then .ok standbyOffDoc
    else if text = standbyOn then .ok standbyOnDoc
    else .error "line 1: not read".toList
  print _ := standbyOn

def standbyRow : Row := 7

def standbyStart : ConfigState where
  dir := some "/home/u/.config/oxutrm".toList
  target := "t"
  layers := layersOf plainFormats "t" standbyOffDoc
  warnings := 0
  pending := Pending.new
  applied := {}

theorem save_writes_exactly_the_edits_standby :
    let c := (standbyStart.set standbyRow (.bool true)).1
    ∃ doc', (c.save plainFormats standbyToml (some standbyOff) (.ok ()) (.ok ()) .host).2.1 =
        some (standbyToml.print doc') ∧
      Written plainFormats standbyToml .host c standbyOffDoc doc' := by
  intro c
  have keyedOff : standbyOffDoc.Keyed := by
    refine Entries.Keyed.insert_table Entries.keyed_nil ?_
    exact Entries.Keyed.insert_value Entries.keyed_nil rfl
  have keyedOn : standbyOnDoc.Keyed := by
    change (Entries.insert standbyOffDoc "host" (.table .implicit
      [("t", .table .header [("network", .table .dotted [("standby", .bool true)])])])).Keyed
    refine Entries.Keyed.insert_table keyedOff ?_
    refine Entries.Keyed.insert_table Entries.keyed_nil ?_
    refine Entries.Keyed.insert_table Entries.keyed_nil ?_
    exact Entries.Keyed.insert_value Entries.keyed_nil rfl
  have edits : Reaches ConfigState.edit (Checked plainFormats) standbyStart c :=
    Reaches.single (.set standbyRow (.bool true)) trivial rfl
  have written : applyChanges plainFormats c.target (changes .host c.pending) standbyOffDoc =
      .ok standbyOnDoc := by rfl
  have result := save_writes_exactly_the_edits standbyToml plainFormats_faithful
    (some standbyOff) rfl keyedOff rfl rfl edits (.ok ()) (.ok ()) .host (fun doc' made => by
      obtain rfl := Except.ok.inj (written.symm.trans made)
      exact ⟨standbyOnDoc, rfl, keyedOn, fun _ => rfl⟩)
  obtain ⟨warnings, saved⟩ : ∃ warnings,
      (c.save plainFormats standbyToml (some standbyOff) (.ok ()) (.ok ()) .host).2.2 =
        .ok warnings := ⟨_, rfl⟩
  exact result.1 _ _ warnings (by rw [← saved])

end Saved
end Oxutrm.Config
