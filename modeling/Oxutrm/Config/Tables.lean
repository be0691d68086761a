import Oxutrm.Config.Toml

/-!
What changes in a document when one of its tables does. A change is followed by
the paths it may touch: everywhere else the values stay, and a table goes only
when nothing was left in it.
-/
namespace Oxutrm.Config
namespace Entries

section Find
variable {entries inner : Entries} {key other : Key} {kind : TableKind}

theorem find_cons_of_table (found : entries.get key = some (.table kind inner)) (k : Key)
    (path : List Key) : entries.find (key :: k :: path) = inner.find (k :: path) := by
  simp only [find, found, Toml.asTableLike]

theorem find_singleton (entries : Entries) (key : Key) : entries.find [key] = entries.get key := by
  simp only [find]
  cases entries.get key <;> rfl

/-- Only the first key of a path decides what a change of one entry does to it. -/
theorem find_cons_congr {left right : Entries} (same : left.get key = right.get key)
    (path : List Key) : left.find (key :: path) = right.find (key :: path) := by
  simp only [find, same]

def IsTable (entries : Entries) (path : List Key) : Prop :=
  ∃ kind inner, entries.find path = some (.table kind inner)

theorem isTable_nil (entries : Entries) : entries.IsTable [] := ⟨.header, entries, rfl⟩

theorem isTable_cons_of_table (found : entries.get key = some (.table kind inner))
    (path : List Key) : entries.IsTable (key :: path) ↔ inner.IsTable path := by
  cases path with
  | nil =>
      refine ⟨fun _ => isTable_nil inner, fun _ => ⟨kind, inner, ?_⟩⟩
      rw [find_singleton, found]
  | cons k path => simp only [IsTable, find_cons_of_table found]

@[simp] theorem leaf_nil_path (entries : Entries) : entries.leaf [] = none := by
  simp [leaf, find, Toml.asTableLike]

theorem leaf_cons_of_table (found : entries.get key = some (.table kind inner))
    (path : List Key) : entries.leaf (key :: path) = inner.leaf path := by
  cases path with
  | nil =>
      rw [leaf_nil_path, leaf, find_singleton, found]
      rfl
  | cons k path => simp only [leaf, find_cons_of_table found]

theorem leaf_cons_of_none (missing : entries.get key = none) (path : List Key) :
    entries.leaf (key :: path) = none := by
  simp only [leaf, find, missing, Option.filter_none]

@[simp] theorem leaf_empty (path : List Key) : leaf [] path = none := by
  cases path with
  | nil => exact leaf_nil_path []
  | cons key path => exact leaf_cons_of_none rfl path

theorem leaf_or_isTable {path : List Key} (present : (entries.find path).isSome) :
    (entries.leaf path).isSome ∨ entries.IsTable path := by
  obtain ⟨item, found⟩ := Option.isSome_iff_exists.mp present
  cases item with
  | table kind inner => exact Or.inr ⟨kind, inner, found⟩
  | str | bool | integer | float | datetime | array | tables =>
      left
      simp [leaf, found, Toml.asTableLike]

theorem not_isTable_of_leaf {path : List Key} (value : (entries.leaf path).isSome) :
    ¬ entries.IsTable path := by
  rintro ⟨kind, inner, found⟩
  simp [leaf, found, Toml.asTableLike] at value

theorem find_of_leaf {path : List Key} (value : (entries.leaf path).isSome) :
    (entries.find path).isSome := by
  cases found : entries.find path with
  | none => simp [leaf, found] at value
  | some item => rfl

end Find

section Spent
variable (edited emptied : List Key → Prop)

/-- A table that may be emptied, with nothing in it but what was edited and such
tables. -/
inductive Spent (entries : Entries) : List Key → Prop
  | edited {path : List Key} (here : edited path) : Spent entries path
  | empty {path : List Key} (table : entries.IsTable path) (leads : emptied path)
      (below : ∀ key, (entries.find (path ++ [key])).isSome → Spent entries (path ++ [key])) :
      Spent entries path

/-- From `before` to `after`, values changed only where they were edited, and
only spent tables are gone. -/
structure Kept (before after : Entries) : Prop where
  values : ∀ path, ¬ edited path → after.leaf path = before.leaf path
  tables : ∀ path, ¬ edited path → before.IsTable path → after.IsTable path ∨
    Spent edited emptied before path

variable {edited emptied}

theorem Kept.refl (entries : Entries) : Kept edited emptied entries entries where
  values _ _ := rfl
  tables _ _ table := Or.inl table

theorem Spent.mono {edited' emptied' : List Key → Prop} {entries : Entries} {path : List Key}
    (spent : Spent edited emptied entries path) (more : ∀ path, edited path → edited' path)
    (wider : ∀ path, emptied path → emptied' path) : Spent edited' emptied' entries path := by
  induction spent with
  | edited here => exact .edited (more _ here)
  | empty table leads _ ih => exact .empty table (wider _ leads) ih

theorem Kept.mono {edited' emptied' : List Key → Prop} {before after : Entries}
    (kept : Kept edited emptied before after) (more : ∀ path, edited path → edited' path)
    (wider : ∀ path, emptied path → emptied' path) : Kept edited' emptied' before after where
  values path unedited := kept.values path fun here => unedited (more path here)
  tables path unedited table :=
    (kept.tables path (fun here => unedited (more path here)) table).imp_right
      fun spent => spent.mono more wider

/-- What was spent after a change that kept the rest was spent before it. -/
theorem Spent.before {before after : Entries} (kept : Kept edited emptied before after)
    {path : List Key} (spent : Spent edited emptied after path)
    (table : ¬ edited path → before.IsTable path) : Spent edited emptied before path := by
  induction spent with
  | edited here => exact .edited here
  | @empty path there leads below ih =>
      by_cases here : edited path
      · exact .edited here
      refine .empty (table here) leads fun key present => ?_
      by_cases changed : edited (path ++ [key])
      · exact .edited changed
      rcases leaf_or_isTable present with value | inner
      · -- A value that is not edited is still there, so its table was not spent.
        exfalso
        have still : (after.leaf (path ++ [key])).isSome := by
          rw [kept.values _ changed]
          exact value
        cases below key (find_of_leaf still) with
        | edited here => exact changed here
        | empty inner _ _ => exact not_isTable_of_leaf still inner
      · rcases kept.tables _ changed inner with still | spent
        · obtain ⟨kind, entries, found⟩ := still
          exact ih key (Option.isSome_iff_exists.mpr ⟨_, found⟩) fun _ => inner
        · exact spent

theorem Kept.trans {a b c : Entries} (first : Kept edited emptied a b)
    (second : Kept edited emptied b c) : Kept edited emptied a c where
  values path unedited := (second.values path unedited).trans (first.values path unedited)
  tables path unedited table := by
    rcases first.tables path unedited table with still | spent
    · exact (second.tables path unedited still).imp_right fun spent =>
        spent.before first fun _ => table
    · exact Or.inr spent

end Spent

section Steps
variable {edited emptied : List Key → Prop} {before after inner inner' : Entries} {key : Key}
  {kind kind' : TableKind}

/-- Outside one entry nothing changed. -/
def SameBut (key : Key) (before after : Entries) : Prop :=
  ∀ other, other ≠ key → after.get other = before.get other

theorem sameBut_insert (entries : Entries) (key : Key) (item : Toml) :
    SameBut key entries (entries.insert key item) := fun _ differs => get_insert_of_ne differs

theorem sameBut_remove (entries : Entries) (key : Key) :
    SameBut key entries (entries.remove key) := fun _ differs => get_remove_of_ne differs

theorem SameBut.leaf (same : SameBut key before after) {other : Key} (differs : other ≠ key)
    (path : List Key) : after.leaf (other :: path) = before.leaf (other :: path) := by
  simp only [Entries.leaf, find_cons_congr (same other differs)]

theorem SameBut.isTable (same : SameBut key before after) {other : Key} (differs : other ≠ key)
    (path : List Key) : after.IsTable (other :: path) ↔ before.IsTable (other :: path) := by
  simp only [IsTable, find_cons_congr (same other differs)]

/-- A change of one entry keeps the rest, if it keeps what is in the entry. -/
theorem Kept.of_entry (same : SameBut key before after)
    (values : ∀ path, ¬ edited (key :: path) → after.leaf (key :: path) = before.leaf (key :: path))
    (tables : ∀ path, ¬ edited (key :: path) → before.IsTable (key :: path) →
      after.IsTable (key :: path) ∨ Spent edited emptied before (key :: path)) :
    Kept edited emptied before after where
  values path unedited := by
    cases path with
    | nil => rw [leaf_nil_path, leaf_nil_path]
    | cons k path =>
        by_cases here : k = key
        · subst here
          exact values path unedited
        · exact same.leaf here path
  tables path unedited table := by
    cases path with
    | nil => exact Or.inl (isTable_nil after)
    | cons k path =>
        by_cases here : k = key
        · subst here
          exact tables path unedited table
        · exact Or.inl ((same.isTable here path).mpr table)

theorem Kept.of_sameBut (same : SameBut key before after) :
    Kept (fun path => [key] <+: path) emptied before after := by
  have inside : ∀ path, [key] <+: key :: path := fun path => ⟨path, rfl⟩
  exact .of_entry same (fun path unedited => absurd (inside path) unedited)
    (fun path unedited => absurd (inside path) unedited)

theorem Spent.descend (found : before.get key = some (.table kind inner)) {path : List Key}
    (spent : Spent (fun path => edited (key :: path)) (fun path => emptied (key :: path)) inner path) :
    Spent edited emptied before (key :: path) := by
  induction spent with
  | edited here => exact .edited here
  | @empty path table leads below ih =>
      refine .empty ((isTable_cons_of_table found path).mpr table) leads fun k present => ?_
      refine ih k ?_
      cases path with
      | nil => rwa [List.nil_append, ← find_cons_of_table found k []]
      | cons first path => rwa [List.cons_append, ← find_cons_of_table found first (path ++ [k])]

theorem Kept.descend (same : SameBut key before after)
    (found : before.get key = some (.table kind inner))
    (found' : after.get key = some (.table kind' inner'))
    (kept : Kept (fun path => edited (key :: path)) (fun path => emptied (key :: path)) inner
      inner') : Kept edited emptied before after := by
  refine .of_entry same (fun path unedited => ?_) (fun path unedited table => ?_)
  · rw [leaf_cons_of_table found, leaf_cons_of_table found']
    exact kept.values path unedited
  · rw [isTable_cons_of_table found']
    rw [isTable_cons_of_table found] at table
    exact (kept.tables path unedited table).imp_right fun spent => spent.descend found

theorem Kept.create (same : SameBut key before after) (missing : before.get key = none)
    (found' : after.get key = some (.table kind inner'))
    (kept : Kept (fun path => edited (key :: path)) (fun path => emptied (key :: path)) [] inner') :
    Kept edited emptied before after := by
  refine .of_entry same (fun path unedited => ?_) (fun path _ table => ?_)
  · rw [leaf_cons_of_none missing, leaf_cons_of_table found', kept.values path unedited,
      leaf_empty]
  · obtain ⟨kind, entries, found⟩ := table
    simp only [find, missing, reduceCtorEq] at found

theorem Kept.drop (same : SameBut key before after)
    (found : before.get key = some (.table kind inner)) (missing : after.get key = none)
    (leads : emptied [key])
    (kept : Kept (fun path => edited (key :: path)) (fun path => emptied (key :: path)) inner []) :
    Kept edited emptied before after := by
  have gone : ∀ path, path ≠ [] → ¬ IsTable [] path := by
    rintro path nonempty ⟨kind, entries, found⟩
    cases path with
    | nil => exact nonempty rfl
    | cons k path => simp [find, get] at found
  refine .of_entry same (fun path unedited => ?_) (fun path unedited table => ?_)
  · rw [leaf_cons_of_none missing, leaf_cons_of_table found, ← kept.values path unedited,
      leaf_empty]
  · rw [isTable_cons_of_table found] at table
    refine Or.inr (Spent.descend found ?_)
    cases path with
    | cons k path =>
        exact (kept.tables _ unedited table).resolve_left (gone _ (List.cons_ne_nil k path))
    | nil =>
        refine .empty table leads fun k present => ?_
        by_cases here : edited (key :: ([] ++ [k]))
        · exact .edited here
        rcases leaf_or_isTable present with value | below
        · rw [← kept.values _ here, leaf_empty] at value
          cases value
        · exact (kept.tables _ here below).resolve_left (gone _ (List.cons_ne_nil k []))

end Steps

section Keyed

/-- No table names a key twice. -/
def Keyed (entries : Entries) : Prop :=
  ∀ path kind inner, entries.find path = some (.table kind inner) → (inner.map Prod.fst).Nodup

variable {entries inner : Entries} {key : Key} {kind : TableKind} {item : Toml}

theorem keyed_iff : entries.Keyed ↔ (entries.map Prod.fst).Nodup ∧
    ∀ key kind (inner : Entries), entries.get key = some (.table kind inner) → inner.Keyed := by
  constructor
  · intro keyed
    refine ⟨keyed [] .header entries rfl, fun key kind inner found path kind' inner' below => ?_⟩
    cases path with
    | nil =>
        obtain ⟨rfl, rfl⟩ := Toml.table.inj (Option.some.inj below)
        exact keyed [key] kind inner (by rw [find_singleton, found])
    | cons k path =>
        exact keyed (key :: k :: path) kind' inner' (by rw [find_cons_of_table found, below])
  · rintro ⟨nodup, below⟩ path kind inner found
    cases path with
    | nil =>
        obtain ⟨rfl, rfl⟩ := Toml.table.inj (Option.some.inj found)
        exact nodup
    | cons k path =>
        cases path with
        | nil =>
            rw [find_singleton] at found
            exact below k kind inner found [] .header inner rfl
        | cons k' path =>
            cases there : entries.get k with
            | none => simp [find, there] at found
            | some item =>
                cases item with
                | table kind' inner' =>
                    rw [find_cons_of_table there] at found
                    exact below k kind' inner' there (k' :: path) kind inner found
                | str | bool | integer | float | datetime | array | tables =>
                    simp [find, there, Toml.asTableLike] at found

theorem keyed_nil : Keyed [] := by
  rw [keyed_iff]
  exact ⟨List.nodup_nil, fun _ _ _ found => by cases found⟩

theorem mem_keys_insert {k : Key} (member : k ∈ (entries.insert key item).map Prod.fst) :
    k = key ∨ k ∈ entries.map Prod.fst := by
  induction entries with
  | nil => exact Or.inl (by simpa [insert] using member)
  | cons entry rest ih =>
      obtain ⟨k', old⟩ := entry
      by_cases same : k' = key
      · rw [insert, if_pos same] at member
        exact Or.inr (by simpa using member)
      · rw [insert, if_neg same, List.map_cons, List.mem_cons] at member
        rcases member with here | there
        · exact Or.inr (by simp [here])
        · exact (ih there).imp_right fun old => List.mem_cons_of_mem _ old

theorem nodup_insert (nodup : (entries.map Prod.fst).Nodup) :
    ((entries.insert key item).map Prod.fst).Nodup := by
  induction entries with
  | nil => simp [insert]
  | cons entry rest ih =>
      obtain ⟨k, old⟩ := entry
      rw [List.map_cons, List.nodup_cons] at nodup
      by_cases same : k = key
      · rw [insert, if_pos same, List.map_cons, List.nodup_cons]
        exact nodup
      · rw [insert, if_neg same, List.map_cons, List.nodup_cons]
        refine ⟨fun member => ?_, ih nodup.2⟩
        exact (mem_keys_insert member).elim same nodup.1

theorem Keyed.insert_value (keyed : entries.Keyed) (value : item.asTableLike = none) :
    (entries.insert key item).Keyed := by
  rw [keyed_iff] at keyed ⊢
  refine ⟨nodup_insert keyed.1, fun k kind inner found => ?_⟩
  by_cases same : k = key
  · subst same
    rw [get_insert_self, Option.some.injEq] at found
    rw [found] at value
    cases value
  · rw [get_insert_of_ne same] at found
    exact keyed.2 k kind inner found

theorem Keyed.insert_table (keyed : entries.Keyed) (below : inner.Keyed) :
    (entries.insert key (.table kind inner)).Keyed := by
  rw [keyed_iff] at keyed
  rw [keyed_iff]
  refine ⟨nodup_insert keyed.1, fun k kind' inner' found => ?_⟩
  by_cases same : k = key
  · subst same
    rw [get_insert_self, Option.some.injEq] at found
    obtain ⟨rfl, rfl⟩ := Toml.table.inj found
    exact below
  · rw [get_insert_of_ne same] at found
    exact keyed.2 k kind' inner' found

theorem Keyed.remove (keyed : entries.Keyed) : (entries.remove key).Keyed := by
  rw [keyed_iff] at keyed ⊢
  refine ⟨?_, fun k kind inner found => ?_⟩
  · exact keyed.1.sublist (List.filter_sublist.map Prod.fst)
  · by_cases same : k = key
    · subst same
      rw [get_remove_self] at found
      cases found
    · rw [get_remove_of_ne same] at found
      exact keyed.2 k kind inner found

end Keyed
end Entries
end Oxutrm.Config
