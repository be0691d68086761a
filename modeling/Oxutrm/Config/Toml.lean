import Mathlib.Data.List.Basic
import Oxutrm.Proto.Types

/-!
A parsed TOML document as the config code sees it: tables in the order of the
file, and the values in them. Comments and spacing are not kept; how a table is
written is.
-/
namespace Oxutrm.Config
open Proto

abbrev Key := String

/-- How a table is written. -/
inductive TableKind where
  /-- Under a header of its own. -/
  | header
  /-- Only there to hold the tables below it. -/
  | implicit
  /-- As the dotted part of its keys. -/
  | dotted
  /-- In braces, as a value. -/
  | inline
  deriving DecidableEq, Repr

inductive Toml where
  | str (text : Text)
  | bool (b : Bool)
  | integer (n : Int)
  | float (literal : Text)
  | datetime (literal : Text)
  | array (items : List Toml)
  | table (kind : TableKind) (entries : List (Key × Toml))
  | tables (items : List (List (Key × Toml)))

abbrev Entries := List (Key × Toml)

namespace Toml

/-- `as_table_like`: a table with a header, dotted or inline. -/
def asTableLike : Toml → Option Entries
  | table _ entries => some entries
  | _ => none

def asBool : Toml → Option Bool
  | bool b => some b
  | _ => none

def asStr : Toml → Option Text
  | str text => some text
  | _ => none

def asArray : Toml → Option (List Toml)
  | array items => some items
  | _ => none

end Toml

namespace Entries

def get (entries : Entries) (key : Key) : Option Toml :=
  match entries with
  | [] => none
  | (k, item) :: rest => if k = key then some item else get rest key

/-- An existing entry is replaced where it stands, a new one goes to the end. -/
def insert (entries : Entries) (key : Key) (item : Toml) : Entries :=
  match entries with
  | [] => [(key, item)]
  | (k, old) :: rest => if k = key then (k, item) :: rest else (k, old) :: insert rest key item

def remove (entries : Entries) (key : Key) : Entries := entries.filter fun entry => entry.1 ≠ key

/-- What a path of keys leads to, through tables only. -/
def find (entries : Entries) : List Key → Option Toml
  | [] => some (.table .header entries)
  | key :: path =>
      match get entries key with
      | none => none
      | some item =>
          match path, item.asTableLike with
          | [], _ => some item
          | _ :: _, some inner => find inner path
          | _ :: _, none => none

/-- The value at a path, tables not counted. -/
def leaf (entries : Entries) (path : List Key) : Option Toml :=
  (find entries path).filter fun item => item.asTableLike.isNone

section Get
variable {entries : Entries} {key other : Key} {item : Toml}

@[simp] theorem get_insert_self : (insert entries key item).get key = some item := by
  induction entries with
  | nil => simp [insert, get]
  | cons entry rest ih =>
      obtain ⟨k, old⟩ := entry
      by_cases same : k = key
      · simp [insert, get, same]
      · simp [insert, get, same, ih]

theorem get_insert_of_ne (differs : other ≠ key) :
    (insert entries key item).get other = entries.get other := by
  induction entries with
  | nil => simp [insert, get, differs.symm]
  | cons entry rest ih =>
      obtain ⟨k, old⟩ := entry
      by_cases same : k = key
      · subst same
        simp [insert, get, differs.symm]
      · by_cases here : k = other
        · subst here
          simp [insert, get, same]
        · simp [insert, get, same, here, ih]

@[simp] theorem get_remove_self : (remove entries key).get key = none := by
  induction entries with
  | nil => rfl
  | cons entry rest ih =>
      obtain ⟨k, old⟩ := entry
      simp only [remove, ne_eq, decide_not] at ih
      by_cases same : k = key
      · simp [remove, same, ih]
      · simp [remove, get, same, ih]

theorem get_remove_of_ne (differs : other ≠ key) :
    (remove entries key).get other = entries.get other := by
  induction entries with
  | nil => rfl
  | cons entry rest ih =>
      obtain ⟨k, old⟩ := entry
      simp only [remove, ne_eq, decide_not] at ih
      by_cases same : k = key
      · subst same
        simp [remove, get, differs.symm, ih]
      · simp [remove, get, same, ih]

theorem get_eq_none_iff : entries.get key = none ↔ ∀ entry ∈ entries, entry.1 ≠ key := by
  induction entries with
  | nil => simp [get]
  | cons entry rest ih =>
      obtain ⟨k, old⟩ := entry
      by_cases same : k = key
      · simp [get, same]
      · simp [get, same, ih]

end Get
end Entries
end Oxutrm.Config
