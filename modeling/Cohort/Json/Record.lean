import Cohort.Json.Value

/-!
A record is given by an object or by an array.  An object gives fields by name: unknown
names are ignored, whatever they hold, and a field given twice is refused.  An array
gives the fields in their declared order and may stop early.
-/

namespace Cohort.Json

/-- The fields that a tree gives, each under its name. -/
structure Record where
  fields : List (String × Tree)

namespace Record

/-- The members that have a name the record knows; none if some name has no reading. -/
def known? (names : List String) : List (Option String × Tree) → Option (List (String × Tree))
  | [] => some []
  | (name, value) :: members => do
      let name ← name
      let rest ← known? names members
      some (if names.contains name then (name, value) :: rest else rest)

/-- The record with the given field names that a tree holds. -/
def ofTree? (names : List String) : Tree → Option Record
  | .object members => do
      let fields ← known? names members
      if (fields.map (·.1)).Nodup then some { fields } else none
  | .array items => if items.length ≤ names.length then some { fields := names.zip items } else none
  | _ => none

def get? (record : Record) (name : String) : Option Tree :=
  record.fields.lookup name

/-- A field that must be given. -/
def required {α : Type} (record : Record) (name : String) (read : Tree → Option α) : Option α :=
  (record.get? name).bind read

/-- A field that has a value of its own when it is not given. -/
def withDefault {α : Type} (record : Record) (name : String) (value : α)
    (read : Tree → Option α) : Option α :=
  match record.get? name with
  | none => some value
  | some tree => read tree

/-- A field that may be missing or null. -/
def optional {α : Type} (record : Record) (name : String) (read : Tree → Option α) :
    Option (Option α) :=
  match record.get? name with
  | none | some .null => some none
  | some tree => (read tree).map some

end Record

namespace Tree

open Cohort.Text

def text? : Tree → Option String
  | .text reading => reading
  | _ => none

def bool? : Tree → Option Bool
  | .bool value => some value
  | _ => none

def signed? : Tree → Option Int
  | .number (some (.int value)) => Text.signed? value
  | _ => none

def unsigned? : Tree → Option Nat
  | .number (some (.int value)) => Text.unsigned? value
  | _ => none

def list? {α : Type} (read : Tree → Option α) : Tree → Option (List α)
  | .array items => items.mapM read
  | _ => none

end Tree

end Cohort.Json
