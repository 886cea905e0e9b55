import Cohort.Double.Reading
import Cohort.Settings
import Cohort.Text.Lowercase
import Cohort.Text.Search

/-!
# Settings from the environment

A variable whose name begins with `audience_sync__` in any case sets the setting at the
path that the rest of its name spells, with two underscores between the parts; a number
in square brackets picks a place of a list.  The value is taken for a truth value, an
integer or a double if it reads as one, and for a text otherwise.
-/

namespace Cohort

open Text

/-- A step of a path below its first name. -/
inductive PathStep where
  | name (name : String)
  /-- A place of a list: counted from its beginning, or from its end if it is
  negative. -/
  | place (index : Int)
  deriving DecidableEq

structure SettingPath where
  first : String
  steps : List PathStep
  deriving DecidableEq

namespace SettingPath

def isNameChar (c : Char) : Bool :=
  c.isAlphanum || c == ' ' || c == '_' || c == '-'

/-- Is this a blank that may stand around a place? -/
def isGap (c : Char) : Bool :=
  c == ' ' || c == '\t'

/-- The place between square brackets: digits, perhaps after a minus sign. -/
def place? (letters : List Char) : Option Int :=
  match ((letters.dropWhile isGap).reverse.dropWhile isGap).reverse with
  | '+' :: _ => none
  | inner => signedNumeral? inner

/-- Read the steps of a path; every round takes at least one character. -/
def readSteps? : Nat → List Char → Option (List PathStep)
  | _, [] => some []
  | 0, _ => none
  | fuel + 1, '.' :: rest =>
      let (name, after) := rest.span isNameChar
      if name = [] then none
      else (readSteps? fuel after).map (.name (String.ofList name) :: ·)
  | fuel + 1, '[' :: rest =>
      let (inner, after) := rest.span (· != ']')
      match after with
      | ']' :: after => do
          let index ← place? inner
          let steps ← readSteps? fuel after
          some (.place index :: steps)
      | _ => none
  | _, _ => none

def read? (letters : List Char) : Option SettingPath := do
  let (first, rest) := letters.span isNameChar
  if first = [] then none
  else
    let steps ← readSteps? rest.length rest
    some { first := String.ofList first, steps }

end SettingPath

/-- A setting as the environment gives it. -/
inductive Setting where
  | absent
  | truth (value : Bool)
  | whole (value : Int)
  | real (value : Double.Real)
  | text (value : String)
  /-- A section: settings by name. -/
  | table (entries : List (String × Setting))
  /-- A list, whose places may be absent. -/
  | list (items : List Setting)

namespace Setting

def ofText (value : String) : Setting :=
  let lowered := lower value
  if lowered = "true" then .truth true
  else if lowered = "false" then .truth false
  else
    match signedNumeral? value.toList with
    | some number => .whole number
    | none =>
        match Double.read? value.toList with
        | some number => .real number
        | none => .text value

/-- Change the entry under a name, which is absent if it is not there. -/
def alterEntry (name : String) (change : Setting → Setting) :
    List (String × Setting) → List (String × Setting)
  | [] => [(name, change .absent)]
  | (other, setting) :: rest =>
      if other = name then (other, change setting) :: rest
      else (other, setting) :: alterEntry name change rest

/-- Change the item at a place.  A list that does not reach so far grows, behind its
end or before its beginning. -/
def alterItem (index : Int) (change : Setting → Setting) (items : List Setting) : List Setting :=
  if 0 ≤ index then
    let grown := items ++ List.replicate (index.toNat + 1 - items.length) .absent
    grown.modify index.toNat change
  else
    let back := index.natAbs
    let grown := List.replicate (back - items.length) .absent ++ items
    grown.modify (items.length - back) change

/-- The settings by name of a section; none of any other setting. -/
def tableEntries : Setting → List (String × Setting)
  | .table entries => entries
  | _ => []

def listItems : Setting → List Setting
  | .list items => items
  | _ => []

/-- Put a setting at the end of a path, making the sections and lists on the way. -/
def put (value : Setting) : List PathStep → Setting → Setting
  | [], _ => value
  | .name name :: steps, setting => .table (alterEntry name (put value steps) setting.tableEntries)
  | .place index :: steps, setting => .list (alterItem index (put value steps) setting.listItems)

/-- Doubles are written out in full; the greater of two equally near decimals is
taken. -/
def realLayout : Double.Layout :=
  { tie := .up, positional := fun _ => true, wholeFraction := false }

def realLetters : Double.Real → List Char
  | .finite value => realLayout.write value
  | .infinite negative => if negative then "-inf".toList else "inf".toList
  | .notANumber => "NaN".toList

/-- A setting where a text is wanted. -/
def text? : Setting → Option String
  | .truth value => some (if value then "true" else "false")
  | .whole value => some (ofInt value)
  | .real value => some (String.ofList (realLetters value))
  | .text value => some value
  | .absent | .table _ | .list _ => none

def numberOfText? (value : String) : Option Nat :=
  match lower value with
  | "true" | "on" | "yes" => some 1
  | "false" | "off" | "no" => some 0
  | _ => unsignedNumeral? value.toList

/-- A setting where an unsigned number is wanted. -/
def number? : Setting → Option Nat
  | .truth value => some (if value then 1 else 0)
  | .whole value => unsigned? value
  | .real value => some value.toUnsigned
  | .text value => numberOfText? value
  | .absent | .table _ | .list _ => none

/-- A setting where a text may be missing. -/
def optionalText? : Setting → Option (Option String)
  | .absent => some none
  | setting => setting.text?.map some

/-- The fields of a section: by name, or by place in declared order. -/
def fields? (names : List String) : Setting → Option (List (String × Setting))
  | .table entries => some entries
  | .list items => some (names.zip items)
  | _ => none

/-- A field, with its own value when it is not given. -/
def field? {α : Type} (fields : List (String × Setting)) (name : String) (value : α)
    (read : Setting → Option α) : Option α :=
  match fields.lookup name with
  | none => some value
  | some setting => read setting

end Setting

namespace Settings

def environmentStart : List Char :=
  "audience_sync__".toList

/-- Write a point for every two underscores, from the left. -/
def pointed : List Char → List Char
  | '_' :: '_' :: rest => '.' :: pointed rest
  | c :: rest => c :: pointed rest
  | [] => []

def takeVariable (root : Setting) (binding : String × String) : Setting :=
  let name := lowerLetters binding.1.toList
  if environmentStart.isPrefixOf name then
    match SettingPath.read? (pointed (name.drop environmentStart.length)) with
    | some path => Setting.put (.ofText binding.2) (.name path.first :: path.steps) root
    | none => root
  else root

def scheduleOf? (setting : Setting) : Option Schedule := do
  let defaults : Schedule := {}
  let fields ← setting.fields?
    ["update_interval_minutes", "initial_delay_secs", "error_backoff_minutes"]
  let updateIntervalMinutes ← Setting.field? fields "update_interval_minutes"
    defaults.updateIntervalMinutes Setting.number?
  let initialDelaySeconds ← Setting.field? fields "initial_delay_secs"
    defaults.initialDelaySeconds Setting.number?
  let errorBackoffMinutes ← Setting.field? fields "error_backoff_minutes"
    defaults.errorBackoffMinutes Setting.number?
  some { updateIntervalMinutes, initialDelaySeconds, errorBackoffMinutes }

def thresholdOf? (setting : Setting) : Option Nat := do
  let fields ← setting.fields? ["parallel_threshold"]
  Setting.field? fields "parallel_threshold" ({} : Settings).parallelThreshold Setting.number?

def seedPathOf? (setting : Setting) : Option (Option String) := do
  let fields ← setting.fields? ["seed_path"]
  Setting.field? fields "seed_path" none Setting.optionalText?

/-- The settings that an environment gives, if each can be turned into what is
wanted. -/
def ofEnvironment? (environment : List (String × String)) : Option Settings := do
  let defaults : Settings := {}
  let fields := (environment.foldl takeVariable (.table [])).tableEntries
  let nodeId ← Setting.field? fields "node_id" defaults.nodeId Setting.text?
  let parallelThreshold ←
    Setting.field? fields "segmentation" defaults.parallelThreshold thresholdOf?
  let schedule ← Setting.field? fields "sync" defaults.schedule scheduleOf?
  let seedPath ← Setting.field? fields "store" defaults.seedPath seedPathOf?
  some { nodeId, parallelThreshold, schedule, seedPath }

end Settings

end Cohort
