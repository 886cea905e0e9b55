import Cohort.Text.Numeral

/-!
# Command-line arguments

The general options come before the command and the options of the command behind it.
Arguments are read from left to right, so a request for help or for the version is met
before faults further to the right are seen.
-/

namespace Cohort.CommandLine

open Cohort.Text

/-- What the program is asked to do. -/
inductive Command where
  | evaluate (owner criteria : String) (countOnly : Bool)
  | sync (owner : String) (group : Int)
  | run (intervalMinutes : Option Nat) (once : Bool)
  deriving DecidableEq

/-- The commands by name. -/
inductive CommandName where
  | evaluate
  | sync
  | run
  deriving DecidableEq

def CommandName.ofText? : String → Option CommandName
  | "evaluate" => some .evaluate
  | "sync" => some .sync
  | "run" => some .run
  | _ => none

/-- What help can be asked for. -/
inductive HelpTopic where
  | program
  | command (name : CommandName)
  /-- The help itself. -/
  | help
  deriving DecidableEq

/-- What the arguments ask for. -/
inductive Asked where
  | command (nodeId seed : Option String) (command : Command)
  | version
  | help (topic : HelpTopic)
  /-- The arguments are no proper use. -/
  | misuse
  deriving DecidableEq

/-- What an option takes and does. -/
inductive OptionKind where
  | flag
  /-- The option has a value, which must pass a test. -/
  | valued (accepts : String → Bool)
  | help
  | version

abbrev Options := List (String × OptionKind)

/-- The letters that stand for options without a value. -/
def shortNames (options : Options) : Char → Option OptionKind
  | 'h' => options.lookup "help"
  | 'V' => options.lookup "version"
  | _ => none

abbrev Given := List (String × String)

/-- How far reading options came. -/
inductive Reading where
  /-- All arguments are read. -/
  | finished (given : Given)
  /-- An argument that is no option, and those behind it. -/
  | positional (given : Given) (argument : String) (rest : List String)
  | help
  | version
  | misuse

/-- An argument without its two dashes, cut at the first equals sign. -/
def cutOption (letters : List Char) : String × Option String :=
  let (name, rest) := letters.span (· != '=')
  match rest with
  | [] => (String.ofList name, none)
  | _ :: value => (String.ofList name, some (String.ofList value))

/-- May an argument of its own be the value of an option? -/
def isPlainValue (argument : String) : Bool :=
  argument == "-" || argument.toList.head? != some '-'

def readOptions (options : Options) (given : Given) : List String → Reading
  | [] => .finished given
  | argument :: rest =>
      match argument.toList with
      | ['-', '-'] => if rest.isEmpty then .finished given else .misuse
      | '-' :: '-' :: letters =>
          let (name, attached) := cutOption letters
          match options.lookup name, attached with
          | none, _ => .misuse
          | some .help, none => .help
          | some .version, none => .version
          | some .flag, none =>
              if (given.lookup name).isSome then .misuse
              else readOptions options ((name, "") :: given) rest
          | some (.valued accepts), some value =>
              if (given.lookup name).isSome || !accepts value then .misuse
              else readOptions options ((name, value) :: given) rest
          | some (.valued accepts), none =>
              match rest with
              | [] => .misuse
              | value :: rest =>
                  if (given.lookup name).isSome || !isPlainValue value || !accepts value then
                    .misuse
                  else readOptions options ((name, value) :: given) rest
          | some _, some _ => .misuse
      | '-' :: letter :: _ =>
          match shortNames options letter with
          | some .help => .help
          | some .version => .version
          | _ => .misuse
      | _ => .positional given argument rest

def generalOptions : Options :=
  [("node-id", .valued fun _ => true), ("seed", .valued fun _ => true), ("help", .help),
    ("version", .version)]

def CommandName.options : CommandName → Options
  | .evaluate =>
      [("owner", .valued fun _ => true), ("criteria", .valued fun _ => true),
        ("count-only", .flag), ("help", .help)]
  | .sync =>
      [("owner", .valued fun _ => true),
        ("group", .valued fun value => (signedNumeral? value.toList).isSome), ("help", .help)]
  | .run =>
      [("interval-minutes", .valued fun value => (unsignedNumeral? value.toList).isSome),
        ("once", .flag), ("help", .help)]

def CommandName.command? (given : Given) : CommandName → Option Command
  | .evaluate => do
      let owner ← given.lookup "owner"
      let criteria ← given.lookup "criteria"
      some (.evaluate owner criteria (given.lookup "count-only").isSome)
  | .sync => do
      let owner ← given.lookup "owner"
      let group ← (given.lookup "group").bind fun value => signedNumeral? value.toList
      some (.sync owner group)
  | .run =>
      let intervalMinutes :=
        (given.lookup "interval-minutes").bind fun value => unsignedNumeral? value.toList
      some (.run intervalMinutes (given.lookup "once").isSome)

def readCommand (general : Given) (name : CommandName) (arguments : List String) : Asked :=
  match readOptions name.options [] arguments with
  | .help => .help (.command name)
  | .finished given =>
      match name.command? given with
      | some command => .command (general.lookup "node-id") (general.lookup "seed") command
      | none => .misuse
  | _ => .misuse

def readHelp : List String → Asked
  | [] => .help .program
  | ["help"] => .help .help
  | [topic] =>
      match CommandName.ofText? topic with
      | some name => .help (.command name)
      | none => .misuse
  | _ => .misuse

def readArguments (arguments : List String) : Asked :=
  match readOptions generalOptions [] arguments with
  | .version => .version
  | .help => .help .program
  | .positional given argument rest =>
      match CommandName.ofText? argument with
      | some name => readCommand given name rest
      | none => if argument == "help" then readHelp rest else .misuse
  | _ => .misuse

end Cohort.CommandLine
