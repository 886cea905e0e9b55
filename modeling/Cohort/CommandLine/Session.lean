import Cohort.CommandLine.Help
import Cohort.Fault
import Cohort.Json.Printer
import Cohort.Seed
import Cohort.Settings.Environment

/-!
# Sessions

`Session.start` reads the arguments and the environment and either ends at once or says
which seed file it wants; `Session.finish` takes what was found there and gives the
outcome.  The environment overrides the defaults and an option overrides the
environment.
-/

namespace Cohort.CommandLine

open Json

abbrev Environment := List (String × String)

/-- What a session leaves behind.  The lines of its log are left out. -/
structure Outcome where
  status : Nat
  /-- What the command prints on the standard output, where the log goes too. -/
  output : String := ""
  /-- The lines on the standard error. -/
  errors : List String := []
  deriving DecidableEq

def Outcome.success (output : String) : Outcome :=
  { status := 0, output }

def Outcome.failure (lines : List String) : Outcome :=
  { status := 1, errors := lines }

/-- The arguments are no proper use of the program. -/
def Outcome.misuse : Outcome :=
  { status := 2, errors := ["For more information, try '--help'."] }

def linesOf (text : String) : List String :=
  (Text.splitAt '\n' text.toList).map String.ofList

def failureLines (failure : Failure) : List String :=
  linesOf ("Error: " ++ failure.message)

/-- The lines that report a failure as the cause of what could not be done. -/
def causedLines (context : String) (failure : Failure) : List String :=
  linesOf ("Error: " ++ context) ++ ["", "Caused by:"] ++
    (linesOf failure.message).map ("    " ++ ·)

/-- A session that is going to carry out a command. -/
structure Session where
  settings : Settings
  command : Command

/-- How a session starts. -/
inductive Start where
  | ended (outcome : Outcome)
  | opened (session : Session)

namespace Session

/-- The settings in force: the environment under the defaults, the options above it.
The variables of the general options count as options that were not given. -/
def settingsFor (environment : Environment) (nodeId seed : Option String) : Settings :=
  let settings := (Settings.ofEnvironment? environment).getD {}
  let nodeId := nodeId.or (valueOf? environment nodeIdVariable)
  let seed := seed.or (valueOf? environment seedVariable)
  { settings with
    nodeId := nodeId.getD settings.nodeId
    seedPath := seed.or settings.seedPath }

def start (arguments : List String) (environment : Environment) : Start :=
  match readArguments arguments with
  | .misuse => .ended .misuse
  | .version => .ended (.success "audience-sync 0.1.0\n")
  | .help topic => .ended (.success (topic.text environment))
  | .command nodeId seed command =>
      .opened { settings := settingsFor environment nodeId seed, command }

def seedPath (session : Session) : Option String :=
  session.settings.seedPath

/-- The store of the session, given the text of the seed file, or none if the file could
not be read. -/
def store? (session : Session) (document : Option String) (now : Instant) : Option Store :=
  match session.seedPath with
  | none => some .empty
  | some _ => (document.bind (Seed.parse? now)).map .ofSeed

/-- The lines that report a seed file that could not be loaded. -/
def seedFailure (path : String) : List String :=
  linesOf ("Error: failed to load seed file " ++ path)

def segmentValue (segment : Segment) : Value :=
  .object [("total_contacts", .nat segment.size), ("contact_ids", .ints segment.contacts.toList)]

def reportValue (report : PassReport) : Value :=
  .object
    [("group_id", .int report.group), ("added", .nat report.added),
      ("removed", .nat report.removed), ("total_contacts", .nat report.totalContacts)]

def summaryValue (summary : RoundSummary) : Value :=
  .object
    [("owners", .nat summary.owners), ("groups_synced", .nat summary.groupsSynced),
      ("groups_failed", .nat summary.groupsFailed), ("owners_failed", .nat summary.ownersFailed)]

/-- The outcome of a command whose result is printed or whose failure is reported. -/
def conclude {α : Type} (print : α → String) (report : Failure → List String) :
    Option (Except Failure α) → Outcome
  | some (.ok value) => .success (print value ++ "\n")
  | some (.error failure) => .failure (report failure)
  | none => .failure []

/-- Carry out a command on a store.  There is no outcome for the command that runs
without end. -/
def carryOut (settings : Settings) (faulty : FaultyStore) : Command → Option Outcome
  | .evaluate owner document countOnly =>
      match Criteria.parse document with
      | .error problem => some (.failure (failureLines (.unusableCriteria problem)))
      | .ok criteria =>
          if countOnly then
            let (result, _) := faulty.run (settings.evaluation.segmentSize owner criteria).run
            some (conclude (fun size => String.ofList (Text.natLetters size)) failureLines result)
          else
            let (result, _) := faulty.run (settings.evaluation.segment owner criteria).run
            some (conclude (fun segment => (segmentValue segment).indented) failureLines result)
  | .sync owner group =>
      let (result, _) := faulty.run (settings.evaluation.reconcile owner group).run
      let context := "dynamic group " ++ Text.ofInt group ++ " was not updated"
      some (conclude (fun report => (reportValue report).indented) (causedLines context) result)
  | .run _ true =>
      let (result, _) := faulty.run settings.evaluation.round.run
      some (conclude (fun summary => (summaryValue summary).indented) failureLines result)
  | .run _ false => none

/-- The outcome of a session, given the text of the seed file, or none if the file could
not be read.  There is no outcome for a session that runs without end. -/
def finish (session : Session) (document : Option String) (now : Instant) : Option Outcome :=
  match session.store? document now with
  | none => some (.failure (seedFailure (session.seedPath.getD "")))
  | some store => carryOut session.settings { store, now } session.command

def schedule (session : Session) : Schedule :=
  match session.command with
  | .run (some minutes) _ =>
      { session.settings.schedule with updateIntervalMinutes := minutes }
  | _ => session.settings.schedule

end Session

/-- The outcome of the program with these arguments and environment, where `files` gives
the texts of the files that can be read. -/
def outcome? (arguments : List String) (environment : Environment)
    (files : String → Option String) (now : Instant) : Option Outcome :=
  match Session.start arguments environment with
  | .ended outcome => some outcome
  | .opened session => session.finish (session.seedPath.bind files) now

end Cohort.CommandLine
