import Cohort.CommandLine.Arguments
import Cohort.Text.Plain
import Cohort.Text.Styled

/-!
# Help texts

Headings and what is to be typed literally are set off by styles.  Unless the
environment asks for the styles, all help is plain text, whatever values the environment
holds.
-/

namespace Cohort.CommandLine

open Text

def valueOf? (environment : List (String × String)) (name : String) : Option String :=
  environment.lookup name

def nodeIdVariable : String := "AUDIENCE_SYNC__NODE_ID"

def seedVariable : String := "AUDIENCE_SYNC__STORE__SEED_PATH"

/-- Has a variable of the environment a value that is not empty? -/
def isSet (environment : List (String × String)) (name : String) : Bool :=
  (valueOf? environment name).any (· ≠ "")

/-- Output keeps its styles if the environment forces it and does not refuse colours as
well. -/
def keepsStyles (environment : List (String × String)) : Bool :=
  isSet environment "CLICOLOR_FORCE" && !isSet environment "NO_COLOR"

/-- A name and what there is to say about it. -/
structure HelpEntry where
  name : Styled
  explanation : String

/-- A list of names under a heading. -/
structure HelpSection where
  heading : String
  entries : List HelpEntry

/-- A help text. -/
structure HelpPage where
  about : String
  usage : Styled
  sections : List HelpSection

def literal (text : String) : Styled :=
  Styled.of .bold text

def blanks (count : Nat) : String :=
  String.ofList (List.replicate count ' ')

/-- A text whose lines but the first are indented. -/
def hanging (indentation : Nat) (text : String) : String :=
  String.ofList (text.toList.flatMap fun c =>
    if c = '\n' then '\n' :: List.replicate indentation ' ' else [c])

namespace HelpEntry

def forCommand (name explanation : String) : HelpEntry :=
  { name := Styled.ofText "  " ++ literal name, explanation }

def forFlag (name explanation : String) : HelpEntry :=
  { name := Styled.ofText "      " ++ literal ("--" ++ name), explanation }

def forOption (name value explanation : String) : HelpEntry :=
  { name := (forFlag name explanation).name ++ Styled.ofText (" " ++ value), explanation }

/-- The entry for an option without value that has a short name. -/
def forShort (short name explanation : String) : HelpEntry :=
  { name :=
      Styled.ofText "  " ++ literal ("-" ++ short) ++ Styled.ofText ", " ++ literal ("--" ++ name)
    explanation }

def forHelp : HelpEntry := forShort "h" "help" "Print help"

/-- The entry as lines, its explanation beginning in a column. -/
def layout (entry : HelpEntry) (column : Nat) : Styled :=
  entry.name ++ Styled.ofText
    (blanks (column - entry.name.width) ++ hanging column entry.explanation ++ "\n")

end HelpEntry

namespace HelpSection

/-- The column of the explanations, two blanks behind the longest name. -/
def column (list : HelpSection) : Nat :=
  (list.entries.map (·.name.width)).foldl max 0 + 2

/-- The section as lines. -/
def layout (list : HelpSection) : Styled :=
  Styled.of .heading list.heading ++ Styled.ofText "\n" ++
    list.entries.flatMap (·.layout list.column)

end HelpSection

def HelpPage.layout (page : HelpPage) : Styled :=
  Styled.ofText (page.about ++ "\n\n") ++ Styled.of .heading "Usage:" ++ Styled.ofText " " ++
    page.usage ++ Styled.ofText "\n" ++
    page.sections.flatMap fun list => Styled.ofText "\n" ++ list.layout

def aboutHelp : String :=
  "Print this message or the help of the given subcommand(s)"

def CommandName.about : CommandName → String
  | .evaluate => "Evaluate a criteria document against an owner's contacts"
  | .sync => "Reconcile one dynamic group"
  | .run => "Run the periodic dynamic group processor"

def withVariable (environment : List (String × String)) (explanation name : String) : String :=
  explanation ++ " [env: " ++ name ++ "=" ++ (valueOf? environment name).getD "" ++ "]"

def programHelp (environment : List (String × String)) : HelpPage where
  about := "Dynamic audience segmentation and group membership sync"
  usage := literal "audience-sync" ++ Styled.ofText " [OPTIONS] <COMMAND>"
  sections :=
    [{ heading := "Commands:"
       entries :=
        [.forCommand "evaluate" CommandName.evaluate.about,
          .forCommand "sync" CommandName.sync.about, .forCommand "run" CommandName.run.about,
          .forCommand "help" aboutHelp] },
      { heading := "Options:"
        entries :=
          [.forOption "node-id" "<NODE_ID>"
              (withVariable environment "Node identifier (overrides config)" nodeIdVariable),
            .forOption "seed" "<SEED>"
              (withVariable environment
                "JSON seed file for the in-memory store (overrides config)" seedVariable),
            .forHelp, .forShort "V" "version" "Print version"] }]

def CommandName.usage : CommandName → Styled
  | .evaluate =>
      literal "audience-sync evaluate" ++ Styled.ofText " [OPTIONS] " ++ literal "--owner" ++
        Styled.ofText " <OWNER> " ++ literal "--criteria" ++ Styled.ofText " <CRITERIA>"
  | .sync =>
      literal "audience-sync sync" ++ Styled.ofText " " ++ literal "--owner" ++
        Styled.ofText " <OWNER> " ++ literal "--group" ++ Styled.ofText " <GROUP>"
  | .run => literal "audience-sync run" ++ Styled.ofText " [OPTIONS]"

def CommandName.entries : CommandName → List HelpEntry
  | .evaluate =>
      [.forOption "owner" "<OWNER>" "Owner (tenant) whose contacts are evaluated",
        .forOption "criteria" "<CRITERIA>"
          "Criteria document, e.g. '\x7b\"rules\":[...],\"logicalOperator\":\"AND\"\x7d'",
        .forFlag "count-only" "Print only the audience size"]
  | .sync => [.forOption "owner" "<OWNER>" "", .forOption "group" "<GROUP>" ""]
  | .run =>
      [.forOption "interval-minutes" "<INTERVAL_MINUTES>"
          "Update interval in minutes (overrides config)",
        .forFlag "once" "Run a single pass and exit"]

def CommandName.help (name : CommandName) : HelpPage where
  about := name.about
  usage := name.usage
  sections := [{ heading := "Options:", entries := name.entries ++ [.forHelp] }]

def helpOnHelp : HelpPage where
  about := aboutHelp
  usage := literal "audience-sync help" ++ Styled.ofText " [COMMAND]..."
  sections :=
    [{ heading := "Arguments:"
       entries :=
        [{ name := Styled.ofText "  [COMMAND]..."
           explanation := "Print help for the subcommand(s)" }] }]

def HelpTopic.page (environment : List (String × String)) : HelpTopic → HelpPage
  | .program => programHelp environment
  | .command name => name.help
  | .help => helpOnHelp

def HelpTopic.text (environment : List (String × String)) (topic : HelpTopic) : String :=
  let letters := (topic.page environment).layout.marked
  String.ofList (if keepsStyles environment then letters else plain letters)

end Cohort.CommandLine
