import Cohort.CommandLine.Session
import Cohort.Proofs.Settings.SeedPath

/-!
# What the environment decides in a session

The size from which on a population is judged in halves makes no difference to any
program, and of all other settings a command that is carried out once needs the seed
path alone.
-/

namespace Cohort

namespace Evaluation

variable (evaluation other : Evaluation)

/-- Judging in halves or in order makes no difference, so the size that decides makes
none. -/
theorem segment_independent (owner : String) (criteria : Criteria) :
    evaluation.segment owner criteria = other.segment owner criteria := by
  simp only [segment, PreparedCriteria.segment, PreparedCriteria.matchingByHalves_eq, ite_self]

theorem segmentSize_independent (owner : String) (criteria : Criteria) :
    evaluation.segmentSize owner criteria = other.segmentSize owner criteria := by
  simp only [segmentSize, evaluation.segment_independent other]

theorem reconcile_independent (owner : String) (id : Int) :
    evaluation.reconcile owner id = other.reconcile owner id := by
  simp only [reconcile, reconcileLocked, evaluation.segment_independent other]

theorem reconcileEach_independent (owner : String) (ids : List Int) :
    evaluation.reconcileEach owner ids = other.reconcileEach owner ids := by
  induction ids with
  | nil => rfl
  | cons id ids induction =>
      simp only [reconcileEach, reconcileSucceeds, evaluation.reconcile_independent other,
        induction]

theorem reconcileOwners_independent (summary : RoundSummary) (owners : List String) :
    evaluation.reconcileOwners summary owners = other.reconcileOwners summary owners := by
  induction owners generalizing summary with
  | nil => rfl
  | cons owner owners induction =>
      simp only [reconcileOwners, reconcileOwner, evaluation.reconcileEach_independent other,
        induction]

theorem round_independent : evaluation.round = other.round := by
  simp only [round, evaluation.reconcileOwners_independent other]

end Evaluation

namespace CommandLine

namespace Session

/-- No setting has influence on what a command does to a store. -/
theorem carryOut_independent (settings other : Settings) (faulty : FaultyStore)
    (command : Command) : carryOut settings faulty command = carryOut other faulty command := by
  cases command with
  | evaluate owner document countOnly =>
      simp only [carryOut, settings.evaluation.segment_independent other.evaluation,
        settings.evaluation.segmentSize_independent other.evaluation]
  | sync owner group =>
      simp only [carryOut, settings.evaluation.reconcile_independent other.evaluation]
  | run intervalMinutes once =>
      cases once with
      | false => rfl
      | true => simp only [carryOut, settings.evaluation.round_independent other.evaluation]

/-- The session of a command with the default settings, except for the seed path. -/
def ofSeedPath (seedPath : Option String) (command : Command) : Session :=
  { settings := { seedPath }, command }

/-- All that a session takes from its settings for the outcome is the seed path. -/
theorem finish_eq_ofSeedPath (session : Session) (document : Option String) (now : Instant) :
    session.finish document now =
      (ofSeedPath session.seedPath session.command).finish document now := by
  have sameStore : session.store? document now =
      (ofSeedPath session.seedPath session.command).store? document now := rfl
  unfold finish
  rw [sameStore]
  split
  · rfl
  · exact carryOut_independent _ _ _ _

end Session

/-- Does a command come to an end? -/
def Command.Ends : Command → Prop
  | .run _ once => once = true
  | .evaluate _ _ _ | .sync _ _ => True

namespace Session

theorem carryOut_isSome {command : Command} (ends : command.Ends) (settings : Settings)
    (faulty : FaultyStore) : (carryOut settings faulty command).isSome := by
  cases command with
  | evaluate owner document countOnly =>
      simp only [carryOut]
      cases Criteria.parse document with
      | error problem => rfl
      | ok criteria => cases countOnly <;> rfl
  | sync owner group => rfl
  | run intervalMinutes once =>
      obtain rfl : once = true := ends
      rfl

theorem finish_isSome (session : Session) (ends : session.command.Ends)
    (document : Option String) (now : Instant) : (session.finish document now).isSome := by
  unfold finish
  split
  · rfl
  · exact carryOut_isSome ends _ _

end Session

/-- No variable but the one of the option gives a seed path. -/
def OneSeedVariable (environment : Environment) : Prop :=
  ∀ binding ∈ environment, Settings.GivesSeedPath binding → binding.1 = seedVariable

/-- A session opens for a command and wants the seed file at a path, or none if there is
no path. -/
def Start.Opens (command : Command) (seedPath : Option String) : Start → Prop
  | .opened session => session.command = command ∧ session.seedPath = seedPath
  | .ended _ => False

section Outcomes

variable {arguments : List String} {environment other : Environment}
  {nodeId seed : Option String} {command : Command}

theorem seedPath_settingsFor (single : OneSeedVariable environment)
    (nodeId seed : Option String) :
    (Session.settingsFor environment nodeId seed).seedPath =
      seed.or (valueOf? environment seedVariable) := by
  show (seed.or (valueOf? environment seedVariable)).or
    ((Settings.ofEnvironment? environment).getD {}).seedPath = _
  cases given : seed.or (valueOf? environment seedVariable) with
  | some path => rfl
  | none =>
      -- No variable is spelled as that of the option, so none gives a seed path.
      have noVariable : environment.lookup seedVariable = none := (Option.or_eq_none_iff.mp given).2
      have notGiven : ∀ binding ∈ environment, ¬Settings.GivesSeedPath binding := by
        intro binding listed gives
        have differs := List.lookup_eq_none_iff.mp noVariable binding listed
        exact bne_iff_ne.mp differs (single binding listed gives).symm
      -- Settings that cannot be read give way to the defaults, which have no seed path
      -- either.
      cases read : Settings.ofEnvironment? environment with
      | none => rfl
      | some settings => exact Settings.seedPath_eq_none notGiven read

theorem start_opens (asked : readArguments arguments = .command nodeId seed command)
    (single : OneSeedVariable environment) :
    (Session.start arguments environment).Opens command
      (seed.or (valueOf? environment seedVariable)) := by
  rw [Session.start, asked]
  exact ⟨rfl, seedPath_settingsFor single nodeId seed⟩

variable (files : String → Option String) (now : Instant)

theorem outcome?_of_opens {seedPath : Option String}
    (opens : (Session.start arguments environment).Opens command seedPath) :
    outcome? arguments environment files now =
      (Session.ofSeedPath seedPath command).finish (seedPath.bind files) now := by
  unfold outcome?
  split
  · rename_i ended
    rw [ended] at opens
    exact opens.elim
  · rename_i session opened
    rw [opened] at opens
    obtain ⟨rfl, rfl⟩ := opens
    exact session.finish_eq_ofSeedPath _ now

/-- Neither is help asked for, which shows what variables hold, nor are rounds without
end. -/
def Asked.Settled : Asked → Prop
  | .command _ _ wanted => wanted.Ends
  | .version | .misuse => True
  | .help _ => False

theorem outcome?_isSome (settled : (readArguments arguments).Settled) :
    (outcome? arguments environment files now).isSome := by
  unfold outcome? Session.start
  cases asked : readArguments arguments with
  | command nodeId seed wanted =>
      rw [asked] at settled
      have ends : wanted.Ends := settled
      exact Session.finish_isSome { settings := _, command := wanted } ends _ now
  | version | misuse => rfl
  | help topic =>
      rw [asked] at settled
      exact settled.elim

/-- In environments where no variable but the one of the option gives a seed path, and
which have the same text for it or none, a command that comes to an end wants the same
seed file: the one of the option, else that text as it stands, else none.  Whatever
else the environments hold, valid or not, there is an outcome, and the same one. -/
theorem outcome_of_seed_alone (settled : (readArguments arguments).Settled)
    (single : OneSeedVariable environment) (otherSingle : OneSeedVariable other)
    (same : valueOf? environment seedVariable = valueOf? other seedVariable) :
    (∀ nodeId seed command, readArguments arguments = .command nodeId seed command →
      let seedPath := seed.or (valueOf? environment seedVariable)
      (Session.start arguments environment).Opens command seedPath ∧
        (Session.start arguments other).Opens command seedPath) ∧
    ∃ outcome, outcome? arguments environment files now = some outcome ∧
      outcome? arguments other files now = some outcome := by
  have opens : ∀ nodeId seed command, readArguments arguments = .command nodeId seed command →
      let seedPath := seed.or (valueOf? environment seedVariable)
      (Session.start arguments environment).Opens command seedPath ∧
        (Session.start arguments other).Opens command seedPath := by
    intro nodeId seed command asked
    constructor
    · exact start_opens asked single
    · rw [same]
      exact start_opens asked otherSingle
  have alike :
      outcome? arguments other files now = outcome? arguments environment files now := by
    cases asked : readArguments arguments with
    | command nodeId seed wanted =>
        obtain ⟨here, there⟩ := opens nodeId seed wanted asked
        rw [outcome?_of_opens files now here, outcome?_of_opens files now there]
    | version | misuse => simp only [outcome?, Session.start, asked]
    | help topic =>
        rw [asked] at settled
        exact settled.elim
  obtain ⟨outcome, here⟩ := Option.isSome_iff_exists.mp (outcome?_isSome files now settled)
  exact ⟨opens, outcome, here, alike.trans here⟩

end Outcomes

def countArguments : List String :=
  ["evaluate", "--owner", "ana", "--criteria", "\x7b\x7d", "--count-only"]

theorem readArguments_countArguments :
    readArguments countArguments = .command none none (.evaluate "ana" "\x7b\x7d" true) := by
  decide +kernel

/-- The path reads as a number, the identifier as a truth value, and already a single
contact is judged in halves. -/
def retypedEnvironment : Environment :=
  [("AUDIENCE_SYNC__NODE_ID", "true"), (seedVariable, "007"),
    ("audience_sync__segmentation__parallel_threshold", "1e0")]

/-- There is a text where a section is wanted, and an item behind the path in the
section for the store. -/
def malformedEnvironment : Environment :=
  [("AUDIENCE_SYNC__SYNC", "soon"), ("PATH", "/bin"), ("AUDIENCE_SYNC__STORE[1]", "seed.json"),
    (seedVariable, "007")]

def contactFile (path : String) : Option String :=
  if path = "007" then some "\x7b\"contacts\": [[1, \"ana\"], [2, \"ben\"], [3, \"ana\"]]\x7d"
  else none

def mayMorning : Instant where
  date := { year := 2025, month := 5, day := 1, valid := by decide }
  second := 27000
  nano := 0
  valid := by decide

theorem countArguments_counted_alike :
    (readArguments countArguments).Settled ∧
      OneSeedVariable retypedEnvironment ∧ OneSeedVariable malformedEnvironment ∧
      valueOf? retypedEnvironment seedVariable = valueOf? malformedEnvironment seedVariable ∧
      Settings.ofEnvironment? malformedEnvironment = none ∧
      (Session.start countArguments malformedEnvironment).Opens (.evaluate "ana" "\x7b\x7d" true)
        (some "007") ∧
      outcome? countArguments retypedEnvironment contactFile mayMorning = some (.success "2\n") ∧
      outcome? countArguments malformedEnvironment contactFile mayMorning =
        some (.success "2\n") := by
  have settled : (readArguments countArguments).Settled := by
    rw [readArguments_countArguments]
    trivial
  have retyped : OneSeedVariable retypedEnvironment := by
    unfold OneSeedVariable
    decide +kernel
  have malformed : OneSeedVariable malformedEnvironment := by
    unfold OneSeedVariable
    decide +kernel
  have counted : outcome? countArguments retypedEnvironment contactFile mayMorning =
      some (.success "2\n") := by
    decide +kernel
  obtain ⟨opens, outcome, here, there⟩ :=
    outcome_of_seed_alone contactFile mayMorning settled retyped malformed rfl
  obtain rfl : outcome = .success "2\n" := Option.some.inj (here.symm.trans counted)
  exact ⟨settled, retyped, malformed, rfl, by decide +kernel,
    (opens _ _ _ readArguments_countArguments).2, counted, there⟩

end CommandLine

end Cohort
