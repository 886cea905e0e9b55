import Cohort.Pass

/-!
There is one wait before the first round and one after every round: the interval if the
round gave a summary, whatever failures the summary counts, and the backoff if it failed
or was broken off.
-/

namespace Cohort

/-- When rounds are made. -/
structure Schedule where
  updateIntervalMinutes : Nat := 15
  initialDelaySeconds : Nat := 60
  errorBackoffMinutes : Nat := 5
  deriving DecidableEq

/-- How a round ended. -/
inductive RoundOutcome where
  | finished (summary : RoundSummary)
  | failed (failure : Failure)
  /-- The round was broken off. -/
  | aborted

/-- How a round ended that gave this result, or none. -/
def RoundOutcome.ofResult : Option (Except Failure RoundSummary) → RoundOutcome
  | none => .aborted
  | some (.error failure) => .failed failure
  | some (.ok summary) => .finished summary

namespace Schedule

/-- Minutes in seconds, in a word of 64 bits. -/
def minuteSeconds (minutes : Nat) : Nat :=
  60 * minutes % (Text.maxUnsigned + 1)

/-- The seconds of thirty years without leap days. -/
def thirtyYears : Nat := 30 * 365 * 86400

def waited (seconds : Nat) : Nat :=
  min seconds thirtyYears

def firstWait (schedule : Schedule) : Nat :=
  waited schedule.initialDelaySeconds

def waitAfter (schedule : Schedule) : RoundOutcome → Nat
  | .finished _ => waited (minuteSeconds schedule.updateIntervalMinutes)
  | .failed _ | .aborted => waited (minuteSeconds schedule.errorBackoffMinutes)

/-- The waits: before the first round, and after each round with its outcome. -/
def waits (schedule : Schedule) (outcomes : List RoundOutcome) : List Nat :=
  schedule.firstWait :: outcomes.map schedule.waitAfter

/-- The sums of the beginnings of a list, from the first element on. -/
def runningTotals (total : Nat) : List Nat → List Nat
  | [] => []
  | wait :: waits => (total + wait) :: runningTotals (total + wait) waits

/-- The second at which each round begins, if rounds take no time. -/
def startSeconds (schedule : Schedule) (outcomes : List RoundOutcome) : List Nat :=
  (runningTotals 0 (schedule.waits outcomes)).take outcomes.length

end Schedule

end Cohort
