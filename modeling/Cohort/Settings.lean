import Cohort.Schedule

namespace Cohort

/-- The settings of the program. -/
structure Settings where
  nodeId : String := "node-01"
  /-- The size of a population from which on it is judged in halves. -/
  parallelThreshold : Nat := 2048
  schedule : Schedule := {}
  /-- The file with the seed of the store. -/
  seedPath : Option String := none
  deriving DecidableEq

def Settings.evaluation (settings : Settings) : Evaluation :=
  { parallelThreshold := settings.parallelThreshold }

end Cohort
