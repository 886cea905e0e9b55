import Cohort.Json.Record
import Cohort.Settings

namespace Cohort

open Json

def Schedule.read? (tree : Tree) : Option Schedule := do
  let defaults : Schedule := {}
  let record ← Record.ofTree?
    ["update_interval_minutes", "initial_delay_secs", "error_backoff_minutes"] tree
  let updateIntervalMinutes ←
    record.withDefault "update_interval_minutes" defaults.updateIntervalMinutes Tree.unsigned?
  let initialDelaySeconds ←
    record.withDefault "initial_delay_secs" defaults.initialDelaySeconds Tree.unsigned?
  let errorBackoffMinutes ←
    record.withDefault "error_backoff_minutes" defaults.errorBackoffMinutes Tree.unsigned?
  some { updateIntervalMinutes, initialDelaySeconds, errorBackoffMinutes }

namespace Settings

def readThreshold? (tree : Tree) : Option Nat := do
  let record ← Record.ofTree? ["parallel_threshold"] tree
  record.withDefault "parallel_threshold" ({} : Settings).parallelThreshold Tree.unsigned?

def readSeedPath? (tree : Tree) : Option (Option String) := do
  let record ← Record.ofTree? ["seed_path"] tree
  record.optional "seed_path" Tree.text?

def read? (tree : Tree) : Option Settings := do
  let defaults : Settings := {}
  let record ← Record.ofTree? ["node_id", "segmentation", "sync", "store"] tree
  let nodeId ← record.withDefault "node_id" defaults.nodeId Tree.text?
  let parallelThreshold ←
    record.withDefault "segmentation" defaults.parallelThreshold readThreshold?
  let schedule ← record.withDefault "sync" defaults.schedule Schedule.read?
  let seedPath ← record.withDefault "store" defaults.seedPath readSeedPath?
  some { nodeId, parallelThreshold, schedule, seedPath }

def parse? (document : String) : Option Settings :=
  (Tree.parse? document).bind read?

end Settings

end Cohort
