import Cohort.CommandLine.Session
import Std.Time.DateTime

/-!
This module fetches what a session needs from outside: the arguments, the environment,
the clock and the seed file.
-/

namespace Cohort.CommandLine

def readEnvironment : IO Environment := do
  let bytes ← try IO.FS.readBinFile "/proc/self/environ" catch _ => pure ByteArray.empty
  let text := (String.fromUTF8? bytes).getD ""
  let entries := (Text.splitAt '\x00' text.toList).filter (· ≠ [])
  pure (entries.map fun entry =>
    let (name, value) := cutOption entry
    (name, value.getD ""))

def readText? (path : String) : IO (Option String) := do
  let bytes ← try some <$> IO.FS.readBinFile path catch _ => pure none
  pure (bytes.bind String.fromUTF8?)

/-- The first moment of the year 1970, which stands for a time that the calendar does
not reach. -/
def epoch : Instant :=
  { date := { year := 1970, month := 1, day := 1, valid := by decide }
    second := 0
    nano := 0
    valid := by decide }

def readClock : IO Instant := do
  let timestamp ← Std.Time.Timestamp.now
  let now := Std.Time.PlainDateTime.ofWallTime (timestamp.toWallTime .zero)
  let second := now.hour.val.toNat * 3600 + now.minute.val.toNat * 60 + now.second.val.toNat
  let instant? := do
    let date ← Date.ofParts? now.year.toInt now.month.val.toNat now.day.val.toNat
    Instant.ofParts? date second now.nanosecond.val.toNat
  pure (instant?.getD epoch)

def report (outcome : Outcome) : IO UInt32 := do
  IO.print outcome.output
  outcome.errors.forM IO.eprintln
  pure outcome.status.toUInt32

def pause : Nat → IO Unit
  | 0 => pure ()
  | seconds + 1 => do
      IO.sleep 1000
      pause seconds

/-- Make rounds without end, each after the wait that the last one asks for. -/
partial def makeRounds (session : Session) (store : Store) (wait : Nat) : IO Unit := do
  pause wait
  let faulty : FaultyStore := { store, now := ← readClock }
  let (result, faulty) := faulty.run session.settings.evaluation.round.run
  makeRounds session faulty.store (session.schedule.waitAfter (.ofResult result))

end Cohort.CommandLine

open Cohort CommandLine in
def main (arguments : List String) : IO UInt32 := do
  match Session.start arguments (← readEnvironment) with
  | .ended outcome => report outcome
  | .opened session =>
      let document ←
        match session.seedPath with
        | some path => readText? path
        | none => pure none
      let now ← readClock
      match session.finish document now with
      | some outcome => report outcome
      | none =>
          let store := (session.store? document now).getD .empty
          makeRounds session store session.schedule.firstWait
          pure 0
