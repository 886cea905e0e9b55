import Cohort.Program
import Cohort.Store.Commit

/-!
# A store whose calls may fail

A fault lets some calls of one kind pass, makes some fail before they do anything, and
lets the later ones pass.  Without faults the answers are those of the store.
-/

namespace Cohort

/-- The kinds of calls that can be made to fail. -/
inductive Method where
  | liveContacts
  | tagsOf
  | tagsOfAll
  | liveGroup
  | liveGroups
  | ownersWithGroups
  | currentMembers
  | commit
  deriving DecidableEq

/-- What a failing call does. -/
inductive FaultEffect where
  | fail (failure : Failure)
  /-- The program is broken off. -/
  | abort

/-- Calls of one kind that fail. -/
structure Fault where
  effect : FaultEffect
  /-- How many calls pass before the first failing one. -/
  skip : Nat := 0
  /-- How many calls fail; none if there is no end. -/
  times : Option Nat := none

/-- The effect on the next call, if it is to fail, and what is left of the fault. -/
def Fault.next (fault : Fault) : Option FaultEffect × Fault :=
  match fault.skip, fault.times with
  | skip + 1, _ => (none, { fault with skip })
  | 0, none => (some fault.effect, fault)
  | 0, some 0 => (none, fault)
  | 0, some (times + 1) => (some fault.effect, { fault with times := some times })

abbrev FaultPlan := Method → Option Fault

def FaultPlan.set (plan : FaultPlan) (method : Method) (fault : Option Fault) : FaultPlan :=
  fun other => if other = method then fault else plan other

/-- How a store tells the tags of many contacts. -/
inductive TagLookup where
  /-- In the answer to one call. -/
  | together
  /-- Only contact by contact. -/
  | oneByOne
  deriving DecidableEq

/-- A store, the present time and the faults in force. -/
structure FaultyStore where
  store : Store
  now : Instant
  lookup : TagLookup := .together
  faults : FaultPlan := fun _ => none

def Call.method? : Call → Option Method
  | .liveContacts _ => some .liveContacts
  | .tagsOf _ => some .tagsOf
  | .tagsOfAll _ => some .tagsOfAll
  | .liveGroup _ _ => some .liveGroup
  | .liveGroups _ => some .liveGroups
  | .ownersWithGroups => some .ownersWithGroups
  | .currentMembers _ => some .currentMembers
  | .commit _ => some .commit
  | .clock | .lock _ | .unlock _ => none

/-- The answer of a call that fails; none for a call that cannot fail. -/
def Call.failed? (failure : Failure) : (call : Call) → Option call.Answer
  | .liveContacts _ => some (.error failure)
  | .tagsOf _ => some (.error failure)
  | .tagsOfAll _ => some (.error failure)
  | .liveGroup _ _ => some (.error failure)
  | .liveGroups _ => some (.error failure)
  | .ownersWithGroups => some (.error failure)
  | .currentMembers _ => some (.error failure)
  | .commit _ => some (.error failure)
  | .clock | .lock _ | .unlock _ => none

/-- The answer of the store to a call at a time, and the store afterwards. -/
def Store.answer (store : Store) (now : Instant) (lookup : TagLookup) :
    (call : Call) → call.Answer × Store
  | .liveContacts owner => (.ok (store.liveContacts owner), store)
  | .tagsOf contact => (.ok (store.tagsOf contact), store)
  | .tagsOfAll contacts =>
      match lookup with
      | .together => (.ok (some (store.tagsOfAll contacts)), store)
      | .oneByOne => (.ok none, store)
  | .liveGroup owner group => (.ok (store.liveGroup? owner group), store)
  | .liveGroups owner => (.ok (store.liveGroups owner), store)
  | .ownersWithGroups => (.ok store.ownersWithGroups, store)
  | .currentMembers group => (.ok (store.currentMembers group), store)
  | .commit changes =>
      match store.commit changes with
      | .ok changed => (.ok (), changed)
      | .error failure => (.error failure, store)
  | .clock => (now, store)
  | .lock _ => ((), store)
  | .unlock _ => ((), store)

namespace FaultyStore

/-- The answer of the store itself, and what is left. -/
def pass (faulty : FaultyStore) (call : Call) : Option call.Answer × FaultyStore :=
  let (answer, store) := faulty.store.answer faulty.now faulty.lookup call
  (some answer, { faulty with store })

/-- The answer to a call: that of the store, unless a fault makes the call fail. -/
def handle : Handler FaultyStore := fun faulty call =>
  match call.method? with
  | none => faulty.pass call
  | some method =>
      match faulty.faults method with
      | none => faulty.pass call
      | some fault =>
          let (effect, left) := fault.next
          let faulty := { faulty with faults := faulty.faults.set method (some left) }
          match effect with
          | none => faulty.pass call
          | some .abort => (none, faulty)
          | some (.fail failure) => (call.failed? failure, faulty)

def run {α : Type} (faulty : FaultyStore) (program : Program α) : Option α × FaultyStore :=
  program.run handle faulty

end FaultyStore

end Cohort
