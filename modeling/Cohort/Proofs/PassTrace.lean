import Cohort.Pass
import Cohort.Proofs.Exchange

/-!
# What a pass says

`PassTrace` lists what a pass may say with its lock held, whoever answers; it stops at
the first answer that is a failure.
-/

namespace Cohort

/-- What is left of working out a segment when the contacts have been told. -/
def Evaluation.judging (evaluation : Evaluation) (criteria : Criteria) (contacts : List Contact) :
    Attempt Segment :=
  if contacts.isEmpty then pure .empty
  else do
    let tags ← fetchTags (contacts.map Contact.id)
    let prepared := PreparedCriteria.ofCriteria criteria
    pure (prepared.segment tags contacts (evaluation.parallelThreshold ≤ contacts.length))

theorem Evaluation.segment_eq (evaluation : Evaluation) (owner : String) (criteria : Criteria) :
    evaluation.segment owner criteria =
      Attempt.ask (.call (.liveContacts owner)) >>= evaluation.judging criteria :=
  rfl

/-- What is left of a pass when its group has been found and its criteria have been
read. -/
def Evaluation.reconcileFound (evaluation : Evaluation) (owner : String) (id : Int) (group : Group)
    (criteria : Criteria) : Attempt PassReport := do
  let segment ← evaluation.segment owner criteria
  let rows ← Attempt.ask (.call (.currentMembers id))
  let now ← Attempt.always (.call .clock)
  let changes := group.plan rows segment now
  Attempt.ask (.call (.commit changes))
  pure
    { group := id, added := changes.additions.length, removed := changes.removals.length,
      totalContacts := segment.size }

/-- What is left of a pass when its group has been looked up. -/
def Evaluation.reconcileLooked (evaluation : Evaluation) (owner : String) (id : Int) :
    Option Group → Attempt PassReport
  | none => throw (.noSuchGroup owner id)
  | some group =>
      match group.readCriteria with
      | .error problem => throw (.unusableCriteria problem)
      | .ok criteria => evaluation.reconcileFound owner id group criteria

theorem Evaluation.reconcileLocked_eq (evaluation : Evaluation) (owner : String) (id : Int) :
    evaluation.reconcileLocked owner id =
      Attempt.ask (.call (.liveGroup owner id)) >>= evaluation.reconcileLooked owner id :=
  rfl

def Call.ReadsTags : Call → Prop
  | .tagsOf _ | .tagsOfAll _ => True
  | _ => False

/-- A call by which a segment is worked out. -/
def Call.ReadsContacts : Call → Prop
  | .liveContacts _ | .tagsOf _ | .tagsOfAll _ => True
  | _ => False

/-- A call that a pass makes while it holds its lock. -/
def Call.UnderLock : Call → Prop
  | .lock _ | .unlock _ | .liveGroups _ | .ownersWithGroups => False
  | _ => True

theorem fetchOneByOne_makesOnly (contacts : List Int) (table : TagTable) :
    (fetchOneByOne table contacts).run.MakesOnly Call.ReadsTags := by
  induction contacts generalizing table with
  | nil => trivial
  | cons contact contacts induction =>
      exact Attempt.makesOnly_bind ⟨trivial, fun _ => trivial⟩ fun _ => induction _

variable (evaluation : Evaluation) (owner : String) (id : Int)

theorem Evaluation.judging_makesOnly (criteria : Criteria) (contacts : List Contact) :
    (evaluation.judging criteria contacts).run.MakesOnly Call.ReadsTags := by
  unfold judging
  split
  · trivial
  · refine Attempt.makesOnly_bind ?_ fun _ => trivial
    refine Attempt.makesOnly_bind ⟨trivial, fun _ => trivial⟩ fun answer => ?_
    cases answer with
    | none => exact fetchOneByOne_makesOnly _ _
    | some table => trivial

theorem Evaluation.segment_makesOnly (criteria : Criteria) :
    (evaluation.segment owner criteria).run.MakesOnly Call.ReadsContacts := by
  rw [evaluation.segment_eq]
  refine Attempt.makesOnly_bind ⟨trivial, fun _ => trivial⟩ fun contacts => ?_
  apply (evaluation.judging_makesOnly criteria contacts).mono
  intro call reads
  cases call <;> trivial

theorem Evaluation.reconcileFound_makesOnly (group : Group) (criteria : Criteria) :
    (evaluation.reconcileFound owner id group criteria).run.MakesOnly Call.UnderLock := by
  apply Attempt.makesOnly_bind
  · apply (evaluation.segment_makesOnly owner criteria).mono
    intro call reads
    cases call <;> trivial
  · intro segment
    exact Attempt.makesOnly_bind ⟨trivial, fun _ => trivial⟩ fun rows =>
      Attempt.makesOnly_bind ⟨trivial, fun _ => trivial⟩ fun now =>
        Attempt.makesOnly_bind ⟨trivial, fun _ => trivial⟩ fun _ => trivial

theorem Evaluation.reconcileLocked_makesOnly :
    (evaluation.reconcileLocked owner id).run.MakesOnly Call.UnderLock := by
  rw [evaluation.reconcileLocked_eq]
  refine Attempt.makesOnly_bind ⟨trivial, fun _ => trivial⟩ ?_
  intro found
  cases found with
  | none => trivial
  | some group =>
      simp only [reconcileLooked]
      cases group.readCriteria with
      | error problem => trivial
      | ok criteria => exact evaluation.reconcileFound_makesOnly owner id group criteria

/-- A call by which groups or owners are listed. -/
def Call.Lists : Call → Prop
  | .liveGroups _ | .ownersWithGroups => True
  | _ => False

theorem Evaluation.reconcileEach_makesOnly (ids : List Int) :
    (evaluation.reconcileEach owner ids).MakesOnly fun call => ¬ call.Lists := by
  induction ids with
  | nil => trivial
  | cons id ids induction =>
      have locked : (evaluation.reconcileLocked owner id).run.MakesOnly fun call =>
        ¬ call.Lists := by
        apply (evaluation.reconcileLocked_makesOnly owner id).mono
        intro call underLock lists
        cases call <;> first | exact lists | exact underLock
      have pass : (evaluation.reconcile owner id).run.MakesOnly fun call => ¬ call.Lists :=
        ⟨fun lists => lists, fun _ => locked.bind fun _ => ⟨fun lists => lists, fun _ => trivial⟩⟩
      have succeeds : (evaluation.reconcileSucceeds owner id).MakesOnly fun call => ¬ call.Lists :=
        Program.MakesOnly.bind pass fun _ => trivial
      exact succeeds.bind fun _ => induction.bind fun _ => trivial

theorem Evaluation.reconcileOwners_makesOnly (summary : RoundSummary) (owners : List String) :
    (evaluation.reconcileOwners summary owners).MakesOnly fun call => call ≠ .ownersWithGroups := by
  induction owners generalizing summary with
  | nil => trivial
  | cons owner owners induction =>
      refine Program.MakesOnly.bind ?_ fun _ => induction _
      refine Attempt.makesOnly_bind ⟨by simp, fun _ => trivial⟩ fun groups => ?_
      refine Program.MakesOnly.bind ?_ fun _ => trivial
      apply (evaluation.reconcileEach_makesOnly owner _).mono
      intro call notListed same
      subst call
      exact notListed trivial

/-- What a pass says while it holds its lock, and its result. -/
inductive PassTrace : List Exchange → Except Failure PassReport → Prop where
  | lookupFailed (failure : Failure) :
      PassTrace [⟨.liveGroup owner id, .error failure⟩] (.error failure)
  | noGroup : PassTrace [⟨.liveGroup owner id, .ok none⟩] (.error (.noSuchGroup owner id))
  | unusable {group : Group} {problem : CriteriaProblem} :
      group.readCriteria = .error problem →
      PassTrace [⟨.liveGroup owner id, .ok (some group)⟩] (.error (.unusableCriteria problem))
  | evaluationFailed {group : Group} {criteria : Criteria} {reading : List Exchange}
      {failure : Failure} :
      group.readCriteria = .ok criteria →
      (evaluation.segment owner criteria).run.Replays reading (.error failure) →
      PassTrace (⟨.liveGroup owner id, .ok (some group)⟩ :: reading) (.error failure)
  | rowsFailed {group : Group} {criteria : Criteria} {reading : List Exchange} {segment : Segment}
      (failure : Failure) :
      group.readCriteria = .ok criteria →
      (evaluation.segment owner criteria).run.Replays reading (.ok segment) →
      PassTrace
        (⟨.liveGroup owner id, .ok (some group)⟩ :: reading ++
          [⟨.currentMembers id, .error failure⟩])
        (.error failure)
  | commitFailed {group : Group} {criteria : Criteria} {reading : List Exchange}
      {segment : Segment} (rows : List Member) (now : Instant) (failure : Failure) :
      group.readCriteria = .ok criteria →
      (evaluation.segment owner criteria).run.Replays reading (.ok segment) →
      PassTrace
        (⟨.liveGroup owner id, .ok (some group)⟩ :: reading ++
          [⟨.currentMembers id, .ok rows⟩, ⟨.clock, now⟩,
            ⟨.commit (group.plan rows segment now), .error failure⟩])
        (.error failure)
  | committed {group : Group} {criteria : Criteria} {reading : List Exchange}
      {segment : Segment} (rows : List Member) (now : Instant) :
      group.readCriteria = .ok criteria →
      (evaluation.segment owner criteria).run.Replays reading (.ok segment) →
      PassTrace
        (⟨.liveGroup owner id, .ok (some group)⟩ :: reading ++
          [⟨.currentMembers id, .ok rows⟩, ⟨.clock, now⟩,
            ⟨.commit (group.plan rows segment now), .ok ()⟩])
        (.ok
          { group := id, added := (group.plan rows segment now).additions.length
            removed := (group.plan rows segment now).removals.length
            totalContacts := segment.size })

variable {evaluation owner id}

theorem PassTrace.of_found {group : Group} {criteria : Criteria} {exchanges : List Exchange}
    {result : Except Failure PassReport} (readable : group.readCriteria = .ok criteria)
    (replayed :
      (evaluation.reconcileFound owner id group criteria).run.Replays exchanges result) :
    PassTrace evaluation owner id
      (⟨.liveGroup owner id, .ok (some group)⟩ :: exchanges) result := by
  rcases Attempt.replays_bind_iff.mp replayed with ⟨failure, rfl, stopped⟩ |
    ⟨segment, reading, readingRest, rfl, evaluated, afterReading⟩
  · exact .evaluationFailed readable stopped
  rcases Attempt.replays_bind_iff.mp afterReading with ⟨failure, rfl, stopped⟩ |
    ⟨rows, rowsPart, rowsRest, rfl, rowsAsked, afterRows⟩
  · obtain rfl := Program.replays_call_iff.mp stopped
    exact .rowsFailed failure readable evaluated
  obtain rfl := Program.replays_call_iff.mp rowsAsked
  rcases Attempt.replays_bind_iff.mp afterRows with ⟨failure, rfl, stopped⟩ |
    ⟨now, clockPart, clockRest, rfl, clockAsked, afterClock⟩
  · obtain ⟨_, impossible, _⟩ := Attempt.replays_always_iff.mp stopped
    cases impossible
  obtain ⟨_, same, clockAnswered⟩ := Attempt.replays_always_iff.mp clockAsked
  cases same
  obtain rfl := Program.replays_call_iff.mp clockAnswered
  rcases Attempt.replays_bind_iff.mp afterClock with ⟨failure, rfl, stopped⟩ |
    ⟨_, commitPart, commitRest, rfl, commitAsked, afterCommit⟩
  · obtain rfl := Program.replays_call_iff.mp stopped
    exact .commitFailed rows now failure readable evaluated
  obtain rfl := Program.replays_call_iff.mp commitAsked
  obtain ⟨rfl, rfl⟩ := Attempt.replays_pure_iff.mp afterCommit
  exact .committed rows now readable evaluated

theorem PassTrace.of_replays {exchanges : List Exchange} {result : Except Failure PassReport}
    (replayed : (evaluation.reconcileLocked owner id).run.Replays exchanges result) :
    PassTrace evaluation owner id exchanges result := by
  rw [evaluation.reconcileLocked_eq] at replayed
  rcases Attempt.replays_bind_iff.mp replayed with ⟨failure, rfl, stopped⟩ |
    ⟨found, lookupPart, lookupRest, rfl, lookupAsked, afterLookup⟩
  · obtain rfl := Program.replays_call_iff.mp stopped
    exact .lookupFailed failure
  obtain rfl := Program.replays_call_iff.mp lookupAsked
  cases found with
  | none =>
      obtain ⟨rfl, rfl⟩ := Attempt.replays_throw_iff.mp afterLookup
      exact .noGroup
  | some group =>
      simp only [Evaluation.reconcileLooked] at afterLookup
      cases readable : group.readCriteria with
      | error problem =>
          simp only [readable] at afterLookup
          obtain ⟨rfl, rfl⟩ := Attempt.replays_throw_iff.mp afterLookup
          exact .unusable readable
      | ok criteria =>
          simp only [readable] at afterLookup
          exact .of_found readable afterLookup

/-- A pass takes its lock first and gives it back last. -/
theorem Evaluation.reconcile_replays {exchanges : List Exchange}
    {result : Except Failure PassReport}
    (replayed : (evaluation.reconcile owner id).run.Replays exchanges result) :
    ∃ inner, exchanges = ⟨.lock id, ()⟩ :: inner ++ [⟨.unlock id, ()⟩] ∧
      (evaluation.reconcileLocked owner id).run.Replays inner result := by
  obtain ⟨_, _, rest, rfl, locked, replayedRest⟩ := Program.replays_bind_iff.mp replayed
  obtain rfl := Program.replays_call_iff.mp locked
  obtain ⟨found, inner, last, rfl, replayedInner, replayedLast⟩ :=
    Program.replays_bind_iff.mp replayedRest
  obtain ⟨_, _, silence, rfl, unlocked, replayedDone⟩ := Program.replays_bind_iff.mp replayedLast
  obtain rfl := Program.replays_call_iff.mp unlocked
  obtain ⟨rfl, rfl⟩ := Program.replays_done_iff.mp replayedDone
  exact ⟨inner, rfl, replayedInner⟩

end Cohort
