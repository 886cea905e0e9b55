import Cohort.Proofs.Reading

/-!
If no call fails, the result of a pass and the store after it are functions of the store
and of the time.
-/

namespace Cohort

namespace Attempt

variable {α β : Type} {faulty later : FaultyStore} {attempt : Attempt α} {rest : α → Attempt β}

theorem run_bind_of_ok {value : α} (ran : faulty.run attempt.run = (some (.ok value), later)) :
    faulty.run (attempt >>= rest).run = later.run (rest value).run := by
  have sequence : (attempt >>= rest).run = attempt.run.bind (ExceptT.bindCont rest) := rfl
  unfold FaultyStore.run at ran ⊢
  rw [sequence, Program.run_bind, ran]
  rfl

theorem run_bind_of_error {failure : Failure}
    (ran : faulty.run attempt.run = (some (.error failure), later)) :
    faulty.run (attempt >>= rest).run = (some (.error failure), later) := by
  have sequence : (attempt >>= rest).run = attempt.run.bind (ExceptT.bindCont rest) := rfl
  unfold FaultyStore.run at ran ⊢
  rw [sequence, Program.run_bind, ran]
  rfl

end Attempt

namespace Store

/-- The result of a pass that commits a plan, and the store after it. -/
def passFound (store : Store) (id : Int) (group : Group) (segment : Segment) (now : Instant) :
    Except Failure PassReport × Store :=
  let changes := group.plan (store.currentMembers id) segment now
  match store.commit changes with
  | .error failure => (.error failure, store)
  | .ok after =>
      (.ok
        { group := id, added := changes.additions.length, removed := changes.removals.length,
          totalContacts := segment.size },
        after)

/-- The result of a pass, and the store after it. -/
def pass (store : Store) (owner : String) (id : Int) (now : Instant) :
    Except Failure PassReport × Store :=
  match store.liveGroup? owner id with
  | none => (.error (.noSuchGroup owner id), store)
  | some group =>
      match group.readCriteria with
      | .error problem => (.error (.unusableCriteria problem), store)
      | .ok criteria => store.passFound id group (store.segment owner criteria) now

variable (store : Store) (now : Instant) (lookup : TagLookup) (evaluation : Evaluation)
  (owner : String) (id : Int)

theorem run_commit (changes : ChangeSet) (report : PassReport) :
    (store.faultless now lookup).run
        (do Attempt.ask (.call (.commit changes)); pure report : Attempt PassReport).run =
      match store.commit changes with
      | .error failure => (some (.error failure), store.faultless now lookup)
      | .ok after => (some (.ok report), after.faultless now lookup) := by
  have asked : (store.faultless now lookup).run (Attempt.ask (.call (.commit changes))).run =
      (some (store.answer now lookup (.commit changes)).1,
        (store.answer now lookup (.commit changes)).2.faultless now lookup) := rfl
  cases committed : store.commit changes with
  | error failure =>
      simp only [answer, committed] at asked
      exact Attempt.run_bind_of_error asked
  | ok after =>
      simp only [answer, committed] at asked
      exact Attempt.run_bind_of_ok asked

theorem run_reconcileFound (group : Group) (criteria : Criteria) :
    (store.faultless now lookup).run (evaluation.reconcileFound owner id group criteria).run =
      (some (store.passFound id group (store.segment owner criteria) now).1,
        (store.passFound id group (store.segment owner criteria) now).2.faultless now lookup) := by
  have clock : (store.faultless now lookup).run (Attempt.always (.call .clock)).run =
      (some (.ok now), store.faultless now lookup) := rfl
  apply (Attempt.run_bind_of_ok (store.run_segment now lookup evaluation owner criteria)).trans
  apply (Attempt.run_bind_of_ok ((Attempt.reads_currentMembers id).run now)).trans
  apply (Attempt.run_bind_of_ok clock).trans
  apply (store.run_commit now lookup _ _).trans
  unfold passFound
  simp only
  split <;> rfl

theorem run_reconcileLocked :
    (store.faultless now lookup).run (evaluation.reconcileLocked owner id).run =
      (some (store.pass owner id now).1, (store.pass owner id now).2.faultless now lookup) := by
  rw [evaluation.reconcileLocked_eq]
  apply (Attempt.run_bind_of_ok ((Attempt.reads_liveGroup owner id).run now)).trans
  unfold pass
  cases store.liveGroup? owner id with
  | none => rfl
  | some group =>
      simp only [Evaluation.reconcileLooked]
      cases group.readCriteria with
      | error problem => rfl
      | ok criteria => exact store.run_reconcileFound now lookup evaluation owner id group criteria

/-- A pass without faults: taking the lock and giving it back change nothing. -/
theorem run_reconcile :
    (store.faultless now lookup).run (evaluation.reconcile owner id).run =
      (some (store.pass owner id now).1, (store.pass owner id now).2.faultless now lookup) := by
  have locked : (store.faultless now lookup).run (evaluation.reconcile owner id).run =
      (store.faultless now lookup).run ((evaluation.reconcileLocked owner id).run.bind fun result =>
        (Program.call (.unlock id)).bind fun _ => .done result) := rfl
  have held := store.run_reconcileLocked now lookup evaluation owner id
  unfold FaultyStore.run at locked held ⊢
  rw [locked, Program.run_bind, held]
  rfl

end Store

end Cohort
