import Cohort.Proofs.Planned
import Cohort.Proofs.Snapshot

/-!
# Passes that fail

A pass stops at the first call that fails and ends with its failure; apart from that it
fails only if its group cannot be found or used.  Whatever the reason, the store is then
as it was.
-/

namespace Cohort

def Exchange.FailsWith (exchange : Exchange) (failure : Failure) : Prop :=
  exchange.call.failed? failure = some exchange.answer

/-- No call fails. -/
def Spared (said : List Exchange) : Prop :=
  ∀ exchange ∈ said, ∀ failure, ¬ exchange.FailsWith failure

/-- The last call is the first that fails, and this is its failure. -/
def Broken (said : List Exchange) (failure : Failure) : Prop :=
  ∃ front exchange, said = front ++ [exchange] ∧ Spared front ∧ exchange.FailsWith failure

theorem spared_nil : Spared [] := by
  intro exchange member
  cases member

theorem spared_append_iff {front back : List Exchange} :
    Spared (front ++ back) ↔ Spared front ∧ Spared back :=
  List.forall_mem_append

theorem spared_singleton_iff {exchange : Exchange} :
    Spared [exchange] ↔ ∀ failure, ¬ exchange.FailsWith failure :=
  List.forall_mem_singleton

theorem Broken.after {front back : List Exchange} {failure : Failure} (spared : Spared front)
    (broken : Broken back failure) : Broken (front ++ back) failure := by
  obtain ⟨middle, exchange, rfl, middleSpared, fails⟩ := broken
  refine ⟨front ++ middle, exchange, (List.append_assoc ..).symm, ?_, fails⟩
  exact spared_append_iff.mpr ⟨spared, middleSpared⟩

namespace Attempt

variable {α β : Type}

/-- The attempt succeeds only if no call fails, and else ends with the first failing
call and its failure. -/
def StopsAtFailure (attempt : Attempt α) : Prop :=
  ∀ said result, attempt.run.Replays said result →
    (∀ value, result = .ok value → Spared said) ∧
      ∀ failure, result = .error failure → Broken said failure

theorem StopsAtFailure.pure (value : α) : StopsAtFailure (pure value) := by
  intro said result replayed
  obtain ⟨rfl, rfl⟩ := replays_pure_iff.mp replayed
  constructor
  · intro _ _
    exact spared_nil
  · intro failure impossible
    cases impossible

theorem StopsAtFailure.bind {attempt : Attempt α} {rest : α → Attempt β}
    (first : attempt.StopsAtFailure) (second : ∀ value, (rest value).StopsAtFailure) :
    (attempt >>= rest).StopsAtFailure := by
  intro said result replayed
  rcases replays_bind_iff.mp replayed with ⟨failure, rfl, stopped⟩ |
    ⟨value, front, back, rfl, replayedFront, replayedBack⟩
  · constructor
    · intro value impossible
      cases impossible
    · intro other same
      cases same
      exact (first said _ stopped).2 failure rfl
  · have spared := (first front _ replayedFront).1 value rfl
    obtain ⟨succeeds, fails⟩ := second value back result replayedBack
    constructor
    · intro last same
      exact spared_append_iff.mpr ⟨spared, succeeds last same⟩
    · intro failure same
      exact (fails failure same).after spared

theorem stopsAtFailure_of_call (call : Call) (encode : Except Failure α → call.Answer)
    {attempt : Attempt α}
    (asks : ∀ said result, attempt.run.Replays said result → said = [⟨call, encode result⟩])
    (failed : ∀ failure, call.failed? failure = some (encode (.error failure)))
    (answered : ∀ failure value, call.failed? failure ≠ some (encode (.ok value))) :
    attempt.StopsAtFailure := by
  intro said result replayed
  obtain rfl := asks said result replayed
  constructor
  · intro value same
    subst same
    apply spared_singleton_iff.mpr
    intro failure fails
    exact answered failure value fails
  · intro failure same
    subst same
    exact ⟨[], _, rfl, spared_nil, failed failure⟩

theorem stopsAtFailure_liveGroup (owner : String) (id : Int) :
    StopsAtFailure (ask (.call (.liveGroup owner id))) :=
  stopsAtFailure_of_call (.liveGroup owner id) (fun result => result)
    (fun _ _ replayed => Program.replays_call_iff.mp replayed)
    (by simp [Call.failed?]) (by simp [Call.failed?])

theorem stopsAtFailure_liveContacts (owner : String) :
    StopsAtFailure (ask (.call (.liveContacts owner))) :=
  stopsAtFailure_of_call (.liveContacts owner) (fun result => result)
    (fun _ _ replayed => Program.replays_call_iff.mp replayed)
    (by simp [Call.failed?]) (by simp [Call.failed?])

theorem stopsAtFailure_tagsOf (contact : Int) :
    StopsAtFailure (ask (.call (.tagsOf contact))) :=
  stopsAtFailure_of_call (.tagsOf contact) (fun result => result)
    (fun _ _ replayed => Program.replays_call_iff.mp replayed)
    (by simp [Call.failed?]) (by simp [Call.failed?])

theorem stopsAtFailure_tagsOfAll (contacts : List Int) :
    StopsAtFailure (ask (.call (.tagsOfAll contacts))) :=
  stopsAtFailure_of_call (.tagsOfAll contacts) (fun result => result)
    (fun _ _ replayed => Program.replays_call_iff.mp replayed)
    (by simp [Call.failed?]) (by simp [Call.failed?])

theorem stopsAtFailure_currentMembers (group : Int) :
    StopsAtFailure (ask (.call (.currentMembers group))) :=
  stopsAtFailure_of_call (.currentMembers group) (fun result => result)
    (fun _ _ replayed => Program.replays_call_iff.mp replayed)
    (by simp [Call.failed?]) (by simp [Call.failed?])

theorem stopsAtFailure_commit (changes : ChangeSet) :
    StopsAtFailure (ask (.call (.commit changes))) :=
  stopsAtFailure_of_call (.commit changes) (fun result => result)
    (fun _ _ replayed => Program.replays_call_iff.mp replayed)
    (by simp [Call.failed?]) (by simp [Call.failed?])

theorem stopsAtFailure_clock : StopsAtFailure (always (.call .clock)) := by
  intro said result replayed
  obtain ⟨now, rfl, asked⟩ := replays_always_iff.mp replayed
  obtain rfl := Program.replays_call_iff.mp asked
  constructor
  · intro _ _
    apply spared_singleton_iff.mpr
    intro failure fails
    cases fails
  · intro failure impossible
    cases impossible

theorem stopsAtFailure_fetchOneByOne (contacts : List Int) (table : TagTable) :
    StopsAtFailure (fetchOneByOne table contacts) := by
  induction contacts generalizing table with
  | nil => exact .pure table
  | cons contact contacts induction =>
      exact (stopsAtFailure_tagsOf contact).bind fun _ => induction _

theorem stopsAtFailure_fetchTags (contacts : List Int) : StopsAtFailure (fetchTags contacts) := by
  apply (stopsAtFailure_tagsOfAll contacts).bind
  intro table
  cases table with
  | none => exact stopsAtFailure_fetchOneByOne contacts .empty
  | some table => exact .pure table

variable (evaluation : Evaluation) (owner : String)

theorem stopsAtFailure_segment (criteria : Criteria) :
    StopsAtFailure (evaluation.segment owner criteria) := by
  rw [evaluation.segment_eq]
  apply (stopsAtFailure_liveContacts owner).bind
  intro contacts
  unfold Evaluation.judging
  split
  · exact .pure _
  · apply (stopsAtFailure_fetchTags _).bind
    intro tags
    exact .pure _

theorem stopsAtFailure_reconcileFound (id : Int) (group : Group) (criteria : Criteria) :
    StopsAtFailure (evaluation.reconcileFound owner id group criteria) := by
  apply (stopsAtFailure_segment evaluation owner criteria).bind
  intro segment
  apply (stopsAtFailure_currentMembers id).bind
  intro rows
  apply stopsAtFailure_clock.bind
  intro now
  apply (stopsAtFailure_commit _).bind
  intro _
  exact .pure _

end Attempt

/-- Why a pass fails: a call fails, after which only the lock is given back, or no call
fails and the group is not there or cannot be used. -/
inductive Store.PassFails (store : Store) (owner : String) (id : Int) :
    List Exchange → Failure → Prop where
  | call {front : List Exchange} {exchange : Exchange} {failure : Failure} :
      Spared front → exchange.FailsWith failure →
      PassFails store owner id (front ++ [exchange, ⟨.unlock id, ()⟩]) failure
  | noGroup {said : List Exchange} :
      Spared said → store.liveGroup? owner id = none →
      PassFails store owner id said (.noSuchGroup owner id)
  | unusable {said : List Exchange} {group : Group} {problem : CriteriaProblem} :
      Spared said → store.liveGroup? owner id = some group → group.readCriteria = .error problem →
      PassFails store owner id said (.unusableCriteria problem)

variable {lookup : TagLookup} {evaluation : Evaluation} {owner : String} {id : Int}
  {store after : Store} {events : List Event}

theorem Store.PassFails.not_reconcilable {said : List Exchange} {failure : Failure}
    (fails : store.PassFails owner id said failure) (spared : Spared said) :
    ¬ store.Reconcilable owner id := by
  rw [Store.reconcilable_iff]
  intro reconcilable
  obtain ⟨group, criteria, found, readable⟩ := reconcilable
  cases fails with
  | call _ callFails =>
      obtain ⟨_, last⟩ := spared_append_iff.mp spared
      exact last _ List.mem_cons_self _ callFails
  | noGroup _ absent =>
      rw [absent] at found
      cases found
  | unusable _ held unreadable =>
      cases held.symm.trans found
      cases unreadable.symm.trans readable

theorem spared_locked_iff {inner : List Exchange} :
    Spared (⟨.lock id, ()⟩ :: inner ++ [⟨.unlock id, ()⟩]) ↔ Spared inner := by
  have locks : Spared [⟨.lock id, ()⟩] := spared_singleton_iff.mpr fun _ fails => by cases fails
  have unlocks : Spared [⟨.unlock id, ()⟩] := spared_singleton_iff.mpr fun _ fails => by cases fails
  have whole : (⟨.lock id, ()⟩ :: inner ++ [⟨.unlock id, ()⟩] : List Exchange) =
      [⟨.lock id, ()⟩] ++ (inner ++ [⟨.unlock id, ()⟩]) := rfl
  rw [whole, spared_append_iff, spared_append_iff, and_iff_right locks, and_iff_left unlocks]

theorem Broken.passFails {inner : List Exchange} {failure : Failure}
    (broken : Broken inner failure) :
    store.PassFails owner id (⟨.lock id, ()⟩ :: inner ++ [⟨.unlock id, ()⟩]) failure := by
  obtain ⟨front, exchange, rfl, spared, fails⟩ := broken
  have locked : Spared (⟨.lock id, ()⟩ :: front) :=
    (spared_append_iff.mp (spared_locked_iff.mpr spared)).1
  have whole : (⟨.lock id, ()⟩ :: (front ++ [exchange]) ++ [⟨.unlock id, ()⟩] : List Exchange) =
      (⟨.lock id, ()⟩ :: front) ++ [exchange, ⟨.unlock id, ()⟩] := by
    simp
  rw [whole]
  exact .call locked fails

/-- Over any store, sound or not, a pass succeeds only if no call fails and its group
can be reconciled; else the reason is one of those above. -/
theorem Conversation.pass_ends {result : Except Failure PassReport}
    (conversation : Conversation lookup store events after)
    (replayed : (evaluation.reconcile owner id).run.Replays (events.map Event.toExchange) result) :
    (∀ report, result = .ok report →
        Spared (events.map Event.toExchange) ∧ store.Reconcilable owner id) ∧
      ∀ failure, result = .error failure →
        store.PassFails owner id (events.map Event.toExchange) failure := by
  obtain ⟨inner, rfl, innerPart, replayedInner⟩ := conversation.of_reconcile replayed
  simp only [List.cons_append, List.map_cons, List.map_append, List.map_nil]
  rw [evaluation.reconcileLocked_eq] at replayedInner
  have lookupStops := Attempt.stopsAtFailure_liveGroup owner id
  rcases Attempt.replays_bind_iff.mp replayedInner with ⟨failure, rfl, stopped⟩ |
    ⟨found, front, back, split, replayedFront, replayedBack⟩
  · refine ⟨by simp, ?_⟩
    intro other same
    cases same
    exact ((lookupStops _ _ stopped).2 failure rfl).passFails
  obtain ⟨frontEvents, backEvents, rfl, rfl, rfl⟩ := List.map_eq_append_iff.mp split
  obtain ⟨middle, frontPart, backPart⟩ := Conversation.append_iff.mp innerPart
  have lookupSpared := (lookupStops _ _ replayedFront).1 found rfl
  obtain ⟨rfl, rfl⟩ := (Attempt.reads_liveGroup owner id).eq_of_ok frontPart replayedFront
  cases held : middle.liveGroup? owner id with
  | none =>
      rw [held] at replayedBack
      obtain ⟨silent, rfl⟩ := Attempt.replays_throw_iff.mp replayedBack
      refine ⟨by simp, ?_⟩
      intro failure same
      cases same
      rw [List.map_append, silent, List.append_nil]
      exact .noGroup (spared_locked_iff.mpr lookupSpared) held
  | some group =>
      rw [held] at replayedBack
      simp only [Evaluation.reconcileLooked] at replayedBack
      cases readable : group.readCriteria with
      | error problem =>
          simp only [readable] at replayedBack
          obtain ⟨silent, rfl⟩ := Attempt.replays_throw_iff.mp replayedBack
          refine ⟨by simp, ?_⟩
          intro failure same
          cases same
          rw [List.map_append, silent, List.append_nil]
          exact .unusable (spared_locked_iff.mpr lookupSpared) held readable
      | ok criteria =>
          simp only [readable] at replayedBack
          obtain ⟨succeeds, fails⟩ :=
            Attempt.stopsAtFailure_reconcileFound evaluation owner id group criteria _
              _ replayedBack
          rw [List.map_append]
          constructor
          · intro report same
            have spared := spared_append_iff.mpr ⟨lookupSpared, succeeds report same⟩
            exact ⟨spared_locked_iff.mpr spared,
              Store.reconcilable_iff.mpr ⟨group, criteria, held, readable⟩⟩
          · intro failure same
            exact ((fails failure same).after lookupSpared).passFails

/-- Over every store and whichever calls fail, a pass succeeds exactly if no call fails
and its group can be reconciled, and asking whether it succeeds is told just that.  If
it fails it has written nothing, its failure is that of the first failing call unless no
call fails, and whatever is done later, a pass without failures comes to the same as if
there had not been the failed one. -/
theorem Store.failed_pass_writes_nothing (store : Store) (evaluation : Evaluation)
    (circumstances : Circumstances) (owner : String) (id : Int) :
    ∃ result events after,
      (evaluation.reconcile owner id).run.run circumstances.handle { store, events := [] } =
          (some result, { store := after, events }) ∧
        (evaluation.reconcileSucceeds owner id).run circumstances.handle { store, events := [] } =
          (some result.isOk, { store := after, events }) ∧
        (result.isOk = true ↔
          Spared (events.map Event.toExchange) ∧ store.Reconcilable owner id) ∧
        ∀ failure, result = .error failure →
          after = store ∧ store.PassFails owner id (events.map Event.toExchange) failure ∧
            ∀ (operations : List Operation) (laterOwner : String) (laterId : Int) (now : Instant)
              (lookup : TagLookup),
              ((after.performAll operations).faultless now lookup).run
                  (evaluation.reconcile laterOwner laterId).run =
                ((store.performAll operations).faultless now lookup).run
                  (evaluation.reconcile laterOwner laterId).run := by
  obtain ⟨result, events, after, ran, conversation, replayed⟩ :=
    circumstances.exists_conversation (evaluation.reconcile owner id).run { store, events := [] }
  simp only [List.nil_append] at ran
  obtain ⟨succeeds, fails⟩ := conversation.pass_ends replayed
  refine ⟨result, events, after, ran, ?_, ?_, ?_⟩
  · have asked : evaluation.reconcileSucceeds owner id =
        (evaluation.reconcile owner id).run.bind fun result => .done result.isOk := rfl
    rw [asked, Program.run_bind, ran]
    rfl
  · cases result with
    | ok report =>
        have both := succeeds report rfl
        exact iff_of_true rfl both
    | error failure =>
        refine iff_of_false (by simp [Except.isOk, Except.toBool]) ?_
        intro both
        exact (fails failure rfl).not_reconcilable both.1 both.2
  · intro failure same
    subst same
    have unchanged : after = store :=
      conversation.unchanged fun changes => Program.Reaches.not_committed replayed changes
    subst unchanged
    exact ⟨rfl, fails failure rfl, fun _ _ _ _ _ => rfl⟩

end Cohort
