import Cohort.Proofs.PassUnderWay
import Cohort.Proofs.Passes

/-!
# Commits of passes

A pass only reads until it commits, and reading leaves the store as it is.  So a pass
that has the store for itself commits the plan for the very store that its commit finds.
-/

namespace Cohort

variable {lookup : TagLookup} {store after : Store} {events : List Event}

/-- If the event is a commit that is carried out, it is that of the plan for a live
group, made from the rows and the segment that the store before it holds. -/
def Event.Planned (event : Event) : Prop :=
  ∀ changes, event.toExchange = ⟨.commit changes, .ok ()⟩ →
    ∃ owner id group criteria now,
      event.before.liveGroup? owner id = some group ∧ group.readCriteria = .ok criteria ∧
        changes =
          group.plan (event.before.currentMembers id) (event.before.segment owner criteria) now

/-- Without a commit that is carried out the store stays as it is. -/
theorem Conversation.unchanged (conversation : Conversation lookup store events after)
    (uncommitted : ∀ changes, ⟨.commit changes, .ok ()⟩ ∉ events.map Event.toExchange) :
    after = store := by
  induction conversation with
  | silent store => rfl
  | @speak event events after genuine _ induction =>
      simp only [List.map_cons, List.mem_cons, not_or] at uncommitted
      have later := induction fun changes => (uncommitted changes).2
      rcases genuine.writes with unchanged | ⟨changes, commits, _⟩
      · exact later.trans unchanged
      · exact ((uncommitted changes).1 commits.symm).elim

theorem Uncommitted.not_mem {said : List Exchange} (uncommitted : Uncommitted said)
    (changes : ChangeSet) : ⟨.commit changes, .ok ()⟩ ∉ said :=
  fun member => uncommitted _ member changes rfl

theorem Attempt.Reads.eq_of_ok {α : Type} {attempt : Attempt α} {value found : α}
    (reads : attempt.Reads lookup store value)
    (conversation : Conversation lookup store events after)
    (replayed : attempt.run.Replays (events.map Event.toExchange) (.ok found)) :
    after = store ∧ found = value := by
  obtain ⟨unchanged, ⟨_, impossible, _⟩ | ⟨same, _⟩⟩ := reads events after _ conversation replayed
  · cases impossible
  · exact ⟨unchanged, Except.ok.inj same⟩

/-- What a pass that is alone with the store has prepared is what the store holds. -/
theorem Prepared.of_conversation {evaluation : Evaluation} {owner : String} {id : Int}
    {group : Group} {segment : Segment} {rows : List Member} {now : Instant}
    (prepared : Prepared evaluation owner id (⟨.lock id, ()⟩ :: events.map Event.toExchange) group
      segment rows now)
    (conversation : Conversation lookup store events after) :
    after = store ∧ store.liveGroup? owner id = some group ∧ rows = store.currentMembers id ∧
      ∃ criteria, group.readCriteria = .ok criteria ∧ segment = store.segment owner criteria := by
  have unchanged : after = store :=
    conversation.unchanged fun changes said =>
      prepared.uncommitted.not_mem changes (List.mem_cons_of_mem _ said)
  obtain ⟨criteria, reading, said, readable, replayed⟩ := prepared
  obtain ⟨looked, later, rfl, looksUp, saidLater⟩ :=
    List.map_eq_cons_iff.mp (List.cons.inj said).2
  obtain ⟨judging, last, rfl, rfl, saidLast⟩ := List.map_eq_append_iff.mp saidLater
  obtain ⟨listed, clock, rfl, lists, _⟩ := List.map_eq_cons_iff.mp saidLast
  -- The parts of the conversation: the look-up, the segment, the rows, and the clock.
  obtain ⟨found, lookupPart, rest⟩ :=
    Conversation.append_iff.mp
      (show Conversation lookup store ([looked] ++ _) after from conversation)
  obtain ⟨judged, judgingPart, rest⟩ := Conversation.append_iff.mp rest
  obtain ⟨_, rowsPart, _⟩ :=
    Conversation.append_iff.mp (show Conversation lookup judged ([listed] ++ _) after from rest)
  obtain ⟨rfl, sameGroup⟩ := (Attempt.reads_liveGroup owner id).eq_of_ok lookupPart
    (Program.replays_call_iff.mpr (List.singleton_inj.mpr looksUp))
  obtain ⟨rfl, sameSegment⟩ :=
    (Attempt.reads_segment evaluation owner criteria).eq_of_ok judgingPart replayed
  obtain ⟨_, sameRows⟩ := (Attempt.reads_currentMembers id).eq_of_ok rowsPart
    (Program.replays_call_iff.mpr (List.singleton_inj.mpr lists))
  exact ⟨unchanged, sameGroup.symm, sameRows, criteria, readable, sameSegment⟩

namespace Program

variable {α β : Type}

/-- Alone with a store, the program commits plans for that store only. -/
def Plans (program : Program α) : Prop :=
  ∀ (lookup : TagLookup) (store : Store) (events : List Event) (after : Store) (value : α),
    Conversation lookup store events after →
    program.Replays (events.map Event.toExchange) value → ∀ event ∈ events, event.Planned

theorem Plans.of_makesOnly {program : Program α}
    (only : program.MakesOnly fun call => ∀ changes, call ≠ .commit changes) : program.Plans := by
  intro lookup store events after value _ replayed event member changes commits
  have allowed := Event.allowed_of_replays replayed only event member changes
  exact (allowed (congrArg Exchange.call commits)).elim

theorem Plans.bind {program : Program α} {rest : α → Program β} (first : program.Plans)
    (second : ∀ value, (rest value).Plans) : (program.bind rest).Plans := by
  intro lookup store events after result conversation replayed event member
  obtain ⟨value, middle, front, back, rfl, ⟨frontPart, replayedFront⟩, backPart, replayedBack⟩ :=
    conversation.of_bind replayed
  rcases List.mem_append.mp member with inFront | inBack
  · exact first lookup store front middle value frontPart replayedFront event inFront
  · exact second value lookup middle back after result backPart replayedBack event inBack

end Program

theorem Attempt.plans_bind {α β : Type} {attempt : Attempt α} {rest : α → Attempt β}
    (first : attempt.run.Plans) (second : ∀ value, (rest value).run.Plans) :
    (attempt >>= rest).run.Plans := by
  apply Program.Plans.bind first
  intro result
  cases result with
  | error failure => exact .of_makesOnly trivial
  | ok value => exact second value

namespace Evaluation

variable (evaluation : Evaluation) (owner : String) (id : Int)

theorem reconcile_plans : (evaluation.reconcile owner id).run.Plans := by
  intro lookup store events after result conversation replayed event member changes commits
  obtain ⟨inner, rfl, innerPart, replayedInner⟩ := conversation.of_reconcile replayed
  have inInner : event ∈ inner := by
    rcases List.mem_append.mp member with earlier | last
    · rcases List.mem_cons.mp earlier with rfl | inInner
      · cases commits
      · exact inInner
    · cases List.mem_singleton.mp last
      cases commits
  have said : ⟨.commit changes, .ok ()⟩ ∈ inner.map Event.toExchange :=
    commits ▸ List.mem_map_of_mem inInner
  rcases (PassTrace.of_replays replayedInner).uncommitted_or with ⟨uncommitted, _⟩ |
    ⟨earlier, group, segment, rows, now, answer, whole, prepared, _⟩
  · exact (uncommitted.not_mem changes said).elim
  obtain ⟨front, last, rfl, rfl, lastSaid⟩ := List.map_eq_append_iff.mp whole
  obtain ⟨asked, rfl, commitsLast⟩ := List.map_eq_singleton_iff.mp lastSaid
  obtain ⟨middle, frontPart, lastPart⟩ := Conversation.append_iff.mp innerPart
  obtain ⟨rfl, found, rfl, criteria, readable, rfl⟩ := prepared.of_conversation frontPart
  -- The only commit of a pass is its last call.
  rcases List.mem_append.mp inInner with inFront | isLast
  · have saidEarlier := List.mem_map_of_mem (f := Event.toExchange) inFront
    rw [commits] at saidEarlier
    exact (prepared.uncommitted.not_mem changes (List.mem_cons_of_mem _ saidEarlier)).elim
  · obtain rfl := List.mem_singleton.mp isLast
    obtain ⟨begins, _, _⟩ := Conversation.cons_iff.mp lastPart
    rw [begins]
    refine ⟨owner, id, group, criteria, now, found, readable, ?_⟩
    have same := commits.symm.trans commitsLast
    cases same
    rfl

theorem reconcileSucceeds_plans : (evaluation.reconcileSucceeds owner id).Plans :=
  (evaluation.reconcile_plans owner id).bind fun _ => .of_makesOnly trivial

theorem reconcileEach_plans (ids : List Int) : (evaluation.reconcileEach owner ids).Plans := by
  induction ids with
  | nil => exact .of_makesOnly trivial
  | cons id ids induction =>
      apply (evaluation.reconcileSucceeds_plans owner id).bind
      intro succeeded
      apply induction.bind
      intro summary
      exact .of_makesOnly trivial

theorem reconcileOwner_plans : (evaluation.reconcileOwner owner).run.Plans := by
  apply Attempt.plans_bind
  · exact .of_makesOnly ⟨by simp, fun _ => trivial⟩
  · intro groups
    apply (evaluation.reconcileEach_plans owner _).bind
    intro summary
    exact .of_makesOnly trivial

theorem reconcileOwners_plans (summary : RoundSummary) (owners : List String) :
    (evaluation.reconcileOwners summary owners).Plans := by
  induction owners generalizing summary with
  | nil => exact .of_makesOnly trivial
  | cons owner owners induction =>
      apply (evaluation.reconcileOwner_plans owner).bind
      intro result
      exact induction (summary.count result)

theorem round_plans : evaluation.round.run.Plans := by
  apply Attempt.plans_bind
  · exact .of_makesOnly ⟨by simp, fun _ => trivial⟩
  · intro owners
    apply (evaluation.reconcileOwners_plans _ owners).bind
    intro summary
    exact .of_makesOnly trivial

end Evaluation

end Cohort
