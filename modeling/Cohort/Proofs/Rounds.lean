import Cohort.Proofs.Attempts

/-!
# Rounds

In a round every group that is listed is passed exactly once, whatever fails.  A round
comes to nothing only if the owners cannot be listed.
-/

namespace Cohort

open Store

variable {store middle after : Store} {events front back : List Event}

/-- The owners whose groups are listed in a part of a round, those of them for whom this
fails, and the groups that the others have. -/
structure OwnersPassed (store : Store) (owners failed : List String) (attempted synced : List Int)
    (events : List Event) (after : Store) : Prop
    extends Attempts store attempted synced events after where
  mem_failed : ∀ owner,
    owner ∈ failed ↔ ∃ event ∈ events, event.struck = true ∧ event.call = .liveGroups owner
  failed_sublist : failed.Sublist owners
  mem_attempted : ∀ id,
    id ∈ attempted ↔ ∃ owner ∈ owners, owner ∉ failed ∧ store.HasLiveGroup owner id
  attempted_nodup : attempted.Nodup
  synced_sublist : synced.Sublist attempted

theorem OwnersPassed.append {firstOwners secondOwners firstFailed secondFailed : List String}
    {firstIds secondIds firstSynced secondSynced : List Int}
    (first : OwnersPassed store firstOwners firstFailed firstIds firstSynced front middle)
    (second : OwnersPassed middle secondOwners secondFailed secondIds secondSynced back after)
    (different : ∀ owner ∈ firstOwners, owner ∉ secondOwners) :
    OwnersPassed store (firstOwners ++ secondOwners) (firstFailed ++ secondFailed)
      (firstIds ++ secondIds) (firstSynced ++ secondSynced) (front ++ back) after := by
  have apart : ∀ id ∈ firstIds, id ∉ secondIds := by
    intro id inFirst inSecond
    obtain ⟨owner, listed, _, held⟩ := (first.mem_attempted id).mp inFirst
    obtain ⟨other, otherListed, _, otherHeld⟩ := (second.mem_attempted id).mp inSecond
    cases held.owner_unique (first.symm.hasLiveGroup otherHeld)
    exact different owner listed otherListed
  exact
    { toAttempts := first.toAttempts.append second.toAttempts apart
      mem_failed := by
        intro owner
        rw [List.mem_append, first.mem_failed, second.mem_failed]
        simp only [List.mem_append, or_and_right, exists_or]
      failed_sublist := first.failed_sublist.append second.failed_sublist
      mem_attempted := by
        intro id
        rw [List.mem_append, first.mem_attempted, second.mem_attempted]
        simp only [List.mem_append, not_or]
        constructor
        · intro member
          rcases member with ⟨owner, listed, reached, held⟩ | ⟨owner, listed, reached, held⟩
          · have elsewhere : owner ∉ secondFailed := fun failed =>
              different owner listed (second.failed_sublist.subset failed)
            exact ⟨owner, Or.inl listed, ⟨reached, elsewhere⟩, held⟩
          · have elsewhere : owner ∉ firstFailed := fun failed =>
              different owner (first.failed_sublist.subset failed) listed
            exact ⟨owner, Or.inr listed, ⟨elsewhere, reached⟩, first.symm.hasLiveGroup held⟩
        · intro member
          rcases member with ⟨owner, listed | listed, ⟨reachedFirst, reachedSecond⟩, held⟩
          · exact Or.inl ⟨owner, listed, reachedFirst, held⟩
          · exact Or.inr ⟨owner, listed, reachedSecond, first.hasLiveGroup held⟩
      attempted_nodup := List.nodup_append.mpr
        ⟨first.attempted_nodup, second.attempted_nodup, fun id inFirst other inSecond same =>
          apart id inFirst (same ▸ inSecond)⟩
      synced_sublist := first.synced_sublist.append second.synced_sublist }

theorem OwnersPassed.none (store : Store) : OwnersPassed store [] [] [] [] [] store where
  toAttempts := .none store Event.apart_nil
  mem_failed := by simp
  failed_sublist := .slnil
  mem_attempted := by simp
  attempted_nodup := .nil
  synced_sublist := .slnil

/-- The counts of a round so far. -/
structure RoundSummary.Counts (summary : RoundSummary) (owners failed attempted synced : Nat) :
    Prop where
  owners : summary.owners = owners
  ownersFailed : summary.ownersFailed = failed
  groups : summary.groupsSynced + summary.groupsFailed = attempted
  groupsSynced : summary.groupsSynced = synced

section Owner

variable {lookup : TagLookup} {evaluation : Evaluation} {owner : String} {event : Event}

theorem OwnersPassed.unlisted (store : Store) (asked : event.call = .liveGroups owner)
    (struck : event.struck = true) : OwnersPassed store [owner] [owner] [] [] [event] store where
  toAttempts := .none store fun _ => List.forall_mem_singleton.mpr (by simp [asked])
  mem_failed := by
    intro other
    simp only [List.mem_singleton, exists_eq_left, struck, asked, true_and, Call.liveGroups.injEq]
    exact eq_comm
  failed_sublist := .refl _
  mem_attempted := by simp
  attempted_nodup := .nil
  synced_sublist := .slnil

theorem OwnersPassed.listed {own : OwnerSummary} (wellFormed : store.WellFormed)
    (asked : event.call = .liveGroups owner) (unstruck : event.struck = false)
    (conversation : Conversation lookup store back after)
    (replayed : (evaluation.reconcileEach owner ((store.liveGroups owner).map Group.id)).Replays
      (back.map Event.toExchange) own) :
    OwnersPassed store [owner] [] ((store.liveGroups owner).map Group.id) own.succeeded
        (event :: back) after ∧
      own.succeeded.length + own.failed.length =
        ((store.liveGroups owner).map Group.id).length := by
  have notListed := Event.allowed_of_replays replayed (evaluation.reconcileEach_makesOnly owner _)
  obtain ⟨passed, listed, counted⟩ := Attempts.of_reconcileEach wellFormed
    (wellFormed.liveGroups_ids_nodup owner)
    (fun id member => wellFormed.mem_liveGroups_ids.mp member) conversation replayed
  have silent := Attempts.none store fun id =>
    show Event.Apart id [event] from List.forall_mem_singleton.mpr (by simp [asked])
  have noneFails : ∀ other, ¬∃ found ∈ event :: back,
      found.struck = true ∧ found.call = .liveGroups other := by
    rintro other ⟨found, member, struck, lists⟩
    rcases List.mem_cons.mp member with rfl | inBack
    · rw [unstruck] at struck
      cases struck
    · have allowed := notListed found inBack
      rw [lists] at allowed
      exact allowed trivial
  refine ⟨?_, counted⟩
  exact
    { toAttempts := silent.append passed (by simp)
      mem_failed := fun other => iff_of_false List.not_mem_nil (noneFails other)
      failed_sublist := List.nil_sublist _
      mem_attempted := fun id => by simp [wellFormed.mem_liveGroups_ids]
      attempted_nodup := wellFormed.liveGroups_ids_nodup owner
      synced_sublist := listed }

/-- The passes of one owner are a part of a round, and they are counted. -/
theorem OwnersPassed.of_reconcileOwner {result : Except Failure OwnerSummary}
    {summary : RoundSummary} {owners failed attempted synced : Nat}
    (wellFormed : store.WellFormed) (counts : summary.Counts owners failed attempted synced)
    (conversation : Conversation lookup store events after)
    (replayed :
      (evaluation.reconcileOwner owner).run.Replays (events.map Event.toExchange) result) :
    ∃ ownFailed ownAttempted ownSynced,
      OwnersPassed store [owner] ownFailed ownAttempted ownSynced events after ∧
        (summary.count result).Counts owners (failed + ownFailed.length)
          (attempted + ownAttempted.length) (synced + ownSynced.length) := by
  have asks (exchanges : List Exchange) (answer : Except Failure (List Group))
      (asked : (Attempt.ask (.call (.liveGroups owner))).run.Replays exchanges answer) :
      ∃ answer, exchanges = [⟨.liveGroups owner, answer⟩] :=
    ⟨answer, Program.replays_call_iff.mp asked⟩
  rcases (Attempt.reads_liveGroups owner).bind_call asks conversation replayed with
    ⟨rfl, ⟨failure, rfl⟩, event, rfl, asked, struck⟩ |
    ⟨event, back, rfl, asked, unstruck, backPart, replayedBack⟩
  · refine ⟨[owner], [], [], .unlisted after asked struck, counts.owners, ?_, counts.groups,
      counts.groupsSynced⟩
    exact congrArg (· + 1) counts.ownersFailed
  · obtain ⟨own, rfl, replayedEach⟩ := Attempt.replays_always_iff.mp replayedBack
    obtain ⟨passed, counted⟩ :=
      OwnersPassed.listed wellFormed asked unstruck backPart replayedEach
    refine ⟨[], (store.liveGroups owner).map Group.id, own.succeeded, passed, counts.owners,
      counts.ownersFailed, ?_, ?_⟩
    · have groups := counts.groups
      simp only [RoundSummary.count]
      omega
    · have groupsSynced := counts.groupsSynced
      simp only [RoundSummary.count]
      omega

end Owner

theorem OwnersPassed.of_reconcileOwners {lookup : TagLookup} {evaluation : Evaluation}
    {remaining : List String} {summary last : RoundSummary}
    {owners failed attempted synced : Nat} (wellFormed : store.WellFormed)
    (distinct : remaining.Nodup) (counts : summary.Counts owners failed attempted synced)
    (conversation : Conversation lookup store events after)
    (replayed : (evaluation.reconcileOwners summary remaining).Replays
      (events.map Event.toExchange) last) :
    ∃ ownFailed ownAttempted ownSynced,
      OwnersPassed store remaining ownFailed ownAttempted ownSynced events after ∧
        last.Counts owners (failed + ownFailed.length) (attempted + ownAttempted.length)
          (synced + ownSynced.length) := by
  -- The counts are those of the owners before, so they grow along the induction.
  induction remaining generalizing store events summary failed attempted synced with
  | nil =>
      obtain ⟨silent, rfl⟩ := Program.replays_done_iff.mp replayed
      obtain rfl := List.map_eq_nil_iff.mp silent
      obtain rfl := Conversation.nil_iff.mp conversation
      exact ⟨[], [], [], .none _, counts⟩
  | cons owner remaining induction =>
      obtain ⟨absent, distinctRest⟩ := List.nodup_cons.mp distinct
      obtain ⟨result, middle, front, back, rfl, ⟨frontPart, replayedFront⟩, backPart,
        replayedBack⟩ := conversation.of_bind replayed
      obtain ⟨firstFailed, firstAttempted, firstSynced, first, firstCounts⟩ :=
        OwnersPassed.of_reconcileOwner wellFormed counts frontPart replayedFront
      obtain ⟨laterFailed, laterAttempted, laterSynced, later, laterCounts⟩ :=
        induction (frontPart.wellFormed wellFormed) distinctRest firstCounts backPart replayedBack
      refine ⟨firstFailed ++ laterFailed, firstAttempted ++ laterAttempted,
        firstSynced ++ laterSynced, first.append later (by simpa using absent), ?_⟩
      simpa only [List.length_append, Nat.add_assoc] using laterCounts

/-- What a round over a store has done: whose groups it has listed or failed to list,
which groups it has passed, and which of them it has reconciled. -/
structure RoundEffect (store : Store) (summary : RoundSummary) (owners failed : List String)
    (attempted synced : List Int) (events : List Event) (after : Store) : Prop where
  mem_owners : ∀ owner, owner ∈ owners ↔ ∃ id, store.HasLiveGroup owner id
  owners_nodup : owners.Nodup
  owners_count : summary.owners = owners.length
  mem_failed : ∀ owner, owner ∈ failed ↔
    owner ∈ owners ∧ ∃ event ∈ events, event.struck = true ∧ event.call = .liveGroups owner
  failed_nodup : failed.Nodup
  failed_count : summary.ownersFailed = failed.length
  mem_attempted : ∀ id,
    id ∈ attempted ↔ ∃ owner ∈ owners, owner ∉ failed ∧ store.HasLiveGroup owner id
  attempted_nodup : attempted.Nodup
  /-- A group is passed once, and others are not passed at all. -/
  passes : ∀ id ∈ attempted, ∃ inner, Event.PassOf id events inner
  others : ∀ id, id ∉ attempted → Event.Apart id events
  attempted_count : summary.groupsSynced + summary.groupsFailed = attempted.length
  /-- A group is reconciled if its criteria can be read and no call of its own pass is
  struck. -/
  mem_synced : ∀ id, id ∈ synced ↔ id ∈ attempted ∧ store.HasCriteria id ∧
    ∃ inner, Event.PassOf id events inner ∧ Event.Unstruck inner
  synced_nodup : synced.Nodup
  synced_count : summary.groupsSynced = synced.length
  reconciled : after.lapped = false →
    ∀ id ∈ synced, ∀ group criteria, store.groups.find? id = some group →
      group.readCriteria = .ok criteria → after.Reconciled id (store.segment group.owner criteria)
  /-- Of every other group neither the record nor a row has changed. -/
  untouchedRecords : ∀ id, id ∉ synced → after.groups.find? id = store.groups.find? id
  untouchedRows : after.lapped = false →
    ∀ id, id ∉ synced → after.memberHistory id = store.memberHistory id
  sameDefinitions : SameDefinitions store after

theorem OwnersPassed.roundEffect {summary : RoundSummary} {failed : List String}
    {attempted synced : List Int} (wellFormed : store.WellFormed)
    (passed : OwnersPassed store store.ownersWithGroups failed attempted synced events after)
    (first : Event) (asked : first.call = .ownersWithGroups)
    (counts : summary.Counts store.ownersWithGroups.length failed.length attempted.length
      synced.length) :
    RoundEffect store summary store.ownersWithGroups failed attempted synced (first :: events)
      after := by
  have apart (id : Int) : Event.Apart id [first] :=
    List.forall_mem_singleton.mpr (by simp [asked])
  have joined : Attempts store attempted synced (first :: events) after :=
    (Attempts.none store apart).append passed.toAttempts (by simp)
  exact
    { mem_owners := fun _ => wellFormed.mem_ownersWithGroups
      owners_nodup := store.ownersWithGroups_nodup
      owners_count := counts.owners
      mem_failed := by
        intro owner
        rw [passed.mem_failed]
        constructor
        · intro fails
          rcases fails with ⟨event, member, struck, lists⟩
          have failed := (passed.mem_failed owner).mpr ⟨event, member, struck, lists⟩
          exact ⟨passed.failed_sublist.subset failed, event, List.mem_cons_of_mem first member,
            struck, lists⟩
        · intro fails
          rcases fails with ⟨_, event, member, struck, lists⟩
          rcases List.mem_cons.mp member with rfl | inEvents
          · rw [asked] at lists
            cases lists
          · exact ⟨event, inEvents, struck, lists⟩
      failed_nodup := store.ownersWithGroups_nodup.sublist passed.failed_sublist
      failed_count := counts.ownersFailed
      mem_attempted := passed.mem_attempted
      attempted_nodup := passed.attempted_nodup
      passes := joined.passes
      others := joined.others
      attempted_count := counts.groups
      mem_synced := joined.synced_iff
      synced_nodup := passed.attempted_nodup.sublist passed.synced_sublist
      synced_count := counts.groupsSynced
      reconciled := passed.reconciled
      untouchedRecords := passed.untouchedRecords
      untouchedRows := passed.untouchedRows
      sameDefinitions := passed.toSameDefinitions }

/-- A round over a reachable store is an error exactly if the owners cannot be listed,
and then nothing has changed.  Whichever other calls fail, every live dynamic group
whose owner's groups can be listed is passed once, and every group whose own pass is
spared and whose criteria can be read is synced.  While the sequence of rows is in
order, a synced group is reconciled and no other group is touched. -/
theorem Store.Reachable.round_correct (reachable : store.Reachable) (evaluation : Evaluation)
    (circumstances : Circumstances) :
    ∃ result events after,
      evaluation.round.run.run circumstances.handle { store, events := [] } =
          (some result, { store := after, events }) ∧
        ((∃ failure, result = .error failure) ↔
          ∃ event ∈ events, event.struck = true ∧ event.call = .ownersWithGroups) ∧
        (∀ failure, result = .error failure → after = store) ∧
        ∀ summary, result = .ok summary → ∃ owners failed attempted synced,
          RoundEffect store summary owners failed attempted synced events after := by
  have wellFormed := reachable.wellFormed
  obtain ⟨result, events, after, ran, conversation, replayed⟩ :=
    circumstances.exists_conversation evaluation.round.run { store, events := [] }
  refine ⟨result, events, after, ran, ?_⟩
  have asks (exchanges : List Exchange) (answer : Except Failure (List String))
      (asked : (Attempt.ask (.call .ownersWithGroups)).run.Replays exchanges answer) :
      ∃ answer, exchanges = [⟨.ownersWithGroups, answer⟩] :=
    ⟨answer, Program.replays_call_iff.mp asked⟩
  rcases Attempt.reads_ownersWithGroups.bind_call asks conversation replayed with
    ⟨rfl, ⟨failure, rfl⟩, event, rfl, asked, struck⟩ |
    ⟨event, back, rfl, asked, unstruck, backPart, replayedBack⟩
  · refine ⟨⟨fun _ => ⟨event, List.mem_cons_self, struck, asked⟩, fun _ => ⟨failure, rfl⟩⟩,
      fun _ _ => rfl, ?_⟩
    intro summary impossible
    cases impossible
  · obtain ⟨summary, rfl, replayedOwners⟩ := Attempt.replays_always_iff.mp replayedBack
    have later := Event.allowed_of_replays replayedOwners (evaluation.reconcileOwners_makesOnly _ _)
    have counts : RoundSummary.Counts { owners := store.ownersWithGroups.length }
        store.ownersWithGroups.length 0 0 0 := ⟨rfl, rfl, rfl, rfl⟩
    obtain ⟨failed, attempted, synced, passed, counted⟩ :=
      OwnersPassed.of_reconcileOwners wellFormed store.ownersWithGroups_nodup counts backPart
        replayedOwners
    simp only [Nat.zero_add] at counted
    refine ⟨⟨?_, ?_⟩, ?_, ?_⟩
    · intro fails
      rcases fails with ⟨failure, impossible⟩
      cases impossible
    · intro fails
      rcases fails with ⟨found, member, struck, lists⟩
      rcases List.mem_cons.mp member with rfl | inBack
      · rw [unstruck] at struck
        cases struck
      · exact (later found inBack lists).elim
    · intro failure impossible
      cases impossible
    · intro found same
      cases same
      exact ⟨store.ownersWithGroups, failed, attempted, synced,
        passed.roundEffect wellFormed event asked counted⟩

/-- Three owners, one of them with two groups, each group without a row. -/
def severalSeed : Seed where
  contacts :=
    [{ id := 1, owner := "ana", country := some "FR" },
      { id := 2, owner := "ana", country := some "FR" },
      { id := 3, owner := "bo", country := some "FR" },
      { id := 4, owner := "cy", country := some "FR" }]
  groups := [(7, "ana"), (8, "ana"), (9, "bo"), (10, "cy")].map fun (id, owner) =>
    { id, owner, name := "French", isDynamic := true, updatedAt := sampleTime,
      criteria := some sampleDocument }

/-- Circumstances in which nobody can list the groups of one owner or commit to one
group. -/
def severalCircumstances : Circumstances where
  lookup := .together
  time := fun _ => sampleTime
  strikes := fun _ call =>
    match call with
    | .liveGroups "cy" => some (.internal "cut off")
    | .commit changes => if changes.group = 8 then some (.internal "read only") else none
    | _ => none

/-- Of four groups two are synced, the pass of one fails, and the last is never come
to. -/
theorem severalSeed_round :
    ∃ (summary : RoundSummary) (events : List Event) (after : Store),
      ({} : Evaluation).round.run.run severalCircumstances.handle
          { store := .ofSeed severalSeed, events := [] } =
        (some (.ok summary), { store := after, events }) ∧
      summary = { owners := 3, groupsSynced := 2, groupsFailed := 1, ownersFailed := 1 } ∧
      after.lapped = false ∧
      ([7, 8, 9, 10].map fun id => (after.currentMembers id).map Member.contact) =
        [[1, 2], [], [3], []] ∧
      ∃ owners failed attempted synced,
        RoundEffect (.ofSeed severalSeed) summary owners failed attempted synced events after := by
  obtain ⟨result, events, after, ran, _, _, success⟩ :=
    Store.Reachable.round_correct (.seeded severalSeed .ascending) {} severalCircumstances
  have outcome : (({} : Evaluation).round.run.run severalCircumstances.handle
      { store := .ofSeed severalSeed, events := [] }).1.map Except.toOption =
        some (some { owners := 3, groupsSynced := 2, groupsFailed := 1, ownersFailed := 1 }) := by
    decide +kernel
  have left : (({} : Evaluation).round.run.run severalCircumstances.handle
      { store := .ofSeed severalSeed, events := [] }).2.store.lapped = false := by
    decide +kernel
  have rows : ([7, 8, 9, 10].map fun id =>
      ((({} : Evaluation).round.run.run severalCircumstances.handle
        { store := .ofSeed severalSeed, events := [] }).2.store.currentMembers id).map
          Member.contact) = [[1, 2], [], [3], []] := by
    decide +kernel
  rw [ran] at outcome left rows
  cases result with
  | error failure => cases outcome
  | ok summary =>
      obtain rfl := Option.some.inj (Option.some.inj outcome)
      exact ⟨_, events, after, ran, rfl, left, rows, success _ rfl⟩

end Cohort
