import Cohort.Proofs.Planned
import Cohort.Proofs.Rounds

/-!
# Rounds made again

A store is settled when the rows of every group with criteria carry the contacts that
match.  A round in which no call fails settles the store, and in a settled store the
plan of a pass changes no row.
-/

namespace Cohort

namespace Store

/-- The rows of each live group whose criteria can be read are those of the contacts
that match. -/
def Settled (store : Store) : Prop :=
  ∀ owner id group criteria, store.liveGroup? owner id = some group →
    group.readCriteria = .ok criteria → store.Reconciled id (store.segment owner criteria)

/-- Nothing is changed but the times of the groups that are passed. -/
structure SameButTimes (passed : Int → Prop) (before after : Store) : Prop where
  order : after.order = before.order
  contacts : after.contacts = before.contacts
  assignments : after.assignments = before.assignments
  members : after.members = before.members
  lastMember : after.lastMember = before.lastMember
  lapped : after.lapped = before.lapped
  groups : ∀ id, after.groups.find? id = before.groups.find? id ∨
    passed id ∧ ∃ group time, before.groups.find? id = some group ∧
      after.groups.find? id = some { group with updatedAt := time }

namespace SameButTimes

variable {passed wider : Int → Prop} {before middle after : Store}

theorem refl (passed : Int → Prop) (store : Store) : SameButTimes passed store store where
  order := rfl
  contacts := rfl
  assignments := rfl
  members := rfl
  lastMember := rfl
  lapped := rfl
  groups := fun _ => Or.inl rfl

theorem trans (first : SameButTimes passed before middle)
    (second : SameButTimes passed middle after) :
    SameButTimes passed before after where
  order := second.order.trans first.order
  contacts := second.contacts.trans first.contacts
  assignments := second.assignments.trans first.assignments
  members := second.members.trans first.members
  lastMember := second.lastMember.trans first.lastMember
  lapped := second.lapped.trans first.lapped
  groups := by
    intro id
    rcases second.groups id with same | ⟨isPassed, group, time, held, changed⟩
    · rw [same]
      exact first.groups id
    · right
      refine ⟨isPassed, ?_⟩
      rcases first.groups id with same | ⟨_, earlier, _, found, changedFirst⟩
      · exact ⟨group, time, same ▸ held, changed⟩
      · cases held.symm.trans changedFirst
        exact ⟨earlier, time, found, changed⟩

theorem mono (same : SameButTimes passed before after) (implies : ∀ id, passed id → wider id) :
    SameButTimes wider before after where
  order := same.order
  contacts := same.contacts
  assignments := same.assignments
  members := same.members
  lastMember := same.lastMember
  lapped := same.lapped
  groups := fun id => (same.groups id).imp_right (And.imp_left (implies id))

theorem sameDefinitions (same : SameButTimes passed before after) :
    SameDefinitions before after where
  order := same.order
  contacts := same.contacts
  assignments := same.assignments
  definitions := by
    intro id
    rcases same.groups id with unchanged | ⟨_, group, time, held, changed⟩
    · rw [unchanged]
    · rw [held, changed]
      rfl

end SameButTimes

variable {store after : Store}

theorem SameButTimes.reconciled {passed : Int → Prop} (same : SameButTimes passed store after)
    {id : Int} {segment : Segment} (reconciled : store.Reconciled id segment) :
    after.Reconciled id segment where
  rows := by
    unfold currentMembers
    rw [same.members]
    exact reconciled.rows
  count := by
    obtain ⟨group, held, count⟩ := reconciled.count
    rcases same.groups id with unchanged | ⟨_, other, time, otherHeld, changed⟩
    · exact ⟨group, unchanged.trans held, count⟩
    · cases held.symm.trans otherHeld
      exact ⟨_, changed, count⟩

theorem Settled.of_sameButTimes {passed : Int → Prop} (settled : store.Settled)
    (same : SameButTimes passed store after) : after.Settled := by
  intro owner id group criteria found readable
  obtain ⟨stored, owned, live⟩ := liveGroup?_eq_some_iff.mp found
  obtain ⟨held, heldStored, sameOwner, sameLive, sameCriteria⟩ :=
    same.sameDefinitions.symm.exists_group stored
  have heldFound : store.liveGroup? owner id = some held :=
    liveGroup?_eq_some_iff.mpr ⟨heldStored, sameOwner.trans owned, sameLive.trans live⟩
  rw [same.sameDefinitions.segment_eq]
  exact same.reconciled (settled owner id held criteria heldFound (sameCriteria.trans readable))

theorem apply_of_leavesMembers {changes : ChangeSet} (leaves : changes.leavesMembers = true) :
    store.apply changes =
      { store with
        groups := store.groups.modify changes.group fun group =>
          { group with
            contactCount := changes.contactCount
            updatedAt := changes.updatedAt } } := by
  obtain ⟨noAdditions, noRemovals⟩ := Bool.and_eq_true_iff.mp leaves
  unfold apply
  rw [List.isEmpty_iff.mp noAdditions, List.isEmpty_iff.mp noRemovals]
  rfl

/-- A plan for a settled store leaves its rows, and its commit changes only the time of
the group. -/
theorem Settled.commit_plan (settled : store.Settled) (filed : store.Filed)
    {owner : String} {id : Int}
    {group : Group} {criteria : Criteria} {now : Instant}
    (found : store.liveGroup? owner id = some group) (readable : group.readCriteria = .ok criteria)
    (committed :
      store.commit (group.plan (store.currentMembers id) (store.segment owner criteria) now) =
      .ok after) :
    (group.plan (store.currentMembers id) (store.segment owner criteria) now).leavesMembers = true ∧
      SameButTimes (· = group.id) store after := by
  obtain ⟨stored, _, _⟩ := liveGroup?_eq_some_iff.mp found
  have ownId : group.id = id := filed.groups id group stored
  have reconciled := settled owner id group criteria found readable
  have leaves := group.plan_leavesMembers (store.segment owner criteria) now
    (filed.currentMembers_ids_nodup id) reconciled.rows
  refine ⟨leaves, ?_⟩
  obtain ⟨_, rfl⟩ := commit_eq_ok_iff_admissible.mp committed
  rw [apply_of_leavesMembers leaves]
  obtain ⟨held, heldStored, count⟩ := reconciled.count
  cases stored.symm.trans heldStored
  exact
    { order := rfl
      contacts := rfl
      assignments := rfl
      members := rfl
      lastMember := rfl
      lapped := rfl
      groups := by
        intro other
        simp only [Table.find?_modify]
        by_cases same : group.id = other
        · have heldOther : store.groups.find? other = some group := by
            rw [← same, ownId, stored]
          have kept : ({ group with
              contactCount := (store.segment owner criteria).size, updatedAt := now } : Group) =
              { group with updatedAt := now } := by
            rw [← count]
          right
          refine ⟨same.symm, group, now, heldOther, (if_pos same).trans ?_⟩
          rw [heldOther]
          exact congrArg some kept
        · left
          exact if_neg same }

end Store

/-- A change set for the group is carried out. -/
def Event.Commits (event : Event) (id : Int) : Prop :=
  ∃ changes, event.toExchange = ⟨.commit changes, .ok ()⟩ ∧ changes.group = id

variable {lookup : TagLookup} {evaluation : Evaluation} {store after : Store} {events : List Event}

/-- A call to a settled store, which commits nothing but a plan, leaves all rows as they
are. -/
theorem Event.of_settled {event : Event} (genuine : event.Genuine lookup) (planned : event.Planned)
    (settled : event.before.Settled) (filed : event.before.Filed) :
    (∀ changes, event.toExchange = ⟨.commit changes, .ok ()⟩ → changes.leavesMembers = true) ∧
      Store.SameButTimes event.Commits event.before event.after ∧ event.after.Filed := by
  rcases genuine.commits_or with ⟨changes, commits, committed⟩ | ⟨quiet, unchanged⟩
  · obtain ⟨owner, id, group, criteria, now, found, readable, rfl⟩ := planned changes commits
    obtain ⟨leaves, same⟩ := settled.commit_plan filed found readable committed
    refine ⟨?_, same.mono ?_, filed.commit committed⟩
    · intro other again
      cases commits.symm.trans again
      exact leaves
    · intro other same
      exact ⟨_, commits, same.symm⟩
  · rw [unchanged]
    refine ⟨?_, .refl _ _, filed⟩
    intro changes commits
    exact (quiet changes commits).elim

/-- What is said to a settled store by committing plans only leaves all rows as they
are. -/
theorem Conversation.of_settled (conversation : Conversation lookup store events after)
    (settled : store.Settled) (filed : store.Filed) (planned : ∀ event ∈ events, event.Planned) :
    (∀ event ∈ events, ∀ changes, event.toExchange = ⟨.commit changes, .ok ()⟩ →
        changes.leavesMembers = true) ∧
      Store.SameButTimes (fun id => ∃ event ∈ events, event.Commits id) store after := by
  induction conversation with
  | silent store => exact ⟨List.forall_mem_nil _, .refl _ store⟩
  | @speak event events after genuine _ induction =>
      obtain ⟨plannedFirst, plannedLater⟩ := List.forall_mem_cons.mp planned
      obtain ⟨leavesFirst, sameFirst, filedLater⟩ :=
        event.of_settled genuine plannedFirst settled filed
      -- The store stays settled, so the next plan finds nothing to do either.
      obtain ⟨leavesLater, sameLater⟩ :=
        induction (settled.of_sameButTimes sameFirst) filedLater plannedLater
      refine ⟨List.forall_mem_cons.mpr ⟨leavesFirst, leavesLater⟩, ?_⟩
      apply (sameFirst.mono ?_).trans (sameLater.mono ?_)
      · intro id commits
        exact ⟨event, List.mem_cons_self, commits⟩
      · intro id commits
        obtain ⟨later, member, laterCommits⟩ := commits
        exact ⟨later, List.mem_cons_of_mem event member, laterCommits⟩

/-- A round in which no call is struck gives a summary, and every owner's groups are
listed. -/
theorem Store.WellFormed.calm_round (wellFormed : store.WellFormed)
    {result : Except Failure RoundSummary} (unstruck : Event.Unstruck events)
    (conversation : Conversation lookup store events after)
    (replayed : evaluation.round.run.Replays (events.map Event.toExchange) result) :
    ∃ summary owners attempted synced, result = .ok summary ∧
      RoundEffect store summary owners [] attempted synced events after := by
  have asks (exchanges : List Exchange) (answer : Except Failure (List String))
      (asked : (Attempt.ask (.call .ownersWithGroups)).run.Replays exchanges answer) :
      ∃ answer, exchanges = [⟨.ownersWithGroups, answer⟩] :=
    ⟨answer, Program.replays_call_iff.mp asked⟩
  rcases Attempt.reads_ownersWithGroups.bind_call asks conversation replayed with
    ⟨_, _, event, rfl, _, struck⟩ | ⟨event, back, rfl, asked, _, backPart, replayedBack⟩
  · rw [unstruck event List.mem_cons_self] at struck
    cases struck
  · obtain ⟨summary, rfl, replayedOwners⟩ := Attempt.replays_always_iff.mp replayedBack
    have counts : RoundSummary.Counts { owners := store.ownersWithGroups.length }
        store.ownersWithGroups.length 0 0 0 := ⟨rfl, rfl, rfl, rfl⟩
    obtain ⟨failed, attempted, synced, passed, counted⟩ :=
      OwnersPassed.of_reconcileOwners wellFormed
      store.ownersWithGroups_nodup counts backPart replayedOwners
    simp only [Nat.zero_add] at counted
    have effect := passed.roundEffect wellFormed event asked counted
    have noneFailed : failed = [] := by
      apply List.eq_nil_iff_forall_not_mem.mpr
      intro owner fails
      obtain ⟨_, struckEvent, member, struck, _⟩ := (effect.mem_failed owner).mp fails
      rw [unstruck struckEvent member] at struck
      cases struck
    subst noneFailed
    exact ⟨summary, _, attempted, synced, rfl, effect⟩

namespace RoundEffect

variable {summary : RoundSummary} {owners : List String} {attempted synced : List Int}

theorem mem_attempted_iff
    (effect : RoundEffect store summary owners [] attempted synced events after)
    (id : Int) : id ∈ attempted ↔ ∃ owner, store.HasLiveGroup owner id := by
  rw [effect.mem_attempted]
  constructor
  · intro listed
    rcases listed with ⟨owner, _, _, held⟩
    exact ⟨owner, held⟩
  · intro live
    rcases live with ⟨owner, held⟩
    exact ⟨owner, (effect.mem_owners owner).mpr ⟨id, held⟩, List.not_mem_nil, held⟩

theorem mem_synced_iff (effect : RoundEffect store summary owners [] attempted synced events after)
    (unstruck : Event.Unstruck events) (id : Int) :
    id ∈ synced ↔ (∃ owner, store.HasLiveGroup owner id) ∧ store.HasCriteria id := by
  rw [effect.mem_synced, effect.mem_attempted_iff]
  constructor
  · intro synced
    exact ⟨synced.1, synced.2.1⟩
  · intro both
    rcases both with ⟨held, readable⟩
    obtain ⟨inner, pass⟩ := effect.passes id ((effect.mem_attempted_iff id).mpr held)
    refine ⟨held, readable, inner, pass, ?_⟩
    obtain ⟨front, first, last, back, rfl, _⟩ := pass
    intro event member
    apply unstruck
    simp [member]

/-- A round in which no call fails settles the store if it leaves the sequence of rows
in order. -/
theorem settled (effect : RoundEffect store summary owners [] attempted synced events after)
    (unstruck : Event.Unstruck events) (inOrder : after.lapped = false) : after.Settled := by
  intro owner id group criteria found readable
  have same := effect.sameDefinitions
  obtain ⟨stored, owned, _⟩ := Store.liveGroup?_eq_some_iff.mp found
  obtain ⟨held, heldStored, sameOwner, _, sameCriteria⟩ := same.symm.exists_group stored
  have isSynced : id ∈ synced := (effect.mem_synced_iff unstruck id).mpr
    ⟨⟨owner, same.symm.hasLiveGroup ⟨group, found⟩⟩,
      same.symm.hasCriteria ⟨group, criteria, stored, readable⟩⟩
  have reconciled := effect.reconciled inOrder id isSynced held criteria heldStored
    (sameCriteria.trans readable)
  rwa [sameOwner, owned, ← same.segment_eq] at reconciled

/-- Rounds in which no call fails count the same over stores with the same
definitions. -/
theorem summary_eq {other otherAfter : Store} {otherEvents : List Event}
    {otherSummary : RoundSummary} {otherOwners : List String}
    {otherAttempted otherSynced : List Int}
    (effect : RoundEffect store summary owners [] attempted synced events after)
    (otherEffect : RoundEffect other otherSummary otherOwners [] otherAttempted otherSynced
      otherEvents otherAfter)
    (unstruck : Event.Unstruck events) (otherUnstruck : Event.Unstruck otherEvents)
    (same : Store.SameDefinitions store other) : otherSummary = summary := by
  have live (owner : String) (id : Int) :
      other.HasLiveGroup owner id ↔ store.HasLiveGroup owner id :=
    ⟨same.symm.hasLiveGroup, same.hasLiveGroup⟩
  have readable (id : Int) : other.HasCriteria id ↔ store.HasCriteria id :=
    ⟨same.symm.hasCriteria, same.hasCriteria⟩
  have sameOwners : otherOwners.Perm owners := by
    apply (List.perm_ext_iff_of_nodup otherEffect.owners_nodup effect.owners_nodup).mpr
    intro owner
    simp only [otherEffect.mem_owners, effect.mem_owners, live]
  have sameAttempted : otherAttempted.Perm attempted := by
    apply (List.perm_ext_iff_of_nodup otherEffect.attempted_nodup effect.attempted_nodup).mpr
    intro id
    simp only [otherEffect.mem_attempted_iff, effect.mem_attempted_iff, live]
  have sameSynced : otherSynced.Perm synced := by
    apply (List.perm_ext_iff_of_nodup otherEffect.synced_nodup effect.synced_nodup).mpr
    intro id
    simp only [otherEffect.mem_synced_iff otherUnstruck, effect.mem_synced_iff unstruck,
      live, readable]
  have countedOwners := otherEffect.owners_count.trans
    (sameOwners.length_eq.trans effect.owners_count.symm)
  have countedSynced := otherEffect.synced_count.trans
    (sameSynced.length_eq.trans effect.synced_count.symm)
  have countedFailed := otherEffect.failed_count.trans effect.failed_count.symm
  have countedAttempted := otherEffect.attempted_count.trans
    (sameAttempted.length_eq.trans effect.attempted_count.symm)
  cases summary
  cases otherSummary
  simp only [RoundSummary.mk.injEq] at *
  omega

end RoundEffect

/-- A round over a reachable store that is followed at once by another, at whatever
times and with no call failing, gives the same summary twice.  If the first leaves the
sequence of rows in order, the second adds and removes no row, and it changes nothing
but the times of the groups that it has committed. -/
theorem Store.Reachable.round_again (reachable : store.Reachable) (evaluation : Evaluation)
    (lookup : TagLookup) (time laterTime : List Event → Instant) :
    ∃ summary events middle laterEvents after,
      evaluation.round.run.run (Circumstances.calm lookup time).handle { store, events := [] } =
          (some (.ok summary), { store := middle, events }) ∧
        evaluation.round.run.run (Circumstances.calm lookup laterTime).handle
            { store := middle, events := [] } =
          (some (.ok summary), { store := after, events := laterEvents }) ∧
        (middle.lapped = false →
          (∀ event ∈ laterEvents, ∀ changes, event.toExchange = ⟨.commit changes, .ok ()⟩ →
            changes.leavesMembers = true) ∧
          SameButTimes (fun id => ∃ event ∈ laterEvents, event.Commits id) middle after) := by
  have wellFormed := reachable.wellFormed
  obtain ⟨result, events, middle, ran, conversation, unstruck, replayed⟩ :=
    Circumstances.exists_calm_conversation lookup time evaluation.round.run store
  obtain ⟨summary, owners, attempted, synced, rfl, effect⟩ :=
    wellFormed.calm_round unstruck conversation replayed
  have wellFormedMiddle := conversation.wellFormed wellFormed
  obtain ⟨laterResult, laterEvents, after, laterRan, laterConversation, laterUnstruck,
    laterReplayed⟩ :=
    Circumstances.exists_calm_conversation lookup laterTime evaluation.round.run middle
  obtain ⟨laterSummary, _, _, _, rfl, laterEffect⟩ :=
    wellFormedMiddle.calm_round laterUnstruck laterConversation laterReplayed
  have sameSummary := effect.summary_eq laterEffect unstruck laterUnstruck effect.sameDefinitions
  subst sameSummary
  have planned := evaluation.round_plans lookup middle laterEvents after _ laterConversation
    laterReplayed
  refine ⟨laterSummary, events, middle, laterEvents, after, ran, laterRan, fun inOrder => ?_⟩
  exact laterConversation.of_settled
    (effect.settled unstruck inOrder) wellFormedMiddle.toFiled planned

theorem sampleStore_round_again :
    ∃ (summary : RoundSummary) (middle after : Store) (events laterEvents : List Event),
      let calm := Circumstances.calm .together fun _ => sampleTime
      ({} : Evaluation).round.run.run calm.handle { store := sampleStore, events := [] } =
          (some (.ok summary), { store := middle, events }) ∧
        ({} : Evaluation).round.run.run calm.handle { store := middle, events := [] } =
          (some (.ok summary), { store := after, events := laterEvents }) ∧
        middle.lapped = false ∧ after.members = middle.members := by
  obtain ⟨summary, events, middle, laterEvents, after, ran, laterRan, again⟩ :=
    sampleStore_reachable.round_again {} .together (fun _ => sampleTime) fun _ => sampleTime
  have inOrder : (({} : Evaluation).round.run.run (Circumstances.calm .together
      fun _ => sampleTime).handle { store := sampleStore, events := [] }).2.store.lapped =
        false := by
    decide +kernel
  rw [ran] at inOrder
  exact ⟨summary, middle, after, events, laterEvents, ran, laterRan, inOrder,
    (again inOrder).2.members⟩

end Cohort
