import Cohort.Pass
import Cohort.Proofs.Plan
import Cohort.Proofs.Store.Admissible
import Cohort.Proofs.Store.Listings

/-!
# Committing a plan

A plan that is worked out from the rows a filed store still holds reconciles the group
whenever it is committed, and in a well-formed store it is never refused if its segment
holds contacts of the owner.
-/

namespace Cohort

/-- The parts of the record of a group that no commit writes. -/
def Group.definition (group : Group) : Int × String × String × Bool × Option String × Bool :=
  (group.id, group.owner, group.name, group.isDynamic, group.criteria, group.isDeleted)

namespace Store

/-- There is a group, and its criteria can be read. -/
def HasCriteria (store : Store) (id : Int) : Prop :=
  ∃ group criteria, store.groups.find? id = some group ∧ group.readCriteria = .ok criteria

/-- The active rows of a group carry exactly the contacts of a segment, one row each,
and the group counts as many. -/
structure Reconciled (store : Store) (id : Int) (segment : Segment) : Prop where
  rows : ((store.currentMembers id).map Member.contact).Perm segment.contacts.toList
  count : ∃ group, store.groups.find? id = some group ∧ group.contactCount = segment.size

/-- Contacts, tags and the definitions of groups are the same; rows, counts and times
may differ. -/
structure SameDefinitions (before after : Store) : Prop where
  order : after.order = before.order
  contacts : after.contacts = before.contacts
  assignments : after.assignments = before.assignments
  definitions : ∀ id,
    (after.groups.find? id).map Group.definition = (before.groups.find? id).map Group.definition

/-- At most the rows of one group and the count and time in its record have changed. -/
structure ChangedOnly (id : Int) (before after : Store) : Prop
    extends SameDefinitions before after where
  otherGroups : ∀ other, other ≠ id → after.groups.find? other = before.groups.find? other
  otherRows : ∀ other, other ≠ id → after.memberHistory other = before.memberHistory other

namespace SameDefinitions

variable {before middle after : Store}

theorem refl (store : Store) : SameDefinitions store store where
  order := rfl
  contacts := rfl
  assignments := rfl
  definitions := fun _ => rfl

theorem trans (first : SameDefinitions before middle) (second : SameDefinitions middle after) :
    SameDefinitions before after where
  order := second.order.trans first.order
  contacts := second.contacts.trans first.contacts
  assignments := second.assignments.trans first.assignments
  definitions := fun id => (second.definitions id).trans (first.definitions id)

theorem symm (same : SameDefinitions before after) : SameDefinitions after before where
  order := same.order.symm
  contacts := same.contacts.symm
  assignments := same.assignments.symm
  definitions := fun id => (same.definitions id).symm

/-- What decides on a pass of a group stands in its definition. -/
theorem exists_group (same : SameDefinitions before after) {id : Int} {group : Group}
    (stored : before.groups.find? id = some group) :
    ∃ held, after.groups.find? id = some held ∧ held.owner = group.owner ∧
      held.isLive = group.isLive ∧ held.readCriteria = group.readCriteria := by
  have definitions := same.definitions id
  rw [stored] at definitions
  obtain ⟨held, found, equal⟩ := Option.map_eq_some_iff.mp definitions
  simp only [Group.definition, Prod.mk.injEq] at equal
  obtain ⟨_, owner, _, dynamic, criteria, deleted⟩ := equal
  refine ⟨held, found, owner, ?_, ?_⟩
  · simp only [Group.isLive, dynamic, deleted]
  · simp only [Group.readCriteria, criteria]

theorem hasLiveGroup (same : SameDefinitions before after) {owner : String} {id : Int}
    (held : before.HasLiveGroup owner id) : after.HasLiveGroup owner id := by
  obtain ⟨group, found⟩ := held
  obtain ⟨stored, owned, live⟩ := liveGroup?_eq_some_iff.mp found
  obtain ⟨other, otherStored, otherOwned, otherLive, _⟩ := same.exists_group stored
  exact ⟨other, liveGroup?_eq_some_iff.mpr
    ⟨otherStored, otherOwned.trans owned, otherLive.trans live⟩⟩

theorem hasCriteria (same : SameDefinitions before after) {id : Int}
    (held : before.HasCriteria id) : after.HasCriteria id := by
  obtain ⟨group, criteria, stored, readable⟩ := held
  obtain ⟨other, found, _, _, equal⟩ := same.exists_group stored
  exact ⟨other, criteria, found, equal.trans readable⟩

end SameDefinitions

theorem ChangedOnly.refl (id : Int) (store : Store) : ChangedOnly id store store where
  toSameDefinitions := .refl store
  otherGroups := fun _ _ => rfl
  otherRows := fun _ _ => rfl

theorem currentMembers_eq (store : Store) (id : Int) :
    store.currentMembers id = (store.memberHistory id).filter (!·.isDeleted) := by
  rw [currentMembers, memberHistory, List.filter_filter]
  exact List.filter_congr fun _ _ => Bool.and_comm _ _

/-- Whether a group is reconciled can be read from its rows and its record. -/
theorem Reconciled.congr {before after : Store} {id : Int} {segment : Segment}
    (reconciled : before.Reconciled id segment)
    (group : after.groups.find? id = before.groups.find? id)
    (rows : after.memberHistory id = before.memberHistory id) : after.Reconciled id segment where
  rows := by
    rw [currentMembers_eq, rows, ← currentMembers_eq]
    exact reconciled.rows
  count := by
    rw [group]
    exact reconciled.count

theorem Filed.currentMembers_ids_nodup {store : Store} (filed : store.Filed) (group : Int) :
    ((store.currentMembers group).map Member.id).Nodup :=
  List.Nodup.sublist (List.filter_sublist.map Member.id) filed.members.records_keys_nodup

variable {store changed : Store} {group : Group} {segment : Segment} {now : Instant}

theorem commit_sameDefinitions {changes : ChangeSet}
    (committed : store.commit changes = .ok changed) : SameDefinitions store changed := by
  rw [(commit_eq_ok_iff.mp committed).2]
  exact
    { order := apply_order store changes
      contacts := apply_contacts store changes
      assignments := apply_assignments store changes
      definitions := by
        intro id
        rw [apply_groups, Table.find?_modify]
        split
        · rw [Option.map_map]
          rfl
        · rfl }

theorem commit_otherGroups {changes : ChangeSet} (committed : store.commit changes = .ok changed)
    {other : Int} (different : other ≠ changes.group) :
    changed.groups.find? other = store.groups.find? other := by
  rw [(commit_eq_ok_iff.mp committed).2, apply_groups, Table.find?_modify,
    if_neg (Ne.symm different)]

theorem Filed.commit_changedOnly (filed : store.Filed) {changes : ChangeSet}
    (committed : store.commit changes = .ok changed) (inOrder : changed.lapped = false) :
    ChangedOnly changes.group store changed where
  toSameDefinitions := commit_sameDefinitions committed
  otherGroups := fun _ different => commit_otherGroups committed different
  otherRows := by
    obtain ⟨admissible, rfl⟩ := commit_eq_ok_iff_admissible.mp committed
    exact fun other different => admissible.memberHistory_other filed inOrder different

theorem Filed.currentMembers_of_other (filed : store.Filed) {changes : ChangeSet} {id : Int}
    (committed : store.commit changes = .ok changed) (inOrder : changed.lapped = false)
    (other : id ≠ changes.group) : changed.currentMembers id = store.currentMembers id := by
  rw [currentMembers_eq, (filed.commit_changedOnly committed inOrder).otherRows id other,
    ← currentMembers_eq]

theorem commit_plan_count {rows : List Member}
    (committed : store.commit (group.plan rows segment now) = .ok changed) :
    ∃ held, changed.groups.find? group.id = some held ∧ held.contactCount = segment.size := by
  obtain ⟨admissible, rfl⟩ := commit_eq_ok_iff_admissible.mp committed
  obtain ⟨held, found, _⟩ := admissible.group
  refine ⟨{ held with contactCount := segment.size, updatedAt := now }, ?_, rfl⟩
  rw [apply_groups, Table.find?_modify]
  exact (if_pos rfl).trans (congrArg (Option.map _) found)

/-- A plan that is committed in order reconciles its group. -/
theorem Filed.commit_plan_reconciled (filed : store.Filed)
    (committed :
      store.commit (group.plan (store.currentMembers group.id) segment now) = .ok changed)
    (inOrder : changed.lapped = false) : changed.Reconciled group.id segment where
  rows := by
    obtain ⟨_, rfl⟩ := commit_eq_ok_iff_admissible.mp committed
    let plan := group.plan (store.currentMembers group.id) segment now
    have distinct := filed.currentMembers_ids_nodup group.id
    have rows : (store.apply plan).currentMembers group.id =
        ((store.currentMembers group.id).filter fun member => member.id ∉ plan.removals) ++
          admitted group.id store.lastMember plan.additions := by
      rw [filed.apply_currentMembers inOrder]
      exact congrArg _ (if_pos rfl)
    rw [rows, List.map_append, admitted_contacts]
    exact group.plan_reaches segment now distinct
  count := commit_plan_count committed

/-- A plan made from what is stored passes every check. -/
theorem WellFormed.plan_admissible (wellFormed : store.WellFormed) {owner : String} {id : Int}
    (found : store.liveGroup? owner id = some group)
    (owned : ∀ contact ∈ segment.contacts, ∃ record,
      store.contacts.find? contact = some record ∧ record.owner = owner) :
    (group.plan (store.currentMembers id) segment now).Admissible store := by
  obtain ⟨stored, sameOwner, live⟩ := liveGroup?_eq_some_iff.mp found
  have sameId : group.id = id := wellFormed.groups id group stored
  subst id
  have distinct := wellFormed.currentMembers_ids_nodup group.id
  have removals := group.plan_removals_perm (store.currentMembers group.id) segment now
  have inSegment : ∀ addition ∈ (group.plan (store.currentMembers group.id) segment now).additions,
      addition.contact ∈ segment.contacts := by
    intro addition listed
    have added := List.mem_map_of_mem (f := Admission.contact) listed
    rw [Group.plan_additions_contacts] at added
    exact (List.mem_filter.mp added).1
  exact
    { group := ⟨group, stored, rfl, live⟩
      removals_nodup :=
        (List.nodup_append.mp (removals.nodup_iff.mpr distinct)).2.1
      removals_active := by
        intro row removed
        obtain ⟨member, listed, rfl⟩ :=
          List.mem_map.mp (group.plan_removals_subset _ segment now removed)
        exact ⟨member, wellFormed.mem_currentMembers.mp listed⟩
      additions_nodup := group.plan_additions_nodup _ segment now
      additions_owned := by
        intro addition listed
        obtain ⟨record, recordFound, owns⟩ := owned addition.contact (inSegment addition listed)
        exact ⟨record, recordFound, owns.trans sameOwner.symm⟩
      additions_free := by
        intro addition listed member active same
        apply group.plan_addition_free segment now distinct active
        rw [same]
        exact List.mem_map_of_mem listed }

end Store

end Cohort
