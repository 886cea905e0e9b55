import Cohort.Proofs.Commits
import Cohort.Proofs.Snapshot
import Cohort.Proofs.Undisturbed

/-!
# Owners among each other

A pass of a group looks at the contacts of its owner, their tags, the group and the rows
of the group.  Over two stores that agree on these it comes to the same; only the
identifiers of new rows are taken from where each store has come to.
-/

namespace Cohort

namespace Table

variable {α : Type}

end Table

namespace Store

/-- The stores have the same contacts of the owner with the same tags, the same group,
and the same rows of the group. -/
structure AgreeOn (owner : String) (id : Int) (first second : Store) : Prop where
  contacts : ∀ key contact, contact.owner = owner →
    (first.contacts.find? key = some contact ↔ second.contacts.find? key = some contact)
  assignments : ∀ key contact, first.contacts.find? key = some contact → contact.owner = owner →
    (first.assignments.find? contact.id).getD [] = (second.assignments.find? contact.id).getD []
  group : first.groups.find? id = second.groups.find? id
  rows : first.memberHistory id = second.memberHistory id

theorem tagsOfAll_congr {first second : Store} {contacts : List Int}
    (same : ∀ id ∈ contacts, first.tagsOf id = second.tagsOf id) :
    first.tagsOfAll contacts = second.tagsOfAll contacts := by
  apply Table.ext_find?
  intro id
  rw [find?_tagsOfAll, find?_tagsOfAll]
  by_cases listed : id ∈ contacts
  · rw [if_pos listed, if_pos listed, same id listed]
  · rw [if_neg listed, if_neg listed]

theorem checkRemovals_congr {first second : Store} {group : Int} {seen rows : List Int}
    (same : ∀ row ∈ rows, first.members.find? row = second.members.find? row) :
    first.checkRemovals group seen rows = second.checkRemovals group seen rows := by
  induction rows generalizing seen with
  | nil => rfl
  | cons row rows induction =>
      obtain ⟨sameFirst, sameRest⟩ := List.forall_mem_cons.mp same
      unfold checkRemovals
      rw [sameFirst]
      cases second.members.find? row with
      | none => rfl
      | some member =>
          simp only
          rw [induction sameRest]

theorem checkAdditions_congr {first second : Store} {owner : String} {taken : List Int}
    {additions : List Admission}
    (same : ∀ id, first.isContactOf owner id = second.isContactOf owner id) :
    first.checkAdditions owner taken additions = second.checkAdditions owner taken additions := by
  induction additions generalizing taken with
  | nil => rfl
  | cons addition additions induction =>
      simp only [checkAdditions, same, induction]

namespace AgreeOn

variable {owner : String} {id : Int} {first second : Store}

theorem mem_liveContacts_iff (agree : AgreeOn owner id first second) {contact : Contact} :
    contact ∈ first.liveContacts owner ↔ contact ∈ second.liveContacts owner := by
  rw [mem_liveContacts, mem_liveContacts, Table.mem_records, Table.mem_records]
  apply and_congr_left
  intro owned
  exact exists_congr fun key => agree.contacts key contact owned.1

/-- A segment does not tell in which order the contacts were judged. -/
theorem segment_eq (agree : AgreeOn owner id first second) (criteria : Criteria) :
    first.segment owner criteria = second.segment owner criteria := by
  have members :
    (first.segment owner criteria).contacts = (second.segment owner criteria).contacts := by
    apply IdSet.eq_of_mem_iff
    intro member
    rw [segment, segment, mem_judge, mem_judge]
    refine exists_congr fun contact => ?_
    rw [← agree.mem_liveContacts_iff]
    refine and_congr_right fun live => and_congr_right fun same => ?_
    obtain ⟨listed, own, _⟩ := mem_liveContacts.mp live
    obtain ⟨key, stored⟩ := Table.mem_records.mp listed
    rw [← same, tagsOf, tagsOf, agree.assignments key contact stored own]
  exact congrArg Segment.mk members

theorem liveGroup?_eq (agree : AgreeOn owner id first second) :
    first.liveGroup? owner id = second.liveGroup? owner id := by
  unfold liveGroup?
  rw [agree.group]

theorem currentMembers_eq (agree : AgreeOn owner id first second) :
    first.currentMembers id = second.currentMembers id := by
  rw [Store.currentMembers_eq, Store.currentMembers_eq, agree.rows]

theorem isContactOf_eq (agree : AgreeOn owner id first second) (contact : Int) :
    first.isContactOf owner contact = second.isContactOf owner contact := by
  apply Bool.eq_iff_iff.mpr
  rw [isContactOf_iff, isContactOf_iff]
  apply exists_congr
  intro record
  apply and_congr_left
  exact agree.contacts contact record

/-- The stores accept or refuse a change set for the same reason, if it belongs to the
owner and the group and removes only active rows. -/
theorem check_eq (agree : AgreeOn owner id first second) (firstFiled : first.Filed)
    (secondFiled : second.Filed) {changes : ChangeSet} (ownGroup : changes.group = id)
    (own : changes.owner = owner)
    (removals : ∀ row ∈ changes.removals, row ∈ (first.currentMembers id).map Member.id) :
    first.check changes = second.check changes := by
  subst ownGroup own
  -- Other identifiers may find a row in one store and none in the other.
  have found : ∀ row ∈ changes.removals, first.members.find? row = second.members.find? row := by
    intro row removed
    obtain ⟨member, listed, rfl⟩ := List.mem_map.mp (removals row removed)
    rw [(firstFiled.mem_currentMembers.mp listed).1]
    rw [agree.currentMembers_eq] at listed
    rw [(secondFiled.mem_currentMembers.mp listed).1]
  have remaining : first.remainingContacts changes.group changes.removals =
      second.remainingContacts changes.group changes.removals := by
    unfold remainingContacts
    rw [agree.currentMembers_eq]
  unfold check
  rw [agree.group, checkRemovals_congr found, checkAdditions_congr agree.isContactOf_eq, remaining]

end AgreeOn

end Store

/-- The row without its identifier. -/
def Member.unnumbered (member : Member) : Member :=
  { member with id := 0 }

theorem admitted_unnumbered (group last : Int) (additions : List Admission) :
    (admitted group last additions).map Member.unnumbered =
      additions.map fun addition =>
        { id := 0, group, contact := addition.contact, joinedAt := addition.joinedAt } := by
  induction additions generalizing last with
  | nil => rfl
  | cons addition additions induction =>
      simp only [admitted, List.map_cons, induction, Member.unnumbered]

namespace Store

variable {owner : String} {id : Int} {store after first second : Store}

/-- The stores have the same group and the same rows of it, but for the identifiers of
the rows that are new since the rows before. -/
structure SameGroup (id : Int) (before : List Member) (first second : Store) : Prop where
  group : first.groups.find? id = second.groups.find? id
  rows : ∃ kept firstNew secondNew : List Member,
    first.memberHistory id = kept ++ firstNew ∧ second.memberHistory id = kept ++ secondNew ∧
      kept.map Member.id = before.map Member.id ∧
      firstNew.map Member.unnumbered = secondNew.map Member.unnumbered

/-- At most the group and its rows have changed, and the last identifier of a row by the
number of the new ones. -/
structure Confined (id : Int) (before after : Store) : Prop
    extends ChangedOnly id before after where
  lastMember : after.lastMember + (before.memberHistory id).length =
    before.lastMember + (after.memberHistory id).length

theorem Confined.refl (id : Int) (store : Store) : Confined id store store where
  toChangedOnly := .refl id store
  lastMember := rfl

theorem AgreeOn.sameGroup (agree : AgreeOn owner id first second) :
    SameGroup id (first.memberHistory id) first second where
  group := agree.group
  rows := by
    refine ⟨first.memberHistory id, [], [], ?_, ?_, rfl, rfl⟩
    · rw [List.append_nil]
    · rw [List.append_nil, agree.rows]

theorem AgreeOn.apply_sameGroup (agree : AgreeOn owner id first second) (firstFiled : first.Filed)
    (secondFiled : second.Filed) {changes : ChangeSet} (ownGroup : changes.group = id)
    (firstInOrder : (first.apply changes).lapped = false)
    (secondInOrder : (second.apply changes).lapped = false) :
    SameGroup id (first.memberHistory id) (first.apply changes) (second.apply changes) := by
  subst ownGroup
  constructor
  · rw [apply_groups, apply_groups, Table.find?_modify, Table.find?_modify, agree.group]
  · refine ⟨(first.memberHistory changes.group).map
        (Member.afterRemovals changes.removals changes.updatedAt),
      admitted changes.group first.lastMember changes.additions,
      admitted changes.group second.lastMember changes.additions, ?_, ?_, ?_, ?_⟩
    · rw [firstFiled.apply_memberHistory firstInOrder, if_pos rfl]
    · rw [secondFiled.apply_memberHistory secondInOrder, if_pos rfl, agree.rows]
    · rw [List.map_map]
      apply List.map_congr_left
      intro member _
      exact member.afterRemovals_id _ _
    · rw [admitted_unnumbered, admitted_unnumbered]

/-- Both stores are left as they are, or the same change set of the group is carried out
on both. -/
inductive ChangedAlike (id : Int) (first second : Store) : Store → Store → Prop where
  | unchanged : ChangedAlike id first second first second
  | applied (changes : ChangeSet) (ownGroup : changes.group = id)
      (firstAdmits : changes.Admissible first) (secondAdmits : changes.Admissible second) :
      ChangedAlike id first second (first.apply changes) (second.apply changes)

/-- Passes over stores that agree end alike and write alike. -/
theorem AgreeOn.pass_changedAlike (agree : AgreeOn owner id first second)
    (firstFiled : first.Filed) (secondFiled : second.Filed) (now : Instant) :
    (first.pass owner id now).1 = (second.pass owner id now).1 ∧
      ChangedAlike id first second (first.pass owner id now).2 (second.pass owner id now).2 := by
  unfold Store.pass
  rw [← agree.liveGroup?_eq]
  cases found : first.liveGroup? owner id with
  | none => exact ⟨rfl, .unchanged⟩
  | some group =>
      simp only
      cases group.readCriteria with
      | error problem => exact ⟨rfl, .unchanged⟩
      | ok criteria =>
          obtain ⟨stored, owned, _⟩ := liveGroup?_eq_some_iff.mp found
          have ownId : group.id = id := firstFiled.groups id group stored
          have sameChecks := agree.check_eq firstFiled secondFiled ownId owned
            fun row removed => group.plan_removals_subset (first.currentMembers id)
              (first.segment owner criteria) now removed
          simp only [passFound, commit, ← agree.segment_eq, ← agree.currentMembers_eq, ← sameChecks]
          cases checked : first.check (group.plan (first.currentMembers id)
              (first.segment owner criteria) now) with
          | error refusal => exact ⟨rfl, .unchanged⟩
          | ok _ =>
              refine ⟨rfl, .applied _ ownId ?_ ?_⟩
              · exact check_eq_ok_iff.mp checked
              · exact check_eq_ok_iff.mp (sameChecks.symm.trans checked)

theorem AgreeOn.pass (agree : AgreeOn owner id first second) (firstFiled : first.Filed)
    (secondFiled : second.Filed) (now : Instant) :
    (first.pass owner id now).1 = (second.pass owner id now).1 ∧
      (first.pass owner id now).2.groups.find? id = (second.pass owner id now).2.groups.find? id ∧
      ((first.pass owner id now).2.lapped = false → (second.pass owner id now).2.lapped = false →
        SameGroup id (first.memberHistory id) (first.pass owner id now).2
          (second.pass owner id now).2) := by
  obtain ⟨sameResult, alike⟩ := agree.pass_changedAlike firstFiled secondFiled now
  refine ⟨sameResult, ?_⟩
  generalize (first.pass owner id now).2 = firstAfter at alike ⊢
  generalize (second.pass owner id now).2 = secondAfter at alike ⊢
  cases alike with
  | unchanged => exact ⟨agree.group, fun _ _ => agree.sameGroup⟩
  | applied changes ownGroup _ _ =>
      refine ⟨?_, agree.apply_sameGroup firstFiled secondFiled ownGroup⟩
      rw [apply_groups, apply_groups, Table.find?_modify, Table.find?_modify, agree.group]

end Store

end Cohort
