import Cohort.Proofs.Store.Rows
import Mathlib.Logic.Basic
import Mathlib.Tactic.ByContra

/-!
# Admissible change sets

The checks of a commit go through the removals and then the additions and stop at the
first fault.  What they come to is `Admissible`, a condition without order.
-/

namespace Cohort

/-- What a store asks of a change set before it carries it out. -/
structure ChangeSet.Admissible (changes : ChangeSet) (store : Store) : Prop where
  group : ∃ group, store.groups.find? changes.group = some group ∧
    group.owner = changes.owner ∧ group.isLive = true
  removals_nodup : changes.removals.Nodup
  removals_active : ∀ row ∈ changes.removals, ∃ member,
    store.members.find? row = some member ∧ member.group = changes.group ∧
      member.isDeleted = false
  additions_nodup : (changes.additions.map Admission.contact).Nodup
  additions_owned : ∀ addition ∈ changes.additions, ∃ contact,
    store.contacts.find? addition.contact = some contact ∧ contact.owner = changes.owner
  /-- A row that an added contact has already is among the removals. -/
  additions_free : ∀ addition ∈ changes.additions,
    ∀ member ∈ store.currentMembers changes.group,
      member.contact = addition.contact → member.id ∈ changes.removals

namespace Store

theorem checkRemovals_cons_eq_ok_iff {store : Store} {group row : Int} {seen rows : List Int} :
    store.checkRemovals group seen (row :: rows) = .ok () ↔
      (∃ member, store.members.find? row = some member ∧ member.group = group ∧
        member.isDeleted = false) ∧
        row ∉ seen ∧ store.checkRemovals group (row :: seen) rows = .ok () := by
  cases found : store.members.find? row with
  | none => simp [checkRemovals, found]
  | some member =>
      by_cases refused : member.group ≠ group ∨ member.isDeleted ∨ row ∈ seen
      · simp only [checkRemovals, found, if_pos refused, reduceCtorEq, false_iff]
        intro accepted
        obtain ⟨⟨held, same, sameGroup, alive⟩, notSeen, _⟩ := accepted
        cases same
        simp [sameGroup, alive, notSeen] at refused
      · simp only [checkRemovals, found, if_neg refused]
        simp only [not_or, not_not, Bool.not_eq_true] at refused
        exact ⟨fun rest => ⟨⟨member, rfl, refused.1, refused.2.1⟩, refused.2.2, rest⟩,
          fun accepted => accepted.2.2⟩

theorem checkRemovals_eq_ok_iff {store : Store} {group : Int} {seen rows : List Int} :
    store.checkRemovals group seen rows = .ok () ↔
      rows.Nodup ∧ (∀ row ∈ rows, row ∉ seen) ∧
        ∀ row ∈ rows, ∃ member, store.members.find? row = some member ∧
          member.group = group ∧ member.isDeleted = false := by
  induction rows generalizing seen with
  | nil => simp [checkRemovals]
  | cons row rows induction =>
      rw [checkRemovals_cons_eq_ok_iff, induction, List.nodup_cons, List.forall_mem_cons,
        List.forall_mem_cons]
      constructor
      · rintro ⟨active, notSeen, distinct, fresh, others⟩
        refine ⟨⟨fun again => fresh row again List.mem_cons_self, distinct⟩, ⟨notSeen, ?_⟩,
          active, others⟩
        exact fun other later seenBefore =>
          fresh other later (List.mem_cons_of_mem row seenBefore)
      · rintro ⟨⟨notAgain, distinct⟩, ⟨notSeen, fresh⟩, active, others⟩
        refine ⟨active, notSeen, distinct, fun other later seenBefore => ?_, others⟩
        rcases List.mem_cons.mp seenBefore with rfl | earlier
        · exact notAgain later
        · exact fresh other later earlier

theorem isContactOf_iff {store : Store} {owner : String} {id : Int} :
    store.isContactOf owner id = true ↔
      ∃ contact, store.contacts.find? id = some contact ∧ contact.owner = owner := by
  unfold isContactOf
  cases store.contacts.find? id with
  | none => simp
  | some contact => simp

theorem checkAdditions_eq_ok_iff {store : Store} {owner : String} {taken : List Int}
    {additions : List Admission} :
    store.checkAdditions owner taken additions = .ok () ↔
      (additions.map Admission.contact).Nodup ∧
        (∀ addition ∈ additions, store.isContactOf owner addition.contact = true) ∧
        ∀ addition ∈ additions, addition.contact ∉ taken := by
  induction additions generalizing taken with
  | nil => simp [checkAdditions]
  | cons addition additions induction =>
      simp only [checkAdditions]
      cases owned : store.isContactOf owner addition.contact with
      | false => simp [owned]
      | true =>
          by_cases already : addition.contact ∈ taken
          · simp [already]
          · simp only [Bool.not_true, Bool.false_eq_true, already, if_false, induction,
              List.map_cons, List.nodup_cons, List.mem_map, List.mem_cons, forall_eq_or_imp, owned,
              not_or, true_and, not_false_eq_true, not_exists, not_and]
            constructor
            · intro passes
              rcases passes with ⟨distinct, allOwned, fresh⟩
              refine ⟨⟨?_, distinct⟩, allOwned, ?_⟩
              · intro other listed same
                exact (fresh other listed).1 same
              · exact fun other listed => (fresh other listed).2
            · intro passes
              rcases passes with ⟨⟨notAgain, distinct⟩, allOwned, fresh⟩
              refine ⟨distinct, allOwned, ?_⟩
              exact fun other listed => ⟨notAgain other listed, fresh other listed⟩

theorem mem_remainingContacts {store : Store} {group : Int} {removals : List Int} {contact : Int} :
    contact ∈ store.remainingContacts group removals ↔
      ∃ member ∈ store.currentMembers group, member.id ∉ removals ∧ member.contact = contact := by
  simp [remainingContacts, and_assoc]

theorem checkAdditions_remaining_eq_ok_iff {store : Store} {changes : ChangeSet} :
    store.checkAdditions changes.owner
        (store.remainingContacts changes.group changes.removals) changes.additions = .ok () ↔
      (changes.additions.map Admission.contact).Nodup ∧
        (∀ addition ∈ changes.additions, ∃ contact,
          store.contacts.find? addition.contact = some contact ∧
            contact.owner = changes.owner) ∧
        ∀ addition ∈ changes.additions, ∀ member ∈ store.currentMembers changes.group,
          member.contact = addition.contact → member.id ∈ changes.removals := by
  have free (addition : Admission) :
      addition.contact ∉ store.remainingContacts changes.group changes.removals ↔
        ∀ member ∈ store.currentMembers changes.group,
          member.contact = addition.contact → member.id ∈ changes.removals := by
    rw [mem_remainingContacts]
    constructor
    · intro none member listed same
      by_contra kept
      exact none ⟨member, listed, kept, same⟩
    · intro all remains
      obtain ⟨member, listed, kept, same⟩ := remains
      exact kept (all member listed same)
  simp only [checkAdditions_eq_ok_iff, isContactOf_iff, free]

theorem check_eq_ok_iff_parts {store : Store} {changes : ChangeSet} :
    store.check changes = .ok () ↔
      (∃ group, store.groups.find? changes.group = some group ∧
        group.owner = changes.owner ∧ group.isLive = true) ∧
        store.checkRemovals changes.group [] changes.removals = .ok () ∧
        store.checkAdditions changes.owner
          (store.remainingContacts changes.group changes.removals) changes.additions = .ok () := by
  unfold check
  cases found : store.groups.find? changes.group with
  | none => simp
  | some group =>
      by_cases refused : group.owner ≠ changes.owner ∨ !group.isLive
      · simp only [if_pos refused, reduceCtorEq, false_iff]
        intro accepted
        obtain ⟨⟨held, same, sameOwner, live⟩, _⟩ := accepted
        cases same
        simp [sameOwner, live] at refused
      · simp only [if_neg refused]
        simp only [not_or, not_not, Bool.not_eq_true, Bool.not_eq_false'] at refused
        cases removals : store.checkRemovals changes.group [] changes.removals with
        | error refusal => simp [bind, Except.bind]
        | ok _ => simp [bind, Except.bind, refused]

theorem check_eq_ok_iff {store : Store} {changes : ChangeSet} :
    store.check changes = .ok () ↔ changes.Admissible store := by
  rw [check_eq_ok_iff_parts, checkRemovals_eq_ok_iff, checkAdditions_remaining_eq_ok_iff]
  constructor
  · rintro ⟨group, ⟨distinct, _, active⟩, distinctContacts, owned, free⟩
    exact
      { group
        removals_nodup := distinct
        removals_active := active
        additions_nodup := distinctContacts
        additions_owned := owned
        additions_free := free }
  · intro admissible
    exact ⟨admissible.group, ⟨admissible.removals_nodup, by simp, admissible.removals_active⟩,
      admissible.additions_nodup, admissible.additions_owned, admissible.additions_free⟩

/-- A commit succeeds exactly on an admissible change set, and then carries it out. -/
theorem commit_eq_ok_iff_admissible {store changed : Store} {changes : ChangeSet} :
    store.commit changes = .ok changed ↔
      changes.Admissible store ∧ changed = store.apply changes := by
  rw [commit_eq_ok_iff, check_eq_ok_iff]

end Store

theorem ChangeSet.Admissible.other_rows {changes : ChangeSet} {store : Store}
    (admissible : changes.Admissible store) (filed : store.Filed) {member : Member}
    (listed : member ∈ store.members.records) (other : member.group ≠ changes.group) :
    member.id ∉ changes.removals := by
  intro removed
  obtain ⟨held, found, sameGroup, _⟩ := admissible.removals_active member.id removed
  rw [filed.members.mem_records.mp listed] at found
  cases found
  exact other sameGroup

theorem ChangeSet.Admissible.memberHistory_other {changes : ChangeSet} {store : Store}
    (admissible : changes.Admissible store) (filed : store.Filed)
    (inOrder : (store.apply changes).lapped = false) {group : Int}
    (other : group ≠ changes.group) :
    (store.apply changes).memberHistory group = store.memberHistory group := by
  rw [filed.apply_memberHistory inOrder, if_neg other, List.append_nil]
  refine (List.map_congr_left fun member listed => ?_).trans (List.map_id _)
  obtain ⟨stored, sameGroup⟩ := List.mem_filter.mp listed
  have stays := admissible.other_rows filed stored
    (by rw [beq_iff_eq.mp sameGroup]; exact other)
  simp [Member.afterRemovals, stays]

end Cohort
