import Cohort.Proofs.Filing
import Cohort.Store.Commit

/-!
# What every write keeps

A store is filed when each group and each membership lies under its own identifier and,
unless the sequence has lapped, no membership is above it; it is well formed when the
contacts are filed too.  Contacts stay filed only while nobody changes the identifier of
a contact.
-/

namespace Cohort.Store

/-- Groups and memberships lie under their own identifiers, and no membership is above
the sequence before that laps. -/
structure Filed (store : Store) : Prop where
  groups : store.groups.FiledBy Group.id
  members : store.members.FiledBy Member.id
  lastMember_nonneg : store.lapped = false → 0 ≤ store.lastMember
  le_lastMember : store.lapped = false →
    ∀ id member, store.members.find? id = some member → id ≤ store.lastMember

structure WellFormed (store : Store) : Prop extends Filed store where
  contacts : store.contacts.FiledBy Contact.id

theorem Filed.of_same {store other : Store} (filed : store.Filed)
    (groups : other.groups = store.groups) (members : other.members = store.members)
    (lastMember : other.lastMember = store.lastMember) (lapped : other.lapped = store.lapped) :
    other.Filed where
  groups := by rw [groups]; exact filed.groups
  members := by rw [members]; exact filed.members
  lastMember_nonneg := by rw [lastMember, lapped]; exact filed.lastMember_nonneg
  le_lastMember := by rw [members, lastMember, lapped]; exact filed.le_lastMember

theorem wellFormed_empty (order : VisitOrder) : WellFormed (.empty order) where
  groups := .empty
  members := .empty
  contacts := .empty
  lastMember_nonneg := fun _ => Int.le_refl 0
  le_lastMember := by
    intro _ id member found
    simp [empty] at found

theorem Filed.putGroup {store : Store} (filed : store.Filed) (group : Group) :
    (store.putGroup group).Filed :=
  { filed with groups := filed.groups.insert group }

theorem Filed.setCriteria {store : Store} (filed : store.Filed) (id : Int)
    (document : Option String) : (store.setCriteria id document).Filed :=
  { filed with groups := filed.groups.modify id fun _ => rfl }

theorem Filed.putMember {store : Store} (filed : store.Filed) (member : Member) :
    (store.putMember member).Filed where
  groups := filed.groups
  members := filed.members.insert member
  lastMember_nonneg := by
    intro inOrder
    have before := filed.lastMember_nonneg inOrder
    simp only [Store.putMember]
    omega
  le_lastMember := by
    intro inOrder id found lookup
    simp only [Store.putMember, Table.find?_insert] at lookup ⊢
    split at lookup
    · omega
    · have before := filed.le_lastMember inOrder id found lookup
      omega

theorem Filed.endMember {store : Store} (filed : store.Filed) (time : Instant) (row : Int) :
    (store.endMember time row).Filed where
  groups := filed.groups
  members := filed.members.modify row fun _ => rfl
  lastMember_nonneg := filed.lastMember_nonneg
  le_lastMember := by
    intro inOrder id found lookup
    simp only [Store.endMember, Table.find?_modify] at lookup ⊢
    split at lookup
    · obtain ⟨held, heldFound, _⟩ := Option.map_eq_some_iff.mp lookup
      exact filed.le_lastMember inOrder id held heldFound
    · exact filed.le_lastMember inOrder id found lookup

theorem nextWord_of_lt {word : Int} (below : word < Text.maxSigned) : nextWord word = word + 1 :=
  if_pos below

theorem addMember_members {store : Store} {group : Int} {addition : Admission}
    (room : store.lastMember < Text.maxSigned) :
    (store.addMember group addition).members =
      store.members.insert (store.lastMember + 1)
        { id := store.lastMember + 1, group, contact := addition.contact,
          joinedAt := addition.joinedAt } := by
  simp only [addMember, nextWord_of_lt room]

/-- An addition leaves the sequence in order exactly if there is a greater word. -/
theorem addMember_lapped {store : Store} {group : Int} {addition : Admission} :
    (store.addMember group addition).lapped = false ↔
      store.lapped = false ∧ store.lastMember < Text.maxSigned := by
  simp [addMember]

theorem Filed.addMember {store : Store} (filed : store.Filed) (group : Int)
    (addition : Admission) : (store.addMember group addition).Filed where
  groups := filed.groups
  members := filed.members.insert
    { id := nextWord store.lastMember, group, contact := addition.contact,
      joinedAt := addition.joinedAt }
  lastMember_nonneg := by
    intro inOrder
    obtain ⟨before, room⟩ := addMember_lapped.mp inOrder
    have least := filed.lastMember_nonneg before
    simp only [Store.addMember, nextWord_of_lt room]
    omega
  le_lastMember := by
    intro inOrder id found lookup
    obtain ⟨before, room⟩ := addMember_lapped.mp inOrder
    simp only [Store.addMember, nextWord_of_lt room, Table.find?_insert] at lookup ⊢
    split at lookup
    · omega
    · have most := filed.le_lastMember before id found lookup
      omega

def withEnded (store : Store) (time : Instant) (rows : List Int) : Store :=
  rows.foldl (endMember time) store

def withAdded (store : Store) (group : Int) (additions : List Admission) : Store :=
  additions.foldl (addMember group) store

theorem apply_eq (store : Store) (changes : ChangeSet) :
    store.apply changes =
      let written := (store.withEnded changes.updatedAt changes.removals).withAdded changes.group
        changes.additions
      { written with
        groups := written.groups.modify changes.group fun group =>
          { group with contactCount := changes.contactCount, updatedAt := changes.updatedAt } } :=
  rfl

theorem Filed.withEnded {store : Store} (filed : store.Filed) (time : Instant) (rows : List Int) :
    (store.withEnded time rows).Filed :=
  List.foldlRecOn rows _ filed fun _ before row _ => before.endMember time row

theorem Filed.withAdded {store : Store} (filed : store.Filed) (group : Int)
    (additions : List Admission) : (store.withAdded group additions).Filed :=
  List.foldlRecOn additions _ filed fun _ before addition _ => before.addMember group addition

theorem Filed.apply {store : Store} (filed : store.Filed) (changes : ChangeSet) :
    (store.apply changes).Filed := by
  have written := (filed.withEnded changes.updatedAt changes.removals).withAdded changes.group
    changes.additions
  rw [apply_eq]
  exact { written with groups := written.groups.modify changes.group fun _ => rfl }

theorem withAdded_withEnded_frame (store : Store) (time : Instant) (rows : List Int) (group : Int)
    (additions : List Admission) :
    ((store.withEnded time rows).withAdded group additions).contacts = store.contacts ∧
      ((store.withEnded time rows).withAdded group additions).assignments = store.assignments ∧
      ((store.withEnded time rows).withAdded group additions).groups = store.groups ∧
      ((store.withEnded time rows).withAdded group additions).order = store.order := by
  let Same (written : Store) : Prop :=
    written.contacts = store.contacts ∧ written.assignments = store.assignments ∧
      written.groups = store.groups ∧ written.order = store.order
  have ended : Same (store.withEnded time rows) := by
    apply List.foldlRecOn (motive := Same) rows _ ⟨rfl, rfl, rfl, rfl⟩
    exact fun _ before _ _ => before
  exact List.foldlRecOn (motive := Same) additions _ ended fun _ before _ _ => before

@[simp] theorem apply_contacts (store : Store) (changes : ChangeSet) :
    (store.apply changes).contacts = store.contacts :=
  (withAdded_withEnded_frame store _ _ _ _).1

@[simp] theorem apply_assignments (store : Store) (changes : ChangeSet) :
    (store.apply changes).assignments = store.assignments :=
  (withAdded_withEnded_frame store _ _ _ _).2.1

@[simp] theorem apply_order (store : Store) (changes : ChangeSet) :
    (store.apply changes).order = store.order :=
  (withAdded_withEnded_frame store _ _ _ _).2.2.2

theorem apply_groups (store : Store) (changes : ChangeSet) :
    (store.apply changes).groups = store.groups.modify changes.group fun group =>
      { group with contactCount := changes.contactCount, updatedAt := changes.updatedAt } := by
  rw [apply_eq]
  simp only [(withAdded_withEnded_frame store _ _ _ _).2.2.1]

theorem commit_eq_ok_iff {store changed : Store} {changes : ChangeSet} :
    store.commit changes = .ok changed ↔
      store.check changes = .ok () ∧ changed = store.apply changes := by
  unfold commit
  cases checked : store.check changes with
  | error refusal => simp
  | ok _ => simp [eq_comm]

theorem Filed.commit {store changed : Store} (filed : store.Filed) {changes : ChangeSet}
    (committed : store.commit changes = .ok changed) : changed.Filed := by
  rw [(commit_eq_ok_iff.mp committed).2]
  exact filed.apply changes

theorem WellFormed.commit {store changed : Store} (wellFormed : store.WellFormed)
    {changes : ChangeSet} (committed : store.commit changes = .ok changed) :
    changed.WellFormed where
  toFiled := wellFormed.toFiled.commit committed
  contacts := by
    rw [(commit_eq_ok_iff.mp committed).2, apply_contacts]
    exact wellFormed.contacts

end Cohort.Store
