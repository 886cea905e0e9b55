import Cohort.Proofs.Store.Filed

/-!
# Listing contacts, groups and owners

The live contacts of an owner are listed by the identifiers that they carry, and only
the order of those that carry the same one depends on how the store comes upon them.
-/

namespace Cohort.Store

theorem liveContacts_perm (store : Store) (owner : String) :
    (store.liveContacts owner).Perm
      (store.contacts.records.filter fun contact => contact.owner == owner && contact.isLive) :=
  (sortBy_perm _).trans ((store.order.visit_perm store.contacts.records).filter _)

theorem mem_liveContacts {store : Store} {owner : String} {contact : Contact} :
    contact ∈ store.liveContacts owner ↔
      contact ∈ store.contacts.records ∧ contact.owner = owner ∧ contact.isLive = true := by
  rw [(store.liveContacts_perm owner).mem_iff, List.mem_filter, Bool.and_eq_true, beq_iff_eq]

theorem liveGroup?_eq_some_iff {store : Store} {owner : String} {id : Int} {group : Group} :
    store.liveGroup? owner id = some group ↔
      store.groups.find? id = some group ∧ group.owner = owner ∧ group.isLive = true := by
  simp [liveGroup?, Option.filter_eq_some_iff]

/-- There is a live dynamic group of the owner. -/
def HasLiveGroup (store : Store) (owner : String) (id : Int) : Prop :=
  ∃ group, store.liveGroup? owner id = some group

variable {store : Store} {owner other : String} {id : Int}

theorem HasLiveGroup.owner_unique (left : store.HasLiveGroup owner id)
    (right : store.HasLiveGroup other id) : owner = other := by
  obtain ⟨group, found⟩ := left
  obtain ⟨same, otherFound⟩ := right
  obtain ⟨stored, owned, _⟩ := liveGroup?_eq_some_iff.mp found
  obtain ⟨otherStored, otherOwned, _⟩ := liveGroup?_eq_some_iff.mp otherFound
  cases stored.symm.trans otherStored
  exact owned.symm.trans otherOwned

namespace Filed

theorem mem_liveGroups_ids (filed : store.Filed) :
    id ∈ (store.liveGroups owner).map Group.id ↔ store.HasLiveGroup owner id := by
  simp only [HasLiveGroup, liveGroup?_eq_some_iff, liveGroups, List.mem_map, List.mem_filter,
    Bool.and_eq_true, beq_iff_eq]
  constructor
  · intro member
    rcases member with ⟨group, ⟨listed, owned, live⟩, rfl⟩
    exact ⟨group, filed.groups.mem_records.mp listed, owned, live⟩
  · intro held
    rcases held with ⟨group, stored, owned, live⟩
    have same : group.id = id := filed.groups id group stored
    subst id
    exact ⟨group, ⟨filed.groups.mem_records.mpr stored, owned, live⟩, rfl⟩

theorem liveGroups_ids_nodup (filed : store.Filed) (owner : String) :
    ((store.liveGroups owner).map Group.id).Nodup :=
  List.Nodup.sublist (List.filter_sublist.map Group.id) filed.groups.records_keys_nodup

end Filed

theorem mem_placeName {name place : String} {names : List String} :
    name ∈ placeName place names ↔ name = place ∨ name ∈ names := by
  induction names with
  | nil => simp [placeName]
  | cons first rest induction =>
      unfold placeName
      split
      · simp
      · split
        · rename_i same
          subst same
          simp
        · simp only [List.mem_cons, induction]
          exact or_left_comm

theorem placeName_ascending {place : String} {names : List String}
    (ascending : names.Pairwise (· < ·)) : (placeName place names).Pairwise (· < ·) := by
  induction names with
  | nil => simp [placeName]
  | cons first rest induction =>
      obtain ⟨firstLess, restAscending⟩ := List.pairwise_cons.mp ascending
      unfold placeName
      split
      · rename_i less
        refine List.pairwise_cons.mpr ⟨?_, ascending⟩
        intro name member
        rcases List.mem_cons.mp member with rfl | later
        · exact less
        · exact String.lt_trans less (firstLess name later)
      · rename_i notLess
        split
        · exact ascending
        · rename_i different
          refine List.pairwise_cons.mpr ⟨?_, induction restAscending⟩
          intro name member
          rcases mem_placeName.mp member with rfl | later
          · refine String.not_le.mp fun notGreater => ?_
            exact different (String.le_antisymm notGreater (String.not_lt.mp notLess))
          · exact firstLess name later

theorem ownersWithGroups_ascending (store : Store) :
    store.ownersWithGroups.Pairwise (· < ·) := by
  unfold ownersWithGroups
  apply List.foldrRecOn _ _ (motive := List.Pairwise (· < ·)) .nil
  intro names ascending name _
  exact placeName_ascending ascending

theorem ownersWithGroups_nodup (store : Store) : store.ownersWithGroups.Nodup := by
  apply store.ownersWithGroups_ascending.imp
  intro name other less same
  subst other
  exact String.lt_irrefl name less

theorem mem_foldr_placeName {name : String} {names : List String} :
    name ∈ names.foldr placeName [] ↔ name ∈ names := by
  induction names with
  | nil => rfl
  | cons first rest induction =>
      simp only [List.foldr_cons, mem_placeName, induction, List.mem_cons]

theorem Filed.mem_ownersWithGroups (filed : store.Filed) :
    owner ∈ store.ownersWithGroups ↔ ∃ id, store.HasLiveGroup owner id := by
  simp only [ownersWithGroups, mem_foldr_placeName, List.mem_map, List.mem_filter, HasLiveGroup,
    liveGroup?_eq_some_iff]
  constructor
  · intro member
    rcases member with ⟨group, ⟨listed, live⟩, owned⟩
    exact ⟨group.id, group, filed.groups.mem_records.mp listed, owned, live⟩
  · intro held
    rcases held with ⟨id, group, stored, owned, live⟩
    have same : group.id = id := filed.groups id group stored
    subst id
    exact ⟨group, ⟨filed.groups.mem_records.mpr stored, live⟩, owned⟩

end Cohort.Store
