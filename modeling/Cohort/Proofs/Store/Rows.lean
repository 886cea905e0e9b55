import Cohort.Proofs.Store.Filed

/-!
# The memberships after a commit

In a filed store a change set that is carried out in order leaves the old rows, the
removed ones marked as ended, and behind them one row for each addition under the next
identifiers.
-/

namespace Cohort

def Member.afterRemovals (removals : List Int) (time : Instant) (member : Member) : Member :=
  if member.id ∈ removals then member.ended time else member

theorem Member.afterRemovals_cons (row : Int) (removals : List Int) (time : Instant)
    (member : Member) :
    (if member.id = row then member.ended time else member).afterRemovals removals time =
      member.afterRemovals (row :: removals) time := by
  by_cases same : member.id = row
  · subst row
    by_cases later : member.id ∈ removals <;> simp [afterRemovals, ended, later]
  · simp [afterRemovals, same]

theorem Member.afterRemovals_group (removals : List Int) (time : Instant) (member : Member) :
    (member.afterRemovals removals time).group = member.group := by
  unfold afterRemovals
  split
  · rfl
  · rfl

theorem Member.afterRemovals_id (removals : List Int) (time : Instant) (member : Member) :
    (member.afterRemovals removals time).id = member.id := by
  unfold afterRemovals
  split
  · rfl
  · rfl

/-- The rows of additions to a group, numbered from the identifier after the last. -/
def admitted (group : Int) : Int → List Admission → List Member
  | _, [] => []
  | last, addition :: additions =>
      { id := last + 1, group, contact := addition.contact, joinedAt := addition.joinedAt } ::
        admitted group (last + 1) additions

theorem admitted_contacts (group last : Int) (additions : List Admission) :
    (admitted group last additions).map Member.contact = additions.map Admission.contact := by
  induction additions generalizing last with
  | nil => rfl
  | cons addition additions induction => simp only [admitted, List.map_cons, induction]

theorem admitted_active {group last : Int} {additions : List Admission} {member : Member}
    (listed : member ∈ admitted group last additions) :
    member.group = group ∧ member.isDeleted = false ∧ last < member.id := by
  induction additions generalizing last with
  | nil => simp [admitted] at listed
  | cons addition additions induction =>
      rcases List.mem_cons.mp listed with rfl | later
      · exact ⟨rfl, rfl, by simp only; omega⟩
      · obtain ⟨sameGroup, active, above⟩ := induction later
        exact ⟨sameGroup, active, by omega⟩

namespace Store

theorem Filed.withEnded_records {store : Store} (filed : store.Filed) (time : Instant)
    (rows : List Int) :
    (store.withEnded time rows).members.records =
      store.members.records.map (Member.afterRemovals rows time) := by
  induction rows generalizing store with
  | nil =>
      have same : Member.afterRemovals [] time = id := by
        funext member
        simp [Member.afterRemovals]
      rw [same, List.map_id]
      rfl
  | cons row rows induction =>
      have step : store.withEnded time (row :: rows) =
          (store.endMember time row).withEnded time rows := rfl
      rw [step, induction (filed.endMember time row), Store.endMember, filed.members.records_modify,
        List.map_map]
      exact List.map_congr_left fun member _ => member.afterRemovals_cons row rows time

theorem withEnded_lastMember (store : Store) (time : Instant) (rows : List Int) :
    (store.withEnded time rows).lastMember = store.lastMember := by
  refine List.foldlRecOn (motive := fun written : Store =>
    written.lastMember = store.lastMember) rows _
    rfl ?_
  exact fun _ before _ _ => before

theorem withEnded_lapped (store : Store) (time : Instant) (rows : List Int) :
    (store.withEnded time rows).lapped = store.lapped := by
  refine List.foldlRecOn (motive := fun written : Store => written.lapped = store.lapped) rows _
    rfl ?_
  exact fun _ before _ _ => before

theorem withAdded_cons (store : Store) (group : Int) (addition : Admission)
    (additions : List Admission) :
    store.withAdded group (addition :: additions) =
      (store.addMember group addition).withAdded group additions :=
  rfl

theorem lapped_of_withAdded {store : Store} {group : Int} {additions : List Admission}
    (inOrder : (store.withAdded group additions).lapped = false) : store.lapped = false := by
  induction additions generalizing store with
  | nil => exact inOrder
  | cons addition additions induction => exact (addMember_lapped.mp (induction inOrder)).1

/-- So many words follow on another before the least one. -/
def Fits (word : Int) (count : Nat) : Prop :=
  count = 0 ∨ word + count ≤ Text.maxSigned

/-- Additions for which there are words move the sequence on by their number. -/
theorem withAdded_of_fits {store : Store} {group : Int} {additions : List Admission}
    (fits : Fits store.lastMember additions.length) :
    (store.withAdded group additions).lastMember = store.lastMember + additions.length ∧
      (store.withAdded group additions).lapped = store.lapped := by
  induction additions generalizing store with
  | nil => simp [withAdded]
  | cons addition additions induction =>
      have most : store.lastMember + (additions.length + 1 : Nat) ≤ Text.maxSigned :=
        fits.resolve_left (Nat.succ_ne_zero _)
      have below : store.lastMember < Text.maxSigned := by omega
      have last : (store.addMember group addition).lastMember = store.lastMember + 1 :=
        nextWord_of_lt below
      have lapped : (store.addMember group addition).lapped = store.lapped := by
        simp only [addMember, decide_eq_false (Int.not_le.mpr below), Bool.or_false]
      have later := @induction (store.addMember group addition)
        (Or.inr (by rw [last]; omega))
      rw [withAdded_cons, later.1, later.2, last, lapped, List.length_cons]
      exact ⟨by omega, rfl⟩

theorem fits_of_withAdded {store : Store} {group : Int} {additions : List Admission}
    (inOrder : (store.withAdded group additions).lapped = false) :
    Fits store.lastMember additions.length := by
  induction additions generalizing store with
  | nil => exact Or.inl rfl
  | cons addition additions induction =>
      rw [withAdded_cons] at inOrder
      have below := (addMember_lapped.mp (lapped_of_withAdded inOrder)).2
      have last : (store.addMember group addition).lastMember = store.lastMember + 1 :=
        nextWord_of_lt below
      right
      rw [List.length_cons]
      rcases induction inOrder with none | later
      · rw [none]
        omega
      · omega

theorem withAdded_lastMember {store : Store} {group : Int} {additions : List Admission}
    (inOrder : (store.withAdded group additions).lapped = false) :
    (store.withAdded group additions).lastMember = store.lastMember + additions.length :=
  (withAdded_of_fits (fits_of_withAdded inOrder)).1

theorem Filed.withAdded_records {store : Store} (filed : store.Filed) {group : Int}
    {additions : List Admission} (inOrder : (store.withAdded group additions).lapped = false) :
    (store.withAdded group additions).members.records =
      store.members.records ++ admitted group store.lastMember additions := by
  induction additions generalizing store with
  | nil =>
      rw [admitted, List.append_nil]
      rfl
  | cons addition additions induction =>
      rw [withAdded_cons] at inOrder ⊢
      obtain ⟨before, room⟩ := addMember_lapped.mp (lapped_of_withAdded inOrder)
      have last : (store.addMember group addition).lastMember = store.lastMember + 1 :=
        nextWord_of_lt room
      have above :
        ∀ id member, store.members.find? id = some member → id < store.lastMember + 1 := by
        intro id member found
        have most := filed.le_lastMember before id member found
        omega
      have listed : (store.addMember group addition).members.records =
          store.members.records ++
            [{ id := store.lastMember + 1, group, contact := addition.contact,
               joinedAt := addition.joinedAt }] := by
        rw [addMember_members room]
        exact Table.records_insert_above above
      rw [induction (filed.addMember group addition) inOrder, last, listed, admitted,
        List.append_assoc]
      rfl

theorem lapped_of_apply {store : Store} {changes : ChangeSet}
    (inOrder : (store.apply changes).lapped = false) : store.lapped = false := by
  rw [apply_eq] at inOrder
  have before := lapped_of_withAdded inOrder
  rwa [withEnded_lapped] at before

theorem lapped_of_commit {store changed : Store} {changes : ChangeSet}
    (committed : store.commit changes = .ok changed) (inOrder : changed.lapped = false) :
    store.lapped = false := by
  rw [(commit_eq_ok_iff.mp committed).2] at inOrder
  exact lapped_of_apply inOrder

theorem apply_lastMember {store : Store} {changes : ChangeSet}
    (inOrder : (store.apply changes).lapped = false) :
    (store.apply changes).lastMember = store.lastMember + changes.additions.length := by
  rw [apply_eq] at inOrder ⊢
  have last := withAdded_lastMember inOrder
  rwa [withEnded_lastMember] at last

/-- A change set leaves the sequence in order exactly if that was in order and there are
words for its additions. -/
theorem apply_lapped {store : Store} {changes : ChangeSet} :
    (store.apply changes).lapped = false ↔
      store.lapped = false ∧ Fits store.lastMember changes.additions.length := by
  have written := withEnded_lastMember store changes.updatedAt changes.removals
  have ended := withEnded_lapped store changes.updatedAt changes.removals
  rw [apply_eq, ← written, ← ended]
  constructor
  · intro inOrder
    exact ⟨lapped_of_withAdded inOrder, fits_of_withAdded inOrder⟩
  · intro room
    obtain ⟨before, fits⟩ := room
    exact (withAdded_of_fits fits).2.trans before

/-- The sequence has not lapped and has so many words left. -/
def HasRoom (store : Store) (count : Nat) : Prop :=
  store.lapped = false ∧ store.lastMember + count ≤ Text.maxSigned

/-- A change set takes as many words as it has additions. -/
theorem HasRoom.apply {store : Store} {changes : ChangeSet} {spare : Nat}
    (room : store.HasRoom (changes.additions.length + spare)) :
    (store.apply changes).HasRoom spare := by
  obtain ⟨inOrder, most⟩ := room
  have fits : Fits (store.withEnded changes.updatedAt changes.removals).lastMember
      changes.additions.length := by
    rw [withEnded_lastMember]
    exact Or.inr (by omega)
  obtain ⟨last, lapped⟩ := @withAdded_of_fits _ changes.group _ fits
  rw [withEnded_lastMember] at last
  rw [withEnded_lapped] at lapped
  rw [apply_eq]
  exact ⟨lapped.trans inOrder, by dsimp only; omega⟩

theorem HasRoom.of_le {store : Store} {count fewer : Nat} (room : store.HasRoom count)
    (less : fewer ≤ count) : store.HasRoom fewer := by
  obtain ⟨inOrder, fits⟩ := room
  exact ⟨inOrder, by omega⟩

theorem Filed.apply_records {store : Store} (filed : store.Filed) {changes : ChangeSet}
    (inOrder : (store.apply changes).lapped = false) :
    (store.apply changes).members.records =
      store.members.records.map (Member.afterRemovals changes.removals changes.updatedAt) ++
        admitted changes.group store.lastMember changes.additions := by
  rw [apply_eq] at inOrder ⊢
  have written := (filed.withEnded changes.updatedAt changes.removals).withAdded_records inOrder
  rw [withEnded_lastMember, filed.withEnded_records] at written
  exact written

/-- All rows of a group after a change set: the old ones, some of them now ended, and
the new ones if the change set is for this group. -/
theorem Filed.apply_memberHistory {store : Store} (filed : store.Filed) {changes : ChangeSet}
    (inOrder : (store.apply changes).lapped = false) (group : Int) :
    (store.apply changes).memberHistory group =
      (store.memberHistory group).map
          (Member.afterRemovals changes.removals changes.updatedAt) ++
        if group = changes.group then admitted changes.group store.lastMember changes.additions
        else [] := by
  have sameTest : (fun member : Member => member.group == group) ∘
      Member.afterRemovals changes.removals changes.updatedAt =
        fun member => member.group == group := by
    funext member
    simp only [Function.comp_apply, Member.afterRemovals_group]
  have new : (admitted changes.group store.lastMember changes.additions).filter
      (fun member => member.group == group) =
      if group = changes.group then admitted changes.group store.lastMember changes.additions
      else [] := by
    split
    · rename_i same
      refine List.filter_eq_self.mpr fun member listed => ?_
      rw [(admitted_active listed).1, beq_iff_eq]
      exact same.symm
    · rename_i different
      refine List.filter_eq_nil_iff.mpr fun member listed => ?_
      rw [(admitted_active listed).1, beq_iff_eq]
      exact Ne.symm different
  unfold memberHistory
  rw [filed.apply_records inOrder, List.filter_append, List.filter_map, sameTest, new]

/-- The current rows of a group after a change set: those that are not removed, and the
new ones if the change set is for this group. -/
theorem Filed.apply_currentMembers {store : Store} (filed : store.Filed) {changes : ChangeSet}
    (inOrder : (store.apply changes).lapped = false) (group : Int) :
    (store.apply changes).currentMembers group =
      ((store.currentMembers group).filter fun member => member.id ∉ changes.removals) ++
        if group = changes.group then admitted changes.group store.lastMember changes.additions
        else [] := by
  have old : (store.members.records.map
      (Member.afterRemovals changes.removals changes.updatedAt)).filter
        (fun member => member.group == group && !member.isDeleted) =
      (store.currentMembers group).filter fun member => member.id ∉ changes.removals := by
    rw [List.filter_map, currentMembers, List.filter_filter]
    have kept : store.members.records.filter
        ((fun member => member.group == group && !member.isDeleted) ∘
          Member.afterRemovals changes.removals changes.updatedAt) =
        store.members.records.filter fun member =>
          decide (member.id ∉ changes.removals) &&
            (member.group == group && !member.isDeleted) := by
      refine List.filter_congr fun member _ => ?_
      by_cases removed : member.id ∈ changes.removals <;>
        simp [Member.afterRemovals, removed, Member.ended]
    rw [kept]
    refine (List.map_congr_left fun member listed => ?_).trans (List.map_id _)
    have stays : member.id ∉ changes.removals := by
      have passed := (List.mem_filter.mp listed).2
      simp only [Bool.and_eq_true, decide_eq_true_eq] at passed
      exact passed.1
    simp [Member.afterRemovals, stays]
  have new : (admitted changes.group store.lastMember changes.additions).filter
      (fun member => member.group == group && !member.isDeleted) =
      if group = changes.group then admitted changes.group store.lastMember changes.additions
      else [] := by
    split
    · rename_i same
      refine List.filter_eq_self.mpr fun member listed => ?_
      obtain ⟨sameGroup, active, _⟩ := admitted_active listed
      simp [sameGroup, active, same]
    · rename_i different
      refine List.filter_eq_nil_iff.mpr fun member listed => ?_
      obtain ⟨sameGroup, _, _⟩ := admitted_active listed
      simp only [sameGroup, Bool.and_eq_true, beq_iff_eq]
      exact fun both => different both.1.symm
  have listed : (store.apply changes).currentMembers group =
      ((store.apply changes).members.records).filter
        (fun member => member.group == group && !member.isDeleted) := rfl
  rw [listed, filed.apply_records inOrder, List.filter_append, old, new]

theorem Filed.mem_currentMembers {store : Store} (filed : store.Filed) {group : Int}
    {member : Member} :
    member ∈ store.currentMembers group ↔
      store.members.find? member.id = some member ∧ member.group = group ∧
        member.isDeleted = false := by
  simp [currentMembers, filed.members.mem_records]

end Store

end Cohort
