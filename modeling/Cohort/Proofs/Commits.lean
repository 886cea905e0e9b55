import Cohort.Proofs.Passes
import Mathlib.Logic.Function.Iterate

/-!
# Commits

`ChangeSet.CarriedOut` says what it is to carry a whole change set out, one search of
the store at a time, and leaves no choice for the store afterwards.  A commit comes to
it exactly if the sequence of rows has a free word for each addition.
-/

namespace Cohort

/-- The rows of additions to a group, each under the word after that of the one
before. -/
def numbered (group : Int) : Int → List Admission → List Member
  | _, [] => []
  | last, addition :: additions =>
      { id := Store.nextWord last, group, contact := addition.contact,
        joinedAt := addition.joinedAt } :: numbered group (Store.nextWord last) additions

/-- The last of some rows under an identifier. -/
def lastUnder (id : Int) (rows : List Member) : Option Member :=
  rows.reverse.find? (·.id == id)

theorem mem_of_lastUnder {id : Int} {rows : List Member} {row : Member}
    (last : lastUnder id rows = some row) : row ∈ rows ∧ row.id = id := by
  have under := List.find?_some last
  exact ⟨List.mem_reverse.mp (List.mem_of_find?_eq_some last), beq_iff_eq.mp under⟩

/-- The changes of a change set outside the table of rows: only its group is written. -/
structure ChangeSet.WritesGroup (changes : ChangeSet) (store changed : Store) : Prop where
  order : changed.order = store.order
  contacts : changed.contacts = store.contacts
  assignments : changed.assignments = store.assignments
  groups : ∀ id, changed.groups.find? id =
    if id = changes.group then
      (store.groups.find? id).map fun group =>
        { group with contactCount := changes.contactCount, updatedAt := changes.updatedAt }
    else store.groups.find? id

/-- A store into which the additions are written one after the other, each over whatever
lies under its word. -/
structure ChangeSet.Written (changes : ChangeSet) (store changed : Store) : Prop extends
    changes.WritesGroup store changed where
  lastMember : changed.lastMember =
    Store.nextWord^[changes.additions.length] store.lastMember
  lapped : changed.lapped = true ↔
    store.lapped = true ∨ ¬Store.Fits store.lastMember changes.additions.length
  rows : ∀ id, changed.members.find? id =
    (lastUnder id (numbered changes.group store.lastMember changes.additions)).or
      ((store.members.find? id).map (Member.afterRemovals changes.removals changes.updatedAt))

/-- A store with a change set carried out, and nothing else. -/
structure ChangeSet.CarriedOut (changes : ChangeSet) (store changed : Store) : Prop extends
    changes.WritesGroup store changed where
  lastMember : changed.lastMember = store.lastMember + changes.additions.length
  lapped : changed.lapped = store.lapped
  /-- A row that was there is ended if it is among the removals, and else stays as it
  is. -/
  old_rows : ∀ id member, store.members.find? id = some member →
    changed.members.find? id = some
      (if id ∈ changes.removals then
        { member with isDeleted := true, updatedAt := some changes.updatedAt }
      else member)
  /-- The additions get the identifiers after the last one in their order. -/
  new_rows : ∀ (position : Nat) (addition : Admission),
    changes.additions[position]? = some addition →
    store.members.find? (store.lastMember + 1 + position) = none ∧
      changed.members.find? (store.lastMember + 1 + position) = some
        { id := store.lastMember + 1 + position
          group := changes.group
          contact := addition.contact
          joinedAt := addition.joinedAt
          isDeleted := false
          updatedAt := none }
  no_other_rows : ∀ id member, changed.members.find? id = some member →
    (store.members.find? id).isSome = true ∨
      ∃ position : Nat, position < changes.additions.length ∧ id = store.lastMember + 1 + position

/-- So many words follow on the last one before the least, and no row lies under any of
them. -/
def Store.CanNumber (store : Store) (count : Nat) : Prop :=
  ∀ position < count, store.lastMember + 1 + (position : Int) ≤ Text.maxSigned ∧
    store.members.find? (store.lastMember + 1 + position) = none

theorem ChangeSet.CarriedOut.find?_eq {changes : ChangeSet} {store first second : Store}
    (carried : changes.CarriedOut store first) (again : changes.CarriedOut store second)
    {id : Int} {member : Member} (found : first.members.find? id = some member) :
    second.members.find? id = some member := by
  rcases carried.no_other_rows id member found with old | new
  · obtain ⟨held, stored⟩ := Option.isSome_iff_exists.mp old
    rw [again.old_rows id held stored, ← carried.old_rows id held stored, found]
  · obtain ⟨position, inRange, rfl⟩ := new
    have addition := List.getElem?_eq_getElem inRange
    rw [(again.new_rows position _ addition).2, ← (carried.new_rows position _ addition).2, found]

theorem ChangeSet.WritesGroup.unique {changes : ChangeSet} {store first second : Store}
    (writes : changes.WritesGroup store first) (again : changes.WritesGroup store second)
    (members : first.members = second.members) (lastMember : first.lastMember = second.lastMember)
    (lapped : first.lapped = second.lapped) : first = second := by
  have groups : first.groups = second.groups :=
    Table.ext_find? fun id => (writes.groups id).trans (again.groups id).symm
  have order := writes.order.trans again.order.symm
  have contacts := writes.contacts.trans again.contacts.symm
  have assignments := writes.assignments.trans again.assignments.symm
  cases first
  cases second
  simp_all

theorem ChangeSet.CarriedOut.unique {changes : ChangeSet} {store first second : Store}
    (carried : changes.CarriedOut store first) (again : changes.CarriedOut store second) :
    first = second := by
  have members : first.members = second.members := by
    refine Table.ext_find? fun id => Option.ext fun member => ?_
    exact ⟨carried.find?_eq again, again.find?_eq carried⟩
  exact carried.toWritesGroup.unique again.toWritesGroup members
    (carried.lastMember.trans again.lastMember.symm) (carried.lapped.trans again.lapped.symm)

theorem ChangeSet.Written.unique {changes : ChangeSet} {store first second : Store}
    (written : changes.Written store first) (again : changes.Written store second) :
    first = second := by
  have members : first.members = second.members :=
    Table.ext_find? fun id => (written.rows id).trans (again.rows id).symm
  have lapped : first.lapped = second.lapped :=
    Bool.eq_iff_iff.mpr (written.lapped.trans again.lapped.symm)
  exact written.toWritesGroup.unique again.toWritesGroup members
    (written.lastMember.trans again.lastMember.symm) lapped

/-! ## The words of the additions -/

theorem admitted_getElem? (group last : Int) (additions : List Admission) (position : Nat) :
    (admitted group last additions)[position]? =
      additions[position]?.map fun addition =>
        { id := last + 1 + position, group, contact := addition.contact,
          joinedAt := addition.joinedAt } := by
  induction additions generalizing last position with
  | nil => rfl
  | cons addition additions induction =>
      cases position with
      | zero => simp [admitted]
      | succ position =>
          have shifted : last + 1 + 1 + (position : Int) = last + 1 + (position + 1 : Nat) := by
            omega
          simp only [admitted, List.getElem?_cons_succ, induction, shifted]

theorem exists_of_mem_admitted {group last : Int} {additions : List Admission} {row : Member}
    (listed : row ∈ admitted group last additions) :
    ∃ position : Nat, position < additions.length ∧ row.id = last + 1 + position ∧
      (admitted group last additions)[position]? = some row := by
  obtain ⟨position, standing⟩ := List.getElem?_of_mem listed
  have there := standing
  rw [admitted_getElem?] at there
  obtain ⟨addition, added, rfl⟩ := Option.map_eq_some_iff.mp there
  exact ⟨position, (List.getElem?_eq_some_iff.mp added).1, rfl, standing⟩

/-- No two additions get one identifier, so the last row under it is the only one. -/
theorem lastUnder_admitted {group last : Int} {additions : List Admission} {position : Nat}
    {addition : Admission} (added : additions[position]? = some addition) :
    lastUnder (last + 1 + position) (admitted group last additions) =
      some { id := last + 1 + position, group, contact := addition.contact,
             joinedAt := addition.joinedAt } := by
  have listed := admitted_getElem? group last additions position
  rw [added, Option.map_some] at listed
  have present : (lastUnder (last + 1 + position) (admitted group last additions)).isSome = true :=
    List.find?_isSome.mpr
      ⟨_, List.mem_reverse.mpr (List.mem_of_getElem? listed), beq_self_eq_true _⟩
  obtain ⟨row, found⟩ := Option.isSome_iff_exists.mp present
  obtain ⟨member, under⟩ := mem_of_lastUnder found
  obtain ⟨other, _, sameId, standing⟩ := exists_of_mem_admitted member
  have same : other = position := by omega
  rw [found, ← listed, ← same, standing]

theorem numbered_of_fits {group last : Int} {additions : List Admission}
    (fits : Store.Fits last additions.length) :
    numbered group last additions = admitted group last additions := by
  induction additions generalizing last with
  | nil => rfl
  | cons addition additions induction =>
      have most : last + (additions.length + 1 : Nat) ≤ Text.maxSigned :=
        fits.resolve_left (Nat.succ_ne_zero _)
      have next : Store.nextWord last = last + 1 := Store.nextWord_of_lt (by omega)
      rw [numbered, admitted, next, induction (Or.inr (by omega))]

theorem nextWords_of_fits {last : Int} {count : Nat} (fits : Store.Fits last count) :
    Store.nextWord^[count] last = last + count := by
  induction count generalizing last with
  | zero => simp
  | succ count induction =>
      have most : last + (count + 1 : Nat) ≤ Text.maxSigned :=
        fits.resolve_left (Nat.succ_ne_zero _)
      rw [Function.iterate_succ_apply, Store.nextWord_of_lt (by omega),
        induction (Or.inr (by omega))]
      omega

theorem numbered_id_le {group last : Int} {additions : List Admission} {row : Member}
    (listed : row ∈ numbered group last additions) : row.id ≤ Text.maxSigned := by
  induction additions generalizing last with
  | nil => simp [numbered] at listed
  | cons addition additions induction =>
      rcases List.mem_cons.mp listed with rfl | later
      · simp only [Store.nextWord]
        split
        · omega
        · decide
      · exact induction later

namespace Store

theorem CanNumber.fits {store : Store} {count : Nat} (words : store.CanNumber count) :
    Fits store.lastMember count := by
  cases count with
  | zero => exact Or.inl rfl
  | succ position =>
      have last := (words position (Nat.lt_succ_self _)).1
      exact Or.inr (by omega)

/-- While the sequence is in order there is a free word for each addition. -/
theorem Filed.canNumber {store : Store} (filed : store.Filed) {changes : ChangeSet}
    (inOrder : (store.apply changes).lapped = false) :
    store.CanNumber changes.additions.length := by
  have before := lapped_of_apply inOrder
  rw [apply_eq] at inOrder
  have fits := fits_of_withAdded inOrder
  rw [withEnded_lastMember] at fits
  intro position inRange
  have most : store.lastMember + changes.additions.length ≤ Text.maxSigned :=
    fits.resolve_left (by omega)
  refine ⟨by omega, Option.eq_none_iff_forall_ne_some.mpr fun member stored => ?_⟩
  have below := filed.le_lastMember before _ member stored
  omega

/-! ## What is written -/

theorem Filed.withEnded_find? {store : Store} (filed : store.Filed) (time : Instant)
    (rows : List Int) (id : Int) :
    (store.withEnded time rows).members.find? id =
      (store.members.find? id).map (Member.afterRemovals rows time) := by
  have ended := filed.withEnded time rows
  ext member
  constructor
  · intro found
    have sameId : member.id = id := ended.members id member found
    subst id
    have stored := ended.members.mem_records.mpr found
    rw [filed.withEnded_records] at stored
    obtain ⟨held, there, rfl⟩ := List.mem_map.mp stored
    rw [Member.afterRemovals_id, filed.members.mem_records.mp there]
    rfl
  · intro found
    obtain ⟨held, there, rfl⟩ := Option.map_eq_some_iff.mp found
    have sameId : held.id = id := filed.members id held there
    subst id
    have stored := List.mem_map_of_mem (f := Member.afterRemovals rows time)
      (filed.members.mem_records.mpr there)
    rw [← filed.withEnded_records] at stored
    rw [← Member.afterRemovals_id rows time held]
    exact ended.members.mem_records.mp stored

/-- Under an identifier lies the last row that was written there. -/
theorem withAdded_find? (store : Store) (group : Int) (additions : List Admission) (id : Int) :
    (store.withAdded group additions).members.find? id =
      (lastUnder id (numbered group store.lastMember additions)).or (store.members.find? id) := by
  induction additions generalizing store with
  | nil => rfl
  | cons addition additions induction =>
      rw [withAdded_cons, induction, numbered, lastUnder, lastUnder, List.reverse_cons,
        List.find?_append, Option.or_assoc]
      congr 1
      by_cases same : nextWord store.lastMember = id <;> simp [addMember, same]

theorem withAdded_lastWord (store : Store) (group : Int) (additions : List Admission) :
    (store.withAdded group additions).lastMember =
      nextWord^[additions.length] store.lastMember := by
  induction additions generalizing store with
  | nil => rfl
  | cons addition additions induction =>
      rw [withAdded_cons, induction]
      rfl

theorem withAdded_lapped {store : Store} {group : Int} {additions : List Admission} :
    (store.withAdded group additions).lapped = true ↔
      store.lapped = true ∨ ¬Fits store.lastMember additions.length := by
  rw [← not_iff_not, not_or, not_not, Bool.not_eq_true, Bool.not_eq_true]
  constructor
  · intro inOrder
    exact ⟨lapped_of_withAdded inOrder, fits_of_withAdded inOrder⟩
  · intro room
    obtain ⟨before, fits⟩ := room
    exact (withAdded_of_fits fits).2.trans before

theorem apply_writesGroup (store : Store) (changes : ChangeSet) :
    changes.WritesGroup store (store.apply changes) where
  order := apply_order store changes
  contacts := apply_contacts store changes
  assignments := apply_assignments store changes
  groups := by
    intro id
    rw [apply_groups, Table.find?_modify]
    simp only [eq_comm]

theorem Filed.apply_written {store : Store} (filed : store.Filed) (changes : ChangeSet) :
    changes.Written store (store.apply changes) where
  toWritesGroup := apply_writesGroup store changes
  lastMember := by
    rw [apply_eq]
    dsimp only
    rw [withAdded_lastWord, withEnded_lastMember]
  lapped := by
    rw [apply_eq]
    dsimp only
    rw [withAdded_lapped, withEnded_lapped, withEnded_lastMember]
  rows := by
    intro id
    rw [apply_eq]
    dsimp only
    rw [withAdded_find?, withEnded_lastMember, filed.withEnded_find?]

end Store

/-- With a free word for each addition the change set is carried out. -/
theorem ChangeSet.Written.carriedOut {changes : ChangeSet} {store changed : Store}
    (written : changes.Written store changed) (filed : store.Filed)
    (words : store.CanNumber changes.additions.length) : changes.CarriedOut store changed := by
  have rows (id : Int) := written.rows id
  simp only [numbered_of_fits words.fits] at rows
  refine { toWritesGroup := written.toWritesGroup, lastMember := ?_, lapped := ?_,
           old_rows := ?_, new_rows := ?_, no_other_rows := ?_ }
  · rw [written.lastMember]
    exact nextWords_of_fits words.fits
  · refine Bool.eq_iff_iff.mpr (written.lapped.trans ?_)
    exact or_iff_left (not_not.mpr words.fits)
  · intro id member stored
    have apart :
      lastUnder id (admitted changes.group store.lastMember changes.additions) = none := by
      refine Option.eq_none_iff_forall_ne_some.mpr fun row found => ?_
      obtain ⟨listed, under⟩ := mem_of_lastUnder found
      obtain ⟨position, inRange, sameId, _⟩ := exists_of_mem_admitted listed
      have free := (words position inRange).2
      rw [← sameId, under, stored] at free
      cases free
    obtain rfl : member.id = id := filed.members id member stored
    rw [rows, apart, stored]
    rfl
  · intro position addition added
    refine ⟨(words position (List.getElem?_eq_some_iff.mp added).1).2, ?_⟩
    rw [rows, lastUnder_admitted added, Option.some_or]
  · intro id member found
    rw [rows, Option.or_eq_some_iff] at found
    rcases found with new | ⟨_, old⟩
    · obtain ⟨listed, under⟩ := mem_of_lastUnder new
      obtain ⟨position, inRange, sameId, _⟩ := exists_of_mem_admitted listed
      exact Or.inr ⟨position, inRange, under.symm.trans sameId⟩
    · obtain ⟨held, stored, _⟩ := Option.map_eq_some_iff.mp old
      exact Or.inl (by rw [stored]; rfl)

theorem ChangeSet.Written.canNumber {changes : ChangeSet} {store changed : Store}
    (written : changes.Written store changed) (carried : changes.CarriedOut store changed) :
    store.CanNumber changes.additions.length := by
  intro position inRange
  obtain ⟨free, new⟩ := carried.new_rows position _ (List.getElem?_eq_getElem inRange)
  refine ⟨?_, free⟩
  rw [written.rows, free, Option.map_none, Option.or_none] at new
  obtain ⟨listed, under⟩ := mem_of_lastUnder new
  rw [← under]
  exact numbered_id_le listed

namespace Store

/-- While the sequence is in order, what a commit writes is the change set and nothing
else. -/
theorem Filed.apply_carriedOut {store : Store} (filed : store.Filed) {changes : ChangeSet}
    (inOrder : (store.apply changes).lapped = false) :
    changes.CarriedOut store (store.apply changes) :=
  (filed.apply_written changes).carriedOut filed (filed.canNumber inOrder)

end Store

end Cohort
