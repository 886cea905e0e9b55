import Cohort.Proofs.Filing
import Cohort.Store.Queries

/-!
# Tags

What the store tells of many contacts at once is what it tells of each, without those
that have no tags.
-/

namespace Cohort

/-- A set of tags as a table holds it: not at all if it is empty. -/
def IdSet.held (tags : IdSet) : Option IdSet :=
  if tags.isEmpty then none else some tags

namespace Store

/-- A contact without assignments has no tags, so passing it over makes no
difference. -/
theorem tagsOfAll_eq (store : Store) (contacts : List Int) :
    store.tagsOfAll contacts =
      contacts.foldl
        (fun table contact =>
          let tags := store.tagsOf contact
          if tags.isEmpty then table else table.insert contact tags)
        .empty := by
  unfold tagsOfAll tagsOf
  congr 1
  funext table contact
  cases store.assignments.find? contact <;> rfl

theorem find?_tagsOfAll (store : Store) (contacts : List Int) (id : Int) :
    (store.tagsOfAll contacts).find? id =
      if id ∈ contacts then (store.tagsOf id).held else none := by
  have collected (table : TagTable) :
      (contacts.foldl
          (fun table contact =>
            let tags := store.tagsOf contact
            if tags.isEmpty then table else table.insert contact tags)
          table).find? id =
        if id ∈ contacts then (store.tagsOf id).held.or (table.find? id) else table.find? id := by
    induction contacts generalizing table with
    | nil => simp
    | cons contact contacts induction =>
        simp only [List.foldl_cons, induction, List.mem_cons]
        by_cases same : id = contact
        · subst same
          cases empty : (store.tagsOf id).isEmpty <;> simp [IdSet.held, empty]
        · cases empty : (store.tagsOf contact).isEmpty <;> simp [same, Ne.symm same]
  rw [tagsOfAll_eq, collected]
  simp

/-- The tags of assignments that are not deleted. -/
def heldTags (held : List TagAssignment) : List Int :=
  (held.filter (!·.isDeleted)).map (·.tag)

theorem mem_tagsOf {store : Store} {contact tag : Int} :
    tag ∈ store.tagsOf contact ↔ tag ∈ heldTags ((store.assignments.find? contact).getD []) :=
  IdSet.mem_ofList

theorem mem_heldTags_revive {held : List TagAssignment} {tag other : Int}
    (present : held.any (·.tag == tag) = true) :
    other ∈ heldTags (changeFirst (·.tag == tag) ({ · with isDeleted := false }) held) ↔
      other = tag ∨ other ∈ heldTags held := by
  induction held with
  | nil => cases present
  | cons first rest induction =>
      unfold changeFirst
      split
      · rename_i same
        have sameTag : first.tag = tag := by simpa using same
        cases deleted : first.isDeleted <;> simp [heldTags, deleted, sameTag]
      · rename_i different
        have later : rest.any (·.tag == tag) = true := by simpa [different] using present
        have split := induction later
        simp only [heldTags, List.filter_cons] at split ⊢
        cases deleted : first.isDeleted
        · simp only [Bool.not_false, if_true, List.map_cons, List.mem_cons, split]
          exact or_left_comm
        · simpa using split

theorem mem_tagsOf_giveTag {store : Store} {contact tag other : Int} :
    other ∈ (store.giveTag contact tag).tagsOf contact ↔
      other = tag ∨ other ∈ store.tagsOf contact := by
  rw [mem_tagsOf, mem_tagsOf]
  unfold giveTag
  simp only
  split
  · rename_i present
    simp only [Table.find?_insert, if_true, Option.getD_some]
    exact mem_heldTags_revive present
  · simp only [addAssignment, Table.find?_insert, if_true, Option.getD_some]
    simp [heldTags, or_comm]

theorem mem_tagsOf_giveTags {store : Store} {contact other : Int} {tags : List Int} :
    other ∈ (tags.foldl (giveTag · contact ·) store).tagsOf contact ↔
      other ∈ tags ∨ other ∈ store.tagsOf contact := by
  induction tags generalizing store with
  | nil => simp
  | cons tag tags induction =>
      simp only [List.foldl_cons, induction, mem_tagsOf_giveTag, List.mem_cons]
      exact or_left_comm.trans or_assoc.symm

theorem changeFirst_append {test : TagAssignment → Bool} {change : TagAssignment → TagAssignment}
    {front back : List TagAssignment} (fails : ∀ held ∈ front, test held = false) :
    changeFirst test change (front ++ back) = front ++ changeFirst test change back := by
  induction front with
  | nil => rfl
  | cons first rest induction =>
      obtain ⟨failsFirst, failsRest⟩ := List.forall_mem_cons.mp fails
      simp only [List.cons_append, changeFirst, failsFirst, Bool.false_eq_true, if_false,
        induction failsRest]

def assignmentsOf (contact : Int) (tags : List Int) : List TagAssignment :=
  tags.map fun tag => { contact := contact, tag := tag }

/-- A contact from which every tag that it was given is taken has none left. -/
theorem tagsOf_takeTags {store : Store} {contact : Int} {tags : List Int}
    {ended : List TagAssignment} (deleted : ∀ held ∈ ended, held.isDeleted = true)
    (given : (store.assignments.find? contact).getD [] =
      ended ++ assignmentsOf contact tags) :
    (tags.foldl (takeTag · contact ·) store).tagsOf contact = .empty := by
  induction tags generalizing store ended with
  | nil =>
      have none : ended.filter (!·.isDeleted) = [] :=
        List.filter_eq_nil_iff.mpr (by simpa using deleted)
      simp [tagsOf, given, assignmentsOf, none, IdSet.ofList, IdSet.empty]
  | cons tag tags induction =>
      have fails : ∀ held ∈ ended, (held.tag == tag && !held.isDeleted) = false := by
        intro held member
        simp [deleted held member]
      have laterDeleted : ∀ held ∈ ended ++ [{ contact, tag, isDeleted := true }],
          held.isDeleted = true := by
        simpa [or_imp, forall_and] using deleted
      apply induction laterDeleted
      cases found : store.assignments.find? contact with
      | none => simp [found, assignmentsOf] at given
      | some held =>
          rw [found, Option.getD_some] at given
          simp [takeTag, found, given, assignmentsOf, changeFirst_append fails, changeFirst]

theorem addAssignments_held (store : Store) (assignments : List TagAssignment) (contact : Int) :
    ((assignments.foldl addAssignment store).assignments.find? contact).getD [] =
      (store.assignments.find? contact).getD [] ++ assignments.filter (·.contact == contact) := by
  induction assignments generalizing store with
  | nil => simp
  | cons assignment assignments induction =>
      rw [List.foldl_cons, induction, addAssignment]
      by_cases own : assignment.contact = contact
      · simp [own]
      · simp [own]

theorem foldl_keeps {α β : Type} (part : Store → β) (write : Store → α → Store)
    (keeps : ∀ store item, part (write store item) = part store) (items : List α) (store : Store) :
    part (items.foldl write store) = part store := by
  induction items generalizing store with
  | nil => rfl
  | cons item items induction => exact (induction (write store item)).trans (keeps store item)

theorem ofSeed_held (seed : Seed) (order : VisitOrder) (contact : Int) :
    ((ofSeed seed order).assignments.find? contact).getD [] =
      seed.assignments.filter (·.contact == contact) := by
  let withContacts := seed.contacts.foldl putContact (empty order)
  let assigned := seed.assignments.foldl addAssignment withContacts
  have none : withContacts.assignments = .empty :=
    foldl_keeps Store.assignments putContact (fun _ _ => rfl) seed.contacts (empty order)
  have grouped : (seed.groups.foldl putGroup assigned).assignments = assigned.assignments :=
    foldl_keeps Store.assignments putGroup (fun _ _ => rfl) seed.groups assigned
  have complete : (ofSeed seed order).assignments = assigned.assignments :=
    (foldl_keeps Store.assignments putMember (fun _ _ => rfl) seed.members _).trans grouped
  rw [complete, addAssignments_held, none, Table.find?_empty, Option.getD_none, List.nil_append]

theorem addAssignments_contacts (store : Store) (assignments : List TagAssignment) :
    (assignments.foldl addAssignment store).contacts = store.contacts :=
  foldl_keeps Store.contacts addAssignment (fun _ _ => rfl) assignments store

end Store

end Cohort
