import Cohort.Proofs.Passes
import Cohort.Proofs.Store.Tags

/-!
# Segments of a changing store

Contacts and tags are asked for one after the other, and what others do in between is
seen in the tags but not in the contacts.
-/

namespace Cohort

def Operation.ChangesContacts : Operation → Prop
  | .putContact _ | .editContact _ _ | .giveTag _ _ | .takeTag _ _ => True
  | _ => False

namespace Store

def performAll (store : Store) (operations : List Operation) : Store :=
  operations.foldl Operation.perform store

/-- The stores that operations lead through, the first and the last among them. -/
def statesAlong (store : Store) : List Operation → List Store
  | [] => [store]
  | operation :: operations => store :: (operation.perform store).statesAlong operations

/-- A store without faults that is another one as soon as contacts have been told. -/
def overtaken (now : Instant) (lookup : TagLookup) (later : Store) : Handler Store :=
  fun store call =>
    match call with
    | .liveContacts owner => (some (.ok (store.liveContacts owner)), later)
    | call =>
        let (answer, after) := store.answer now lookup call
        (some answer, after)

theorem mem_judge {store : Store} {criteria : Criteria} {contacts : List Contact} {id : Int} :
    id ∈ (store.judge criteria contacts).contacts ↔
      ∃ contact ∈ contacts, contact.id = id ∧
        criteria.isMatch { contact, tags := (store.tagsOf id).held } = true := by
  unfold judge
  rw [PreparedCriteria.mem_matching]
  simp only [PreparedCriteria.admits, Criteria.isMatch, find?_tagsOfAll]
  constructor
  · intro member
    rcases member with ⟨contact, listed, admitted, rfl⟩
    rw [if_pos (List.mem_map_of_mem listed)] at admitted
    exact ⟨contact, listed, rfl, admitted⟩
  · intro member
    rcases member with ⟨contact, listed, rfl, admitted⟩
    refine ⟨contact, listed, ?_, rfl⟩
    rwa [if_pos (List.mem_map_of_mem listed)]

theorem run_overtaken {α : Type} (now : Instant) (lookup : TagLookup) (later : Store)
    {program : Program α} (only : program.MakesOnly fun call => ∀ owner, call ≠ .liveContacts owner)
    (store : Store) :
    (program.run (overtaken now lookup later) store).1 =
      ((store.faultless now lookup).run program).1 := by
  induction program generalizing store with
  | done value => rfl
  | ask call next induction =>
      have faultless : (store.faultless now lookup).handle call =
          (some (store.answer now lookup call).1,
            (store.answer now lookup call).2.faultless now lookup) := by
        unfold FaultyStore.handle
        split <;> rfl
      have same : overtaken now lookup later store call =
          (some (store.answer now lookup call).1, (store.answer now lookup call).2) := by
        cases call <;> first | rfl | exact (only.1 _ rfl).elim
      rw [Program.run, same]
      unfold FaultyStore.run
      rw [Program.run, faultless]
      exact induction _ (only.2 _) _

/-- A segment that is overtaken by changes: contacts from before them, tags from after
them. -/
theorem segment_overtaken (store later : Store) (now : Instant) (lookup : TagLookup)
    (evaluation : Evaluation) (owner : String) (criteria : Criteria) :
    ((evaluation.segment owner criteria).run.run (overtaken now lookup later) store).1 =
      some (.ok (later.judge criteria (store.liveContacts owner))) := by
  have only : (evaluation.judging criteria (store.liveContacts owner)).run.MakesOnly
      fun call => ∀ owner, call ≠ .liveContacts owner := by
    apply (evaluation.judging_makesOnly criteria _).mono
    intro call reads other same
    subst call
    exact reads
  have rest := run_overtaken now lookup later only later
  rw [(Attempt.reads_judging evaluation criteria (store.liveContacts owner)).run now] at rest
  exact rest

theorem contacts_of_mem_statesAlong {operations : List Operation}
    (tagsOnly : ∀ operation ∈ operations, ∀ store,
      (operation.perform store).contacts = store.contacts)
    {store state : Store} (along : state ∈ store.statesAlong operations) :
    state.contacts = store.contacts := by
  induction operations generalizing store with
  | nil => rw [List.mem_singleton.mp along]
  | cons operation operations induction =>
      obtain ⟨first, later⟩ := List.forall_mem_cons.mp tagsOnly
      rcases List.mem_cons.mp along with rfl | along
      · rfl
      · exact (induction later along).trans (first store)

end Store

/-- A live contact matches or not whatever its tags are. -/
def Criteria.TagBlind (criteria : Criteria) : Prop :=
  ∀ contact : Contact, contact.isLive = true → ∀ left right : IdSet,
    criteria.isMatch { contact, tags := left.held } =
      criteria.isMatch { contact, tags := right.held }

/-- Whatever others change between the two questions, the segment is one that some state
of the store on the way defines. -/
def Criteria.OfOneState (criteria : Criteria) : Prop :=
  ∀ (store : Store) (operations : List Operation) (owner : String) (evaluation : Evaluation)
    (now : Instant) (lookup : TagLookup), store.Reachable →
    (∀ operation ∈ operations, operation.ChangesContacts) →
    ∃ state ∈ store.statesAlong operations,
      ((evaluation.segment owner criteria).run.run
          (Store.overtaken now lookup (store.performAll operations)) store).1 =
        ((state.faultless now lookup).run (evaluation.segment owner criteria).run).1

namespace Criteria

variable {criteria : Criteria}

theorem ofOneState_iff :
    criteria.OfOneState ↔
      ∀ (store : Store) (operations : List Operation) (owner : String), store.Reachable →
        (∀ operation ∈ operations, operation.ChangesContacts) →
        ∃ state ∈ store.statesAlong operations,
          (store.performAll operations).judge criteria (store.liveContacts owner) =
            state.segment owner criteria := by
  unfold OfOneState
  simp only [Store.segment_overtaken, Store.run_segment, Option.some.injEq, Except.ok.injEq]
  constructor
  · intro promised store operations owner
    exact promised store operations owner {} sampleTime .together
  · intro promised store operations owner _ _ _
    exact promised store operations owner

/-- Criteria that do not look at tags do not notice changes after the contacts have been
told. -/
theorem TagBlind.judge_eq (blind : criteria.TagBlind) (store later : Store) (owner : String) :
    later.judge criteria (store.liveContacts owner) = store.segment owner criteria := by
  have members : (later.judge criteria (store.liveContacts owner)).contacts =
      (store.segment owner criteria).contacts := by
    apply IdSet.eq_of_mem_iff
    intro id
    rw [Store.segment, Store.mem_judge, Store.mem_judge]
    refine exists_congr fun contact => and_congr_right fun listed => and_congr_right fun _ => ?_
    have live : contact.isLive = true := (Store.mem_liveContacts.mp listed).2.2
    rw [blind contact live (later.tagsOf id) (store.tagsOf id)]
  exact congrArg Segment.mk members

def loneStore (contact : Contact) (tags : IdSet) : Store :=
  .ofSeed
    { contacts := [contact]
      assignments := Store.assignmentsOf contact.id tags.toList }

/-- The contact is no longer active. -/
def deactivation (contact : Contact) : Operation :=
  .editContact contact.id ({ · with isActive := false })

variable {contact : Contact} {tags : IdSet}

theorem loneStore_contacts :
    (loneStore contact tags).contacts = Table.empty.insert contact.id contact := by
  unfold loneStore Store.ofSeed
  exact Store.addAssignments_contacts _ _

theorem loneStore_liveContacts (live : contact.isLive = true) :
    (loneStore contact tags).liveContacts contact.owner = [contact] := by
  have alone : (Table.empty.insert contact.id contact).records = [contact] := rfl
  have listed := (loneStore contact tags).liveContacts_perm contact.owner
  rw [loneStore_contacts, alone] at listed
  exact List.perm_singleton.mp (by simpa [live] using listed)

theorem loneStore_held :
    ((loneStore contact tags).assignments.find? contact.id).getD [] =
      Store.assignmentsOf contact.id tags.toList := by
  have own : (Store.assignmentsOf contact.id tags.toList).filter (·.contact == contact.id) =
      Store.assignmentsOf contact.id tags.toList := by
    simp [Store.assignmentsOf]
  exact (Store.ofSeed_held _ _ _).trans own

theorem loneStore_tagsOf : (loneStore contact tags).tagsOf contact.id = tags := by
  apply IdSet.eq_of_mem_iff
  intro tag
  rw [Store.mem_tagsOf, loneStore_held]
  simp [Store.heldTags, Store.assignmentsOf, IdSet.mem_def]

theorem deactivated_liveContacts {state : Store}
    (same : state.contacts = ((deactivation contact).perform (loneStore contact tags)).contacts) :
    state.liveContacts contact.owner = [] := by
  have alone : ((Table.empty.insert contact.id contact).modify contact.id
      ({ · with isActive := false })).records = [{ contact with isActive := false }] := by
    simp [Table.records, Table.modify, Table.modifyEntries, Table.insert, Table.place, Table.empty]
  have contacts : state.contacts =
      (Table.empty.insert contact.id contact).modify contact.id ({ · with isActive := false }) := by
    rw [same, ← loneStore_contacts]
    rfl
  have listed := state.liveContacts_perm contact.owner
  rw [contacts, alone] at listed
  exact List.perm_nil.mp (by simpa [Contact.isLive] using listed)

/-- If the segment is always one of a single state, a lone contact that matches with the
tags it gets after it is deactivated matches with those that it had before. -/
theorem OfOneState.isMatch_before (promised : criteria.OfOneState) (live : contact.isLive = true)
    {operations : List Operation} (allowed : ∀ operation ∈ operations, operation.ChangesContacts)
    (tagsOnly : ∀ operation ∈ operations, ∀ store : Store,
      (operation.perform store).contacts = store.contacts)
    {later : IdSet}
    (changed : (((deactivation contact).perform (loneStore contact tags)).performAll
      operations).tagsOf contact.id = later)
    (accepts : criteria.isMatch { contact, tags := later.held } = true) :
    criteria.isMatch { contact, tags := tags.held } = true := by
  obtain ⟨state, along, same⟩ := ofOneState_iff.mp promised (loneStore contact tags)
    (deactivation contact :: operations) contact.owner (.seeded _ _)
    (List.forall_mem_cons.mpr ⟨trivial, allowed⟩)
  have inSegment : contact.id ∈ (state.segment contact.owner criteria).contacts := by
    rw [← same, loneStore_liveContacts live, Store.mem_judge]
    refine ⟨contact, List.mem_singleton.mpr rfl, rfl, ?_⟩
    exact changed ▸ accepts
  obtain ⟨other, listed, _, matching⟩ := Store.mem_judge.mp inSegment
  -- Every state but the first has the contact deactivated, and the segment has it.
  rcases List.mem_cons.mp along with rfl | later
  · rw [loneStore_liveContacts live] at listed
    cases List.mem_singleton.mp listed
    rwa [loneStore_tagsOf] at matching
  · rw [deactivated_liveContacts (Store.contacts_of_mem_statesAlong tagsOnly later)] at listed
    cases listed

theorem tagsOf_giving (store : Store) (contact : Int) (tags : IdSet)
    (untagged : store.tagsOf contact = .empty) :
    (store.performAll (tags.toList.map (.giveTag contact))).tagsOf contact = tags := by
  apply IdSet.eq_of_mem_iff
  intro tag
  rw [Store.performAll, List.foldl_map]
  apply Store.mem_tagsOf_giveTags.trans
  simp [untagged, IdSet.mem_def]

/-- A lone contact matches with tags if and only if it matches without. -/
theorem OfOneState.isMatch_eq_untagged (promised : criteria.OfOneState)
    (live : contact.isLive = true) (tags : IdSet) :
    criteria.isMatch { contact, tags := tags.held } =
      criteria.isMatch { contact, tags := IdSet.empty.held } := by
  apply Bool.eq_iff_iff.mpr
  constructor
  · have untagged : ((deactivation contact).perform (loneStore contact .empty)).tagsOf contact.id =
        .empty := loneStore_tagsOf
    refine promised.isMatch_before live ?_ ?_ (tagsOf_giving _ contact.id tags untagged)
    · intro operation listed
      obtain ⟨tag, _, rfl⟩ := List.mem_map.mp listed
      trivial
    · intro operation listed store
      obtain ⟨tag, _, rfl⟩ := List.mem_map.mp listed
      simp only [Operation.perform, Store.giveTag]
      split <;> rfl
  · have taken : (((deactivation contact).perform (loneStore contact tags)).performAll
        (tags.toList.map (.takeTag contact.id))).tagsOf contact.id = .empty := by
      rw [Store.performAll, List.foldl_map]
      exact Store.tagsOf_takeTags (List.forall_mem_nil _) loneStore_held
    refine promised.isMatch_before live ?_ ?_ taken
    · intro operation listed
      obtain ⟨tag, _, rfl⟩ := List.mem_map.mp listed
      trivial
    · intro operation listed store
      obtain ⟨tag, _, rfl⟩ := List.mem_map.mp listed
      rfl

/-- A segment takes the contacts from before the changes and their tags from after
them.  For given criteria it is one that a single state of the store defines, whatever
the store and the changes, if and only if the criteria do not look at tags. -/
theorem segment_ofOneState_iff (criteria : Criteria) :
    (∀ (store later : Store) (owner : String) (evaluation : Evaluation) (now : Instant)
      (lookup : TagLookup), ∃ segment : Segment,
      ((evaluation.segment owner criteria).run.run (Store.overtaken now lookup later) store).1 =
          some (.ok segment) ∧
        ∀ id, id ∈ segment.contacts ↔ ∃ contact ∈ store.liveContacts owner, contact.id = id ∧
          criteria.isMatch { contact, tags := (later.tagsOf id).held } = true) ∧
      (criteria.OfOneState ↔ criteria.TagBlind) := by
  constructor
  · intro store later owner evaluation now lookup
    exact ⟨_, store.segment_overtaken later now lookup evaluation owner criteria,
      fun id => Store.mem_judge⟩
  constructor
  · intro promised contact live left right
    rw [promised.isMatch_eq_untagged live left, promised.isMatch_eq_untagged live right]
  · intro blind
    rw [ofOneState_iff]
    intro store operations owner _ _
    refine ⟨store, ?_, blind.judge_eq store _ owner⟩
    cases operations <;> exact List.mem_cons_self

/-- A store with one French contact that has no tags. -/
def frenchStore : Store :=
  .ofSeed { contacts := [{ id := 1, owner := "ana", country := some "FR" }] }

/-- The contact moves, and then it is given a tag. -/
def movingThenTagged : List Operation :=
  [.editContact 1 ({ · with country := some "DE" }), .giveTag 1 5]

/-- French contacts with the tag. -/
def frenchAndTagged : Criteria :=
  { rules :=
      [{ field := some "country", comparison := some "equals", value := some "FR" },
        { field := some "tag", comparison := some "in", value := some "5" }]
    connectiveName := some "AND" }

/-- The contact is never French and tagged, and yet it is in the segment. -/
theorem frenchAndTagged_of_no_state :
    frenchStore.Reachable ∧ (∀ operation ∈ movingThenTagged, operation.ChangesContacts) ∧
      ((({} : Evaluation).segment "ana" frenchAndTagged).run.run
          (Store.overtaken sampleTime .together (frenchStore.performAll movingThenTagged))
          frenchStore).1 =
        some (.ok { contacts := .ofList [1] }) ∧
      ∀ state ∈ frenchStore.statesAlong movingThenTagged,
        ((state.faultless sampleTime .together).run
            (({} : Evaluation).segment "ana" frenchAndTagged).run).1 =
          some (.ok .empty) := by
  have mixed : (frenchStore.performAll movingThenTagged).judge frenchAndTagged
      (frenchStore.liveContacts "ana") = { contacts := .ofList [1] } := by
    decide +kernel
  have alone : ∀ state ∈ frenchStore.statesAlong movingThenTagged,
      state.segment "ana" frenchAndTagged = .empty := by
    decide +kernel
  refine ⟨.seeded _ _, by simp [movingThenTagged, Operation.ChangesContacts], ?_, ?_⟩
  · rw [Store.segment_overtaken, mixed]
  · intro state along
    rw [Store.run_segment, alone state along]

end Criteria

end Cohort
