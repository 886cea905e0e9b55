import Cohort.Proofs.Tagging
import Mathlib.Data.Set.Card

/-!
# Segments by what is stored

Tags are told all at once or contact by contact, a contact without tags may be left out,
and contacts are judged in order or in halves.  None of this is seen in the segment.
-/

namespace Cohort

namespace Store

/-- Each assignment is stored under the contact that it names. -/
def AssignmentsFiled (store : Store) : Prop :=
  ∀ contact held, store.assignments.find? contact = some held →
    ∀ assignment ∈ held, assignment.contact = contact

theorem mem_changeFirst {test : TagAssignment → Bool} {change : TagAssignment → TagAssignment}
    {held : List TagAssignment} {assignment : TagAssignment}
    (listed : assignment ∈ changeFirst test change held) :
    assignment ∈ held ∨ ∃ earlier ∈ held, assignment = change earlier := by
  induction held with
  | nil => cases listed
  | cons first rest induction =>
      unfold changeFirst at listed
      split at listed
      · rcases List.mem_cons.mp listed with changed | later
        · right
          exact ⟨first, List.mem_cons_self, changed⟩
        · left
          exact List.mem_cons_of_mem first later
      · rcases List.mem_cons.mp listed with same | later
        · left
          exact same ▸ List.mem_cons_self
        · apply (induction later).imp (List.mem_cons_of_mem first)
          intro changed
          obtain ⟨earlier, inRest, same⟩ := changed
          exact ⟨earlier, List.mem_cons_of_mem first inRest, same⟩

theorem contact_of_mem_changeFirst {test : TagAssignment → Bool}
    {change : TagAssignment → TagAssignment}
    (keeps : ∀ assignment, (change assignment).contact = assignment.contact)
    {held : List TagAssignment} {contact : Int}
    (filed : ∀ assignment ∈ held, assignment.contact = contact) :
    ∀ assignment ∈ changeFirst test change held, assignment.contact = contact := by
  intro assignment listed
  rcases mem_changeFirst listed with same | ⟨earlier, inHeld, rfl⟩
  · exact filed assignment same
  · exact (keeps earlier).trans (filed earlier inHeld)

variable {store : Store}

theorem AssignmentsFiled.getD (filed : store.AssignmentsFiled) (contact : Int) :
    ∀ assignment ∈ (store.assignments.find? contact).getD [], assignment.contact = contact := by
  cases found : store.assignments.find? contact with
  | none => exact List.forall_mem_nil _
  | some held => exact filed contact held found

/-- Assignments may be replaced under a contact by others of the contact. -/
theorem AssignmentsFiled.insert (filed : store.AssignmentsFiled) {contact : Int}
    {held : List TagAssignment} (own : ∀ assignment ∈ held, assignment.contact = contact) :
    AssignmentsFiled { store with assignments := store.assignments.insert contact held } := by
  intro other found lookup
  simp only [Table.find?_insert] at lookup
  split at lookup
  · rename_i same
    cases lookup
    exact same ▸ own
  · exact filed other found lookup

theorem AssignmentsFiled.addAssignment (filed : store.AssignmentsFiled)
    (assignment : TagAssignment) : (store.addAssignment assignment).AssignmentsFiled := by
  apply filed.insert
  intro listed member
  rcases List.mem_append.mp member with earlier | new
  · exact filed.getD assignment.contact listed earlier
  · rw [List.mem_singleton.mp new]

theorem AssignmentsFiled.giveTag (filed : store.AssignmentsFiled) (contact tag : Int) :
    (store.giveTag contact tag).AssignmentsFiled := by
  unfold Store.giveTag
  simp only
  split
  · apply filed.insert
    apply contact_of_mem_changeFirst
    · exact fun _ => rfl
    · exact filed.getD contact
  · exact filed.addAssignment _

theorem AssignmentsFiled.takeTag (filed : store.AssignmentsFiled) (contact tag : Int) :
    (store.takeTag contact tag).AssignmentsFiled := by
  intro other found lookup
  simp only [Store.takeTag, Table.find?_modify] at lookup
  split at lookup
  · obtain ⟨held, stored, rfl⟩ := Option.map_eq_some_iff.mp lookup
    apply contact_of_mem_changeFirst
    · exact fun _ => rfl
    · exact filed other held stored
  · exact filed other found lookup

theorem AssignmentsFiled.perform (filed : store.AssignmentsFiled) (operation : Operation) :
    (operation.perform store).AssignmentsFiled := by
  cases operation with
  | giveTag contact tag => exact filed.giveTag contact tag
  | takeTag contact tag => exact filed.takeTag contact tag
  | _ =>
      unfold AssignmentsFiled
      rw [perform_assignments id]
      exact filed

theorem ReachableBy.assignmentsFiled {allowed : Store → Operation → Prop}
    (reachable : ReachableBy allowed store) : store.AssignmentsFiled := by
  induction reachable with
  | seeded seed order =>
      intro contact held found assignment listed
      have given := ofSeed_held seed order contact
      rw [found, Option.getD_some] at given
      rw [given] at listed
      exact beq_iff_eq.mp (List.mem_filter.mp listed).2
  | step operation _ _ before => exact before.perform operation

end Store

namespace Store

variable {store : Store}

/-- Some stored assignment of the tag to the contact is not deleted. -/
def HasTag (store : Store) (contact tag : Int) : Prop :=
  ∃ held ∈ store.assignments.records, ∃ assignment ∈ held,
    assignment.contact = contact ∧ assignment.tag = tag ∧ assignment.isDeleted = false

theorem AssignmentsFiled.mem_tagsOf_iff (filed : store.AssignmentsFiled) {contact tag : Int} :
    tag ∈ store.tagsOf contact ↔ store.HasTag contact tag := by
  rw [mem_tagsOf, heldTags, List.mem_map]
  constructor
  · intro given
    obtain ⟨assignment, live, named⟩ := given
    obtain ⟨listed, kept⟩ := List.mem_filter.mp live
    have own := filed.getD contact assignment listed
    cases found : store.assignments.find? contact with
    | none => simp [found] at listed
    | some held =>
        rw [found, Option.getD_some] at listed
        exact ⟨held, Table.mem_records.mpr ⟨contact, found⟩, assignment, listed, own, named,
          by simpa using kept⟩
  · intro stored
    obtain ⟨held, inTable, assignment, listed, own, named, kept⟩ := stored
    obtain ⟨key, found⟩ := Table.mem_records.mp inTable
    obtain rfl : key = contact := (filed key held found assignment listed).symm.trans own
    refine ⟨assignment, ?_, named⟩
    rw [found, Option.getD_some]
    exact List.mem_filter.mpr ⟨listed, by simp [kept]⟩

/-- The table tells the tags of those of some contacts that have any, and of no
others. -/
def TellsTags (store : Store) (contacts : List Int) (table : TagTable) : Prop :=
  ∀ id tags, table.find? id = some tags ↔
    id ∈ contacts ∧ (∃ tag, tag ∈ tags) ∧ ∀ tag, tag ∈ tags ↔ store.HasTag id tag

end Store

theorem IdSet.isEmpty_iff {set : IdSet} : set.isEmpty = true ↔ ∀ id, id ∉ set :=
  List.isEmpty_iff.trans List.eq_nil_iff_forall_not_mem

theorem IdSet.held_eq_some_iff {set tags : IdSet} :
    set.held = some tags ↔ (∃ tag, tag ∈ tags) ∧ set = tags := by
  unfold held
  split
  · rename_i none
    constructor
    · intro impossible
      cases impossible
    · intro given
      obtain ⟨⟨tag, listed⟩, rfl⟩ := given
      exact (isEmpty_iff.mp none tag listed).elim
  · rename_i some
    rw [isEmpty_iff] at some
    push Not at some
    constructor
    · intro same
      cases same
      exact ⟨some, rfl⟩
    · intro given
      rw [given.2]

theorem IdSet.size_eq_ncard (set : IdSet) : set.size = {id | id ∈ set}.ncard := by
  have distinct : set.toList.Nodup := set.ascending.imp fun less => Int.ne_of_lt less
  have elements : {id | id ∈ set} = (set.toList.toFinset : Set Int) := by
    ext id
    simp [mem_def]
  rw [elements, Set.ncard_coe_finset, List.toFinset_card_of_nodup distinct, size]

namespace Store

variable {store : Store}

theorem AssignmentsFiled.tellsTags (filed : store.AssignmentsFiled) (contacts : List Int) :
    store.TellsTags contacts (store.tagsOfAll contacts) := by
  intro id tags
  rw [find?_tagsOfAll]
  have same : store.tagsOf id = tags ↔ ∀ tag, tag ∈ tags ↔ store.HasTag id tag := by
    constructor
    · rintro rfl tag
      exact filed.mem_tagsOf_iff
    · intro told
      apply IdSet.eq_of_mem_iff
      intro tag
      exact filed.mem_tagsOf_iff.trans (told tag).symm
  split
  · rename_i asked
    rw [IdSet.held_eq_some_iff, same]
    exact (and_iff_right asked).symm
  · rename_i notAsked
    simp [notAsked]

end Store

/-- Only one field is the tags, and what another field is does not depend on them. -/
theorem Subject.namedLower_cases (contact : Contact) (name : String) :
    (∀ tags, ({ contact, tags } : Subject).namedLower name = .tags tags) ∨
      ∀ left right, ({ contact, tags := left } : Subject).namedLower name =
        ({ contact, tags := right } : Subject).namedLower name := by
  simp only [← Subject.resolve_ofLower]
  cases Field.ofLower name with
  | tag => exact Or.inl fun _ => rfl
  | _ => exact Or.inr fun _ _ => rfl

theorem Rule.answer_held (rule : Rule) (contact : Contact) (tags : IdSet) :
    rule.answer { contact, tags := tags.held } = rule.answer { contact, tags := some tags } := by
  cases empty : tags.isEmpty with
  | false =>
      have some : tags.held = some tags := by simp [IdSet.held, empty]
      rw [some]
  | true =>
      have none : tags.held = none := if_pos empty
      have meetsNone (text : String) : tags.meetsItems text = false := by
        rw [← IdSet.meets_tagsOfText, Bool.eq_false_iff, Ne, IdSet.meets_iff]
        intro meets
        obtain ⟨tag, held, _⟩ := meets
        exact IdSet.isEmpty_iff.mp empty tag held
      rw [none]
      unfold answer
      rcases Subject.namedLower_cases contact (Text.lower (rule.field.getD "")) with tagged | apart
      · simp only [tagged, meetsNone, Bool.and_false]
      · simp only [apart (Option.some tags) Option.none]

/-- A contact without tags is matched alike if nothing is told of its tags. -/
theorem Criteria.isMatch_held (criteria : Criteria) (contact : Contact) (tags : IdSet) :
    criteria.isMatch { contact, tags := tags.held } =
      criteria.isMatch { contact, tags := some tags } := by
  rw [isMatch_eq_answer, isMatch_eq_answer]
  unfold answer
  simp only [Rule.answer_held]

namespace Store

variable {store : Store}

/-- The identifier is that of a stored contact of the owner which is active, not deleted
and matched with the tags that it has. -/
def Matches (store : Store) (owner : String) (criteria : Criteria) (id : Int) : Prop :=
  ∃ contact ∈ store.contacts.records, contact.id = id ∧ contact.owner = owner ∧
    contact.isActive = true ∧ contact.isDeleted = false ∧
    ∃ tags : IdSet, (∀ tag, tag ∈ tags ↔ store.HasTag id tag) ∧
      criteria.isMatch { contact, tags := some tags } = true

theorem AssignmentsFiled.mem_segment_iff (filed : store.AssignmentsFiled) {owner : String}
    {criteria : Criteria} {id : Int} :
    id ∈ (store.segment owner criteria).contacts ↔ store.Matches owner criteria id := by
  unfold segment Matches
  rw [mem_judge]
  simp only [Criteria.isMatch_held, mem_liveContacts, Contact.isLive, Bool.and_eq_true,
    Bool.not_eq_true']
  constructor
  · intro judged
    obtain ⟨contact, ⟨stored, owned, active, kept⟩, same, matched⟩ := judged
    exact ⟨contact, stored, same, owned, active, kept, store.tagsOf id,
      fun _ => filed.mem_tagsOf_iff, matched⟩
  · intro matches_
    obtain ⟨contact, stored, same, owned, active, kept, tags, told, matched⟩ := matches_
    obtain rfl : store.tagsOf id = tags := by
      apply IdSet.eq_of_mem_iff
      intro tag
      exact filed.mem_tagsOf_iff.trans (told tag).symm
    exact ⟨contact, ⟨stored, owned, active, kept⟩, same, matched⟩

/-- Over every store that operations lead to, whatever they are, however the tags are
told and whether contacts are judged in halves, a segment holds exactly the contacts
that match by what is stored, and its size is their number.  For every list of contacts
the tags that are told at once are those that are collected one by one. -/
theorem ReachableBy.segment_stored {allowed : Store → Operation → Prop}
    (reachable : ReachableBy allowed store) (now : Instant) (lookup : TagLookup) :
    (∀ (evaluation : Evaluation) (owner : String) (criteria : Criteria), ∃ segment,
      (store.faultless now lookup).run (evaluation.segment owner criteria).run =
          (some (.ok segment), store.faultless now lookup) ∧
        (∀ id, id ∈ segment.contacts ↔ store.Matches owner criteria id) ∧
        segment.size = {id | store.Matches owner criteria id}.ncard) ∧
      ∀ contacts, ∃ table,
        (store.faultless now .together).run (Attempt.ask (.call (.tagsOfAll contacts))).run =
            (some (.ok (some table)), store.faultless now .together) ∧
          (store.faultless now lookup).run (fetchOneByOne .empty contacts).run =
            (some (.ok table), store.faultless now lookup) ∧
          store.TellsTags contacts table := by
  have filed := reachable.assignmentsFiled
  constructor
  · intro evaluation owner criteria
    have members (id : Int) : id ∈ (store.segment owner criteria).contacts ↔
        store.Matches owner criteria id := filed.mem_segment_iff
    refine ⟨store.segment owner criteria, store.run_segment now lookup evaluation owner criteria,
      members, ?_⟩
    simp only [← members]
    exact (store.segment owner criteria).contacts.size_eq_ncard
  · intro contacts
    have oneByOne : Attempt.Reads lookup store (fetchOneByOne .empty contacts)
        (store.tagsOfAll contacts) := by
      rw [store.tagsOfAll_eq]
      exact Attempt.reads_fetchOneByOne contacts .empty
    exact ⟨store.tagsOfAll contacts, (Attempt.reads_tagsOfAll_together contacts).run now,
      oneByOne.run now, filed.tellsTags contacts⟩

end Store

/-- Contacts with a tag, one of them without it by now, one inactive and one of another
owner. -/
def Seed.tagged : Seed where
  contacts :=
    [{ id := 1, owner := "ana" }, { id := 2, owner := "ana" },
      { id := 3, owner := "ana", isActive := false }, { id := 4, owner := "bo" }]
  assignments :=
    [{ contact := 1, tag := 5 }, { contact := 2, tag := 5, isDeleted := true },
      { contact := 3, tag := 5 }, { contact := 4, tag := 5 }]

theorem Seed.tagged_segment :
    let store := Store.ofSeed .tagged
    let criteria : Criteria :=
      { rules := [{ field := some "tag", comparison := some "in", value := some "5" }] }
    ∃ segment,
      (store.faultless sampleTime .oneByOne).run (({} : Evaluation).segment "ana" criteria).run =
          (some (.ok segment), store.faultless sampleTime .oneByOne) ∧
        segment.contacts.toList = [1] ∧
        ∀ id, id ∈ segment.contacts ↔ store.Matches "ana" criteria id := by
  intro store criteria
  have reachable : store.Reachable := .seeded .tagged .ascending
  obtain ⟨segments, _⟩ := reachable.segment_stored sampleTime .oneByOne
  obtain ⟨segment, ran, members, _⟩ := segments {} "ana" criteria
  have same : segment = store.segment "ana" criteria := by
    have direct := store.run_segment sampleTime .oneByOne {} "ana" criteria
    rw [ran] at direct
    cases direct
    rfl
  have listed : (store.segment "ana" criteria).contacts.toList = [1] := by
    decide +kernel
  refine ⟨segment, ran, ?_, members⟩
  rw [same, listed]

end Cohort
