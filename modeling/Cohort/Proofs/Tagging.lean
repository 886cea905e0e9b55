import Cohort.Proofs.Matching
import Cohort.Proofs.Snapshot

/-!
# Giving and taking tags

Giving a tag looks for the first assignment of the tag, taking it for the first that is
not deleted.  So a tag is gone once it is taken only if it was given once; operations
give no tag twice, but a seed may.
-/

namespace Cohort

namespace Store

/-- The assignments of a tag to a contact in the order in which they were made, the
deleted ones too. -/
def given (store : Store) (contact tag : Int) : List TagAssignment :=
  ((store.assignments.find? contact).getD []).filter (·.tag == tag)

/-- How many assignments of a tag to a contact are not deleted. -/
def timesGiven (store : Store) (contact tag : Int) : Nat :=
  (store.given contact tag).countP (!·.isDeleted)

end Store

/-- All assignments but the first are deleted. -/
def AtMostFirst (held : List TagAssignment) : Prop :=
  ∀ later ∈ held.tail, later.isDeleted = true

section ChangeFirst

variable {test kept : TagAssignment → Bool} {change : TagAssignment → TagAssignment}

open Store

theorem filter_changeFirst (keeps : ∀ held, kept (change held) = kept held)
    (narrower : ∀ held, test held = true → kept held = true) (list : List TagAssignment) :
    (changeFirst test change list).filter kept = changeFirst test change (list.filter kept) := by
  induction list with
  | nil => rfl
  | cons first rest induction =>
      by_cases passes : test first = true
      · have stays := narrower first passes
        simp [changeFirst, passes, stays, keeps]
      · by_cases stays : kept first = true
        · simp [changeFirst, passes, stays, induction]
        · simp [changeFirst, passes, stays, induction]

theorem filter_changeFirst_of_apart (keeps : ∀ held, kept (change held) = kept held)
    (apart : ∀ held, test held = true → kept held = false) (list : List TagAssignment) :
    (changeFirst test change list).filter kept = list.filter kept := by
  induction list with
  | nil => rfl
  | cons first rest induction =>
      by_cases passes : test first = true
      · have dropped := apart first passes
        simp [changeFirst, passes, dropped, keeps]
      · by_cases stays : kept first = true
        · simp [changeFirst, passes, stays, induction]
        · simp [changeFirst, passes, stays, induction]

theorem changeFirst_congr {other : TagAssignment → Bool} {list : List TagAssignment}
    (same : ∀ held ∈ list, test held = other held) :
    changeFirst test change list = changeFirst other change list := by
  induction list with
  | nil => rfl
  | cons first rest induction =>
      obtain ⟨sameFirst, sameRest⟩ := List.forall_mem_cons.mp same
      simp only [changeFirst, sameFirst, induction sameRest]

/-- Of the assignments that are not deleted one less is left when the first is
marked. -/
theorem countP_changeFirst_ended (list : List TagAssignment) :
    (changeFirst (!·.isDeleted) ({ · with isDeleted := true }) list).countP (!·.isDeleted) =
      list.countP (!·.isDeleted) - 1 := by
  induction list with
  | nil => rfl
  | cons first rest induction =>
      cases deleted : first.isDeleted with
      | false => simp [changeFirst, deleted]
      | true => simp [changeFirst, deleted, induction]

theorem AtMostFirst.countP_le {list : List TagAssignment} (atMost : AtMostFirst list) :
    list.countP (!·.isDeleted) ≤ 1 := by
  cases list with
  | nil => exact Nat.zero_le 1
  | cons first rest =>
      have none : rest.countP (!·.isDeleted) = 0 := by
        apply List.countP_eq_zero.mpr
        intro later listed
        simp [atMost later listed]
      have one := List.countP_cons (p := (!·.isDeleted)) (a := first) (l := rest)
      rw [none] at one
      split at one <;> omega

end ChangeFirst

namespace Store

variable {store : Store} {contact tag : Int}

theorem mem_tagsOf_iff : tag ∈ store.tagsOf contact ↔ 0 < store.timesGiven contact tag := by
  rw [mem_tagsOf, timesGiven, List.countP_pos_iff]
  simp only [heldTags, given, List.mem_map, List.mem_filter, beq_iff_eq]
  constructor
  · intro held
    rcases held with ⟨assignment, ⟨listed, live⟩, same⟩
    exact ⟨assignment, ⟨listed, same⟩, live⟩
  · intro live
    rcases live with ⟨assignment, ⟨listed, same⟩, live⟩
    exact ⟨assignment, ⟨listed, live⟩, same⟩

theorem hasAssignment_iff :
    store.hasAssignment contact tag = true ↔ tag ∈ store.tagsOf contact := by
  rw [mem_tagsOf]
  simp only [hasAssignment, heldTags, List.any_eq_true, List.mem_map, List.mem_filter,
    Bool.and_eq_true, beq_iff_eq]
  exact exists_congr fun assignment => and_assoc.symm.trans and_right_comm

/-- The first assignment of the tag is revived, or one is made. -/
def revived (contact tag : Int) : List TagAssignment → List TagAssignment
  | [] => [{ contact, tag }]
  | first :: rest => { first with isDeleted := false } :: rest

theorem filter_revive {held : List TagAssignment} (present : held.any (·.tag == tag) = true) :
    (changeFirst (·.tag == tag) ({ · with isDeleted := false }) held).filter (·.tag == tag) =
      revived contact tag (held.filter (·.tag == tag)) := by
  refine (filter_changeFirst ?_ ?_ held).trans ?_
  · exact fun _ => rfl
  · exact fun _ passes => passes
  cases listed : held.filter (·.tag == tag) with
  | nil =>
      obtain ⟨assignment, inHeld, passes⟩ := List.any_eq_true.mp present
      exact (List.filter_eq_nil_iff.mp listed assignment inHeld passes).elim
  | cons first rest =>
      have inHeld : first ∈ held.filter (·.tag == tag) := listed ▸ List.mem_cons_self
      have passes := (List.mem_filter.mp inHeld).2
      simp only [changeFirst, passes, if_true, revived]

theorem given_giveTag (store : Store) (contact tag : Int) :
    (store.giveTag contact tag).given contact tag =
      revived contact tag (store.given contact tag) := by
  unfold giveTag addAssignment given
  simp only
  generalize (store.assignments.find? contact).getD [] = held
  by_cases present : held.any (·.tag == tag) = true
  · simp only [present, if_true, Table.find?_insert, Option.getD_some]
    exact filter_revive present
  · have none : held.filter (·.tag == tag) = [] := by
      apply List.filter_eq_nil_iff.mpr
      intro assignment listed passes
      exact present (List.any_eq_true.mpr ⟨assignment, listed, passes⟩)
    simp only [present, Bool.false_eq_true, if_false, Table.find?_insert, if_true,
      Option.getD_some, List.filter_append, none]
    simp [revived]

theorem given_giveTag_of_ne {id other : Int} (apart : ¬(contact = id ∧ tag = other)) :
    (store.giveTag contact tag).given id other = store.given id other := by
  unfold giveTag addAssignment given
  simp only
  by_cases sameContact : contact = id
  · have different : tag ≠ other := fun sameTag => apart ⟨sameContact, sameTag⟩
    subst sameContact
    generalize (store.assignments.find? contact).getD [] = held
    split
    · simp only [Table.find?_insert, if_true, Option.getD_some]
      apply filter_changeFirst_of_apart
      · exact fun _ => rfl
      · intro assignment passes
        rw [beq_iff_eq.mp passes]
        exact beq_false_of_ne different
    · simp [different]
  · split <;> simp only [Table.find?_insert, if_neg sameContact]

theorem given_takeTag (store : Store) (contact tag : Int) :
    (store.takeTag contact tag).given contact tag =
      changeFirst (!·.isDeleted) ({ · with isDeleted := true }) (store.given contact tag) := by
  unfold takeTag given
  simp only [Table.find?_modify, if_true]
  cases store.assignments.find? contact with
  | none => rfl
  | some held =>
      simp only [Option.map_some, Option.getD_some]
      refine (filter_changeFirst ?_ ?_ held).trans (changeFirst_congr ?_)
      · exact fun _ => rfl
      · exact fun _ passes => (Bool.and_eq_true_iff.mp passes).1
      · intro assignment listed
        rw [(List.mem_filter.mp listed).2, Bool.true_and]

theorem given_takeTag_of_ne {id other : Int} (apart : ¬(contact = id ∧ tag = other)) :
    (store.takeTag contact tag).given id other = store.given id other := by
  unfold takeTag given
  simp only [Table.find?_modify]
  by_cases sameContact : contact = id
  · have different : tag ≠ other := fun sameTag => apart ⟨sameContact, sameTag⟩
    rw [if_pos sameContact]
    cases store.assignments.find? id with
    | none => rfl
    | some held =>
        apply filter_changeFirst_of_apart
        · exact fun _ => rfl
        · intro assignment passes
          rw [beq_iff_eq.mp (Bool.and_eq_true_iff.mp passes).1]
          exact beq_false_of_ne different
  · rw [if_neg sameContact]

theorem timesGiven_takeTag (store : Store) (contact tag : Int) :
    (store.takeTag contact tag).timesGiven contact tag = store.timesGiven contact tag - 1 := by
  rw [timesGiven, given_takeTag, countP_changeFirst_ended, timesGiven]

theorem timesGiven_giveTag_pos (store : Store) (contact tag : Int) :
    0 < (store.giveTag contact tag).timesGiven contact tag := by
  rw [timesGiven, given_giveTag]
  cases store.given contact tag <;> simp [revived]

end Store

section AtMostFirst

variable {held : List TagAssignment}

theorem AtMostFirst.revived (atMost : AtMostFirst held) (contact tag : Int) :
    AtMostFirst (Store.revived contact tag held) := by
  cases held with
  | nil => exact List.forall_mem_nil _
  | cons first rest => exact atMost

theorem AtMostFirst.ended (atMost : AtMostFirst held) :
    AtMostFirst (Store.changeFirst (!·.isDeleted) ({ · with isDeleted := true }) held) := by
  have none : (Store.changeFirst (!·.isDeleted) ({ · with isDeleted := true }) held).countP
      (!·.isDeleted) = 0 := by
    have atMostOne := atMost.countP_le
    rw [countP_changeFirst_ended]
    omega
  intro later listed
  have notLive := List.countP_eq_zero.mp none later (List.mem_of_mem_tail listed)
  simpa using notLive

end AtMostFirst

def Operation.ChangesTags : Operation → Prop
  | .giveTag _ _ | .takeTag _ _ => True
  | _ => False

namespace Store

variable {store : Store}

theorem perform_assignments {operation : Operation} (others : ¬operation.ChangesTags) :
    (operation.perform store).assignments = store.assignments := by
  cases operation with
  | giveTag contact tag => exact (others trivial).elim
  | takeTag contact tag => exact (others trivial).elim
  | putContact contact => rfl
  | editContact id change => rfl
  | putGroup group => rfl
  | setCriteria group document => rfl
  | putMember member => rfl
  | commit changes =>
      simp only [Operation.perform]
      cases committed : store.commit changes with
      | error failure => rfl
      | ok changed => rw [(commit_eq_ok_iff.mp committed).2, apply_assignments]
  | run program now lookup faults =>
      let Same (later : Store) : Prop := later.assignments = store.assignments
      have kept (before : Store) (changes : ChangeSet) (changed : Store) (same : Same before)
          (committed : before.commit changes = .ok changed) : Same changed := by
        rw [(commit_eq_ok_iff.mp committed).2]
        exact (apply_assignments before changes).trans same
      exact FaultyStore.run_keeps kept program rfl

theorem perform_given {operation : Operation} (others : ¬operation.ChangesTags)
    (contact tag : Int) :
    (operation.perform store).given contact tag = store.given contact tag := by
  unfold given
  rw [perform_assignments others]

theorem perform_atMostFirst (operation : Operation)
    (atMost : ∀ contact tag, AtMostFirst (store.given contact tag)) (contact tag : Int) :
    AtMostFirst ((operation.perform store).given contact tag) := by
  cases operation with
  | giveTag id other =>
      by_cases same : id = contact ∧ other = tag
      · obtain ⟨rfl, rfl⟩ := same
        rw [Operation.perform, given_giveTag]
        exact (atMost id other).revived id other
      · rw [Operation.perform, given_giveTag_of_ne same]
        exact atMost contact tag
  | takeTag id other =>
      by_cases same : id = contact ∧ other = tag
      · obtain ⟨rfl, rfl⟩ := same
        rw [Operation.perform, given_takeTag]
        exact (atMost id other).ended
      · rw [Operation.perform, given_takeTag_of_ne same]
        exact atMost contact tag
  | _ =>
      rw [perform_given id]
      exact atMost contact tag

theorem given_ofSeed (seed : Seed) (order : VisitOrder) (contact tag : Int) :
    (ofSeed seed order).given contact tag =
      seed.assignments.filter fun held => held.contact == contact && held.tag == tag := by
  rw [given, ofSeed_held, List.filter_filter]
  exact List.filter_congr fun _ _ => Bool.and_comm _ _

end Store

/-- The rule asks whether a contact has the tag, and for no other tag. -/
structure Rule.AsksForTag (rule : Rule) (tag : Int) : Prop where
  field : Text.lower (rule.field.getD "") = "tag"
  comparison : Text.lower (rule.comparison.getD "equals") = "in"
  wanted : ∀ id, id ∈ tagsOfText (rule.value.getD "") → id = tag

theorem Rule.AsksForTag.isMatch_iff {rule : Rule} {tag : Int} (asks : rule.AsksForTag tag)
    (contact : Contact) (tags : IdSet) :
    rule.isMatch { contact, tags := tags.held } = true ↔
      tag ∈ tagsOfText (rule.value.getD "") ∧ tag ∈ tags := by
  rw [Rule.isMatch_eq_answer, Rule.answer, asks.field, asks.comparison]
  have resolved : ({ contact, tags := tags.held } : Subject).namedLower "tag" = .tags tags.held :=
    rfl
  rw [resolved]
  by_cases empty : tags.isEmpty = true
  · have absent : tag ∉ tags := by
      rw [IdSet.mem_def, List.isEmpty_iff.mp empty]
      exact List.not_mem_nil
    simp [IdSet.held, empty, absent]
  · have someTags : tags.held = some tags := if_neg empty
    simp only [someTags, beq_self_eq_true, Bool.true_or, Bool.true_and]
    rw [← IdSet.meets_tagsOfText, IdSet.meets_iff]
    constructor
    · intro meets
      obtain ⟨id, held, listed⟩ := meets
      obtain rfl := asks.wanted id listed
      exact ⟨listed, held⟩
    · intro both
      exact ⟨tag, both.2, both.1⟩

theorem Store.mem_tagsOf_takeTag_iff {store : Store} {contact tag : Int} :
    tag ∈ (store.takeTag contact tag).tagsOf contact ↔ 2 ≤ store.timesGiven contact tag := by
  rw [mem_tagsOf_iff, timesGiven_takeTag]
  omega

namespace Seed

variable {seed : Seed}

/-- Giving a tag revives its first assignment, and the others must not be live beside it. -/
theorem atMostFirst_of_taken_gone {order : VisitOrder} {contact tag : Int}
    (gone : tag ∉
      (((Store.ofSeed seed order).giveTag contact tag).takeTag contact tag).tagsOf contact) :
    AtMostFirst
      (seed.assignments.filter fun held => held.contact == contact && held.tag == tag) := by
  rw [Store.mem_tagsOf_takeTag_iff, Store.timesGiven, Store.given_giveTag,
    Store.given_ofSeed] at gone
  cases listed : seed.assignments.filter fun held =>
      held.contact == contact && held.tag == tag with
  | nil => exact List.forall_mem_nil _
  | cons first rest =>
      rw [listed, Store.revived, List.countP_cons_of_pos rfl] at gone
      have noneLive : rest.countP (!·.isDeleted) = 0 := by omega
      intro later inRest
      simpa using List.countP_eq_zero.mp noneLive later inRest

theorem performAll_atMostFirst
    (atMost : ∀ contact tag, AtMostFirst
      (seed.assignments.filter fun held => held.contact == contact && held.tag == tag))
    (order : VisitOrder) (operations : List Operation) (contact tag : Int) :
    AtMostFirst (((Store.ofSeed seed order).performAll operations).given contact tag) := by
  refine List.foldlRecOn (motive := fun store : Store =>
    ∀ contact tag, AtMostFirst (store.given contact tag)) operations _ ?_ ?_ contact tag
  · intro contact tag
    rw [Store.given_ofSeed]
    exact atMost contact tag
  · intro store before operation _
    exact Store.perform_atMostFirst operation before

end Seed

/-- After any operations on the store of a seed, a contact has a tag that it is given.
A tag that is taken from it is gone unless it was given more than once, a rule that asks
for the tag agrees, and the tags of others and its other tags stay.  A tag is gone
whenever it is taken, whatever was done before, if and only if all but the first of the
assignments of a tag to a contact are deleted in the seed. -/
theorem Seed.taken_tags_gone_iff (seed : Seed) (order : VisitOrder) :
    (∀ (operations : List Operation) (contact tag : Int),
      let store := (Store.ofSeed seed order).performAll operations
      (store.hasAssignment contact tag = true ↔ tag ∈ store.tagsOf contact) ∧
        tag ∈ (store.giveTag contact tag).tagsOf contact ∧
        (tag ∈ (store.takeTag contact tag).tagsOf contact ↔ 2 ≤ store.timesGiven contact tag) ∧
        (∀ rule : Rule, rule.AsksForTag tag → ∀ record : Contact,
          (rule.isMatch
                { contact := record, tags := ((store.takeTag contact tag).tagsOf contact).held }
              = true ↔
            tag ∈ tagsOfText (rule.value.getD "") ∧ 2 ≤ store.timesGiven contact tag)) ∧
        ∀ id other, ¬(contact = id ∧ tag = other) →
          (other ∈ (store.giveTag contact tag).tagsOf id ↔ other ∈ store.tagsOf id) ∧
            (other ∈ (store.takeTag contact tag).tagsOf id ↔ other ∈ store.tagsOf id)) ∧
    ((∀ (operations : List Operation) (contact tag : Int),
        tag ∉ (((Store.ofSeed seed order).performAll operations).takeTag contact tag).tagsOf
            contact) ↔
      ∀ contact tag, ∀ later ∈ (seed.assignments.filter fun held =>
        held.contact == contact && held.tag == tag).tail, later.isDeleted = true) := by
  constructor
  · intro operations contact tag store
    refine ⟨Store.hasAssignment_iff, ?_, Store.mem_tagsOf_takeTag_iff, ?_, ?_⟩
    · exact Store.mem_tagsOf_iff.mpr (store.timesGiven_giveTag_pos contact tag)
    · intro rule asks record
      rw [asks.isMatch_iff, Store.mem_tagsOf_takeTag_iff]
    · intro id other apart
      simp only [Store.mem_tagsOf_iff, Store.timesGiven, Store.given_giveTag_of_ne apart,
        Store.given_takeTag_of_ne apart, and_self]
  constructor
  · intro gone contact tag
    exact atMostFirst_of_taken_gone (gone [.giveTag contact tag] contact tag)
  · intro atMost operations contact tag still
    have atMostOne := (performAll_atMostFirst atMost order operations contact tag).countP_le
    rw [Store.mem_tagsOf_takeTag_iff, Store.timesGiven] at still
    omega

/-- A seed in which a contact is given a tag twice. -/
def Seed.twiceGiven : Seed where
  contacts := [{ id := 1, owner := "ana" }]
  assignments := [{ contact := 1, tag := 5 }, { contact := 1, tag := 5 }]

/-- The tag that is taken is still held and still found. -/
theorem Seed.twiceGiven_keeps_tag :
    let store := Store.ofSeed .twiceGiven
    let taken := store.takeTag 1 5
    store.hasAssignment 1 5 = true ∧ 5 ∈ taken.tagsOf 1 ∧ taken.hasAssignment 1 5 = true ∧
      (({ field := some "tag", comparison := some "in", value := some "5" } : Rule).isMatch
        { contact := { id := 1, owner := "ana" }, tags := (taken.tagsOf 1).held }) = true := by
  decide +kernel

end Cohort
