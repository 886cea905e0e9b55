import Cohort.Proofs.Matching
import Cohort.Segment
import Mathlib

/-!
# Work that is shared out

A part of a population that is still due may be cut in two or judged, and the sets that
have been found are united two at a time.  No step changes which contacts the work
stands for, so every way leads to the set that judging the population in order gives.
-/

namespace Cohort

/-- A part of the work on a population. -/
inductive Job where
  /-- Contacts that are still to be judged. -/
  | due (piece : List Contact)
  /-- The matching contacts of the pieces that have been judged and brought together. -/
  | found (ids : IdSet)

namespace PreparedCriteria

variable {criteria : PreparedCriteria} {tags : TagTable}

/-- What a worker may do with the jobs at hand, which are in no order. -/
inductive WorkStep (criteria : PreparedCriteria) (tags : TagTable) :
    Multiset Job → Multiset Job → Prop where
  | cut (front back : List Contact) (others : Multiset Job) :
      WorkStep criteria tags (.due (front ++ back) ::ₘ others) (.due front ::ₘ .due back ::ₘ others)
  | judge (piece : List Contact) (others : Multiset Job) :
      WorkStep criteria tags (.due piece ::ₘ others)
        (.found (criteria.matching tags piece) ::ₘ others)
  | unite (left right : IdSet) (others : Multiset Job) :
      WorkStep criteria tags (.found left ::ₘ .found right ::ₘ others)
        (.found (left.union right) ::ₘ others)

/-- Any number of steps leads from the first jobs to the last ones. -/
def WorksTo (criteria : PreparedCriteria) (tags : TagTable) : Multiset Job → Multiset Job → Prop :=
  Relation.ReflTransGen (WorkStep criteria tags)

/-- The contacts that a job comes to. -/
def outcome (criteria : PreparedCriteria) (tags : TagTable) : Job → IdSet
  | .due piece => criteria.matching tags piece
  | .found ids => ids

/-- Some job comes to the contact. -/
def Covers (criteria : PreparedCriteria) (tags : TagTable) (jobs : Multiset Job)
    (id : Int) : Prop :=
  ∃ job ∈ jobs, id ∈ criteria.outcome tags job

theorem covers_cons_iff {job : Job} {jobs : Multiset Job} {id : Int} :
    criteria.Covers tags (job ::ₘ jobs) id ↔
      id ∈ criteria.outcome tags job ∨ criteria.Covers tags jobs id := by
  simp only [Covers, Multiset.mem_cons, or_and_right, exists_or, exists_eq_left]

theorem covers_singleton_iff {job : Job} {id : Int} :
    criteria.Covers tags {job} id ↔ id ∈ criteria.outcome tags job := by
  simp only [Covers, Multiset.mem_singleton, exists_eq_left]

theorem mem_matching_append {front back : List Contact} {id : Int} :
    id ∈ criteria.matching tags (front ++ back) ↔
      id ∈ criteria.matching tags front ∨ id ∈ criteria.matching tags back := by
  simp only [mem_matching, List.mem_append, or_and_right, exists_or]

theorem WorkStep.covers_iff {jobs after : Multiset Job} (step : WorkStep criteria tags jobs after)
    (id : Int) : criteria.Covers tags after id ↔ criteria.Covers tags jobs id := by
  cases step with
  | cut front back others =>
      simp only [covers_cons_iff, outcome, mem_matching_append, or_assoc]
  | judge piece others => simp only [covers_cons_iff, outcome]
  | unite left right others => simp only [covers_cons_iff, outcome, IdSet.mem_union, or_assoc]

theorem WorkStep.ne_zero {jobs after : Multiset Job} (step : WorkStep criteria tags jobs after) :
    after ≠ 0 := by
  cases step <;> exact Multiset.cons_ne_zero

theorem WorkStep.beside {jobs after : Multiset Job} (step : WorkStep criteria tags jobs after)
    (job : Job) : WorkStep criteria tags (job ::ₘ jobs) (job ::ₘ after) := by
  cases step with
  | cut front back others =>
      rw [Multiset.cons_swap job, Multiset.cons_swap job, Multiset.cons_swap job]
      exact .cut front back (job ::ₘ others)
  | judge piece others =>
      rw [Multiset.cons_swap job, Multiset.cons_swap job]
      exact .judge piece (job ::ₘ others)
  | unite left right others =>
      rw [Multiset.cons_swap job, Multiset.cons_swap job, Multiset.cons_swap job]
      exact .unite left right (job ::ₘ others)

theorem WorksTo.covers_iff {jobs after : Multiset Job} (work : criteria.WorksTo tags jobs after)
    (id : Int) : criteria.Covers tags after id ↔ criteria.Covers tags jobs id := by
  induction work with
  | refl => exact Iff.rfl
  | tail _ step induction => exact (step.covers_iff id).trans induction

theorem WorksTo.ne_zero {jobs after : Multiset Job} (work : criteria.WorksTo tags jobs after)
    (some : jobs ≠ 0) : after ≠ 0 := by
  cases work with
  | refl => exact some
  | tail _ step => exact step.ne_zero

theorem WorksTo.beside {jobs after : Multiset Job} (work : criteria.WorksTo tags jobs after)
    (job : Job) : criteria.WorksTo tags (job ::ₘ jobs) (job ::ₘ after) :=
  Relation.ReflTransGen.lift (job ::ₘ ·) (fun _ _ step => WorkStep.beside step job) _ _ work

theorem worksTo_found (job : Job) (others : Multiset Job) :
    criteria.WorksTo tags (job ::ₘ others) (.found (criteria.outcome tags job) ::ₘ others) := by
  cases job with
  | due piece => exact .single (.judge piece others)
  | found ids => exact .refl

/-- Work can be ended. -/
theorem exists_worksTo_found {jobs : Multiset Job} (some : jobs ≠ 0) :
    ∃ ids, criteria.WorksTo tags jobs {.found ids} := by
  induction jobs using Multiset.induction with
  | empty => exact (some rfl).elim
  | cons job others induction =>
      by_cases last : others = 0
      · subst last
        exact ⟨_, worksTo_found job 0⟩
      · obtain ⟨ids, rest⟩ := induction last
        refine ⟨(criteria.outcome tags job).union ids, (rest.beside job).trans ?_⟩
        exact (worksTo_found job {.found ids}).tail (.unite _ ids 0)

/-- The work on a population comes to the contacts that match. -/
theorem WorksTo.eq_matching {contacts : List Contact} {ids : IdSet}
    (work : criteria.WorksTo tags {.due contacts} {.found ids}) :
    ids = criteria.matching tags contacts := by
  apply IdSet.eq_of_mem_iff
  intro id
  have kept := work.covers_iff id
  rwa [covers_singleton_iff, covers_singleton_iff] at kept

theorem WorksTo.ends {contacts : List Contact} {jobs : Multiset Job}
    (work : criteria.WorksTo tags {.due contacts} jobs) :
    criteria.WorksTo tags jobs {.found (criteria.matching tags contacts)} := by
  obtain ⟨ids, rest⟩ := exists_worksTo_found (work.ne_zero (Multiset.singleton_ne_zero _))
  have whole : criteria.WorksTo tags {.due contacts} {.found ids} := work.trans rest
  rwa [← whole.eq_matching]

theorem mem_matching_ofCriteria {criteria : Criteria} {contacts : List Contact} {id : Int} :
    id ∈ (ofCriteria criteria).matching tags contacts ↔
      ∃ contact ∈ contacts, contact.id = id ∧
        criteria.answer { contact, tags := tags.find? id } = true := by
  rw [mem_matching]
  apply exists_congr
  intro contact
  apply and_congr_right
  intro _
  have admitted : (ofCriteria criteria).admits tags contact =
      criteria.answer { contact, tags := tags.find? contact.id } :=
    criteria.isMatch_eq_answer _
  rw [admitted, and_comm]
  apply and_congr_right
  intro named
  rw [named]

theorem matching_congr {contacts others : List Contact}
    (same : ∀ contact, contact ∈ others ↔ contact ∈ contacts) :
    criteria.matching tags others = criteria.matching tags contacts := by
  apply IdSet.eq_of_mem_iff
  intro id
  simp only [mem_matching, same]

/-- The segment of a population is the set of the identifiers for which a listed contact
with that identifier answers to the criteria, in ascending order and each once.
However the population is cut into pieces and in whatever order these are judged and
brought together, the work can be brought to an end, and any end is this set; so is the
result of judging in halves.  Only which contacts are listed counts, not in which order
or how often. -/
theorem shared_work_agrees (criteria : Criteria) (tags : TagTable) (contacts : List Contact) :
    let prepared := ofCriteria criteria
    let ids := (prepared.segment tags contacts false).contacts
    (∀ jobs, prepared.WorksTo tags {.due contacts} jobs →
      prepared.WorksTo tags jobs {.found ids} ∧ ∀ others, jobs = {.found others} → others = ids) ∧
    (prepared.segment tags contacts true).contacts = ids ∧
    ids.toList.Pairwise (· < ·) ∧
    (∀ id, id ∈ ids.toList ↔
      ∃ contact ∈ contacts, contact.id = id ∧
        criteria.answer { contact, tags := tags.find? id } = true) ∧
    ∀ others : List Contact, (∀ contact, contact ∈ others ↔ contact ∈ contacts) →
      (prepared.segment tags others false).contacts = ids := by
  intro prepared ids
  refine ⟨?_, prepared.matchingByHalves_eq tags contacts, ids.ascending, ?_, ?_⟩
  · intro jobs work
    refine ⟨work.ends, ?_⟩
    rintro others rfl
    exact work.eq_matching
  · exact fun id => mem_matching_ofCriteria
  · exact fun others same => matching_congr same

/-- Two contacts with one identifier, of which one matches, and a third one. -/
def doubledContacts : List Contact :=
  [{ id := 4, owner := "ana", country := some "FR" }, { id := 2, owner := "ana" },
    { id := 4, owner := "ana", country := some "DE" }]

def frenchOrTagged : Criteria where
  rules :=
    [{ field := some "country", comparison := some "equals", value := some "fr" },
      { field := some "tag", comparison := some "in", value := some "5" }]
  connectiveName := some "OR"

theorem shared_work_agrees_doubled :
    let prepared := ofCriteria frenchOrTagged
    let tags : TagTable := Table.empty.insert 2 (IdSet.ofList [5])
    let ids := (prepared.segment tags doubledContacts false).contacts
    let parts : Multiset Job :=
      .due (doubledContacts.take 1) ::ₘ .due (doubledContacts.drop 1) ::ₘ 0
    let shuffled := doubledContacts.reverse ++ doubledContacts
    ids = .ofList [2, 4] ∧
      prepared.WorksTo tags {.due doubledContacts} parts ∧
      prepared.WorksTo tags parts {.found ids} ∧
      (∀ contact, contact ∈ shuffled ↔ contact ∈ doubledContacts) ∧
      (prepared.segment tags shuffled false).contacts = ids := by
  intro prepared tags ids parts shuffled
  have cut : prepared.WorksTo tags {.due doubledContacts} parts :=
    .single (.cut (doubledContacts.take 1) (doubledContacts.drop 1) 0)
  have same : ∀ contact, contact ∈ shuffled ↔ contact ∈ doubledContacts := by
    intro contact
    rw [List.mem_append, List.mem_reverse, or_self]
  obtain ⟨work, _, _, _, reordered⟩ := shared_work_agrees frenchOrTagged tags doubledContacts
  exact ⟨by decide +kernel, cut, (work parts cut).1, same, reordered shuffled same⟩

end PreparedCriteria

end Cohort
