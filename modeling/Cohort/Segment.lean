import Cohort.Criteria.Matching
import Cohort.Table

namespace Cohort

/-- The tags of contacts that have any. -/
abbrev TagTable := Table IdSet

/-- The contacts that match criteria. -/
structure Segment where
  contacts : IdSet
  deriving DecidableEq

namespace Segment

def empty : Segment :=
  { contacts := .empty }

def size (segment : Segment) : Nat :=
  segment.contacts.size

end Segment

namespace PreparedCriteria

def admits (criteria : PreparedCriteria) (tags : TagTable) (contact : Contact) : Bool :=
  criteria.isMatch { contact, tags := tags.find? contact.id }

def matching (criteria : PreparedCriteria) (tags : TagTable) (contacts : List Contact) : IdSet :=
  IdSet.ofList ((contacts.filter (criteria.admits tags)).map Contact.id)

/-- The matching contacts of a population, judged in two halves that are divided in the
same way. -/
def matchingByHalves (criteria : PreparedCriteria) (tags : TagTable) (contacts : List Contact) :
    IdSet :=
  if contacts.length ≤ 1 then criteria.matching tags contacts
  else
    let middle := contacts.length / 2
    (criteria.matchingByHalves tags (contacts.take middle)).union
      (criteria.matchingByHalves tags (contacts.drop middle))
termination_by contacts.length
decreasing_by
  · simp only [List.length_take]
    omega
  · simp only [List.length_drop]
    omega

theorem mem_matching {criteria : PreparedCriteria} {tags : TagTable} {contacts : List Contact}
    {id : Int} :
    id ∈ criteria.matching tags contacts ↔
      ∃ contact ∈ contacts, criteria.admits tags contact = true ∧ contact.id = id := by
  simp [matching, and_assoc]

theorem matchingByHalves_eq (criteria : PreparedCriteria) (tags : TagTable)
    (contacts : List Contact) :
    criteria.matchingByHalves tags contacts = criteria.matching tags contacts := by
  rw [matchingByHalves]
  split
  · rfl
  · rename_i long
    simp only
    rw [matchingByHalves_eq criteria tags (contacts.take _),
      matchingByHalves_eq criteria tags (contacts.drop _)]
    apply IdSet.eq_of_mem_iff
    intro id
    rw [IdSet.mem_union, mem_matching, mem_matching, mem_matching]
    constructor
    · rintro (⟨contact, member, found⟩ | ⟨contact, member, found⟩)
      · exact ⟨contact, List.mem_of_mem_take member, found⟩
      · exact ⟨contact, List.mem_of_mem_drop member, found⟩
    · rintro ⟨contact, member, found⟩
      rw [← List.take_append_drop (contacts.length / 2) contacts, List.mem_append] at member
      exact member.imp (⟨contact, ·, found⟩) (⟨contact, ·, found⟩)
termination_by contacts.length
decreasing_by
  · simp only [List.length_take]
    omega
  · simp only [List.length_drop]
    omega

/-- The matching contacts of a population, in halves if that is wanted. -/
def segment (criteria : PreparedCriteria) (tags : TagTable) (contacts : List Contact)
    (inHalves : Bool) : Segment :=
  { contacts :=
      if inHalves then criteria.matchingByHalves tags contacts
      else criteria.matching tags contacts }

end PreparedCriteria

end Cohort
