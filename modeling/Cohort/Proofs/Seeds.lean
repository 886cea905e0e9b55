import Cohort.Proofs.Json.Records
import Cohort.Proofs.Time.Text
import Cohort.Seed

/-!
# Seeds are read back

What a document of a seed may leave out or spell in several ways is written in one way:
every field is there, absent values as null and times in universal time.
-/

namespace Cohort

open Json Text

/-- The identifier is an integer that is read.  Nothing else of a record can get lost. -/
def Contact.Bounded (contact : Contact) : Prop :=
  IsSigned contact.id

structure TagAssignment.Bounded (assignment : TagAssignment) : Prop where
  contact : IsSigned assignment.contact
  tag : IsSigned assignment.tag

structure Group.Bounded (group : Group) : Prop where
  id : IsSigned group.id
  contactCount : IsUnsigned group.contactCount

structure Member.Bounded (member : Member) : Prop where
  id : IsSigned member.id
  group : IsSigned member.group
  contact : IsSigned member.contact

theorem Contact.readBack : ReadBack Contact.read? Contact.value Contact.Bounded where
  held := by
    intro tree contact read
    simp only [Contact.read?, bind_eq_some] at read
    obtain ⟨record, _, id, idRead, read⟩ := read
    obtain ⟨_, _, _, _, _, _, _, _, _, _, _, _, _, _, _, _, _, _, _, _, _, _, same⟩ := read
    cases same
    exact readBack_signed.required idRead
  legible := by
    intro contact bounded
    refine ⟨readBack_signed.legible contact.id bounded, trivial, ?_⟩
    simp only [Value.LegibleMembers, Value.legible_optionalText, Value.Legible, and_self]
  reads := by
    intro contact bounded
    have id := readBack_signed.reads contact.id bounded
    rw [Contact.read?, Contact.value, Record.ofTree?_object]
    · simp [some_bind, Record.required, Record.withDefault, Record.optional_eq, Record.get?,
        List.lookup_cons, id, -Option.bind_eq_bind]
    · rfl
    · decide

theorem TagAssignment.readBack :
    ReadBack TagAssignment.read? TagAssignment.value TagAssignment.Bounded where
  held := by
    intro tree assignment read
    simp only [TagAssignment.read?, bind_eq_some] at read
    obtain ⟨record, _, contact, contactRead, tag, tagRead, _, _, same⟩ := read
    cases same
    exact ⟨readBack_signed.required contactRead, readBack_signed.required tagRead⟩
  legible := by
    intro assignment bounded
    exact ⟨readBack_signed.legible assignment.contact bounded.contact,
      readBack_signed.legible assignment.tag bounded.tag, trivial, trivial⟩
  reads := by
    intro assignment bounded
    have contact := readBack_signed.reads assignment.contact bounded.contact
    have tag := readBack_signed.reads assignment.tag bounded.tag
    rw [TagAssignment.read?, TagAssignment.value, Record.ofTree?_object]
    · simp [some_bind, Record.required, Record.withDefault, Record.get?, List.lookup_cons, contact,
        tag, -Option.bind_eq_bind]
    · rfl
    · decide

@[simp] theorem Instant.ofTree?_value (instant : Instant) :
    Instant.ofTree? instant.value.tree = some instant := by
  rw [Instant.ofTree?, Instant.value, text?_text, Option.bind_some, Instant.read?_text]

@[simp] theorem Instant.orNull_value (instant : Option Instant) :
    Record.orNull Instant.ofTree? ((instant.map Instant.value).getD .null).tree = some instant := by
  cases instant with
  | none => rfl
  | some instant =>
      have read :
        Record.orNull ofTree? instant.value.tree = (ofTree? instant.value.tree).map some :=
        rfl
      exact read.trans (by rw [ofTree?_value, Option.map_some])

/-- A group is read back at any time, since it is written with the time of its last
change. -/
theorem Group.readBack (now : Instant) : ReadBack (Group.read? now) Group.value Group.Bounded where
  held := by
    intro tree group read
    simp only [Group.read?, bind_eq_some] at read
    obtain ⟨record, _, id, idRead, _, _, _, _, _, _, _, _, count, countRead, _, _, _, _, same⟩ :=
      read
    cases same
    exact ⟨readBack_signed.required idRead,
      readBack_unsigned.withDefault (Nat.zero_le maxUnsigned) countRead⟩
  legible := by
    intro group bounded
    refine ⟨readBack_signed.legible group.id bounded.id, trivial, trivial, trivial,
      Value.legible_optionalText group.criteria, ?_, trivial, trivial, trivial⟩
    exact readBack_unsigned.legible group.contactCount bounded.contactCount
  reads := by
    intro group bounded
    have id := readBack_signed.reads group.id bounded.id
    have count := readBack_unsigned.reads group.contactCount bounded.contactCount
    rw [Group.read?, Group.value, Record.ofTree?_object]
    · simp [some_bind, Record.required, Record.withDefault, Record.optional_eq, Record.get?,
        List.lookup_cons, id, count, -Option.bind_eq_bind]
    · rfl
    · decide

theorem Member.readBack : ReadBack Member.read? Member.value Member.Bounded where
  held := by
    intro tree member read
    simp only [Member.read?, bind_eq_some] at read
    obtain ⟨record, _, id, idRead, group, groupRead, contact, contactRead, _, _, _, _,
      _, _, same⟩ := read
    cases same
    exact ⟨readBack_signed.required idRead, readBack_signed.required groupRead,
      readBack_signed.required contactRead⟩
  legible := by
    intro member bounded
    refine ⟨readBack_signed.legible member.id bounded.id,
      readBack_signed.legible member.group bounded.group,
      readBack_signed.legible member.contact bounded.contact, trivial, trivial, ?_, trivial⟩
    cases member.updatedAt <;> exact trivial
  reads := by
    intro member bounded
    have id := readBack_signed.reads member.id bounded.id
    have group := readBack_signed.reads member.group bounded.group
    have contact := readBack_signed.reads member.contact bounded.contact
    rw [Member.read?, Member.value, Record.ofTree?_object]
    · simp [some_bind, Record.required, Record.withDefault, Record.optional_eq, Record.get?,
        List.lookup_cons, id, group, contact, -Option.bind_eq_bind]
    · rfl
    · decide

namespace Seed

structure Bounded (seed : Seed) : Prop where
  contacts : ∀ contact ∈ seed.contacts, contact.Bounded
  assignments : ∀ assignment ∈ seed.assignments, assignment.Bounded
  groups : ∀ group ∈ seed.groups, group.Bounded
  members : ∀ member ∈ seed.members, member.Bounded

theorem readBack (now : Instant) : ReadBack (Seed.ofTree? now) Seed.value Seed.Bounded where
  held := by
    intro tree seed read
    simp only [ofTree?, bind_eq_some] at read
    obtain ⟨record, _, contacts, contactsRead, assignments, assignmentsRead, groups, groupsRead,
      members, membersRead, same⟩ := read
    cases same
    exact
      { contacts := Contact.readBack.list.withDefault (List.forall_mem_nil _) contactsRead
        assignments :=
          TagAssignment.readBack.list.withDefault (List.forall_mem_nil _) assignmentsRead
        groups := (Group.readBack now).list.withDefault (List.forall_mem_nil _) groupsRead
        members := Member.readBack.list.withDefault (List.forall_mem_nil _) membersRead }
  legible := by
    intro seed bounded
    exact ⟨Contact.readBack.list.legible seed.contacts bounded.contacts,
      TagAssignment.readBack.list.legible seed.assignments bounded.assignments,
      (Group.readBack now).list.legible seed.groups bounded.groups,
      Member.readBack.list.legible seed.members bounded.members, trivial⟩
  reads := by
    intro seed bounded
    have contacts := Contact.readBack.list.reads seed.contacts bounded.contacts
    have assignments := TagAssignment.readBack.list.reads seed.assignments bounded.assignments
    have groups := (Group.readBack now).list.reads seed.groups bounded.groups
    have members := Member.readBack.list.reads seed.members bounded.members
    rw [ofTree?, value, Record.ofTree?_object]
    · simp [some_bind, Record.withDefault, Record.get?, List.lookup_cons, contacts, assignments,
        groups, members, -Option.bind_eq_bind]
    · rfl
    · decide

theorem Bounded.parse?_document {seed : Seed} (bounded : seed.Bounded) (now : Instant) :
    parse? now seed.document = some seed := by
  have legible := (readBack now).legible seed bounded
  rw [parse?, document, Value.parse?_compact legible, Option.bind_some]
  exact (readBack now).reads seed bounded

/-- Whatever seed a text is read as, its document is read as the same seed again: every
record in its place, absent values absent, texts, numbers and times to the nanosecond
unchanged.  The text may be read at one time and the document at another. -/
theorem parse?_document_of_parse? {now : Instant} {text : String} {seed : Seed}
    (parsed : parse? now text = some seed) (later : Instant) :
    parse? later seed.document = some seed := by
  obtain ⟨tree, _, read⟩ := Option.bind_eq_some_iff.mp parsed
  have bounded : seed.Bounded := (readBack now).held tree seed read
  exact bounded.parse?_document later

/-- Half a second into a leap second. -/
def leapSecond : Instant :=
  { date := { year := 2016, month := 12, day := 31, valid := by decide }
    second := 86399
    nano := 1500000000
    valid := by decide }

/-- Half a minute past midnight of a day before the first year. -/
def ancientTime : Instant :=
  { date := { year := -1, month := 2, day := 28, valid := by decide }
    second := 30
    nano := 0
    valid := by decide }

/-- Records given in the order of their fields, with both times spelled as they are not
written. -/
def ancientDocument : String :=
  "[[],[],[[7,\"ana\",\"N\\u00e9e\",true,null,2,false,\"-0001-02-27T23:30:30-00:30\"]]," ++
    "[[1,7,-3,\"2016-12-31t18:59:60.50-05:00\"]]]"

def ancientSeed : Seed where
  groups :=
    [{ id := 7, owner := "ana", name := "Née", isDynamic := true, contactCount := 2,
       updatedAt := ancientTime }]
  members := [{ id := 1, group := 7, contact := -3, joinedAt := leapSecond }]

theorem ancientDocument_readBack :
    parse? leapSecond ancientDocument = some ancientSeed ∧
      parse? ancientTime ancientSeed.document = some ancientSeed := by
  have read : parse? leapSecond ancientDocument = some ancientSeed := by
    decide +kernel
  exact ⟨read, parse?_document_of_parse? read ancientTime⟩

end Seed

end Cohort
