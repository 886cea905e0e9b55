import Cohort.Proofs.Tagging
import Cohort.Proofs.Tenants
import Cohort.Proofs.Ties
import Mathlib

/-!
# The order of a seed

Contacts, groups and memberships go under their identifiers, so another order of
distinct ones leads to the same tables.  Assignments stay in the order in which they are
made, but nothing that is ever asked of a store tells more than the assignments of one
tag to one contact.  Stores may even come upon contacts in different orders, which shows
at most where an edit has given two contacts the same identifier.
-/

namespace Cohort

/-! ## Stores that are alike -/

/-- The stores differ at most in how the assignments of different tags to a contact are
mixed, and in the order in which they come upon contacts. -/
structure Store.Alike (first second : Store) : Prop where
  contacts : first.contacts = second.contacts
  groups : first.groups = second.groups
  members : first.members = second.members
  lastMember : first.lastMember = second.lastMember
  lapped : first.lapped = second.lapped
  given : ∀ contact tag, first.given contact tag = second.given contact tag

namespace Store

variable {first second : Store}

/-- The store with other assignments that comes upon contacts in another order. -/
def rearranged (store : Store) (order : VisitOrder) (assignments : Table (List TagAssignment)) :
    Store :=
  { store with order, assignments }

variable (store : Store) (order : VisitOrder) (assignments : Table (List TagAssignment))

theorem check_rearranged (changes : ChangeSet) :
    (store.rearranged order assignments).check changes = store.check changes := by
  have removals (rows : List Int) (group : Int) :
      (store.rearranged order assignments).checkRemovals group [] rows =
        store.checkRemovals group [] rows :=
    checkRemovals_congr fun _ _ => rfl
  have additions (taken : List Int) :
      (store.rearranged order assignments).checkAdditions changes.owner taken changes.additions =
        store.checkAdditions changes.owner taken changes.additions :=
    checkAdditions_congr fun _ => rfl
  unfold check
  rw [removals, additions]
  rfl

/-- Carrying out a change set looks neither at the assignments nor at the order. -/
theorem apply_rearranged (changes : ChangeSet) :
    (store.rearranged order assignments).apply changes =
      (store.apply changes).rearranged order assignments := by
  have ended : (store.rearranged order assignments).withEnded changes.updatedAt changes.removals =
      (store.withEnded changes.updatedAt changes.removals).rearranged order assignments :=
    List.foldl_hom (rearranged · order assignments) fun _ _ => rfl
  have added (before : Store) :
      (before.rearranged order assignments).withAdded changes.group changes.additions =
        (before.withAdded changes.group changes.additions).rearranged order assignments :=
    List.foldl_hom (rearranged · order assignments) fun _ _ => rfl
  rw [apply_eq, apply_eq, ended, added]
  rfl

namespace Alike

theorem eq_rearranged (alike : Alike first second) :
    second = first.rearranged second.order second.assignments := by
  obtain ⟨order, contacts, assignments, groups, members, lastMember, lapped⟩ := second
  obtain ⟨rfl, rfl, rfl, rfl, rfl, _⟩ := alike
  rfl

/-! ## Answers -/

theorem tagsOf_eq (alike : Alike first second) (contact : Int) :
    first.tagsOf contact = second.tagsOf contact := by
  apply IdSet.eq_of_mem_iff
  intro tag
  rw [mem_tagsOf_iff, mem_tagsOf_iff, timesGiven, timesGiven, alike.given]

theorem tagsOfAll_eq (alike : Alike first second) (contacts : List Int) :
    first.tagsOfAll contacts = second.tagsOfAll contacts :=
  tagsOfAll_congr fun contact _ => alike.tagsOf_eq contact

theorem check_eq (alike : Alike first second) (changes : ChangeSet) :
    first.check changes = second.check changes := by
  rw [alike.eq_rearranged, check_rearranged]

theorem apply (alike : Alike first second) (changes : ChangeSet) :
    Alike (first.apply changes) (second.apply changes) := by
  have kept (store : Store) (contact tag : Int) :
      (store.apply changes).given contact tag = store.given contact tag := by
    unfold Store.given
    rw [apply_assignments]
  have same := apply_rearranged first second.order second.assignments changes
  rw [← alike.eq_rearranged] at same
  have given (contact tag : Int) :
      (first.apply changes).given contact tag = (second.apply changes).given contact tag := by
    rw [kept, kept, alike.given]
  rw [same] at given ⊢
  exact ⟨rfl, rfl, rfl, rfl, rfl, given⟩

theorem commit (alike : Alike first second) (changes : ChangeSet) :
    (∃ failure, first.commit changes = .error failure ∧ second.commit changes = .error failure) ∨
      ∃ firstAfter secondAfter, first.commit changes = .ok firstAfter ∧
        second.commit changes = .ok secondAfter ∧ Alike firstAfter secondAfter := by
  unfold Store.commit
  rw [← alike.check_eq changes]
  cases first.check changes with
  | error refusal => exact .inl ⟨_, rfl, rfl⟩
  | ok _ => exact .inr ⟨_, _, rfl, rfl, alike.apply changes⟩

/-! ### Lists of contacts -/

theorem liveContacts_perm (alike : Alike first second) (owner : String) :
    (first.liveContacts owner).Perm (second.liveContacts owner) := by
  have right := second.liveContacts_perm owner
  rw [← alike.contacts] at right
  exact (first.liveContacts_perm owner).trans right.symm

variable {close : List Contact → List Contact → Prop}

/-- The stores give the same answer to a call, if they list close contacts, and stay
alike. -/
theorem answer (alike : Alike first second)
    (live : ∀ owner, close (first.liveContacts owner) (second.liveContacts owner)) (now : Instant)
    (lookup : TagLookup) (call : Call) :
    call.SameBut close (first.answer now lookup call).1 (second.answer now lookup call).1 ∧
      Alike (first.answer now lookup call).2 (second.answer now lookup call).2 := by
  cases call with
  | liveContacts owner => exact ⟨live owner, alike⟩
  | tagsOf contact => exact ⟨congrArg Except.ok (alike.tagsOf_eq contact), alike⟩
  | tagsOfAll contacts =>
      cases lookup with
      | together =>
          exact ⟨congrArg (fun table => Except.ok (some table)) (alike.tagsOfAll_eq contacts),
            alike⟩
      | oneByOne => exact ⟨rfl, alike⟩
  | liveGroup owner group =>
      refine ⟨?_, alike⟩
      simp only [Call.SameBut, Store.answer, liveGroup?, alike.groups]
  | liveGroups owner =>
      refine ⟨?_, alike⟩
      simp only [Call.SameBut, Store.answer, liveGroups, alike.groups]
  | ownersWithGroups =>
      refine ⟨?_, alike⟩
      simp only [Call.SameBut, Store.answer, ownersWithGroups, alike.groups]
  | currentMembers group =>
      refine ⟨?_, alike⟩
      simp only [Call.SameBut, Store.answer, currentMembers, alike.members]
  | commit changes =>
      rcases alike.commit changes with
        ⟨failure, refused, refusedToo⟩ | ⟨_, _, committed, committedToo, after⟩
      · simp only [Call.SameBut, Store.answer, refused, refusedToo, true_and]
        exact alike
      · simp only [Call.SameBut, Store.answer, committed, committedToo, true_and]
        exact after
  | clock => exact ⟨rfl, alike⟩
  | lock group => exact ⟨rfl, alike⟩
  | unlock group => exact ⟨rfl, alike⟩

end Alike

theorem answer_liveContacts (now : Instant) (lookup : TagLookup) (call : Call) (owner : String) :
    (store.answer now lookup call).2.liveContacts owner = store.liveContacts owner := by
  rcases store.answer_store now lookup call with unchanged | ⟨changes, _, committed⟩
  · rw [unchanged]
  · rw [(commit_eq_ok_iff.mp committed).2]
    unfold liveContacts
    rw [apply_contacts, apply_order]

end Store

/-! ## Programs -/

theorem Call.failed?_same {close : List Contact → List Contact → Prop} (call : Call)
    (failure : Failure) :
    Option.Rel (call.SameBut close) (call.failed? failure) (call.failed? failure) := by
  cases call <;> first | exact .none | exact .some rfl

namespace FaultyStore

/-- The stores are alike and list close contacts, and the time and the faults are the
same. -/
structure Alike (close : List Contact → List Contact → Prop) (first second : FaultyStore) :
    Prop where
  store : first.store.Alike second.store
  live : ∀ owner, close (first.store.liveContacts owner) (second.store.liveContacts owner)
  now : first.now = second.now
  lookup : first.lookup = second.lookup
  faults : first.faults = second.faults

variable {close : List Contact → List Contact → Prop} {first second : FaultyStore}

theorem Alike.pass (alike : Alike close first second) (call : Call) :
    Option.Rel (call.SameBut close) (first.pass call).1 (second.pass call).1 ∧
      Alike close (first.pass call).2 (second.pass call).2 := by
  obtain ⟨store, now, lookup, faults⟩ := first
  obtain ⟨other, _, _, _⟩ := second
  obtain ⟨stores, live, rfl, rfl, rfl⟩ := alike
  obtain ⟨sameAnswer, after⟩ := stores.answer live now lookup call
  refine ⟨.some sameAnswer, after, fun owner => ?_, rfl, rfl, rfl⟩
  have left := store.answer_liveContacts now lookup call owner
  have right := other.answer_liveContacts now lookup call owner
  exact left.symm ▸ right.symm ▸ live owner

/-- A fault strikes the same calls of both. -/
theorem Alike.handle (alike : Alike close first second) (call : Call) :
    Option.Rel (call.SameBut close) (first.handle call).1 (second.handle call).1 ∧
      Alike close (first.handle call).2 (second.handle call).2 := by
  unfold FaultyStore.handle
  rw [← alike.faults]
  cases call.method? with
  | none => exact alike.pass call
  | some method =>
      dsimp only
      cases first.faults method with
      | none => exact alike.pass call
      | some fault =>
          dsimp only
          cases fault.next with
          | mk effect left =>
              have after : Alike close
                  { first with faults := first.faults.set method (some left) }
                  { second with faults := first.faults.set method (some left) } :=
                { alike with faults := rfl }
              cases effect with
              | none => exact after.pass call
              | some effect =>
                  cases effect with
                  | fail failure => exact ⟨call.failed?_same failure, after⟩
                  | abort => exact ⟨.none, after⟩

theorem Alike.run {α : Type} {left right : Program α} (agree : left.Agree close right)
    (alike : Alike close first second) :
    (first.run left).1 = (second.run right).1 ∧
      Alike close (first.run left).2 (second.run right).2 := by
  unfold FaultyStore.run
  induction agree generalizing first second with
  | done value => exact ⟨rfl, alike⟩
  | ask call _ induction =>
      obtain ⟨sameAnswer, after⟩ := alike.handle call
      unfold Program.run
      cases handled : first.handle call with
      | mk answer firstAfter =>
          cases handledToo : second.handle call with
          | mk another secondAfter =>
              rw [handled, handledToo] at sameAnswer after
              cases sameAnswer with
              | none => exact ⟨rfl, after⟩
              | some related => exact induction _ _ related after

end FaultyStore

/-! ## Operations -/

namespace Operation

def Answer : Operation → Type
  | .editContact _ _ | .takeTag _ _ | .setCriteria _ _ => Bool
  | .commit _ => Except Failure Unit
  | @Operation.run α _ _ _ _ => Option α
  | .putContact _ | .giveTag _ _ | .putGroup _ | .putMember _ => Unit

/-- The answer of a store to an operation: whether there is what was to be changed,
whether a change set was carried out, what a program ended with. -/
def answer (store : Store) : (operation : Operation) → operation.Answer
  | .editContact id _ => store.hasContact id
  | .takeTag contact tag => store.hasAssignment contact tag
  | .setCriteria group _ => (store.group? group).isSome
  | .commit changes => (store.commit changes).map fun _ => ()
  | .run program now lookup faults => ((FaultyStore.mk store now lookup faults).run program).1
  | .putContact _ | .giveTag _ _ | .putGroup _ | .putMember _ => ()

/-- A program that is run does not tell close lists of contacts apart. -/
def Agrees (close : List Contact → List Contact → Prop) : Operation → Prop
  | .run program _ _ _ => program.Agree close program
  | _ => True

/-- A program that is run is an evaluation, a pass or a round. -/
def IsOrdinary : Operation → Prop
  | .run program _ _ _ => ∃ evaluation : Evaluation, evaluation.Work program
  | _ => True

theorem IsOrdinary.agrees {operation : Operation} (ordinary : operation.IsOrdinary) :
    operation.Agrees SameButForTies := by
  cases operation with
  | run program now lookup faults =>
      obtain ⟨evaluation, work⟩ := ordinary
      exact work.tieBlind
  | _ => trivial

end Operation

namespace Store.Alike

variable {first second : Store} {close : List Contact → List Contact → Prop}

theorem given_of_not_changesTags (alike : Alike first second) (operation : Operation)
    (others : ¬operation.ChangesTags) (contact tag : Int) :
    (operation.perform first).given contact tag = (operation.perform second).given contact tag := by
  rw [perform_given others, perform_given others, alike.given]

theorem giveTag (alike : Alike first second) (contact tag : Int) :
    Alike (first.giveTag contact tag) (second.giveTag contact tag) := by
  have frame (store : Store) : ∃ assignments,
      store.giveTag contact tag = store.rearranged store.order assignments := by
    unfold Store.giveTag
    dsimp only
    split <;> exact ⟨_, rfl⟩
  obtain ⟨left, firstGiven⟩ := frame first
  obtain ⟨right, secondGiven⟩ := frame second
  have given (id other : Int) : (first.giveTag contact tag).given id other =
      (second.giveTag contact tag).given id other := by
    by_cases same : contact = id ∧ tag = other
    · obtain ⟨rfl, rfl⟩ := same
      rw [given_giveTag, given_giveTag, alike.given]
    · rw [given_giveTag_of_ne same, given_giveTag_of_ne same, alike.given]
  rw [firstGiven, secondGiven] at given ⊢
  exact { alike with given }

theorem takeTag (alike : Alike first second) (contact tag : Int) :
    Alike (first.takeTag contact tag) (second.takeTag contact tag) where
  contacts := alike.contacts
  groups := alike.groups
  members := alike.members
  lastMember := alike.lastMember
  lapped := alike.lapped
  given := by
    intro id other
    by_cases same : contact = id ∧ tag = other
    · obtain ⟨rfl, rfl⟩ := same
      rw [given_takeTag, given_takeTag, alike.given]
    · rw [given_takeTag_of_ne same, given_takeTag_of_ne same, alike.given]

theorem perform (alike : Alike first second)
    (live : ∀ owner, close (first.liveContacts owner) (second.liveContacts owner))
    {operation : Operation} (agrees : operation.Agrees close) :
    Alike (operation.perform first) (operation.perform second) := by
  cases operation with
  | putContact contact =>
      exact
        { alike with
          contacts := congrArg (Table.insert · contact.id contact) alike.contacts
          given := alike.given_of_not_changesTags (.putContact contact) id }
  | editContact contact change =>
      exact
        { alike with
          contacts := congrArg (Table.modify · contact change) alike.contacts
          given := alike.given_of_not_changesTags (.editContact contact change) id }
  | giveTag contact tag => exact alike.giveTag contact tag
  | takeTag contact tag => exact alike.takeTag contact tag
  | putGroup group =>
      exact { alike with groups := congrArg (Table.insert · group.id group) alike.groups }
  | setCriteria group document =>
      exact { alike with groups := congrArg (Table.modify · group _) alike.groups }
  | putMember member =>
      exact
        { alike with
          members := congrArg (Table.insert · member.id member) alike.members
          lastMember := congrArg (max · member.id) alike.lastMember }
  | commit changes =>
      simp only [Operation.perform]
      rcases alike.commit changes with
        ⟨failure, refused, refusedToo⟩ | ⟨_, _, committed, committedToo, after⟩
      · rw [refused, refusedToo]
        exact alike
      · rw [committed, committedToo]
        exact after
  | run program now lookup faults =>
      have faulty : FaultyStore.Alike close ⟨first, now, lookup, faults⟩
          ⟨second, now, lookup, faults⟩ :=
        ⟨alike, live, rfl, rfl, rfl⟩
      exact (faulty.run agrees).2.store

/-- Operations leave the stores alike, if what makes them list close contacts is
kept. -/
theorem performAll (Kept : Store → Store → Prop)
    (live : ∀ first second : Store, Alike first second → Kept first second →
      ∀ owner, close (first.liveContacts owner) (second.liveContacts owner))
    (operations : List Operation)
    (agrees : ∀ operation ∈ operations, operation.Agrees close)
    (keeps : ∀ operation ∈ operations, ∀ first second, Kept first second →
      Kept (operation.perform first) (operation.perform second))
    (alike : Alike first second) (kept : Kept first second) :
    Alike (first.performAll operations) (second.performAll operations) ∧
      Kept (first.performAll operations) (second.performAll operations) := by
  induction operations generalizing first second with
  | nil => exact ⟨alike, kept⟩
  | cons operation operations induction =>
      obtain ⟨agreesFirst, agreesRest⟩ := List.forall_mem_cons.mp agrees
      obtain ⟨keepsFirst, keepsRest⟩ := List.forall_mem_cons.mp keeps
      exact induction agreesRest keepsRest (alike.perform (live _ _ alike kept) agreesFirst)
        (keepsFirst first second kept)

end Store.Alike

/-! ## Seeds -/

/-- The identifiers within a section are distinct, and no contact is given a tag
twice. -/
structure Seed.Distinct (seed : Seed) : Prop where
  contacts : (seed.contacts.map Contact.id).Nodup
  assignments : (seed.assignments.map fun held => (held.contact, held.tag)).Nodup
  groups : (seed.groups.map Group.id).Nodup
  members : (seed.members.map Member.id).Nodup

/-- The seeds have the same records in each section, in some order. -/
structure Seed.Shuffled (first second : Seed) : Prop where
  contacts : first.contacts.Perm second.contacts
  assignments : first.assignments.Perm second.assignments
  groups : first.groups.Perm second.groups
  members : first.members.Perm second.members

namespace Table

variable {α : Type}

theorem insert_comm {id other : Int} (apart : id ≠ other) (table : Table α) (left right : α) :
    (table.insert id left).insert other right = (table.insert other right).insert id left := by
  apply ext_find?
  intro sought
  rw [find?_insert, find?_insert, find?_insert, find?_insert]
  by_cases here : id = sought
  · subst here
    rw [if_neg apart.symm, if_pos rfl, if_pos rfl]
  · rw [if_neg here, if_neg here]

/-- Each record goes under its identifier, over the one that is there. -/
def ofRecords (key : α → Int) (records : List α) : Table α :=
  records.foldl (fun table record => table.insert (key record) record) .empty

theorem ofRecords_perm {key : α → Int} {first second : List α} (shuffled : first.Perm second)
    (distinct : (first.map key).Nodup) : ofRecords key first = ofRecords key second := by
  apply shuffled.foldl_eq'
  intro left leftListed right rightListed table
  by_cases same : key left = key right
  · rw [List.inj_on_of_nodup_map distinct leftListed rightListed same]
  · exact insert_comm same table left right

end Table

/-- Of records with distinct keys at most one has the key that is looked for, so their
order says nothing. -/
theorem filter_perm_eq {α β : Type} {key : α → β} {test : α → Bool} {sought : β}
    {first second : List α} (shuffled : first.Perm second) (distinct : (first.map key).Nodup)
    (only : ∀ record, test record = true → key record = sought) :
    first.filter test = second.filter test := by
  have found := shuffled.filter test
  have single : ((first.filter test).map key).Nodup :=
    distinct.sublist (List.filter_sublist.map key)
  have all : ∀ record ∈ first.filter test, key record = sought :=
    fun record listed => only record (List.mem_filter.mp listed).2
  cases listed : first.filter test with
  | nil =>
      rw [listed] at found
      exact found.nil_eq
  | cons record rest =>
      rw [listed] at found single all
      cases rest with
      | nil => exact List.singleton_perm.mp found
      | cons other rest =>
          have twice : key record = key other :=
            (all record (by simp)).trans (all other (by simp)).symm
          rw [List.map_cons, List.map_cons, twice] at single
          exact absurd List.mem_cons_self (List.nodup_cons.mp single).1

namespace Store

theorem foldl_files {α : Type} {key : α → Int} {part : Store → Table α} {write : Store → α → Store}
    (files : ∀ store record, part (write store record) = (part store).insert (key record) record)
    {store : Store} (blank : part store = .empty) (records : List α) :
    part (records.foldl write store) = .ofRecords key records := by
  rw [Table.ofRecords, ← blank]
  exact (List.foldl_hom part fun store record => (files store record).symm).symm

variable (seed : Seed) (order : VisitOrder)

theorem ofSeed_contacts :
    (ofSeed seed order).contacts = .ofRecords Contact.id seed.contacts := by
  unfold ofSeed
  rw [foldl_keeps contacts putMember fun _ _ => rfl, foldl_keeps contacts putGroup fun _ _ => rfl,
    foldl_keeps contacts addAssignment fun _ _ => rfl]
  exact foldl_files (fun _ _ => rfl) rfl seed.contacts

theorem ofSeed_groups :
    (ofSeed seed order).groups = .ofRecords Group.id seed.groups := by
  unfold ofSeed
  rw [foldl_keeps groups putMember fun _ _ => rfl]
  apply foldl_files fun _ _ => rfl
  rw [foldl_keeps groups addAssignment fun _ _ => rfl, foldl_keeps groups putContact fun _ _ => rfl]
  rfl

theorem ofSeed_members :
    (ofSeed seed order).members = .ofRecords Member.id seed.members := by
  unfold ofSeed
  apply foldl_files fun _ _ => rfl
  rw [foldl_keeps members putGroup fun _ _ => rfl, foldl_keeps members addAssignment fun _ _ => rfl,
    foldl_keeps members putContact fun _ _ => rfl]
  rfl

theorem ofSeed_lastMember :
    (ofSeed seed order).lastMember =
      seed.members.foldl (fun last member => max last member.id) 0 := by
  have numbered (store : Store) : (seed.members.foldl putMember store).lastMember =
      seed.members.foldl (fun last member => max last member.id) store.lastMember :=
    (List.foldl_hom lastMember fun _ _ => rfl).symm
  unfold ofSeed
  rw [numbered, foldl_keeps lastMember putGroup fun _ _ => rfl,
    foldl_keeps lastMember addAssignment fun _ _ => rfl,
    foldl_keeps lastMember putContact fun _ _ => rfl]
  rfl

theorem ofSeed_lapped : (ofSeed seed order).lapped = false := by
  unfold ofSeed
  rw [foldl_keeps lapped putMember fun _ _ => rfl, foldl_keeps lapped putGroup fun _ _ => rfl,
    foldl_keeps lapped addAssignment fun _ _ => rfl, foldl_keeps lapped putContact fun _ _ => rfl]
  rfl

end Store

namespace Seed

variable {first second : Seed}

theorem Shuffled.alike (shuffled : first.Shuffled second) (distinct : first.Distinct)
    (order another : VisitOrder) :
    (Store.ofSeed first order).Alike (Store.ofSeed second another) where
  contacts := by
    rw [Store.ofSeed_contacts, Store.ofSeed_contacts]
    exact Table.ofRecords_perm shuffled.contacts distinct.contacts
  groups := by
    rw [Store.ofSeed_groups, Store.ofSeed_groups]
    exact Table.ofRecords_perm shuffled.groups distinct.groups
  members := by
    rw [Store.ofSeed_members, Store.ofSeed_members]
    exact Table.ofRecords_perm shuffled.members distinct.members
  lastMember := by
    rw [Store.ofSeed_lastMember, Store.ofSeed_lastMember]
    apply shuffled.members.foldl_eq'
    intro left _ right _ last
    exact max_right_comm last left.id right.id
  lapped := by rw [Store.ofSeed_lapped, Store.ofSeed_lapped]
  given := by
    intro contact tag
    rw [Store.given_ofSeed, Store.given_ofSeed]
    apply filter_perm_eq shuffled.assignments distinct.assignments
    intro held passes
    show (held.contact, held.tag) = (contact, tag)
    simpa using passes

/-- The records of each section from the last to the first. -/
def reversed (seed : Seed) : Seed where
  contacts := seed.contacts.reverse
  assignments := seed.assignments.reverse
  groups := seed.groups.reverse
  members := seed.members.reverse

end Seed

end Cohort
