import Cohort.Fault
import Cohort.Proofs.Store.Rows

/-!
# Reachable stores

A store begins with a seed and is changed by operations.  Every store that they reach is
filed, and it is well formed if no edit changes the identifier of a contact.
-/

namespace Cohort

/-- What may be done to a store. -/
inductive Operation : Type 1 where
  | putContact (contact : Contact)
  | editContact (id : Int) (change : Contact → Contact)
  | giveTag (contact tag : Int)
  | takeTag (contact tag : Int)
  | putGroup (group : Group)
  | setCriteria (group : Int) (document : Option String)
  | putMember (member : Member)
  | commit (changes : ChangeSet)
  /-- Run a program at a time and under faults. -/
  | run {α : Type} (program : Program α) (now : Instant) (lookup : TagLookup) (faults : FaultPlan)

namespace Operation

/-- The store after an operation.  A refused change set leaves it as it is. -/
def perform (store : Store) : Operation → Store
  | .putContact contact => store.putContact contact
  | .editContact id change => store.editContact id change
  | .giveTag contact tag => store.giveTag contact tag
  | .takeTag contact tag => store.takeTag contact tag
  | .putGroup group => store.putGroup group
  | .setCriteria group document => store.setCriteria group document
  | .putMember member => store.putMember member
  | .commit changes =>
      match store.commit changes with
      | .ok changed => changed
      | .error _ => store
  | .run program now lookup faults =>
      ((FaultyStore.mk store now lookup faults).run program).2.store

/-- An edit keeps the identifier of the contact that it changes. -/
def KeepsContactIds : Operation → Prop
  | .editContact _ change => ∀ contact, (change contact).id = contact.id
  | _ => True

end Operation

/-- Stores that a seed and operations lead to, when every operation is allowed where it
is made. -/
inductive Store.ReachableBy (allowed : Store → Operation → Prop) : Store → Prop where
  | seeded (seed : Seed) (order : VisitOrder) : ReachableBy allowed (.ofSeed seed order)
  | step {store : Store} (operation : Operation) :
      ReachableBy allowed store → allowed store operation →
      ReachableBy allowed (operation.perform store)

/-- Stores that a seed and operations lead to, when edits keep the identifiers of
contacts. -/
def Store.Reachable : Store → Prop :=
  Store.ReachableBy fun _ operation => operation.KeepsContactIds

/-- Only a commit that is carried out changes the store. -/
theorem Store.answer_store (store : Store) (now : Instant) (lookup : TagLookup) (call : Call) :
    (store.answer now lookup call).2 = store ∨
      ∃ changes, call = .commit changes ∧
        store.commit changes = .ok (store.answer now lookup call).2 := by
  cases call with
  | commit changes =>
      cases committed : store.commit changes with
      | error failure =>
          left
          simp [answer, committed]
      | ok changed =>
          right
          exact ⟨changes, rfl, by simp [answer, committed]⟩
  | tagsOfAll contacts => cases lookup <;> exact Or.inl rfl
  | liveContacts owner => exact Or.inl rfl
  | tagsOf contact => exact Or.inl rfl
  | liveGroup owner group => exact Or.inl rfl
  | liveGroups owner => exact Or.inl rfl
  | ownersWithGroups => exact Or.inl rfl
  | currentMembers group => exact Or.inl rfl
  | clock => exact Or.inl rfl
  | lock group => exact Or.inl rfl
  | unlock group => exact Or.inl rfl

/-- What every commit keeps holds after an answered call, faulty or not. -/
theorem FaultyStore.handle_keeps {Kept : Store → Prop}
    (kept : ∀ store changes changed, Kept store → store.commit changes = .ok changed →
      Kept changed)
    {faulty : FaultyStore} (before : Kept faulty.store) (call : Call) :
    Kept (faulty.handle call).2.store := by
  have passed (other : FaultyStore) (same : other.store = faulty.store) :
      Kept (other.pass call).2.store := by
    have result : (other.pass call).2.store =
        (faulty.store.answer other.now other.lookup call).2 := by
      rw [← same]
      rfl
    rw [result]
    rcases faulty.store.answer_store other.now other.lookup call with
      unchanged | ⟨changes, _, committed⟩
    · rw [unchanged]
      exact before
    · exact kept _ _ _ before committed
  unfold handle
  split
  · exact passed faulty rfl
  · split
    · exact passed faulty rfl
    · rename_i fault _
      cases fault.next with
      | mk effect left =>
          cases effect with
          | none => exact passed _ rfl
          | some effect => cases effect <;> exact before

/-- What every commit keeps holds after a program, however it ends. -/
theorem FaultyStore.run_keeps {α : Type} {Kept : Store → Prop}
    (kept : ∀ store changes changed, Kept store → store.commit changes = .ok changed →
      Kept changed)
    (program : Program α) {faulty : FaultyStore} (before : Kept faulty.store) :
    Kept (faulty.run program).2.store := by
  unfold run
  induction program generalizing faulty with
  | done value => exact before
  | ask call next induction =>
      have answered := handle_keeps kept before call
      unfold Program.run
      cases handled : faulty.handle call with
      | mk answer after =>
          rw [handled] at answered
          cases answer with
          | none => exact answered
          | some answer => exact induction answer answered

namespace Store

theorem lapped_of_run {α : Type} {faulty : FaultyStore} {program : Program α}
    (inOrder : (faulty.run program).2.store.lapped = false) : faulty.store.lapped = false := by
  have kept : ∀ (store : Store) changes changed, store.lapped ≠ false →
      store.commit changes = .ok changed → changed.lapped ≠ false :=
    fun _ _ _ lapped committed inOrder => lapped (lapped_of_commit committed inOrder)
  cases lapped : faulty.store.lapped with
  | false => rfl
  | true =>
      have stays := FaultyStore.run_keeps kept program (by rw [lapped]; decide)
      exact (stays inOrder).elim

theorem lapped_of_perform {store : Store} {operation : Operation}
    (inOrder : (operation.perform store).lapped = false) : store.lapped = false := by
  cases operation with
  | putContact contact => exact inOrder
  | editContact id change => exact inOrder
  | giveTag contact tag =>
      simp only [Operation.perform, giveTag] at inOrder
      split at inOrder <;> exact inOrder
  | takeTag contact tag => exact inOrder
  | putGroup group => exact inOrder
  | setCriteria group document => exact inOrder
  | putMember member => exact inOrder
  | commit changes =>
      simp only [Operation.perform] at inOrder
      cases committed : store.commit changes with
      | error failure => rwa [committed] at inOrder
      | ok changed =>
          rw [committed] at inOrder
          exact lapped_of_commit committed inOrder
  | run program now lookup faults => exact lapped_of_run inOrder

theorem Filed.perform {store : Store} (filed : store.Filed) (operation : Operation) :
    (operation.perform store).Filed := by
  cases operation with
  | putContact contact => exact filed.of_same rfl rfl rfl rfl
  | editContact id change => exact filed.of_same rfl rfl rfl rfl
  | giveTag contact tag =>
      simp only [Operation.perform, giveTag]
      split <;> exact filed.of_same rfl rfl rfl rfl
  | takeTag contact tag => exact filed.of_same rfl rfl rfl rfl
  | putGroup group => exact filed.putGroup group
  | setCriteria group document => exact filed.setCriteria group document
  | putMember member => exact filed.putMember member
  | commit changes =>
      simp only [Operation.perform]
      cases committed : store.commit changes with
      | error failure => exact filed
      | ok changed => exact filed.commit committed
  | run program now lookup faults =>
      exact FaultyStore.run_keeps (fun _ _ _ before committed => before.commit committed) program
        filed

theorem WellFormed.perform {store : Store} (wellFormed : store.WellFormed) (operation : Operation)
    (keeps : operation.KeepsContactIds) : (operation.perform store).WellFormed where
  toFiled := wellFormed.toFiled.perform operation
  contacts := by
    cases operation with
    | putContact contact => exact wellFormed.contacts.insert contact
    | editContact id change => exact wellFormed.contacts.modify id keeps
    | giveTag contact tag =>
        simp only [Operation.perform, giveTag]
        split <;> exact wellFormed.contacts
    | takeTag contact tag => exact wellFormed.contacts
    | putGroup group => exact wellFormed.contacts
    | setCriteria group document => exact wellFormed.contacts
    | putMember member => exact wellFormed.contacts
    | commit changes =>
        simp only [Operation.perform]
        cases committed : store.commit changes with
        | error failure => exact wellFormed.contacts
        | ok changed => exact (wellFormed.commit committed).contacts
    | run program now lookup faults =>
        have after : (Operation.perform store (.run program now lookup faults)).WellFormed :=
          FaultyStore.run_keeps (fun _ _ _ before committed => WellFormed.commit before committed)
            program wellFormed
        exact after.contacts

theorem wellFormed_ofSeed (seed : Seed) (order : VisitOrder) :
    (ofSeed seed order).WellFormed := by
  have contacts : (seed.contacts.foldl putContact (empty order)).WellFormed := by
    apply List.foldlRecOn _ _ (wellFormed_empty order)
    intro store before contact _
    exact before.perform (.putContact contact) trivial
  have assignments :
      (seed.assignments.foldl addAssignment
        (seed.contacts.foldl putContact (empty order))).WellFormed := by
    apply List.foldlRecOn _ _ contacts
    intro store before assignment _
    exact { toFiled := before.toFiled.of_same rfl rfl rfl rfl, contacts := before.contacts }
  have groups : (seed.groups.foldl putGroup (seed.assignments.foldl addAssignment
      (seed.contacts.foldl putContact (empty order)))).WellFormed := by
    apply List.foldlRecOn _ _ assignments
    intro store before group _
    exact before.perform (.putGroup group) trivial
  apply List.foldlRecOn _ _ groups
  intro store before member _
  exact before.perform (.putMember member) trivial

theorem ReachableBy.filed {allowed : Store → Operation → Prop} {store : Store}
    (reachable : ReachableBy allowed store) : store.Filed := by
  induction reachable with
  | seeded seed order => exact (wellFormed_ofSeed seed order).toFiled
  | step operation _ _ before => exact before.perform operation

theorem Reachable.wellFormed {store : Store} (reachable : Reachable store) : store.WellFormed := by
  induction reachable with
  | seeded seed order => exact wellFormed_ofSeed seed order
  | step operation _ keeps before => exact before.perform operation keeps

end Store

end Cohort
