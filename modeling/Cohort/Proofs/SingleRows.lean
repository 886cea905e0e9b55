import Cohort.Proofs.Commits
import Cohort.Proofs.Undisturbed

/-!
# One active row for each contact

Nothing keeps a seed or a membership that is put into a store from giving a contact a
second active row in a group.  Commits add no such row, and a pass that succeeds leaves
one row for each contact.
-/

namespace Cohort

namespace Store

/-- No two active rows of the group carry the same contact. -/
def SingleRows (store : Store) (id : Int) : Prop :=
  ((store.currentMembers id).map Member.contact).Nodup

variable {store changed : Store} {id : Int}

theorem SingleRows.congr (single : store.SingleRows id)
    (same : changed.currentMembers id = store.currentMembers id) : changed.SingleRows id := by
  unfold SingleRows
  rw [same]
  exact single

theorem Reconciled.singleRows {segment : Segment} (reconciled : store.Reconciled id segment) :
    store.SingleRows id :=
  reconciled.rows.nodup_iff.mpr segment.contacts.nodup

/-- The rows that stay are some of the rows before, and the contacts admitted have none
of them. -/
theorem Filed.commit_singleRows (filed : store.Filed) {changes : ChangeSet}
    (committed : store.commit changes = .ok changed) (inOrder : changed.lapped = false)
    (single : store.SingleRows id) : changed.SingleRows id := by
  by_cases own : id = changes.group
  · subst id
    obtain ⟨admissible, rfl⟩ := commit_eq_ok_iff_admissible.mp committed
    have stays : ((store.currentMembers changes.group).filter fun member =>
        member.id ∉ changes.removals).Sublist (store.currentMembers changes.group) :=
      List.filter_sublist
    rw [SingleRows, filed.apply_currentMembers inOrder, if_pos rfl, List.map_append,
      admitted_contacts]
    apply List.nodup_append.mpr
    refine ⟨single.sublist (stays.map Member.contact), admissible.additions_nodup, ?_⟩
    intro contact stayed other admitted same
    subst other
    obtain ⟨member, listed, rfl⟩ := List.mem_map.mp stayed
    obtain ⟨addition, added, carries⟩ := List.mem_map.mp admitted
    obtain ⟨current, kept⟩ := List.mem_filter.mp listed
    have removed := admissible.additions_free addition added member current carries.symm
    simp [removed] at kept
  · exact single.congr (filed.currentMembers_of_other committed inOrder own)

end Store

theorem PassOutcome.singleRows {store after : Store} {owner : String} {id : Int}
    {events : List Event} {result : Except Failure PassReport} (wellFormed : store.WellFormed)
    (outcome : PassOutcome store owner id events result after) :
    (result.isOk = true → after.lapped = false → after.SingleRows id) ∧
      (result.isOk = false → after = store) := by
  constructor
  · intro succeeds inOrder
    cases outcome with
    | stopped _ => cases succeeds
    | noGroup _ _ => cases succeeds
    | unusable _ _ _ => cases succeeds
    | committed _ found _ planned committed =>
        subst planned
        exact (wellFormed.plan_committed found committed inOrder).1.singleRows
  · intro fails
    cases outcome with
    | stopped _ => rfl
    | noGroup _ _ => rfl
    | unusable _ _ _ => rfl
    | committed _ _ _ _ _ => cases fails

/-- In every store that operations lead to, each contact, group and membership lies
under its own identifier, and while the sequence of rows is in order, no membership is
above the last identifier, which is not negative.  A commit that leaves it in order
writes over no row: it ends rows that it removes and puts new ones where none was.  It
leaves one active row for each contact of a group if there was one for each before.  A
pass leaves one for each contact of its group from whatever store it starts, if it
succeeds, and if it fails it writes nothing. -/
theorem Store.Reachable.representation {store : Store} (reachable : store.Reachable) :
    store.WellFormed ∧
      (∀ changes changed, store.commit changes = .ok changed → changed.lapped = false →
        changes.CarriedOut store changed ∧
          ∀ id, store.SingleRows id → changed.SingleRows id) ∧
      ∀ (evaluation : Evaluation) (circumstances : Circumstances) (owner : String) (id : Int),
        ∃ result journal,
          (evaluation.reconcile owner id).run.run circumstances.handle { store, events := [] } =
              (some result, journal) ∧
            (result.isOk = true → journal.store.lapped = false → journal.store.SingleRows id) ∧
            (result.isOk = false → journal.store = store) := by
  have wellFormed := reachable.wellFormed
  refine ⟨wellFormed, ?_, ?_⟩
  · intro changes changed committed inOrder
    constructor
    · obtain ⟨_, rfl⟩ := commit_eq_ok_iff_admissible.mp committed
      exact wellFormed.apply_carriedOut inOrder
    · exact fun id single => wellFormed.commit_singleRows committed inOrder single
  · intro evaluation circumstances owner id
    obtain ⟨result, events, after, ran, conversation, replayed⟩ :=
      circumstances.exists_conversation (evaluation.reconcile owner id).run { store, events := [] }
    obtain ⟨_, _, _, outcome⟩ := wellFormed.passOutcome conversation replayed
    exact ⟨result, _, ran, outcome.singleRows wellFormed⟩

/-- The contact with two rows in the sample group has one after a pass. -/
theorem sampleStore_representation :
    ¬ sampleStore.SingleRows 7 ∧
      ∃ result journal,
        (({} : Evaluation).reconcile "ana" 7).run.run
            (Circumstances.calm .together fun _ => sampleTime).handle
            { store := sampleStore, events := [] } = (some result, journal) ∧
          result.isOk = true ∧ journal.store.SingleRows 7 := by
  constructor
  · unfold Store.SingleRows
    decide +kernel
  obtain ⟨_, _, passes⟩ := sampleStore_reachable.representation
  obtain ⟨result, journal, ran, single, _⟩ :=
    passes {} (Circumstances.calm .together fun _ => sampleTime) "ana" 7
  have succeeds : ((({} : Evaluation).reconcile "ana" 7).run.run
      (Circumstances.calm .together fun _ => sampleTime).handle
      { store := sampleStore, events := [] }).1.map Except.isOk = some true := by
    decide +kernel
  have inOrder : ((({} : Evaluation).reconcile "ana" 7).run.run
      (Circumstances.calm .together fun _ => sampleTime).handle
      { store := sampleStore, events := [] }).2.store.lapped = false := by
    decide +kernel
  rw [ran] at succeeds inOrder
  have isOk := Option.some.inj succeeds
  exact ⟨result, journal, ran, isOk, single isOk inOrder⟩

/-- The sample group without criteria. -/
def uncriticalStore : Store :=
  .ofSeed
    { sampleSeed with
      groups := [{ id := 7, owner := "ana", name := "French", isDynamic := true,
                   updatedAt := sampleTime }] }

/-- A pass that fails leaves a contact its two rows. -/
theorem uncriticalStore_pass :
    uncriticalStore.Reachable ∧
      (uncriticalStore.faultless sampleTime .together).run
          (({} : Evaluation).reconcile "ana" 7).run =
        (some (.error (.unusableCriteria .absent)),
          uncriticalStore.faultless sampleTime .together) ∧
      ¬ uncriticalStore.SingleRows 7 := by
  refine ⟨.seeded _ _, ?_, ?_⟩
  · have fails : uncriticalStore.pass "ana" 7 sampleTime =
        (.error (.unusableCriteria .absent), uncriticalStore) := rfl
    rw [uncriticalStore.run_reconcile, fails]
  · unfold Store.SingleRows
    decide +kernel

end Cohort
