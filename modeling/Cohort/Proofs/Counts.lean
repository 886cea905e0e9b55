import Mathlib.Data.List.Destutter
import Cohort.Proofs.History
import Cohort.Proofs.SingleRows

/-!
# Counts that stay right

The plan of a pass takes the count of its group from the segment, and the rows come from
carrying the plan out.  If a store begins empty and its rows are changed by passes only,
the two agree at every moment, within passes and after passes that fail too.
-/

namespace Cohort

namespace Store

/-- The count in the record of a group, and zero if there is no record. -/
def countOf (store : Store) (id : Int) : Nat :=
  (store.groups.find? id).elim 0 Group.contactCount

/-- The group counts its active rows, and each carries another contact.  Where no group
is stored there are no active rows. -/
structure Counted (store : Store) (id : Int) : Prop where
  count : store.countOf id = (store.currentMembers id).length
  single : store.SingleRows id

variable {store after : Store} {id : Int}

theorem Counted.congr (counted : store.Counted id) (count : after.countOf id = store.countOf id)
    (rows : after.currentMembers id = store.currentMembers id) : after.Counted id where
  count := by
    rw [count, rows]
    exact counted.count
  single := counted.single.congr rows

theorem Reconciled.counted {segment : Segment} (reconciled : store.Reconciled id segment) :
    store.Counted id where
  count := by
    obtain ⟨group, found, count⟩ := reconciled.count
    have size := reconciled.rows.length_eq
    rw [List.length_map] at size
    rw [countOf, found]
    exact count.trans size.symm
  single := reconciled.singleRows

theorem counted_empty (order : VisitOrder) (id : Int) : (empty order).Counted id where
  count := rfl
  single := List.nodup_nil

/-- The sequence counts the rows, and if it has lapped there is a row for each positive
word. -/
structure Numbered (store : Store) : Prop where
  counts : store.lapped = false → store.lastMember = store.members.records.length
  many : store.lapped = true → Text.maxSigned ≤ (store.members.records.length : Int)

theorem Numbered.inOrder (numbered : store.Numbered)
    (few : (store.members.records.length : Int) < Text.maxSigned) : store.lapped = false := by
  cases lapped : store.lapped with
  | false => rfl
  | true =>
      have many := numbered.many lapped
      omega

theorem numbered_empty (order : VisitOrder) : (empty order).Numbered where
  counts := fun _ => rfl
  many := by
    intro lapped
    cases lapped

theorem Numbered.of_same (numbered : store.Numbered) (members : after.members = store.members)
    (lastMember : after.lastMember = store.lastMember) (lapped : after.lapped = store.lapped) :
    after.Numbered where
  counts := by rw [members, lastMember, lapped]; exact numbered.counts
  many := by rw [members, lapped]; exact numbered.many

theorem Numbered.endMember (numbered : store.Numbered) (time : Instant) (row : Int) :
    (store.endMember time row).Numbered where
  counts := by
    simp only [Store.endMember, Table.length_modify]
    exact numbered.counts
  many := by
    simp only [Store.endMember, Table.length_modify]
    exact numbered.many

theorem Numbered.addMember (numbered : store.Numbered) (filed : store.Filed) (group : Int)
    (addition : Admission) : (store.addMember group addition).Numbered where
  counts := by
    intro inOrder
    obtain ⟨before, room⟩ := addMember_lapped.mp inOrder
    have counts := numbered.counts before
    have above : ∀ id member, store.members.find? id = some member → id < store.lastMember + 1 := by
      intro id member found
      have most := filed.le_lastMember before id member found
      omega
    rw [addMember_members room, Table.records_insert_above above, List.length_append,
      List.length_singleton]
    have last : (store.addMember group addition).lastMember = store.lastMember + 1 :=
      nextWord_of_lt room
    omega
  many := by
    intro lapped
    have grown : store.members.records.length ≤
        (store.addMember group addition).members.records.length := Table.length_le_insert ..
    have enough : Text.maxSigned ≤ (store.members.records.length : Int) := by
      cases before : store.lapped with
      | true => exact numbered.many before
      | false =>
          have counts := numbered.counts before
          have full : ¬store.lastMember < Text.maxSigned := by
            intro room
            rw [addMember_lapped.mpr ⟨before, room⟩] at lapped
            cases lapped
          omega
    omega

theorem Numbered.apply (numbered : store.Numbered) (filed : store.Filed) (changes : ChangeSet) :
    (store.apply changes).Numbered := by
  let Kept (written : Store) : Prop := written.Filed ∧ written.Numbered
  have ended : Kept (store.withEnded changes.updatedAt changes.removals) := by
    apply List.foldlRecOn (motive := Kept) _ _ ⟨filed, numbered⟩
    exact fun _ before row _ => ⟨before.1.endMember _ row, before.2.endMember _ row⟩
  have added : Kept ((store.withEnded changes.updatedAt changes.removals).withAdded changes.group
      changes.additions) := by
    apply List.foldlRecOn (motive := Kept) _ _ ended
    exact fun _ before addition _ =>
      ⟨before.1.addMember _ addition, before.2.addMember before.1 _ addition⟩
  exact added.2.of_same rfl rfl rfl

end Store

/-- A group is put only under an identifier that no group has, and without members. -/
def Operation.Orderly (store : Store) : Operation → Prop
  | .putGroup group => store.groups.find? group.id = none ∧ group.contactCount = 0
  | _ => True

theorem Operation.Orderly.countOf {store : Store} {operation : Operation}
    (orderly : operation.Orderly store) (outside : operation.IsMutation) (id : Int) :
    (operation.perform store).countOf id = store.countOf id := by
  cases operation with
  | putContact contact => rfl
  | editContact id change => rfl
  | giveTag contact tag =>
      simp only [perform, Store.giveTag]
      split <;> rfl
  | takeTag contact tag => rfl
  | putGroup group =>
      obtain ⟨unused, noMembers⟩ := orderly
      by_cases same : group.id = id
      · subst id
        simp only [perform, Store.putGroup, Store.countOf, Table.find?_insert, if_true, unused,
          Option.elim_some, Option.elim_none, noMembers]
      · simp only [perform, Store.putGroup, Store.countOf, Table.find?_insert, if_neg same]
  | setCriteria other document =>
      simp only [perform, Store.setCriteria, Store.countOf, Table.find?_modify]
      split
      · cases store.groups.find? id <;> rfl
      · rfl
  | putMember member => exact outside.elim
  | commit changes => exact outside.elim
  | run program now lookup faults => exact outside.elim

theorem Store.Numbered.perform {store : Store} (numbered : store.Numbered) {operation : Operation}
    (outside : operation.IsMutation) : (operation.perform store).Numbered := by
  cases operation with
  | putContact contact => exact numbered.of_same rfl rfl rfl
  | editContact id change => exact numbered.of_same rfl rfl rfl
  | giveTag contact tag =>
      simp only [Operation.perform, giveTag]
      split <;> exact numbered.of_same rfl rfl rfl
  | takeTag contact tag => exact numbered.of_same rfl rfl rfl
  | putGroup group => exact numbered.of_same rfl rfl rfl
  | setCriteria group document => exact numbered.of_same rfl rfl rfl
  | putMember member => exact outside.elim
  | commit changes => exact outside.elim
  | run program now lookup faults => exact outside.elim

variable {store after : Store} {moment : Moment} {moments : List Moment}

namespace Moment.Lawful

theorem inOrder_before (lawful : moment.Lawful) (inOrder : moment.after.lapped = false) :
    moment.before.lapped = false := by
  cases lawful with
  | changed store outside => exact Store.lapped_of_perform inOrder
  | committed committed => exact Store.lapped_of_commit committed inOrder
  | asked store _ => exact inOrder
  | planned _ _ _ committed => exact Store.lapped_of_commit committed inOrder

theorem numbered (lawful : moment.Lawful) (filed : moment.before.Filed)
    (numbered : moment.before.Numbered) : moment.after.Numbered := by
  cases lawful with
  | changed store outside => exact numbered.perform outside
  | committed committed =>
      rw [(Store.commit_eq_ok_iff.mp committed).2]
      exact numbered.apply filed _
  | asked store _ => exact numbered
  | planned _ _ _ committed =>
      rw [(Store.commit_eq_ok_iff.mp committed).2]
      exact numbered.apply filed _

/-- A call of a program keeps counts right: if it is a commit that is carried out, it
leaves its own group reconciled and the others as they were. -/
theorem counted (lawful : moment.Lawful) (filed : moment.before.Filed)
    (calls : ∃ exchange, moment.cause = .call exchange) (inOrder : moment.after.lapped = false)
    (counted : ∀ id, moment.before.Counted id) (id : Int) : moment.after.Counted id := by
  cases lawful with
  | changed store outside =>
      obtain ⟨exchange, impossible⟩ := calls
      cases impossible
  | committed committed =>
      obtain ⟨exchange, impossible⟩ := calls
      cases impossible
  | asked store quiet => exact counted id
  | @planned owner asked group criteria now changes store after found readable plan committed =>
      by_cases own : id = changes.group
      · subst own
        have reconciles : (Cause.call ⟨.commit changes, .ok ()⟩).reconciled? = some changes.group :=
          rfl
        exact (Lawful.reconciled (.planned found readable plan committed) filed inOrder
          reconciles).counted
      · apply (counted id).congr
        · simp only [Store.countOf, Store.commit_otherGroups committed own]
        · exact filed.currentMembers_of_other committed inOrder own

end Moment.Lawful

/-- What is handed on from moment to moment. -/
structure Store.KeepsCounts (store : Store) : Prop where
  filed : store.Filed
  numbered : store.Numbered
  counted : store.lapped = false → ∀ id, store.Counted id

theorem Course.keepsCounts (course : Course store moments after)
    (calls : ∀ moment ∈ moments, ∃ exchange, moment.cause = .call exchange)
    (keeps : store.KeepsCounts) :
    (∀ moment ∈ moments, moment.after.KeepsCounts) ∧ after.KeepsCounts := by
  induction course with
  | still store => exact ⟨List.forall_mem_nil _, keeps⟩
  | move lawful _ induction =>
      obtain ⟨first, later⟩ := List.forall_mem_cons.mp calls
      have next : Store.KeepsCounts _ :=
        { filed := lawful.filed keeps.filed
          numbered := lawful.numbered keeps.filed keeps.numbered
          counted := fun inOrder =>
            lawful.counted keeps.filed first inOrder
              (keeps.counted (lawful.inOrder_before inOrder)) }
      obtain ⟨along, last⟩ := induction later next
      exact ⟨List.forall_mem_cons.mpr ⟨next, along⟩, last⟩

theorem Store.moments_calls {α : Type} (store : Store) (program : Program α)
    (circumstances : Circumstances) :
    ∀ moment ∈ (store.moments program circumstances).1, ∃ exchange,
      moment.cause = .call exchange := by
  intro moment member
  obtain ⟨event, _, rfl⟩ := List.mem_map.mp member
  exact ⟨event.toExchange, rfl⟩

/-- Rows are changed by passes only, and groups are put as they should. -/
def Turn.Orderly (store : Store) : Turn → Prop
  | .change operation _ => operation.Orderly store
  | .commit _ => False
  | .pass _ _ _ | .passesOf _ _ | .round _ => True

/-- Each turn is orderly when it is made. -/
def Store.OrderlyTurns (evaluation : Evaluation) (store : Store) : List Turn → Prop
  | [] => True
  | turn :: turns =>
      turn.Orderly store ∧ (turn.play evaluation store).2.OrderlyTurns evaluation turns

theorem Turn.Orderly.keepsCounts {turn : Turn} (orderly : turn.Orderly store)
    (evaluation : Evaluation) (keeps : store.KeepsCounts) :
    (∀ moment ∈ (turn.play evaluation store).1, moment.after.KeepsCounts) ∧
      (turn.play evaluation store).2.KeepsCounts := by
  have course := turn.course evaluation store
  cases turn with
  | change operation outside =>
      have changed : (operation.perform store).KeepsCounts :=
        { filed := keeps.filed.perform operation
          numbered := keeps.numbered.perform outside
          counted := by
            intro inOrder id
            apply (keeps.counted (Store.lapped_of_perform inOrder) id).congr
            · exact orderly.countOf outside id
            · exact System.mutation_currentMembers outside store id }
      exact ⟨List.forall_mem_singleton.mpr changed, changed⟩
  | commit changes => exact orderly.elim
  | pass owner id circumstances => exact course.keepsCounts (store.moments_calls _ _) keeps
  | passesOf owner circumstances => exact course.keepsCounts (store.moments_calls _ _) keeps
  | round circumstances => exact course.keepsCounts (store.moments_calls _ _) keeps

theorem Store.OrderlyTurns.keepsCounts {evaluation : Evaluation} {turns : List Turn}
    (orderly : store.OrderlyTurns evaluation turns) (keeps : store.KeepsCounts) :
    ∀ state ∈ store :: (store.history evaluation turns).map Moment.after, state.KeepsCounts := by
  induction turns generalizing store with
  | nil => exact List.forall_mem_singleton.mpr keeps
  | cons turn turns induction =>
      obtain ⟨first, later⟩ := orderly
      obtain ⟨along, last⟩ := first.keepsCounts evaluation keeps
      have rest := induction later last
      intro state member
      rcases List.mem_cons.mp member with rfl | member
      · exact keeps
      · rw [history, List.map_append] at member
        rcases List.mem_append.mp member with inTurn | afterTurn
        · obtain ⟨moment, played, rfl⟩ := List.mem_map.mp inTurn
          exact along moment played
        · exact rest state (List.mem_cons_of_mem _ afterTurn)

/-- In every state of an orderly history that begins with the empty store, each group
counts as many members as it has active rows, and no two of these carry the same
contact.  The number of rows bounds how far a history can go: there are fewer of them
than positive words, as no memory holds more. -/
theorem Store.empty_history_counts (order : VisitOrder) (evaluation : Evaluation)
    (turns : List Turn) (orderly : (empty order).OrderlyTurns evaluation turns) :
    ∀ state ∈ empty order :: ((empty order).history evaluation turns).map Moment.after,
      (state.members.records.length : Int) < Text.maxSigned →
      ∀ id group, state.groups.find? id = some group →
        group.contactCount = (state.currentMembers id).length ∧
          ((state.currentMembers id).map Member.contact).Nodup := by
  intro state along few id group found
  have start : (empty order).KeepsCounts :=
    { filed := (wellFormed_empty order).toFiled
      numbered := numbered_empty order
      counted := fun _ => counted_empty order }
  have keeps := orderly.keepsCounts start state along
  have counted := keeps.counted (keeps.numbered.inOrder few) id
  constructor
  · have count := counted.count
    rw [countOf, found] at count
    exact count
  · exact counted.single

/-- Circumstances in which every commit is struck. -/
def withoutCommits : Circumstances where
  lookup := .together
  time := fun _ => sampleTime
  strikes := fun _ call =>
    match call with
    | .commit _ => some (.commit "lost")
    | _ => none

/-- A contact and a group come into the empty store, a pass of the group fails and
another succeeds, and then the contact moves and there is a round. -/
def firstTurns : List Turn :=
  let calm := Circumstances.calm .together fun _ => sampleTime
  [.change (.putContact { id := 1, owner := "ana", country := some "FR" }) trivial,
    .change
      (.putGroup
        { id := 7, owner := "ana", name := "French", isDynamic := true, updatedAt := sampleTime,
          criteria := some sampleDocument })
      trivial,
    .pass "ana" 7 withoutCommits, .pass "ana" 7 calm,
    .change (.editContact 1 ({ · with country := some "DE" })) trivial, .round calm]

theorem firstTurns_orderly : (Store.empty .ascending).OrderlyTurns {} firstTurns :=
  ⟨trivial, ⟨rfl, rfl⟩, trivial, trivial, trivial, trivial, trivial⟩

/-- The contact is counted after the pass that succeeds, and no longer after the
round. -/
theorem firstTurns_counts :
    (((Store.empty .ascending).history {} firstTurns).map fun moment =>
      moment.after.countOf 7).destutter (· ≠ ·) = [0, 1, 0] ∧
      ∀ state ∈ .empty .ascending ::
          ((Store.empty .ascending).history {} firstTurns).map Moment.after,
        ∀ id group, state.groups.find? id = some group →
          group.contactCount = (state.currentMembers id).length ∧
            ((state.currentMembers id).map Member.contact).Nodup := by
  have few : ∀ state ∈ .empty .ascending ::
      ((Store.empty .ascending).history {} firstTurns).map Moment.after,
        (state.members.records.length : Int) < Text.maxSigned := by
    decide +kernel
  constructor
  · decide +kernel
  · intro state along
    exact Store.empty_history_counts .ascending {} firstTurns firstTurns_orderly state along
      (few state along)

end Cohort
