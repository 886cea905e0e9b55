import Mathlib.Data.List.Nodup
import Cohort.Proofs.Commits
import Cohort.Proofs.Interleaving
import Cohort.Proofs.Planned

/-!
# The history of rows

A history is all that happens to a store: changes from outside, change sets that anybody
commits, and the calls of passes and rounds.  While the sequence of rows is in order, a
row that is there stays there and ends at most once, and new rows come under greater
identifiers.
-/

namespace Cohort

/-- What is done with a store. -/
inductive Turn : Type 1 where
  | change (operation : Operation) (outside : operation.IsMutation)
  | commit (changes : ChangeSet)
  | pass (owner : String) (id : Int) (circumstances : Circumstances)
  | passesOf (owner : String) (circumstances : Circumstances)
  | round (circumstances : Circumstances)

inductive Cause where
  | change
  /-- A change set that no pass has made is carried out. -/
  | commit (changes : ChangeSet)
  | call (exchange : Exchange)

/-- A step in the history of a store. -/
structure Moment where
  cause : Cause
  before : Store
  after : Store

def Event.moment (event : Event) : Moment :=
  { cause := .call event.toExchange, before := event.before, after := event.after }

/-- What a program that is run in circumstances does to a store. -/
def Store.moments {α : Type} (store : Store) (program : Program α) (circumstances : Circumstances) :
    List Moment × Store :=
  let journal := (program.run circumstances.handle { store, events := [] }).2
  (journal.events.map Event.moment, journal.store)

/-- The moments of a turn, and the store after it.  A refused change set makes no
moment. -/
def Turn.play (evaluation : Evaluation) (store : Store) : Turn → List Moment × Store
  | .change operation _ =>
      let after := operation.perform store
      ([{ cause := .change, before := store, after }], after)
  | .commit changes =>
      match store.commit changes with
      | .ok after => ([{ cause := .commit changes, before := store, after }], after)
      | .error _ => ([], store)
  | .pass owner id circumstances =>
      store.moments (evaluation.reconcile owner id).run circumstances
  | .passesOf owner circumstances =>
      store.moments (evaluation.reconcileOwner owner).run circumstances
  | .round circumstances => store.moments evaluation.round.run circumstances

def Store.history (evaluation : Evaluation) (store : Store) : List Turn → List Moment
  | [] => []
  | turn :: turns =>
      let (moments, after) := turn.play evaluation store
      moments ++ after.history evaluation turns

/-! ## What a moment can be -/

/-- A moment is a change from outside, a commit, a call that writes nothing, or the
commit of a plan for the store as it is. -/
inductive Moment.Lawful : Moment → Prop where
  | changed {operation : Operation} (store : Store) :
      operation.IsMutation → Lawful ⟨.change, store, operation.perform store⟩
  | committed {changes : ChangeSet} {store after : Store} :
      store.commit changes = .ok after → Lawful ⟨.commit changes, store, after⟩
  | asked {exchange : Exchange} (store : Store) :
      (∀ changes, exchange ≠ ⟨.commit changes, .ok ()⟩) → Lawful ⟨.call exchange, store, store⟩
  | planned {owner : String} {id : Int} {group : Group} {criteria : Criteria} {now : Instant}
      {changes : ChangeSet} {store after : Store} :
      store.liveGroup? owner id = some group → group.readCriteria = .ok criteria →
      changes = group.plan (store.currentMembers id) (store.segment owner criteria) now →
      store.commit changes = .ok after →
      Lawful ⟨.call ⟨.commit changes, .ok ()⟩, store, after⟩

/-- Lawful moments that lead from the first store to the last, each from where the one
before it has ended. -/
inductive Course : Store → List Moment → Store → Prop where
  | still (store : Store) : Course store [] store
  | move {moment : Moment} {moments : List Moment} {after : Store} :
      moment.Lawful → Course moment.after moments after →
      Course moment.before (moment :: moments) after

variable {lookup : TagLookup} {store after : Store} {moment : Moment} {moments : List Moment}

theorem Event.moment_lawful {event : Event} (genuine : event.Genuine lookup)
    (planned : event.Planned) : event.moment.Lawful := by
  rcases genuine.commits_or with ⟨changes, commits, committed⟩ | ⟨quiet, unchanged⟩
  · obtain ⟨owner, id, group, criteria, now, found, readable, plan⟩ := planned changes commits
    rw [moment, commits]
    exact .planned found readable plan committed
  · rw [moment, unchanged]
    exact .asked event.before quiet

theorem Conversation.course {events : List Event}
    (conversation : Conversation lookup store events after)
    (planned : ∀ event ∈ events, event.Planned) : Course store (events.map Event.moment) after := by
  induction conversation with
  | silent store => exact .still store
  | @speak event events after genuine _ induction =>
      obtain ⟨first, later⟩ := List.forall_mem_cons.mp planned
      exact .move (event.moment_lawful genuine first) (induction later)

namespace Course

variable {middle : Store} {front back : List Moment}

theorem trans (first : Course store front middle) (second : Course middle back after) :
    Course store (front ++ back) after := by
  induction first with
  | still store => exact second
  | move lawful _ induction => exact .move lawful (induction second)

theorem cons_iff :
    Course store (moment :: moments) after ↔
      moment.before = store ∧ moment.Lawful ∧ Course moment.after moments after := by
  constructor
  · intro course
    cases course with
    | move lawful rest => exact ⟨rfl, lawful, rest⟩
  · intro parts
    rcases parts with ⟨rfl, lawful, rest⟩
    exact .move lawful rest

theorem of_append (course : Course store (front ++ back) after) :
    ∃ middle, Course store front middle ∧ Course middle back after := by
  induction front generalizing store with
  | nil => exact ⟨store, .still store, course⟩
  | cons moment front induction =>
      obtain ⟨rfl, lawful, rest⟩ := cons_iff.mp course
      obtain ⟨middle, first, second⟩ := induction rest
      exact ⟨middle, .move lawful first, second⟩

end Course

theorem Program.Plans.course {α : Type} {program : Program α} (plans : program.Plans)
    (circumstances : Circumstances) (store : Store) :
    Course store (store.moments program circumstances).1
      (store.moments program circumstances).2 := by
  obtain ⟨value, events, after, ran, conversation, replayed⟩ :=
    circumstances.exists_conversation program { store, events := [] }
  have played : store.moments program circumstances = (events.map Event.moment, after) := by
    rw [Store.moments, ran]
    rfl
  rw [played]
  exact conversation.course (plans _ _ _ _ _ conversation replayed)

theorem Turn.course (evaluation : Evaluation) (turn : Turn) (store : Store) :
    Course store (turn.play evaluation store).1 (turn.play evaluation store).2 := by
  cases turn with
  | change operation outside => exact .move (.changed store outside) (.still _)
  | commit changes =>
      cases committed : store.commit changes with
      | error failure =>
          simp only [play, committed]
          exact .still store
      | ok after =>
          simp only [play, committed]
          exact .move (.committed committed) (.still after)
  | pass owner id circumstances =>
      exact (evaluation.reconcile_plans owner id).course circumstances store
  | passesOf owner circumstances =>
      exact (evaluation.reconcileOwner_plans owner).course circumstances store
  | round circumstances => exact evaluation.round_plans.course circumstances store

theorem Store.history_course (evaluation : Evaluation) (turns : List Turn) (store : Store) :
    ∃ after, Course store (store.history evaluation turns) after := by
  induction turns generalizing store with
  | nil => exact ⟨store, .still store⟩
  | cons turn turns induction =>
      obtain ⟨after, rest⟩ := induction (turn.play evaluation store).2
      exact ⟨after, (turn.course evaluation store).trans rest⟩

/-! ## Rows that stay -/

/-- Every row is still there, as it was or now ended, and what is ended stays as it
is.  New rows have greater identifiers than all that were there. -/
structure Store.RowsAged (before after : Store) : Prop where
  stays : ∀ id row, before.members.find? id = some row → ∃ later,
    after.members.find? id = some later ∧
      (later = row ∨ row.isDeleted = false ∧ ∃ time, later = row.ended time)
  grows : ∀ id other, (after.members.find? id).isSome = true → before.members.find? id = none →
    (before.members.find? other).isSome = true → other < id

namespace Store.RowsAged

theorem of_same {before after : Store} (same : after.members = before.members) :
    RowsAged before after where
  stays := by
    intro id row found
    exact ⟨row, same ▸ found, Or.inl rfl⟩
  grows := by
    intro id other present absent
    rw [same, absent] at present
    cases present

theorem trans {before middle after : Store} (first : RowsAged before middle)
    (second : RowsAged middle after) : RowsAged before after where
  stays := by
    intro id row found
    obtain ⟨held, heldFound, aged⟩ := first.stays id row found
    obtain ⟨later, laterFound, agedLater⟩ := second.stays id held heldFound
    refine ⟨later, laterFound, ?_⟩
    rcases agedLater with rfl | ⟨active, time, rfl⟩
    · exact aged
    · rcases aged with rfl | ⟨_, _, rfl⟩
      · exact Or.inr ⟨active, time, rfl⟩
      · cases active
  grows := by
    intro id other present absent held
    obtain ⟨row, found⟩ := Option.isSome_iff_exists.mp held
    obtain ⟨_, stays, _⟩ := first.stays other row found
    cases between : middle.members.find? id with
    | none => exact second.grows id other present between (Option.isSome_iff_exists.mpr ⟨_, stays⟩)
    | some _ => exact first.grows id other (Option.isSome_iff_exists.mpr ⟨_, between⟩) absent held

end Store.RowsAged

theorem Store.Filed.commit_rowsAged (filed : store.Filed) {changes : ChangeSet}
    (committed : store.commit changes = .ok after) (inOrder : after.lapped = false) :
    store.RowsAged after := by
  have before := lapped_of_commit committed inOrder
  obtain ⟨admissible, rfl⟩ := commit_eq_ok_iff_admissible.mp committed
  have carried := filed.apply_carriedOut inOrder
  constructor
  · intro id row found
    refine ⟨_, carried.old_rows id row found, ?_⟩
    by_cases removed : id ∈ changes.removals
    · obtain ⟨held, heldFound, _, active⟩ := admissible.removals_active id removed
      cases heldFound.symm.trans found
      exact Or.inr ⟨active, changes.updatedAt, if_pos removed⟩
    · exact Or.inl (if_neg removed)
  · intro id other present absent held
    obtain ⟨row, found⟩ := Option.isSome_iff_exists.mp held
    obtain ⟨new, newFound⟩ := Option.isSome_iff_exists.mp present
    have below := filed.le_lastMember before other row found
    rcases carried.no_other_rows id new newFound with old | ⟨position, _, rfl⟩
    · rw [absent] at old
      cases old
    · omega

namespace Moment.Lawful

theorem filed (lawful : moment.Lawful) (filed : moment.before.Filed) : moment.after.Filed := by
  cases lawful with
  | changed store outside => exact filed.perform _
  | committed committed => exact filed.commit committed
  | asked store _ => exact filed
  | planned _ _ _ committed => exact filed.commit committed

theorem rowsAged (lawful : moment.Lawful) (filed : moment.before.Filed)
    (inOrder : moment.after.lapped = false) : moment.before.RowsAged moment.after := by
  cases lawful with
  | changed store outside => exact .of_same (outside.members store)
  | committed committed => exact filed.commit_rowsAged committed inOrder
  | asked store _ => exact .of_same rfl
  | planned _ _ _ committed => exact filed.commit_rowsAged committed inOrder

end Moment.Lawful

theorem Course.filed (course : Course store moments after) (filed : store.Filed) : after.Filed := by
  induction course with
  | still store => exact filed
  | move lawful _ induction => exact induction (lawful.filed filed)

theorem Course.lawful (course : Course store moments after) (filed : store.Filed) :
    ∀ moment ∈ moments, moment.Lawful ∧ moment.before.Filed := by
  induction course with
  | still store => exact List.forall_mem_nil _
  | move lawful _ induction =>
      exact List.forall_mem_cons.mpr ⟨⟨lawful, filed⟩, induction (lawful.filed filed)⟩

/-- Of any two states in a course the rows of the later are those of the earlier,
aged. -/
theorem Course.rowsAged (course : Course store moments after) (filed : store.Filed)
    (inOrder : ∀ moment ∈ moments, moment.after.lapped = false) :
    (store :: moments.map Moment.after).Pairwise Store.RowsAged := by
  induction course with
  | still store => exact List.pairwise_singleton _ _
  | @move moment moments after lawful _ induction =>
      obtain ⟨firstInOrder, laterInOrder⟩ := List.forall_mem_cons.mp inOrder
      have later := induction (lawful.filed filed) laterInOrder
      refine List.pairwise_cons.mpr ⟨?_, later⟩
      have first := lawful.rowsAged filed firstInOrder
      intro state member
      rcases List.mem_cons.mp member with rfl | member
      · exact first
      · exact first.trans ((List.pairwise_cons.mp later).1 state member)

/-! ## Contacts that keep their row -/

/-- The contacts that match the criteria of a group; none if there are no criteria to be
read. -/
def Store.matchedSet (store : Store) (id : Int) : IdSet :=
  match store.groups.find? id with
  | none => .empty
  | some group =>
      match group.readCriteria with
      | .error _ => .empty
      | .ok criteria => (store.segment group.owner criteria).contacts

/-- The active row of the contact in the group is this one and no other. -/
def OnlyRow (store : Store) (id contact : Int) (row : Member) : Prop :=
  ∀ member, member ∈ store.currentMembers id ∧ member.contact = contact ↔ member = row

/-- The group that a pass reconciles, if this is where it does. -/
def Cause.reconciled? : Cause → Option Int
  | .call ⟨.commit changes, .ok ()⟩ => some changes.group
  | _ => none

/-- The group whose rows are changed by others than its passes. -/
def Cause.overridden? : Cause → Option Int
  | .commit changes => some changes.group
  | _ => none

theorem Store.matchedSet_eq {owner : String} {id : Int} {group : Group} {criteria : Criteria}
    (found : store.liveGroup? owner id = some group)
    (readable : group.readCriteria = .ok criteria) :
    store.matchedSet id = (store.segment owner criteria).contacts := by
  obtain ⟨stored, owned, _⟩ := liveGroup?_eq_some_iff.mp found
  unfold matchedSet
  simp only [stored, readable, owned]

theorem OnlyRow.congr {id contact : Int} {row : Member} (only : OnlyRow store id contact row)
    (same : after.currentMembers id = store.currentMembers id) : OnlyRow after id contact row := by
  unfold OnlyRow
  rw [same]
  exact only

/-- A contact of the segment has one row after the commit of a plan, and if it had one
before, this is still the same. -/
theorem Store.Filed.plan_onlyRow (filed : store.Filed) {group : Group} {segment : Segment}
    {now : Instant} {contact : Int} (inSegment : contact ∈ segment.contacts)
    (committed :
      store.commit (group.plan (store.currentMembers group.id) segment now) = .ok after)
    (inOrder : after.lapped = false) :
    (∃ row, OnlyRow after group.id contact row) ∧
      ∀ row, OnlyRow store group.id contact row → OnlyRow after group.id contact row := by
  have reconciled := filed.commit_plan_reconciled committed inOrder
  obtain ⟨_, rfl⟩ := commit_eq_ok_iff_admissible.mp committed
  constructor
  · have carried := reconciled.rows.mem_iff.mpr (IdSet.mem_def.mp inSegment)
    obtain ⟨row, listed, rfl⟩ := List.mem_map.mp carried
    have single := List.inj_on_of_nodup_map
      (reconciled.rows.nodup_iff.mpr segment.contacts.nodup)
    refine ⟨row, fun member => ⟨?_, ?_⟩⟩
    · intro carries
      exact single carries.1 listed carries.2
    · intro same
      subst same
      exact ⟨listed, rfl⟩
  · intro row only
    obtain ⟨listed, rfl⟩ := (only row).mpr rfl
    obtain ⟨stays, notAdded⟩ := group.plan_keeps segment now
      (filed.currentMembers_ids_nodup group.id) listed inSegment
      fun other otherListed same => (only other).mp ⟨otherListed, same⟩
    have ownGroup : (group.plan (store.currentMembers group.id) segment now).group = group.id := rfl
    intro member
    rw [filed.apply_currentMembers inOrder, if_pos ownGroup.symm, List.mem_append, List.mem_filter]
    constructor
    · intro present
      rcases present with ⟨⟨old, _⟩ | new, same⟩
      · exact (only member).mp ⟨old, same⟩
      · have added := List.mem_map_of_mem (f := Member.contact) new
        rw [admitted_contacts, same] at added
        exact (notAdded added).elim
    · intro same
      subst same
      exact ⟨Or.inl ⟨listed, by simpa using stays⟩, rfl⟩

theorem Cause.reconciled?_eq_some_iff {cause : Cause} {id : Int} :
    cause.reconciled? = some id ↔
      ∃ changes, cause = .call ⟨.commit changes, .ok ()⟩ ∧ changes.group = id := by
  constructor
  · intro reconciles
    unfold reconciled? at reconciles
    split at reconciles
    · rename_i changes
      exact ⟨changes, rfl, Option.some.inj reconciles⟩
    · cases reconciles
  · intro commits
    rcases commits with ⟨changes, rfl, rfl⟩
    rfl

namespace Moment.Lawful

variable {id contact : Int}

/-- A pass reconciles a group by committing the plan for the contacts that match. -/
theorem plan_of_reconciled (lawful : moment.Lawful) (filed : moment.before.Filed)
    (reconciles : moment.cause.reconciled? = some id) :
    ∃ (group : Group) (segment : Segment) (now : Instant), group.id = id ∧
      segment.contacts = moment.before.matchedSet id ∧
      moment.before.commit (group.plan (moment.before.currentMembers group.id) segment now) =
        .ok moment.after := by
  obtain ⟨changes, commits, sameGroup⟩ := Cause.reconciled?_eq_some_iff.mp reconciles
  cases lawful with
  | changed store outside => cases commits
  | committed committed => cases commits
  | asked store quiet =>
      cases commits
      exact (quiet changes rfl).elim
  | @planned owner asked group criteria now changes store after found readable plan committed =>
      cases commits
      subst plan
      have ownId : group.id = asked :=
        filed.groups asked group (Store.liveGroup?_eq_some_iff.mp found).1
      subst asked
      have same : group.id = id := sameGroup
      subst same
      exact ⟨group, _, now, rfl, (Store.matchedSet_eq found readable).symm, committed⟩

theorem reconciled (lawful : moment.Lawful) (filed : moment.before.Filed)
    (inOrder : moment.after.lapped = false) (reconciles : moment.cause.reconciled? = some id) :
    moment.after.Reconciled id { contacts := moment.before.matchedSet id } := by
  obtain ⟨group, segment, now, rfl, same, committed⟩ := lawful.plan_of_reconciled filed reconciles
  rw [← same]
  exact filed.commit_plan_reconciled committed inOrder

theorem exists_onlyRow (lawful : moment.Lawful) (filed : moment.before.Filed)
    (inOrder : moment.after.lapped = false) (reconciles : moment.cause.reconciled? = some id)
    (matched : contact ∈ moment.before.matchedSet id) :
    ∃ row, OnlyRow moment.after id contact row := by
  obtain ⟨group, segment, now, rfl, same, committed⟩ := lawful.plan_of_reconciled filed reconciles
  rw [← same] at matched
  exact (filed.plan_onlyRow matched committed inOrder).1

/-- A contact keeps its row unless others change the rows of the group or the contact
does not match when the group is reconciled. -/
theorem onlyRow (lawful : moment.Lawful) (filed : moment.before.Filed)
    (inOrder : moment.after.lapped = false) (own : moment.cause.overridden? ≠ some id)
    (matched : moment.cause.reconciled? = some id → contact ∈ moment.before.matchedSet id)
    {row : Member} (only : OnlyRow moment.before id contact row) :
    OnlyRow moment.after id contact row := by
  by_cases reconciles : moment.cause.reconciled? = some id
  · obtain ⟨group, segment, now, rfl, same, committed⟩ := lawful.plan_of_reconciled filed reconciles
    have inSegment := matched reconciles
    rw [← same] at inSegment
    exact (filed.plan_onlyRow inSegment committed inOrder).2 row only
  · apply only.congr
    cases lawful with
    | changed store outside => exact System.mutation_currentMembers outside store id
    | committed committed =>
        apply filed.currentMembers_of_other committed inOrder
        intro same
        exact own (congrArg some same.symm)
    | asked store quiet => rfl
    | planned found readable plan committed =>
        apply filed.currentMembers_of_other committed inOrder
        intro same
        exact reconciles (congrArg some same.symm)

end Moment.Lawful

theorem Course.onlyRow {id contact : Int} {row : Member} (course : Course store moments after)
    (filed : store.Filed) (inOrder : ∀ moment ∈ moments, moment.after.lapped = false)
    (own : ∀ moment ∈ moments, moment.cause.overridden? ≠ some id)
    (matched : ∀ moment ∈ moments, moment.cause.reconciled? = some id →
      contact ∈ moment.before.matchedSet id)
    (only : OnlyRow store id contact row) :
    ∀ moment ∈ moments, OnlyRow moment.after id contact row := by
  induction course with
  | still store => exact List.forall_mem_nil _
  | move lawful _ induction =>
      -- The row is handed on from moment to moment.
      obtain ⟨ownFirst, ownLater⟩ := List.forall_mem_cons.mp own
      obtain ⟨matchedFirst, matchedLater⟩ := List.forall_mem_cons.mp matched
      obtain ⟨firstInOrder, laterInOrder⟩ := List.forall_mem_cons.mp inOrder
      have next := lawful.onlyRow filed firstInOrder ownFirst matchedFirst only
      exact List.forall_mem_cons.mpr
        ⟨next, induction (lawful.filed filed) laterInOrder ownLater matchedLater next⟩

/-- Over every history of a store that operations lead to in which the sequence of rows
stays in order, rows stay, end once at most and keep what they have ended with, and new
rows get greater identifiers than all rows before.  Passes reconcile their groups with
the contacts that match.  A contact that matches whenever a pass reconciles its group
has the same single row from the first such pass on, unless others commit changes of the
group. -/
theorem Store.ReachableBy.history_keeps_rows {allowed : Store → Operation → Prop}
    (reachable : ReachableBy allowed store) (evaluation : Evaluation) (turns : List Turn)
    (inOrder : ∀ moment ∈ store.history evaluation turns, moment.after.lapped = false) :
    (store :: (store.history evaluation turns).map Moment.after).Pairwise RowsAged ∧
      (∀ moment ∈ store.history evaluation turns, ∀ id, moment.cause.reconciled? = some id →
        moment.after.Reconciled id { contacts := moment.before.matchedSet id }) ∧
      ∀ (id contact : Int) (front : List Moment) (first : Moment) (rest back : List Moment),
        store.history evaluation turns = front ++ first :: (rest ++ back) →
        first.cause.reconciled? = some id →
        (∀ moment ∈ rest, moment.cause.overridden? ≠ some id) →
        (∀ moment ∈ first :: rest, moment.cause.reconciled? = some id →
          contact ∈ moment.before.matchedSet id) →
        ∃ row, ∀ moment ∈ first :: rest, OnlyRow moment.after id contact row := by
  obtain ⟨after, course⟩ := store.history_course evaluation turns
  have filed := reachable.filed
  refine ⟨course.rowsAged filed inOrder, ?_, ?_⟩
  · intro moment member id reconciles
    obtain ⟨lawful, filedBefore⟩ := course.lawful filed moment member
    exact lawful.reconciled filedBefore (inOrder moment member) reconciles
  · intro id contact front first rest back split reconciles own matched
    rw [split] at course inOrder
    obtain ⟨_, later⟩ := List.forall_mem_append.mp inOrder
    obtain ⟨firstInOrder, restInOrder⟩ := List.forall_mem_cons.mp later
    obtain ⟨middle, frontPart, later⟩ := course.of_append
    obtain ⟨rfl, lawful, remaining⟩ := Course.cons_iff.mp later
    obtain ⟨last, restPart, _⟩ := remaining.of_append
    obtain ⟨matchedFirst, matchedRest⟩ := List.forall_mem_cons.mp matched
    have filedFirst := frontPart.filed filed
    obtain ⟨row, only⟩ := lawful.exists_onlyRow filedFirst firstInOrder reconciles
      (matchedFirst reconciles)
    have keeps := restPart.onlyRow (lawful.filed filedFirst)
      (List.forall_mem_append.mp restInOrder).1 own matchedRest only
    exact ⟨row, List.forall_mem_cons.mpr ⟨only, keeps⟩⟩

/-- The sample group without rows, and a contact that matches. -/
def freshStore : Store :=
  .ofSeed
    { sampleSeed with
      contacts := [{ id := 1, owner := "ana", country := some "FR" }]
      members := [] }

theorem freshStore_reachable : freshStore.Reachable :=
  .seeded _ _

/-- Two passes of the group, and the contact is given a tag between them. -/
def freshTurns : List Turn :=
  let calm := Circumstances.calm .together fun _ => sampleTime
  [.pass "ana" 7 calm, .change (.giveTag 1 5) trivial, .pass "ana" 7 calm]

theorem freshStore_history :
    ∃ (front : List Moment) (first : Moment) (rest : List Moment) (row : Member),
      freshStore.history {} freshTurns = front ++ first :: (rest ++ []) ∧
        first.cause.reconciled? = some 7 ∧
        (rest.filterMap fun moment => moment.cause.reconciled?) = [7] ∧
        (freshStore :: (freshStore.history {} freshTurns).map Moment.after).Pairwise
          Store.RowsAged ∧
        ∀ moment ∈ first :: rest, OnlyRow moment.after 7 1 row := by
  obtain ⟨aged, _, keeps⟩ := freshStore_reachable.history_keeps_rows {} freshTurns
    (by decide +kernel)
  have causes : ((freshStore.history {} freshTurns).drop 6).map
      (fun moment => moment.cause.reconciled?) =
      some 7 :: (List.replicate 8 none ++ [some 7, none]) := by
    decide +kernel
  have own : ∀ moment ∈ (freshStore.history {} freshTurns).drop 6,
      moment.cause.overridden? ≠ some 7 := by
    decide +kernel
  have matched : ∀ moment ∈ (freshStore.history {} freshTurns).drop 6,
      moment.cause.reconciled? = some 7 → 1 ∈ moment.before.matchedSet 7 := by
    decide +kernel
  obtain ⟨first, rest, tail, reconciles, later⟩ := List.map_eq_cons_iff.mp causes
  rw [tail] at own matched
  have split : freshStore.history {} freshTurns =
      (freshStore.history {} freshTurns).take 6 ++ first :: (rest ++ []) := by
    rw [List.append_nil, ← tail, List.take_append_drop]
  obtain ⟨row, only⟩ := keeps 7 1 _ first rest [] split reconciles
    (List.forall_mem_cons.mp own).2 matched
  refine ⟨_, first, rest, row, split, reconciles, ?_, aged, only⟩
  have again := congrArg (List.filterMap id) later
  rw [List.filterMap_map] at again
  exact again

end Cohort
