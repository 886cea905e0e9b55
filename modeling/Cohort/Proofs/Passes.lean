import Cohort.Proofs.Reading
import Cohort.Proofs.Reconciled

/-!
# Single passes

A pass over a well-formed store is stopped by the first call that is struck, or finds no
live group, or finds criteria that cannot be used, or commits a plan for the segment
that the store itself defines.
-/

namespace Cohort

variable {lookup : TagLookup} {evaluation : Evaluation} {owner : String} {id : Int}
  {store after : Store} {events : List Event}

/-- What a pass that holds the lock says, its result, and the store that it leaves. -/
inductive PassOutcome (store : Store) (owner : String) (id : Int) :
    List Event → Except Failure PassReport → Store → Prop where
  | stopped {events : List Event} {failure : Failure} :
      Event.EndStruck events failure → PassOutcome store owner id events (.error failure) store
  | noGroup {events : List Event} :
      Event.Unstruck events → store.liveGroup? owner id = none →
      PassOutcome store owner id events (.error (.noSuchGroup owner id)) store
  | unusable {events : List Event} {group : Group} {problem : CriteriaProblem} :
      Event.Unstruck events → store.liveGroup? owner id = some group →
      group.readCriteria = .error problem →
      PassOutcome store owner id events (.error (.unusableCriteria problem)) store
  | committed {events : List Event} {group : Group} {criteria : Criteria} {now : Instant}
      {changes : ChangeSet} {after : Store} :
      Event.Unstruck events → store.liveGroup? owner id = some group →
      group.readCriteria = .ok criteria →
      group.plan (store.currentMembers id) (store.segment owner criteria) now = changes →
      store.commit changes = .ok after →
      PassOutcome store owner id events
        (.ok
          { group := id, added := changes.additions.length, removed := changes.removals.length,
            totalContacts := (store.segment owner criteria).size })
        after

theorem PassOutcome.prepend {front back : List Event} {result : Except Failure PassReport}
    (unstruck : Event.Unstruck front) (outcome : PassOutcome store owner id back result after) :
    PassOutcome store owner id (front ++ back) result after := by
  have joined (later : Event.Unstruck back) : Event.Unstruck (front ++ back) :=
    Event.unstruck_append_iff.mpr ⟨unstruck, later⟩
  cases outcome with
  | stopped ends => exact .stopped (ends.after unstruck)
  | noGroup later absent => exact .noGroup (joined later) absent
  | unusable later found unreadable => exact .unusable (joined later) found unreadable
  | committed later found readable planned committed =>
      exact .committed (joined later) found readable planned committed

/-- The commit of a plan that passes every check is struck or carried out. -/
theorem PassOutcome.of_commit {group : Group} {criteria : Criteria} {now : Instant}
    {changes : ChangeSet} {report : PassReport} {result : Except Failure PassReport}
    (found : store.liveGroup? owner id = some group) (readable : group.readCriteria = .ok criteria)
    (planned : group.plan (store.currentMembers id) (store.segment owner criteria) now = changes)
    (reported : report =
      { group := id, added := changes.additions.length, removed := changes.removals.length,
        totalContacts := (store.segment owner criteria).size })
    (admissible : changes.Admissible store)
    (conversation : Conversation lookup store events after)
    (replayed : (do Attempt.ask (.call (.commit changes)); pure report :
      Attempt PassReport).run.Replays (events.map Event.toExchange) result) :
    PassOutcome store owner id events result after := by
  have carriedOut : store.commit changes = .ok (store.apply changes) :=
    Store.commit_eq_ok_iff_admissible.mpr ⟨admissible, rfl⟩
  rcases Attempt.replays_bind_iff.mp replayed with ⟨failure, rfl, stopped⟩ |
    ⟨_, front, back, split, replayedCommit, replayedReport⟩
  · obtain ⟨struck, rfl, genuine⟩ := conversation.of_call stopped
    rcases genuine with ⟨isStruck, unchanged, cause, fails⟩ | ⟨_, time, answered⟩
    · cases fails
      cases unchanged
      exact .stopped ⟨[], _, rfl, Event.unstruck_nil, isStruck, rfl⟩
    · simp [Store.answer, carriedOut] at answered
  · obtain ⟨silent, rfl⟩ := Attempt.replays_pure_iff.mp replayedReport
    rw [silent, List.append_nil] at split
    rw [← split] at replayedCommit
    obtain ⟨struck, rfl, genuine⟩ := conversation.of_call replayedCommit
    rcases genuine with ⟨_, _, cause, fails⟩ | ⟨unstruck, time, answered⟩
    · cases fails
    · simp only [Store.answer, carriedOut, Prod.mk.injEq] at answered
      cases answered.2
      subst reported
      exact .committed (List.forall_mem_singleton.mpr unstruck) found readable planned carriedOut

theorem Store.WellFormed.passOutcome_found (wellFormed : store.WellFormed) {group : Group}
    {criteria : Criteria} {result : Except Failure PassReport}
    (found : store.liveGroup? owner id = some group) (readable : group.readCriteria = .ok criteria)
    (conversation : Conversation lookup store events after)
    (replayed : (evaluation.reconcileFound owner id group criteria).run.Replays
      (events.map Event.toExchange) result) :
    PassOutcome store owner id events result after := by
  -- A reading is struck or leaves the store as it is, so the plan is made from what is
  -- stored.
  rcases (Attempt.reads_segment evaluation owner criteria).bind_cases conversation replayed with
    ⟨rfl, failure, rfl, ends⟩ | ⟨reading, afterReading, rfl, unstruck, readingPart, replayedReading⟩
  · exact .stopped ends
  apply PassOutcome.prepend unstruck
  rcases (Attempt.reads_currentMembers id).bind_cases readingPart replayedReading with
    ⟨rfl, failure, rfl, ends⟩ | ⟨rowsEvents, afterRows, rfl, unstruck, rowsPart, replayedRows⟩
  · exact .stopped ends
  apply PassOutcome.prepend unstruck
  obtain ⟨clock, middle, clockEvents, commitEvents, rfl, ⟨clockPart, replayedClock⟩,
    commitPart, replayedCommit⟩ := rowsPart.of_bind replayedRows
  obtain ⟨now, rfl, asked⟩ := Attempt.replays_always_iff.mp replayedClock
  obtain ⟨rfl, rfl⟩ := clockPart.of_quiet_call (fun _ => rfl) (fun _ => rfl) asked
  apply PassOutcome.prepend (List.forall_mem_singleton.mpr rfl)
  exact .of_commit found readable rfl rfl
    (wellFormed.plan_admissible found wellFormed.segment_owned) commitPart replayedCommit

theorem Store.WellFormed.passOutcome_locked (wellFormed : store.WellFormed)
    {result : Except Failure PassReport} (conversation : Conversation lookup store events after)
    (replayed :
      (evaluation.reconcileLocked owner id).run.Replays (events.map Event.toExchange) result) :
    PassOutcome store owner id events result after := by
  rw [evaluation.reconcileLocked_eq] at replayed
  rcases (Attempt.reads_liveGroup owner id).bind_cases conversation replayed with
    ⟨rfl, failure, rfl, ends⟩ | ⟨front, back, rfl, unstruck, backPart, replayedBack⟩
  · exact .stopped ends
  apply PassOutcome.prepend unstruck
  cases found : store.liveGroup? owner id with
  | none =>
      rw [found] at replayedBack
      obtain ⟨silent, rfl⟩ := Attempt.replays_throw_iff.mp replayedBack
      obtain rfl := List.map_eq_nil_iff.mp silent
      obtain rfl := Conversation.nil_iff.mp backPart
      exact .noGroup Event.unstruck_nil found
  | some group =>
      rw [found] at replayedBack
      simp only [Evaluation.reconcileLooked] at replayedBack
      cases readable : group.readCriteria with
      | error problem =>
          simp only [readable] at replayedBack
          obtain ⟨silent, rfl⟩ := Attempt.replays_throw_iff.mp replayedBack
          obtain rfl := List.map_eq_nil_iff.mp silent
          obtain rfl := Conversation.nil_iff.mp backPart
          exact .unusable Event.unstruck_nil found readable
      | ok criteria =>
          simp only [readable] at replayedBack
          exact wellFormed.passOutcome_found found readable backPart replayedBack

/-- A pass takes its lock first and gives it back last, and both leave the store as it
is. -/
theorem Conversation.of_reconcile {result : Except Failure PassReport}
    (conversation : Conversation lookup store events after)
    (replayed : (evaluation.reconcile owner id).run.Replays (events.map Event.toExchange) result) :
    ∃ inner,
      events = ⟨⟨.lock id, ()⟩, store, store, false⟩ ::
        inner ++ [⟨⟨.unlock id, ()⟩, after, after, false⟩] ∧
      Conversation lookup store inner after ∧
      (evaluation.reconcileLocked owner id).run.Replays (inner.map Event.toExchange) result := by
  obtain ⟨_, _, _, rest, rfl, ⟨lockPart, replayedLock⟩, restPart, replayedRest⟩ :=
    conversation.of_bind replayed
  obtain ⟨rfl, rfl⟩ := lockPart.of_quiet_call (fun _ => rfl) (fun _ => rfl) replayedLock
  obtain ⟨found, _, inner, last, rfl, ⟨innerPart, replayedInner⟩, lastPart, replayedLast⟩ :=
    restPart.of_bind replayedRest
  obtain ⟨_, _, _, silence, rfl, ⟨unlockPart, replayedUnlock⟩, silentPart, replayedDone⟩ :=
    lastPart.of_bind replayedLast
  obtain ⟨silent, rfl⟩ := Program.replays_done_iff.mp replayedDone
  obtain rfl := List.map_eq_nil_iff.mp silent
  obtain rfl := Conversation.nil_iff.mp silentPart
  obtain ⟨rfl, rfl⟩ := unlockPart.of_quiet_call (fun _ => rfl) (fun _ => rfl) replayedUnlock
  exact ⟨inner, rfl, innerPart, replayedInner⟩

/-- A pass is what it says while it holds the lock, between taking the lock and giving
it back. -/
theorem Store.WellFormed.passOutcome (wellFormed : store.WellFormed)
    {result : Except Failure PassReport} (conversation : Conversation lookup store events after)
    (replayed : (evaluation.reconcile owner id).run.Replays (events.map Event.toExchange) result) :
    ∃ inner,
      events = ⟨⟨.lock id, ()⟩, store, store, false⟩ ::
        inner ++ [⟨⟨.unlock id, ()⟩, after, after, false⟩] ∧
      (evaluation.reconcileLocked owner id).run.Replays (inner.map Event.toExchange) result ∧
      PassOutcome store owner id inner result after := by
  obtain ⟨inner, rfl, innerPart, replayedInner⟩ := conversation.of_reconcile replayed
  exact ⟨inner, rfl, replayedInner, wellFormed.passOutcome_locked innerPart replayedInner⟩

/-! ## Passes without faults -/

theorem Group.readCriteria_eq_ok_iff {group : Group} {criteria : Criteria} :
    group.readCriteria = .ok criteria ↔
      ∃ document, group.criteria = some document ∧ Text.allBlank document = false ∧
        Criteria.parse document = .ok criteria := by
  unfold Group.readCriteria
  cases group.criteria with
  | none => simp
  | some document => cases blank : Text.allBlank document <;> simp [blank]

/-- There is a dynamic group of the owner that is not deleted, and its criteria document
is present, not blank and can be read. -/
def Store.Reconcilable (store : Store) (owner : String) (id : Int) : Prop :=
  ∃ group document criteria,
    store.groups.find? id = some group ∧ group.owner = owner ∧ group.isDynamic = true ∧
      group.isDeleted = false ∧ group.criteria = some document ∧
      Text.allBlank document = false ∧ Criteria.parse document = .ok criteria

theorem Store.reconcilable_iff :
    store.Reconcilable owner id ↔
      ∃ group criteria, store.liveGroup? owner id = some group ∧
        group.readCriteria = .ok criteria := by
  simp only [Reconcilable, liveGroup?_eq_some_iff, Group.readCriteria_eq_ok_iff, Group.isLive,
    Bool.and_eq_true, Bool.not_eq_true']
  constructor
  · intro reconcilable
    rcases reconcilable with
      ⟨group, document, criteria, stored, owned, dynamic, kept, held, filled, parsed⟩
    exact ⟨group, criteria, ⟨stored, owned, dynamic, kept⟩, document, held, filled, parsed⟩
  · intro readable
    rcases readable with
      ⟨group, criteria, ⟨stored, owned, dynamic, kept⟩, document, held, filled, parsed⟩
    exact ⟨group, document, criteria, stored, owned, dynamic, kept, held, filled, parsed⟩

theorem Store.HasLiveGroup.reconcilable_iff (held : store.HasLiveGroup owner id) :
    store.Reconcilable owner id ↔ store.HasCriteria id := by
  obtain ⟨group, found⟩ := held
  rw [Store.reconcilable_iff]
  constructor
  · intro reconcilable
    rcases reconcilable with ⟨other, criteria, otherFound, readable⟩
    exact ⟨other, criteria, (liveGroup?_eq_some_iff.mp otherFound).1, readable⟩
  · intro readable
    rcases readable with ⟨other, criteria, stored, readable⟩
    cases stored.symm.trans (liveGroup?_eq_some_iff.mp found).1
    exact ⟨group, criteria, found, readable⟩

/-- A pass succeeds exactly if no call is struck and its group can be reconciled. -/
theorem PassOutcome.isOk_iff {result : Except Failure PassReport}
    (outcome : PassOutcome store owner id events result after) :
    result.isOk = true ↔ Event.Unstruck events ∧ store.Reconcilable owner id := by
  rw [Store.reconcilable_iff]
  cases outcome with
  | stopped ends => simp [Except.isOk, Except.toBool, ends.not_unstruck]
  | noGroup _ absent => simp [Except.isOk, Except.toBool, absent]
  | unusable _ found unreadable => simp [Except.isOk, Except.toBool, found, unreadable]
  | committed unstruck found readable planned committed =>
      simp [Except.isOk, Except.toBool, unstruck, found, readable]

/-- What a commit of a plan for the stored segment achieves. -/
theorem Store.WellFormed.plan_committed (wellFormed : store.WellFormed) {group : Group}
    {segment : Segment} {now : Instant} (found : store.liveGroup? owner id = some group)
    (committed :
      store.commit (group.plan (store.currentMembers id) segment now) = .ok after)
    (inOrder : after.lapped = false) :
    after.Reconciled id segment ∧ ChangedOnly id store after := by
  obtain ⟨stored, _, _⟩ := liveGroup?_eq_some_iff.mp found
  obtain rfl : group.id = id := wellFormed.groups id group stored
  exact ⟨wellFormed.commit_plan_reconciled committed inOrder,
    wellFormed.commit_changedOnly committed inOrder⟩

theorem Store.segment_size_le (store : Store) (owner : String) (criteria : Criteria) :
    (store.segment owner criteria).size ≤ store.contacts.records.length := by
  have listed : (store.segment owner criteria).contacts.toList ⊆
      (store.liveContacts owner).map Contact.id := by
    intro id member
    obtain ⟨contact, live, _, rfl⟩ := PreparedCriteria.mem_matching.mp (IdSet.mem_def.mpr member)
    exact List.mem_map_of_mem live
  have within := (List.subperm_of_subset (IdSet.nodup _) listed).length_le
  rw [List.length_map, (store.liveContacts_perm owner).length_eq] at within
  exact Nat.le_trans within (List.length_filter_le _ _)

/-- A plan takes at most as many words as there are contacts. -/
theorem Store.HasRoom.commit_plan {group : Group} {rows : List Member} {criteria : Criteria}
    {now : Instant} {spare : Nat} (room : store.HasRoom (store.contacts.records.length + spare))
    (committed :
      store.commit (group.plan rows (store.segment owner criteria) now) = .ok after) :
    after.HasRoom spare := by
  rw [(Store.commit_eq_ok_iff.mp committed).2]
  have fewer := group.plan_additions_length_le rows (store.segment owner criteria) now
  have most := store.segment_size_le owner criteria
  exact (room.of_le (by omega)).apply

namespace PassOutcome

variable {result : Except Failure PassReport}

theorem lapped_before (outcome : PassOutcome store owner id events result after)
    (inOrder : after.lapped = false) : store.lapped = false := by
  cases outcome with
  | stopped _ => exact inOrder
  | noGroup _ _ => exact inOrder
  | unusable _ _ _ => exact inOrder
  | committed _ _ _ _ committed => exact Store.lapped_of_commit committed inOrder

theorem room (outcome : PassOutcome store owner id events result after) {spare : Nat}
    (room : store.HasRoom (store.contacts.records.length + spare)) : after.HasRoom spare := by
  cases outcome with
  | stopped _ => exact room.of_le (Nat.le_add_left _ _)
  | noGroup _ _ => exact room.of_le (Nat.le_add_left _ _)
  | unusable _ _ _ => exact room.of_le (Nat.le_add_left _ _)
  | committed _ _ _ planned committed =>
      subst planned
      exact room.commit_plan committed

theorem sameDefinitions (outcome : PassOutcome store owner id events result after) :
    Store.SameDefinitions store after := by
  cases outcome with
  | stopped _ => exact .refl store
  | noGroup _ _ => exact .refl store
  | unusable _ _ _ => exact .refl store
  | committed _ _ _ _ committed => exact Store.commit_sameDefinitions committed

theorem otherGroups (wellFormed : store.WellFormed)
    (outcome : PassOutcome store owner id events result after) {other : Int}
    (different : other ≠ id) : after.groups.find? other = store.groups.find? other := by
  cases outcome with
  | stopped _ => rfl
  | noGroup _ _ => rfl
  | unusable _ _ _ => rfl
  | committed _ found _ planned committed =>
      subst planned
      obtain rfl := wellFormed.groups id _ (Store.liveGroup?_eq_some_iff.mp found).1
      exact Store.commit_otherGroups committed different

theorem changedOnly (wellFormed : store.WellFormed)
    (outcome : PassOutcome store owner id events result after) (inOrder : after.lapped = false) :
    Store.ChangedOnly id store after := by
  cases outcome with
  | stopped _ => exact .refl id store
  | noGroup _ _ => exact .refl id store
  | unusable _ _ _ => exact .refl id store
  | committed _ found _ planned committed =>
      subst planned
      exact (wellFormed.plan_committed found committed inOrder).2

/-- A pass that succeeds has reconciled its group with the segment of its criteria. -/
theorem reconciled {report : PassReport} {group : Group} {criteria : Criteria}
    (wellFormed : store.WellFormed) (outcome : PassOutcome store owner id events (.ok report) after)
    (inOrder : after.lapped = false) (found : store.liveGroup? owner id = some group)
    (readable : group.readCriteria = .ok criteria) :
    after.Reconciled id (store.segment owner criteria) := by
  cases outcome with
  | committed _ held read planned committed =>
      subst planned
      cases held.symm.trans found
      cases read.symm.trans readable
      exact (wellFormed.plan_committed found committed inOrder).1

end PassOutcome

/-- Over a reachable store a pass succeeds exactly if its group is a live dynamic group
of the owner with readable criteria; otherwise it says which of both is missing and
changes nothing.  Its plan is never refused.  Whatever rows the group had, afterwards
its active rows are the segment, one row for each contact, while the identifiers of rows
stay within words of 64 bits, and the counts fit. -/
theorem Store.Reachable.reconcile_correct (reachable : store.Reachable) (evaluation : Evaluation)
    (now : Instant) (lookup : TagLookup) (owner : String) (id : Int) :
    ∃ result after,
      (store.faultless now lookup).run (evaluation.reconcile owner id).run =
          (some result, after.faultless now lookup) ∧
        (result.isOk = true ↔ store.Reconcilable owner id) ∧
        (∀ failure, result = .error failure →
          after = store ∧
            ((failure = .noSuchGroup owner id ∧ store.liveGroup? owner id = none) ∨
              ∃ group problem, store.liveGroup? owner id = some group ∧
                group.readCriteria = .error problem ∧ failure = .unusableCriteria problem)) ∧
        ∀ report, result = .ok report →
          ∃ group criteria segment time,
            store.liveGroup? owner id = some group ∧ group.readCriteria = .ok criteria ∧
              (store.faultless now lookup).run (evaluation.segment owner criteria).run =
                (some (.ok segment), store.faultless now lookup) ∧
              store.commit (group.plan (store.currentMembers id) segment time) = .ok after ∧
              (after.lapped = false → after.Reconciled id segment) ∧
              report.group = id ∧ report.totalContacts = segment.size ∧
              (store.currentMembers id).length + report.added =
                segment.size + report.removed := by
  have wellFormed := reachable.wellFormed
  obtain ⟨result, events, after, ran, conversation, unstruck, replayed⟩ :=
    store.exists_conversation now lookup (evaluation.reconcile owner id).run
  obtain ⟨inner, rfl, _, outcome⟩ := wellFormed.passOutcome conversation replayed
  have innerUnstruck : Event.Unstruck inner := by
    intro event member
    exact unstruck event (List.mem_append_left _ (List.mem_cons_of_mem _ member))
  refine ⟨result, after, ran, outcome.isOk_iff.trans (and_iff_right innerUnstruck), ?_, ?_⟩
  · intro failure fails
    subst result
    cases outcome with
    | stopped ends => exact (ends.not_unstruck innerUnstruck).elim
    | noGroup _ absent => exact ⟨rfl, Or.inl ⟨rfl, absent⟩⟩
    | unusable _ found unreadable => exact ⟨rfl, Or.inr ⟨_, _, found, unreadable, rfl⟩⟩
  · intro report succeeds
    subst result
    cases outcome with
    | committed _ found readable planned committed =>
        subst planned
        exact ⟨_, _, _, _, found, readable, run_segment now lookup evaluation owner _, committed,
          fun inOrder => (wellFormed.plan_committed found committed inOrder).1, rfl, rfl,
          Group.plan_count _ _ _ (wellFormed.currentMembers_ids_nodup id)⟩

def sampleTime : Instant :=
  { date := { year := 2025, month := 1, day := 1, valid := by decide }
    second := 43200
    nano := 0
    valid := by decide }

def sampleDocument : String :=
  "\x7b\"rules\": [[\"country\", \"equals\", \"FR\"]]\x7d"

/-- A group of two live contacts of which the one has two rows, and in which a contact
that is not live and a contact of another owner have a row too. -/
def sampleSeed : Seed where
  contacts :=
    [{ id := 1, owner := "ana", country := some "FR" },
      { id := 2, owner := "ana", country := some "FR" },
      { id := 3, owner := "ana", country := some "FR", isActive := false },
      { id := 4, owner := "bo", country := some "FR" }]
  groups :=
    [{ id := 7, owner := "ana", name := "French", isDynamic := true, updatedAt := sampleTime,
       criteria := some sampleDocument }]
  members :=
    [{ id := 1, group := 7, contact := 1, joinedAt := sampleTime },
      { id := 2, group := 7, contact := 1, joinedAt := sampleTime },
      { id := 3, group := 7, contact := 3, joinedAt := sampleTime },
      { id := 4, group := 7, contact := 4, joinedAt := sampleTime }]

def sampleStore : Store :=
  .ofSeed sampleSeed

theorem sampleStore_reachable : sampleStore.Reachable :=
  .seeded sampleSeed .ascending

theorem sampleStore_reconcilable : sampleStore.Reconcilable "ana" 7 := by
  have parsed : (Criteria.parse sampleDocument).isOk = true := by
    decide +kernel
  cases read : Criteria.parse sampleDocument with
  | error problem =>
      rw [read] at parsed
      cases parsed
  | ok criteria => exact ⟨_, _, criteria, rfl, rfl, rfl, rfl, rfl, by decide +kernel, read⟩

theorem sampleStore_reconcile :
    (sampleStore.currentMembers 7).length = 4 ∧
      ∃ (report : PassReport) (after : Store) (segment : Segment),
        (sampleStore.faultless sampleTime .together).run (({} : Evaluation).reconcile "ana" 7).run =
            (some (.ok report), after.faultless sampleTime .together) ∧
          after.Reconciled 7 segment ∧ report.totalContacts = segment.size := by
  refine ⟨by decide +kernel, ?_⟩
  obtain ⟨result, after, ran, succeeds, _, success⟩ :=
    sampleStore_reachable.reconcile_correct {} sampleTime .together "ana" 7
  cases result with
  | error failure => cases succeeds.mpr sampleStore_reconcilable
  | ok report =>
      obtain ⟨_, _, segment, _, _, _, judged, committed, reconciled, _, total, _⟩ :=
        success report rfl
      rw [Store.run_segment] at judged
      cases judged
      have room : sampleStore.HasRoom (sampleStore.contacts.records.length + 0) := by
        constructor <;> decide +kernel
      exact ⟨report, after, _, ran, reconciled (room.commit_plan committed).1, total⟩

end Cohort
