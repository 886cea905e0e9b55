import Mathlib.Data.List.Basic
import Cohort.Proofs.Passes
import Cohort.Proofs.PassTrace

/-!
# Passes one after the other

`Attempts` says of a part of a round which groups it has passed, each exactly once, and
which of them it has reconciled.  Parts that pass different groups can be joined, since
a pass changes nothing that decides on the pass of another group.
-/

namespace Cohort

open Store

namespace Event

/-- The lock of the group is neither taken nor given back. -/
def Apart (id : Int) (events : List Event) : Prop :=
  ∀ event ∈ events, event.call ≠ .lock id ∧ event.call ≠ .unlock id

/-- The lock of the group is taken once and given back once, and these are the events
between. -/
def PassOf (id : Int) (events inner : List Event) : Prop :=
  ∃ front first last back, events = front ++ first :: (inner ++ last :: back) ∧
    first.call = .lock id ∧ last.call = .unlock id ∧ Apart id front ∧ Apart id inner ∧ Apart id back

theorem apart_nil (id : Int) : Apart id [] := by
  intro event member
  cases member

theorem apart_append_iff {id : Int} {front back : List Event} :
    Apart id (front ++ back) ↔ Apart id front ∧ Apart id back :=
  List.forall_mem_append

variable {id : Int} {events front back inner other : List Event}

theorem PassOf.append_right (pass : PassOf id front inner) (apart : Apart id back) :
    PassOf id (front ++ back) inner := by
  obtain ⟨earlier, first, last, later, rfl, locks, unlocks, apartEarlier, apartInner, apartLater⟩ :=
    pass
  refine ⟨earlier, first, last, later ++ back, ?_, locks, unlocks, apartEarlier, apartInner,
    apart_append_iff.mpr ⟨apartLater, apart⟩⟩
  simp only [List.append_assoc, List.cons_append]

theorem PassOf.append_left (apart : Apart id front) (pass : PassOf id back inner) :
    PassOf id (front ++ back) inner := by
  obtain ⟨earlier, first, last, later, rfl, locks, unlocks, apartEarlier, apartInner, apartLater⟩ :=
    pass
  exact ⟨front ++ earlier, first, last, later, (List.append_assoc ..).symm, locks, unlocks,
    apart_append_iff.mpr ⟨apart, apartEarlier⟩, apartInner, apartLater⟩

theorem PassOf.unique (left : PassOf id events inner) (right : PassOf id events other) :
    inner = other := by
  obtain ⟨earlier, first, last, later, rfl, locks, unlocks, apartEarlier, apartInner, apartLater⟩ :=
    left
  obtain ⟨earlier', first', last', later', same, locks', unlocks', apartEarlier', apartInner',
    apartLater'⟩ := right
  have firstApart : first' ∉ earlier := fun member => (apartEarlier _ member).1 locks'
  have firstLater : first' ∉ inner ++ last :: later := by
    intro member
    rcases List.mem_append.mp member with inInner | inLater
    · exact (apartInner _ inInner).1 locks'
    rcases List.mem_cons.mp inLater with rfl | inLater
    · rw [unlocks] at locks'
      cases locks'
    · exact (apartLater _ inLater).1 locks'
  obtain ⟨_, _, rest⟩ := (List.append_cons_inj_of_notMem firstApart firstLater).mp same
  have lastInner : last' ∉ inner := fun member => (apartInner _ member).2 unlocks'
  have lastLater : last' ∉ later := fun member => (apartLater _ member).2 unlocks'
  exact ((List.append_cons_inj_of_notMem lastInner lastLater).mp rest).1

/-- A pass that is over is not changed by what follows it. -/
theorem passOf_append_iff_left (own : ∃ inner, PassOf id front inner) (apart : Apart id back) :
    PassOf id (front ++ back) inner ↔ PassOf id front inner := by
  constructor
  · intro pass
    obtain ⟨found, earlier⟩ := own
    exact pass.unique (earlier.append_right apart) ▸ earlier
  · intro pass
    exact pass.append_right apart

theorem passOf_append_iff_right (own : ∃ inner, PassOf id back inner) (apart : Apart id front) :
    PassOf id (front ++ back) inner ↔ PassOf id back inner := by
  constructor
  · intro pass
    obtain ⟨found, later⟩ := own
    exact pass.unique (later.append_left apart) ▸ later
  · intro pass
    exact pass.append_left apart

end Event

/-- A part of a round: the groups that it passes, those of them that it reconciles, what
is said, and the store afterwards. -/
structure Attempts (store : Store) (ids synced : List Int) (events : List Event)
    (after : Store) : Prop extends SameDefinitions store after where
  passes : ∀ id ∈ ids, ∃ inner, Event.PassOf id events inner
  others : ∀ id, id ∉ ids → Event.Apart id events
  synced_iff : ∀ id, id ∈ synced ↔
    id ∈ ids ∧ store.HasCriteria id ∧ ∃ inner, Event.PassOf id events inner ∧ Event.Unstruck inner
  lapped_before : after.lapped = false → store.lapped = false
  /-- A pass takes at most as many words as there are contacts. -/
  room : ∀ spare, store.HasRoom (ids.length * store.contacts.records.length + spare) →
    after.HasRoom spare
  reconciled : after.lapped = false →
    ∀ id ∈ synced, ∀ group criteria, store.groups.find? id = some group →
      group.readCriteria = .ok criteria → after.Reconciled id (store.segment group.owner criteria)
  untouchedRecords : ∀ id, id ∉ synced → after.groups.find? id = store.groups.find? id
  untouchedRows : after.lapped = false →
    ∀ id, id ∉ synced → after.memberHistory id = store.memberHistory id

variable {store middle after : Store} {events front back : List Event}

theorem Store.SameDefinitions.segment_eq (same : SameDefinitions store after) (owner : String)
    (criteria : Criteria) : after.segment owner criteria = store.segment owner criteria := by
  have contacts : after.liveContacts owner = store.liveContacts owner := by
    simp only [liveContacts, same.contacts, same.order]
  have tagsOfEach : after.tagsOf = store.tagsOf := by
    funext contact
    simp only [tagsOf, same.assignments]
  have tags (ids : List Int) : after.tagsOfAll ids = store.tagsOfAll ids := by
    rw [tagsOfAll_eq, tagsOfAll_eq, tagsOfEach]
  simp only [segment, judge, contacts, tags]

theorem Attempts.none (store : Store) (apart : ∀ id, Event.Apart id events) :
    Attempts store [] [] events store where
  toSameDefinitions := .refl store
  passes := by simp
  others := fun id _ => apart id
  synced_iff := by simp
  lapped_before := id
  room := fun spare room => room.of_le (Nat.le_add_left spare _)
  reconciled := by simp
  untouchedRecords := fun _ _ => rfl
  untouchedRows := fun _ _ _ => rfl

theorem Attempts.append {firstIds secondIds firstSynced secondSynced : List Int}
    (first : Attempts store firstIds firstSynced front middle)
    (second : Attempts middle secondIds secondSynced back after)
    (different : ∀ id ∈ firstIds, id ∉ secondIds) :
    Attempts store (firstIds ++ secondIds) (firstSynced ++ secondSynced) (front ++ back) after := by
  have firstPassed : ∀ id ∈ firstSynced, id ∈ firstIds := fun id member =>
    ((first.synced_iff id).mp member).1
  have secondPassed : ∀ id ∈ secondSynced, id ∈ secondIds := fun id member =>
    ((second.synced_iff id).mp member).1
  have passFirst {id : Int} {inner : List Event} (member : id ∈ firstIds) :
      Event.PassOf id (front ++ back) inner ↔ Event.PassOf id front inner :=
    Event.passOf_append_iff_left (first.passes id member)
      (second.others id (different id member))
  have passSecond {id : Int} {inner : List Event} (member : id ∈ secondIds) :
      Event.PassOf id (front ++ back) inner ↔ Event.PassOf id back inner :=
    Event.passOf_append_iff_right (second.passes id member)
      (first.others id fun listed => different id listed member)
  exact
    { toSameDefinitions := first.toSameDefinitions.trans second.toSameDefinitions
      passes := by
        intro id member
        rcases List.mem_append.mp member with inFirst | inSecond
        · obtain ⟨inner, pass⟩ := first.passes id inFirst
          exact ⟨inner, (passFirst inFirst).mpr pass⟩
        · obtain ⟨inner, pass⟩ := second.passes id inSecond
          exact ⟨inner, (passSecond inSecond).mpr pass⟩
      others := by
        intro id absent
        rw [List.mem_append, not_or] at absent
        exact Event.apart_append_iff.mpr ⟨first.others id absent.1, second.others id absent.2⟩
      synced_iff := by
        intro id
        rw [List.mem_append, List.mem_append, first.synced_iff, second.synced_iff]
        constructor
        · intro synced
          rcases synced with ⟨member, readable, inner, pass, unstruck⟩ |
            ⟨member, readable, inner, pass, unstruck⟩
          · exact ⟨Or.inl member, readable, inner, (passFirst member).mpr pass, unstruck⟩
          · exact ⟨Or.inr member, first.symm.hasCriteria readable, inner,
              (passSecond member).mpr pass, unstruck⟩
        · intro member
          rcases member with ⟨member | member, readable, inner, pass, unstruck⟩
          · exact Or.inl ⟨member, readable, inner, (passFirst member).mp pass, unstruck⟩
          · exact Or.inr ⟨member, first.hasCriteria readable, inner, (passSecond member).mp pass,
              unstruck⟩
      lapped_before := fun inOrder => first.lapped_before (second.lapped_before inOrder)
      room := by
        intro spare room
        apply second.room
        apply first.room
        rwa [first.contacts, ← Nat.add_assoc, ← Nat.add_mul, ← List.length_append]
      reconciled := by
        intro inOrder id member group criteria stored read
        rcases List.mem_append.mp member with inFirst | inSecond
        · have elsewhere : id ∉ secondSynced := fun synced =>
            different id (firstPassed id inFirst) (secondPassed id synced)
          have done := first.reconciled (second.lapped_before inOrder) id inFirst group criteria
            stored read
          exact done.congr (second.untouchedRecords id elsewhere)
            (second.untouchedRows inOrder id elsewhere)
        · obtain ⟨held, found, owner, _, same⟩ := first.exists_group stored
          have done := second.reconciled inOrder id inSecond held criteria found (same.trans read)
          rwa [owner, first.segment_eq] at done
      untouchedRecords := by
        intro id absent
        rw [List.mem_append, not_or] at absent
        exact (second.untouchedRecords id absent.2).trans (first.untouchedRecords id absent.1)
      untouchedRows := by
        intro inOrder id absent
        rw [List.mem_append, not_or] at absent
        exact (second.untouchedRows inOrder id absent.2).trans
          (first.untouchedRows (second.lapped_before inOrder) id absent.1) }

theorem PassOutcome.unchanged {owner : String} {id : Int} {result : Except Failure PassReport}
    (outcome : PassOutcome store owner id events result after) (fails : result.isOk = false) :
    after = store := by
  cases outcome with
  | committed _ _ _ _ _ => cases fails
  | stopped _ => rfl
  | noGroup _ _ => rfl
  | unusable _ _ _ => rfl

/-- A pass with its lock is a part of a round, which reconciles the group if the pass
succeeds. -/
theorem Attempts.of_outcome {owner : String} {id : Int} {inner : List Event}
    {result : Except Failure PassReport} (wellFormed : store.WellFormed)
    (held : store.HasLiveGroup owner id)
    (outcome : PassOutcome store owner id inner result after)
    (innerApart : ∀ other, Event.Apart other inner) :
    Attempts store [id] (if result.isOk then [id] else [])
      (⟨⟨.lock id, ()⟩, store, store, false⟩ :: inner ++
        [⟨⟨.unlock id, ()⟩, after, after, false⟩]) after := by
  have pass : Event.PassOf id
      (⟨⟨.lock id, ()⟩, store, store, false⟩ :: inner ++
        [⟨⟨.unlock id, ()⟩, after, after, false⟩]) inner :=
    ⟨[], _, _, [], rfl, rfl, rfl, Event.apart_nil id, innerApart id, Event.apart_nil id⟩
  have decided : id ∈ (if result.isOk then [id] else []) ↔ result.isOk = true := by
    cases result.isOk <;> simp
  have unchanged (absent : id ∉ (if result.isOk then [id] else [])) : after = store :=
    outcome.unchanged (Bool.eq_false_iff.mpr fun succeeds => absent (decided.mpr succeeds))
  have onlyOwn {other : Int} : other ∈ (if result.isOk then [id] else []) → other = id := by
    cases result.isOk <;> simp
  exact
    { toSameDefinitions := outcome.sameDefinitions
      passes := by
        intro other member
        cases List.mem_singleton.mp member
        exact ⟨inner, pass⟩
      others := by
        intro other absent
        have different : id ≠ other := fun same => absent (List.mem_singleton.mpr same.symm)
        refine Event.apart_append_iff.mpr ⟨List.forall_mem_cons.mpr ⟨?_, innerApart other⟩,
          List.forall_mem_singleton.mpr ?_⟩ <;> simp [different]
      synced_iff := by
        intro other
        by_cases same : other = id
        · subst same
          rw [decided, outcome.isOk_iff, held.reconcilable_iff]
          constructor
          · intro succeeds
            rcases succeeds with ⟨unstruck, readable⟩
            exact ⟨List.mem_singleton.mpr rfl, readable, inner, pass, unstruck⟩
          · intro member
            rcases member with ⟨_, readable, own, isPass, unstruck⟩
            exact ⟨isPass.unique pass ▸ unstruck, readable⟩
        · exact ⟨fun member => (same (onlyOwn member)).elim,
            fun member => (same (List.mem_singleton.mp member.1)).elim⟩
      lapped_before := outcome.lapped_before
      room := by
        intro spare room
        rw [List.length_singleton, Nat.one_mul] at room
        exact outcome.room room
      reconciled := by
        intro inOrder other member group criteria stored readable
        cases onlyOwn member
        obtain ⟨found, isLive⟩ := held
        cases stored.symm.trans (liveGroup?_eq_some_iff.mp isLive).1
        cases result with
        | error failure => cases decided.mp member
        | ok report =>
            rw [(liveGroup?_eq_some_iff.mp isLive).2.1]
            exact outcome.reconciled wellFormed inOrder isLive readable
      untouchedRecords := by
        intro other absent
        by_cases same : other = id
        · subst same
          rw [unchanged absent]
        · exact outcome.otherGroups wellFormed same
      untouchedRows := by
        intro inOrder other absent
        by_cases same : other = id
        · subst same
          rw [unchanged absent]
        · exact (outcome.changedOnly wellFormed inOrder).otherRows other same }

theorem Attempts.single {lookup : TagLookup} {evaluation : Evaluation} {owner : String} {id : Int}
    {succeeded : Bool} (wellFormed : store.WellFormed) (held : store.HasLiveGroup owner id)
    (conversation : Conversation lookup store events after)
    (replayed :
      (evaluation.reconcileSucceeds owner id).Replays (events.map Event.toExchange) succeeded) :
    Attempts store [id] (if succeeded then [id] else []) events after := by
  obtain ⟨result, _, passEvents, silence, rfl, ⟨passPart, replayedPass⟩, silentPart,
    replayedDone⟩ := conversation.of_bind replayed
  obtain ⟨silent, rfl⟩ := Program.replays_done_iff.mp replayedDone
  obtain rfl := List.map_eq_nil_iff.mp silent
  obtain rfl := Conversation.nil_iff.mp silentPart
  rw [List.append_nil]
  obtain ⟨inner, rfl, replayedInner, outcome⟩ := wellFormed.passOutcome passPart replayedPass
  have underLock := Event.allowed_of_replays replayedInner
    (evaluation.reconcileLocked_makesOnly owner id)
  refine .of_outcome wellFormed held outcome fun other event member => ?_
  have allowed := underLock event member
  constructor <;> intro same <;> rw [same] at allowed <;> exact allowed

theorem Attempts.of_reconcileEach {lookup : TagLookup} {evaluation : Evaluation} {owner : String}
    {ids : List Int} {summary : OwnerSummary} (wellFormed : store.WellFormed)
    (distinct : ids.Nodup) (held : ∀ id ∈ ids, store.HasLiveGroup owner id)
    (conversation : Conversation lookup store events after)
    (replayed :
      (evaluation.reconcileEach owner ids).Replays (events.map Event.toExchange) summary) :
    Attempts store ids summary.succeeded events after ∧ summary.succeeded.Sublist ids ∧
      summary.succeeded.length + summary.failed.length = ids.length := by
  -- Each pass leaves the later groups live, so that they are still held where their
  -- passes begin.
  induction ids generalizing store events summary with
  | nil =>
      obtain ⟨silent, rfl⟩ := Program.replays_done_iff.mp replayed
      obtain rfl := List.map_eq_nil_iff.mp silent
      obtain rfl := Conversation.nil_iff.mp conversation
      exact ⟨.none _ Event.apart_nil, .slnil, rfl⟩
  | cons id ids induction =>
      obtain ⟨absent, distinctRest⟩ := List.nodup_cons.mp distinct
      obtain ⟨succeeded, middle, front, tail, rfl, ⟨frontPart, replayedFront⟩, tailPart,
        replayedTail⟩ := conversation.of_bind replayed
      obtain ⟨rest, _, back, silence, rfl, ⟨backPart, replayedBack⟩, silentPart, replayedDone⟩ :=
        tailPart.of_bind replayedTail
      obtain ⟨silent, rfl⟩ := Program.replays_done_iff.mp replayedDone
      obtain rfl := List.map_eq_nil_iff.mp silent
      obtain rfl := Conversation.nil_iff.mp silentPart
      have first := Attempts.single wellFormed (held id List.mem_cons_self) frontPart replayedFront
      obtain ⟨second, listed, counted⟩ :=
        induction (frontPart.wellFormed wellFormed) distinctRest
          (fun other member => first.hasLiveGroup (held other (List.mem_cons_of_mem id member)))
          backPart replayedBack
      have joined := first.append second (by simpa using absent)
      rw [List.append_nil]
      cases succeeded with
      | true =>
          refine ⟨joined, listed.cons_cons id, ?_⟩
          simp only [if_true, List.length_cons, ← counted]
          omega
      | false =>
          refine ⟨joined, listed.cons id, ?_⟩
          simp only [Bool.false_eq_true, if_false, List.length_cons, ← counted]
          omega

end Cohort
