import Cohort.Proofs.Conversation
import Cohort.Proofs.PassTrace
import Cohort.Proofs.Store.Listings
import Cohort.Proofs.Store.Tags

/-!
# Working out a segment

An attempt that only reads leaves the store as it is.  It stops at the first call that
is struck, and if none is struck its value is a function of the store.
-/

namespace Cohort

/-- Those of some contacts that match criteria, with the tags that the store holds for
them. -/
def Store.judge (store : Store) (criteria : Criteria) (contacts : List Contact) : Segment :=
  { contacts :=
      (PreparedCriteria.ofCriteria criteria).matching
        (store.tagsOfAll (contacts.map Contact.id)) contacts }

/-- The contacts of an owner that match criteria. -/
def Store.segment (store : Store) (owner : String) (criteria : Criteria) : Segment :=
  store.judge criteria (store.liveContacts owner)

theorem Store.judge_eq (store : Store) (criteria : Criteria) (contacts : List Contact)
    (inHalves : Bool) :
    (PreparedCriteria.ofCriteria criteria).segment (store.tagsOfAll (contacts.map Contact.id))
        contacts inHalves =
      store.judge criteria contacts := by
  unfold PreparedCriteria.segment
  rw [PreparedCriteria.matchingByHalves_eq, ite_self]
  rfl

/-- Over this store the attempt changes nothing, and unless a call is struck it gives
the value. -/
def Attempt.Reads {α : Type} (lookup : TagLookup) (store : Store) (attempt : Attempt α)
    (value : α) : Prop :=
  ∀ events after result, Conversation lookup store events after →
    attempt.run.Replays (events.map Event.toExchange) result →
    after = store ∧
      ((∃ failure, result = .error failure ∧ Event.EndStruck events failure) ∨
        (result = .ok value ∧ Event.Unstruck events))

namespace Attempt

variable {α β : Type} {lookup : TagLookup} {store : Store}

theorem Reads.pure (value : α) : Reads lookup store (pure value) value := by
  intro events after result conversation replayed
  obtain ⟨silent, rfl⟩ := replays_pure_iff.mp replayed
  obtain rfl := List.map_eq_nil_iff.mp silent
  exact ⟨Conversation.nil_iff.mp conversation, Or.inr ⟨rfl, Event.unstruck_nil⟩⟩

/-- What follows a reading is said to the same store, unless a call of the reading is
struck. -/
theorem Reads.bind_cases {attempt : Attempt α} {rest : α → Attempt β} {value : α}
    (reads : Reads lookup store attempt value) {events : List Event} {after : Store}
    {result : Except Failure β} (conversation : Conversation lookup store events after)
    (replayed : (attempt >>= rest).run.Replays (events.map Event.toExchange) result) :
    (after = store ∧ ∃ failure, result = .error failure ∧ Event.EndStruck events failure) ∨
      ∃ front back, events = front ++ back ∧ Event.Unstruck front ∧
        Conversation lookup store back after ∧
        (rest value).run.Replays (back.map Event.toExchange) result := by
  rcases replays_bind_iff.mp replayed with ⟨failure, rfl, stopped⟩ |
    ⟨found, front, back, split, replayedFirst, replayedSecond⟩
  · obtain ⟨unchanged, ⟨_, same, ends⟩ | ⟨impossible, _⟩⟩ :=
      reads events after _ conversation stopped
    · cases same
      exact Or.inl ⟨unchanged, failure, rfl, ends⟩
    · cases impossible
  · obtain ⟨frontEvents, backEvents, rfl, rfl, rfl⟩ := List.map_eq_append_iff.mp split
    obtain ⟨middle, conversationFirst, conversationSecond⟩ :=
      Conversation.append_iff.mp conversation
    obtain ⟨rfl, ⟨_, impossible, _⟩ | ⟨same, unstruck⟩⟩ :=
      reads _ _ _ conversationFirst replayedFirst
    · cases impossible
    · cases same
      exact Or.inr ⟨frontEvents, backEvents, rfl, unstruck, conversationSecond, replayedSecond⟩

/-- A sequence that begins with a single call: it is struck and nothing follows, or the
rest follows. -/
theorem Reads.bind_call {call : Call} {attempt : Attempt α} {rest : α → Attempt β} {value : α}
    (reads : Reads lookup store attempt value)
    (asks : ∀ exchanges result, attempt.run.Replays exchanges result →
      ∃ answer, exchanges = [⟨call, answer⟩])
    {events : List Event} {after : Store} {result : Except Failure β}
    (conversation : Conversation lookup store events after)
    (replayed : (attempt >>= rest).run.Replays (events.map Event.toExchange) result) :
    (after = store ∧ (∃ failure, result = .error failure) ∧
        ∃ event, events = [event] ∧ event.call = call ∧ event.struck = true) ∨
      ∃ event back, events = event :: back ∧ event.call = call ∧ event.struck = false ∧
        Conversation lookup store back after ∧
        (rest value).run.Replays (back.map Event.toExchange) result := by
  have single {alone : List Event} {answer : Except Failure α}
      (own : attempt.run.Replays (alone.map Event.toExchange) answer) :
      ∃ event, alone = [event] ∧ event.call = call := by
    obtain ⟨_, same⟩ := asks _ _ own
    obtain ⟨event, rfl, exchange⟩ := List.map_eq_singleton_iff.mp same
    exact ⟨event, rfl, congrArg Exchange.call exchange⟩
  rcases replays_bind_iff.mp replayed with ⟨failure, rfl, stopped⟩ |
    ⟨found, front, back, split, replayedFirst, replayedSecond⟩
  · obtain ⟨event, rfl, asked⟩ := single stopped
    obtain ⟨unchanged, ⟨_, _, ends⟩ | ⟨impossible, _⟩⟩ := reads _ after _ conversation stopped
    · refine Or.inl ⟨unchanged, ⟨failure, rfl⟩, event, rfl, asked, ?_⟩
      cases struck : event.struck with
      | true => rfl
      | false => exact (ends.not_unstruck (List.forall_mem_singleton.mpr struck)).elim
    · cases impossible
  · obtain ⟨frontEvents, backEvents, rfl, rfl, rfl⟩ := List.map_eq_append_iff.mp split
    obtain ⟨event, rfl, asked⟩ := single replayedFirst
    obtain ⟨middle, conversationFirst, conversationSecond⟩ :=
      Conversation.append_iff.mp conversation
    obtain ⟨rfl, ⟨_, impossible, _⟩ | ⟨same, unstruck⟩⟩ :=
      reads _ _ _ conversationFirst replayedFirst
    · cases impossible
    · cases same
      exact Or.inr ⟨event, backEvents, rfl, asked, unstruck event List.mem_cons_self,
        conversationSecond, replayedSecond⟩

theorem Reads.bind {attempt : Attempt α} {rest : α → Attempt β} {value : α} {last : β}
    (first : Reads lookup store attempt value) (second : Reads lookup store (rest value) last) :
    Reads lookup store (attempt >>= rest) last := by
  intro events after result conversation replayed
  rcases first.bind_cases conversation replayed with ⟨unchanged, stopped⟩ |
    ⟨front, back, rfl, unstruck, conversationSecond, replayedSecond⟩
  · exact ⟨unchanged, Or.inl stopped⟩
  · obtain ⟨rfl, ⟨failure, rfl, ends⟩ | ⟨rfl, laterUnstruck⟩⟩ :=
      second _ _ _ conversationSecond replayedSecond
    · exact ⟨rfl, Or.inl ⟨failure, rfl, ends.after unstruck⟩⟩
    · exact ⟨rfl, Or.inr ⟨rfl, Event.unstruck_append_iff.mpr ⟨unstruck, laterUnstruck⟩⟩⟩

theorem reads_of_call (call : Call) (encode : Except Failure α → call.Answer)
    {attempt : Attempt α} {value : α}
    (asks : ∀ exchanges result, attempt.run.Replays exchanges result →
      (Program.call call).Replays exchanges (encode result))
    (failed : ∀ failure result, call.failed? failure = some (encode result) →
      result = .error failure)
    (answered : ∀ now result after, store.answer now lookup call = (encode result, after) →
      result = .ok value ∧ after = store) :
    Reads lookup store attempt value := by
  intro events after result conversation replayed
  obtain ⟨struck, rfl, genuine⟩ := conversation.of_call (asks _ _ replayed)
  rcases genuine with ⟨isStruck, unchanged, failure, fails⟩ | ⟨unstruck, now, answer⟩
  · refine ⟨unchanged, Or.inl ⟨failure, failed failure result fails, ?_⟩⟩
    exact ⟨[], _, rfl, Event.unstruck_nil, isStruck, fails⟩
  · obtain ⟨same, unchanged⟩ := answered now result after answer
    exact ⟨unchanged, Or.inr ⟨same, List.forall_mem_singleton.mpr unstruck⟩⟩

theorem reads_liveContacts (owner : String) :
    Reads lookup store (ask (.call (.liveContacts owner))) (store.liveContacts owner) :=
  reads_of_call (.liveContacts owner) id (by simp [ask]) (by simp [Call.failed?, eq_comm])
    (by simp [Store.answer, eq_comm])

theorem reads_tagsOf (contact : Int) :
    Reads lookup store (ask (.call (.tagsOf contact))) (store.tagsOf contact) :=
  reads_of_call (.tagsOf contact) id (by simp [ask]) (by simp [Call.failed?, eq_comm])
    (by simp [Store.answer, eq_comm])

theorem reads_tagsOfAll_together (contacts : List Int) :
    Reads .together store (ask (.call (.tagsOfAll contacts))) (some (store.tagsOfAll contacts)) :=
  reads_of_call (.tagsOfAll contacts) id (by simp [ask]) (by simp [Call.failed?, eq_comm])
    (by simp [Store.answer, eq_comm])

theorem reads_tagsOfAll_oneByOne (contacts : List Int) :
    Reads .oneByOne store (ask (.call (.tagsOfAll contacts))) none :=
  reads_of_call (.tagsOfAll contacts) id (by simp [ask]) (by simp [Call.failed?, eq_comm])
    (by simp [Store.answer, eq_comm])

theorem reads_liveGroup (owner : String) (group : Int) :
    Reads lookup store (ask (.call (.liveGroup owner group))) (store.liveGroup? owner group) :=
  reads_of_call (.liveGroup owner group) id (by simp [ask]) (by simp [Call.failed?, eq_comm])
    (by simp [Store.answer, eq_comm])

theorem reads_liveGroups (owner : String) :
    Reads lookup store (ask (.call (.liveGroups owner))) (store.liveGroups owner) :=
  reads_of_call (.liveGroups owner) id (by simp [ask]) (by simp [Call.failed?, eq_comm])
    (by simp [Store.answer, eq_comm])

theorem reads_ownersWithGroups :
    Reads lookup store (ask (.call .ownersWithGroups)) store.ownersWithGroups :=
  reads_of_call .ownersWithGroups id (by simp [ask]) (by simp [Call.failed?, eq_comm])
    (by simp [Store.answer, eq_comm])

theorem reads_currentMembers (group : Int) :
    Reads lookup store (ask (.call (.currentMembers group))) (store.currentMembers group) :=
  reads_of_call (.currentMembers group) id (by simp [ask]) (by simp [Call.failed?, eq_comm])
    (by simp [Store.answer, eq_comm])

/-- Fetching tags one by one collects what the store would tell at once. -/
theorem reads_fetchOneByOne (contacts : List Int) (table : TagTable) :
    Reads lookup store (fetchOneByOne table contacts)
      (contacts.foldl
        (fun table contact =>
          let tags := store.tagsOf contact
          if tags.isEmpty then table else table.insert contact tags)
        table) := by
  induction contacts generalizing table with
  | nil => exact .pure table
  | cons contact contacts induction => exact (reads_tagsOf contact).bind (induction _)

theorem reads_fetchTags (contacts : List Int) :
    Reads lookup store (fetchTags contacts) (store.tagsOfAll contacts) := by
  cases lookup with
  | together => exact (reads_tagsOfAll_together contacts).bind (.pure _)
  | oneByOne =>
      apply (reads_tagsOfAll_oneByOne contacts).bind
      rw [store.tagsOfAll_eq contacts]
      exact reads_fetchOneByOne contacts .empty

theorem reads_judging (evaluation : Evaluation) (criteria : Criteria) (contacts : List Contact) :
    Reads lookup store (evaluation.judging criteria contacts) (store.judge criteria contacts) := by
  unfold Evaluation.judging
  split
  · rename_i noContacts
    rw [List.isEmpty_iff.mp noContacts]
    exact .pure _
  · apply (reads_fetchTags _).bind
    rw [← store.judge_eq criteria contacts (evaluation.parallelThreshold ≤ contacts.length)]
    exact .pure _

theorem reads_segment (evaluation : Evaluation) (owner : String) (criteria : Criteria) :
    Reads lookup store (evaluation.segment owner criteria) (store.segment owner criteria) :=
  (reads_liveContacts owner).bind (reads_judging evaluation criteria _)

theorem Reads.run {attempt : Attempt α} {value : α} (reads : Reads lookup store attempt value)
    (now : Instant) :
    (store.faultless now lookup).run attempt.run =
      (some (.ok value), store.faultless now lookup) := by
  obtain ⟨result, events, after, ran, conversation, unstruck, replayed⟩ :=
    store.exists_conversation now lookup attempt.run
  obtain ⟨rfl, ⟨_, _, ends⟩ | ⟨rfl, _⟩⟩ := reads events after result conversation replayed
  · exact (ends.not_unstruck unstruck).elim
  · exact ran

end Attempt

namespace Store

variable {store : Store}

theorem run_segment (now : Instant) (lookup : TagLookup) (evaluation : Evaluation)
    (owner : String) (criteria : Criteria) :
    (store.faultless now lookup).run (evaluation.segment owner criteria).run =
      (some (.ok (store.segment owner criteria)), store.faultless now lookup) :=
  (Attempt.reads_segment evaluation owner criteria).run now

theorem WellFormed.segment_owned (wellFormed : store.WellFormed) {owner : String}
    {criteria : Criteria} :
    ∀ contact ∈ (store.segment owner criteria).contacts, ∃ record,
      store.contacts.find? contact = some record ∧ record.owner = owner := by
  intro contact inSegment
  obtain ⟨record, listed, _, rfl⟩ := PreparedCriteria.mem_matching.mp inSegment
  obtain ⟨stored, owned, _⟩ := mem_liveContacts.mp listed
  exact ⟨record, wellFormed.contacts.mem_records.mp stored, owned⟩

end Store

end Cohort
