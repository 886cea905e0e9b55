import Cohort.Proofs.Exchange
import Cohort.Proofs.Store.Reachable

/-!
# Conversations

A conversation is what a program and a store say to each other, with the store before
and after each call.  Every run of a program over a store is a conversation in which the
program is replayed, and a run in circumstances, in which any call may be struck at any
of its occurrences, writes its conversation down in a journal.
-/

namespace Cohort

/-- An exchange with a store. -/
structure Event extends Exchange where
  before : Store
  after : Store
  /-- The call has failed before it did anything. -/
  struck : Bool

namespace Event

/-- The call is answered with the failure. -/
def FailsWith (event : Event) (failure : Failure) : Prop :=
  event.call.failed? failure = some event.answer

/-- A struck call has no effect, and any other is answered by the store. -/
def Genuine (lookup : TagLookup) (event : Event) : Prop :=
  (event.struck = true ∧ event.after = event.before ∧ ∃ failure, event.FailsWith failure) ∨
    (event.struck = false ∧
      ∃ now, event.before.answer now lookup event.call = (event.answer, event.after))

/-- Only a commit that is carried out changes the store. -/
theorem Genuine.writes {lookup : TagLookup} {event : Event} (genuine : event.Genuine lookup) :
    event.after = event.before ∨
      ∃ changes, event.toExchange = ⟨.commit changes, .ok ()⟩ ∧
        event.before.commit changes = .ok event.after := by
  rcases genuine with ⟨_, unchanged, _⟩ | ⟨_, now, answered⟩
  · exact Or.inl unchanged
  · have written := event.before.answer_store now lookup event.call
    rw [answered] at written
    rcases written with unchanged | ⟨changes, commits, committed⟩
    · exact Or.inl unchanged
    · obtain ⟨⟨call, answer⟩, before, after, struck⟩ := event
      cases commits
      simp only [Store.answer, committed, Prod.mk.injEq, and_true] at answered
      exact Or.inr ⟨changes, by rw [answered], committed⟩

theorem Genuine.committed {lookup : TagLookup} {event : Event} (genuine : event.Genuine lookup)
    {changes : ChangeSet} (commits : event.toExchange = ⟨.commit changes, .ok ()⟩) :
    event.before.commit changes = .ok event.after := by
  obtain ⟨⟨call, answer⟩, before, after, struck⟩ := event
  cases commits
  rcases genuine with ⟨_, _, failure, fails⟩ | ⟨_, now, answered⟩
  · cases fails
  · cases committed : before.commit changes with
    | error failure => simp [Store.answer, committed] at answered
    | ok changed => simpa [Store.answer, committed] using answered

theorem Genuine.lapped_before {lookup : TagLookup} {event : Event} (genuine : event.Genuine lookup)
    (inOrder : event.after.lapped = false) : event.before.lapped = false := by
  rcases genuine.writes with unchanged | ⟨changes, _, committed⟩
  · rwa [unchanged] at inOrder
  · exact Store.lapped_of_commit committed inOrder

theorem Genuine.commits_or {lookup : TagLookup} {event : Event} (genuine : event.Genuine lookup) :
    (∃ changes, event.toExchange = ⟨.commit changes, .ok ()⟩ ∧
        event.before.commit changes = .ok event.after) ∨
      (∀ changes, event.toExchange ≠ ⟨.commit changes, .ok ()⟩) ∧ event.after = event.before := by
  by_cases commits : ∃ changes, event.toExchange = ⟨.commit changes, .ok ()⟩
  · obtain ⟨changes, said⟩ := commits
    exact Or.inl ⟨changes, said, genuine.committed said⟩
  · rw [not_exists] at commits
    rcases genuine.writes with unchanged | ⟨changes, said, _⟩
    · exact Or.inr ⟨commits, unchanged⟩
    · exact (commits changes said).elim

/-- None of the calls is struck. -/
def Unstruck (events : List Event) : Prop :=
  ∀ event ∈ events, event.struck = false

/-- The last call is the only one that is struck, and this is its failure. -/
def EndStruck (events : List Event) (failure : Failure) : Prop :=
  ∃ front event, events = front ++ [event] ∧ Unstruck front ∧ event.struck = true ∧
    event.FailsWith failure

theorem unstruck_nil : Unstruck [] := by
  intro event member
  cases member

theorem unstruck_append_iff {front back : List Event} :
    Unstruck (front ++ back) ↔ Unstruck front ∧ Unstruck back :=
  List.forall_mem_append

theorem EndStruck.after {front back : List Event} {failure : Failure} (unstruck : Unstruck front)
    (ends : EndStruck back failure) : EndStruck (front ++ back) failure := by
  obtain ⟨middle, event, rfl, middleUnstruck, struck, fails⟩ := ends
  exact ⟨front ++ middle, event, (List.append_assoc ..).symm,
    unstruck_append_iff.mpr ⟨unstruck, middleUnstruck⟩, struck, fails⟩

theorem EndStruck.not_unstruck {events : List Event} {failure : Failure}
    (ends : EndStruck events failure) : ¬ Unstruck events := by
  obtain ⟨front, event, rfl, _, struck, _⟩ := ends
  intro unstruck
  have contrary := unstruck event (List.mem_append_right front List.mem_cons_self)
  rw [struck] at contrary
  cases contrary

theorem allowed_of_replays {α : Type} {program : Program α} {value : α} {allowed : Call → Prop}
    {events : List Event} (replayed : program.Replays (events.map Event.toExchange) value)
    (only : program.MakesOnly allowed) : ∀ event ∈ events, allowed event.call := by
  intro event member
  exact replayed.allowed only event.toExchange (List.mem_map_of_mem member)

end Event

/-- The events lead from the first store to the last one, each from where the one before
it has ended. -/
inductive Conversation (lookup : TagLookup) : Store → List Event → Store → Prop where
  | silent (store : Store) : Conversation lookup store [] store
  | speak {event : Event} {events : List Event} {after : Store} :
      event.Genuine lookup → Conversation lookup event.after events after →
      Conversation lookup event.before (event :: events) after

namespace Conversation

variable {lookup : TagLookup} {before middle after : Store} {front back : List Event}

theorem trans (first : Conversation lookup before front middle)
    (second : Conversation lookup middle back after) :
    Conversation lookup before (front ++ back) after := by
  induction first with
  | silent store => exact second
  | speak genuine _ induction => exact .speak genuine (induction second)

theorem nil_iff : Conversation lookup before [] after ↔ after = before := by
  constructor
  · intro conversation
    cases conversation
    rfl
  · intro same
    rcases same with rfl
    exact .silent _

theorem cons_iff {event : Event} {events : List Event} :
    Conversation lookup before (event :: events) after ↔
      event.before = before ∧ event.Genuine lookup ∧
      Conversation lookup event.after events after := by
  constructor
  · intro conversation
    cases conversation with
    | speak genuine rest => exact ⟨rfl, genuine, rest⟩
  · intro parts
    rcases parts with ⟨rfl, genuine, rest⟩
    exact .speak genuine rest

theorem append_iff :
    Conversation lookup before (front ++ back) after ↔
      ∃ middle, Conversation lookup before front middle ∧
        Conversation lookup middle back after := by
  constructor
  · intro conversation
    induction front generalizing before with
    | nil => exact ⟨before, .silent before, conversation⟩
    | cons event events induction =>
        obtain ⟨rfl, genuine, rest⟩ := cons_iff.mp conversation
        obtain ⟨middle, first, second⟩ := induction rest
        exact ⟨middle, .speak genuine first, second⟩
  · intro parts
    rcases parts with ⟨middle, first, second⟩
    exact first.trans second

theorem wellFormed {events : List Event} (wellFormed : before.WellFormed)
    (conversation : Conversation lookup before events after) : after.WellFormed := by
  induction conversation with
  | silent store => exact wellFormed
  | speak genuine _ induction =>
      apply induction
      rcases genuine.writes with unchanged | ⟨changes, _, committed⟩
      · rwa [unchanged]
      · exact wellFormed.commit committed

theorem of_bind {α β : Type} {program : Program α} {rest : α → Program β} {result : β}
    {events : List Event} (conversation : Conversation lookup before events after)
    (replayed : (program.bind rest).Replays (events.map Event.toExchange) result) :
    ∃ value middle front back, events = front ++ back ∧
      (Conversation lookup before front middle ∧
        program.Replays (front.map Event.toExchange) value) ∧
      Conversation lookup middle back after ∧
        (rest value).Replays (back.map Event.toExchange) result := by
  obtain ⟨value, _, _, split, replayedFirst, replayedSecond⟩ := Program.replays_bind_iff.mp replayed
  obtain ⟨front, back, rfl, rfl, rfl⟩ := List.map_eq_append_iff.mp split
  obtain ⟨middle, first, second⟩ := append_iff.mp conversation
  exact ⟨value, middle, front, back, rfl, ⟨first, replayedFirst⟩, second, replayedSecond⟩

theorem of_call {call : Call} {answer : call.Answer} {events : List Event}
    (conversation : Conversation lookup before events after)
    (replayed : (Program.call call).Replays (events.map Event.toExchange) answer) :
    ∃ struck, events = [⟨⟨call, answer⟩, before, after, struck⟩] ∧
      Event.Genuine lookup ⟨⟨call, answer⟩, before, after, struck⟩ := by
  obtain ⟨⟨exchange, first, last, struck⟩, rfl, rfl⟩ :=
    List.map_eq_singleton_iff.mp (Program.replays_call_iff.mp replayed)
  obtain ⟨rfl, genuine, rest⟩ := cons_iff.mp conversation
  obtain rfl := nil_iff.mp rest
  exact ⟨struck, rfl, genuine⟩

theorem of_quiet_call {call : Call} {answer : call.Answer} {events : List Event}
    (cannotFail : ∀ failure, call.failed? failure = none)
    (keeps : ∀ now, (before.answer now lookup call).2 = before)
    (conversation : Conversation lookup before events after)
    (replayed : (Program.call call).Replays (events.map Event.toExchange) answer) :
    after = before ∧ events = [⟨⟨call, answer⟩, before, before, false⟩] := by
  obtain ⟨struck, rfl, genuine⟩ := conversation.of_call replayed
  rcases genuine with ⟨_, _, failure, fails⟩ | ⟨rfl, now, answered⟩
  · rw [Event.FailsWith, cannotFail] at fails
    cases fails
  · have unchanged : after = before := by
      rw [← keeps now, answered]
    subst unchanged
    exact ⟨rfl, rfl⟩

end Conversation

def Store.faultless (store : Store) (now : Instant) (lookup : TagLookup) : FaultyStore :=
  { store, now, lookup }

theorem Store.exists_conversation {α : Type} (store : Store) (now : Instant) (lookup : TagLookup)
    (program : Program α) :
    ∃ value events after,
      (store.faultless now lookup).run program = (some value, after.faultless now lookup) ∧
        Conversation lookup store events after ∧ Event.Unstruck events ∧
        program.Replays (events.map Event.toExchange) value := by
  induction program generalizing store with
  | done value => exact ⟨value, [], store, rfl, .silent store, Event.unstruck_nil, .here _⟩
  | ask call next induction =>
      let event : Event :=
        { call, answer := (store.answer now lookup call).1, before := store,
          after := (store.answer now lookup call).2, struck := false }
      obtain ⟨value, events, after, result, conversation, unstruck, replayed⟩ :=
        induction event.answer event.after
      refine ⟨value, event :: events, after, ?_, .speak (Or.inr ⟨rfl, now, rfl⟩) conversation, ?_,
        .ask replayed⟩
      · rw [← result]
        unfold FaultyStore.run
        rw [Program.run]
        have handled : (store.faultless now lookup).handle call =
            (some event.answer, event.after.faultless now lookup) := by
          unfold FaultyStore.handle
          split <;> rfl
        rw [handled]
      · exact List.forall_mem_cons.mpr ⟨rfl, unstruck⟩

/-- Times and failures, which may depend on all that has been said before. -/
structure Circumstances where
  lookup : TagLookup
  time : List Event → Instant
  /-- The failure that strikes a call.  Nothing comes of it if the call cannot fail. -/
  strikes : List Event → Call → Option Failure

/-- A store and what has been said to it. -/
structure Journal where
  store : Store
  events : List Event

def Circumstances.handle (circumstances : Circumstances) : Handler Journal :=
  fun { store, events } call =>
    match (circumstances.strikes events call).bind fun failure => call.failed? failure with
    | some answer =>
        (some answer,
          { store, events := events ++ [{ call, answer, before := store, after := store,
                                          struck := true }] })
    | none =>
        let (answer, after) := store.answer (circumstances.time events) circumstances.lookup call
        (some answer,
          { store := after, events := events ++ [{ call, answer, before := store, after,
                                                   struck := false }] })

/-- A run in circumstances gives a value, and the conversation stands in the journal. -/
theorem Circumstances.exists_conversation {α : Type} (circumstances : Circumstances)
    (program : Program α) (journal : Journal) :
    ∃ value events after,
      program.run circumstances.handle journal =
          (some value, { store := after, events := journal.events ++ events }) ∧
        Conversation circumstances.lookup journal.store events after ∧
        program.Replays (events.map Event.toExchange) value := by
  induction program generalizing journal with
  | done value =>
      exact ⟨value, [], journal.store, by simp [Program.run], .silent _, .here _⟩
  | ask call next induction =>
      obtain ⟨event, same, begins, genuine, handled⟩ :
          ∃ event : Event, ∃ same : event.call = call, event.before = journal.store ∧
            event.Genuine circumstances.lookup ∧
            circumstances.handle journal call =
              (some (same ▸ event.answer),
                { store := event.after, events := journal.events ++ [event] }) := by
        unfold handle
        dsimp only
        split
        · rename_i answer struck
          obtain ⟨failure, _, fails⟩ := Option.bind_eq_some_iff.mp struck
          exact ⟨⟨⟨call, answer⟩, journal.store, journal.store, true⟩, rfl, rfl,
            Or.inl ⟨rfl, rfl, failure, fails⟩, rfl⟩
        · exact ⟨⟨⟨call, _⟩, journal.store, _, false⟩, rfl, rfl, Or.inr ⟨rfl, _, rfl⟩, rfl⟩
      subst same
      obtain ⟨value, events, after, result, conversation, replayed⟩ :=
        induction event.answer { store := event.after, events := journal.events ++ [event] }
      refine ⟨value, event :: events, after, ?_, ?_, .ask replayed⟩
      · rw [Program.run, handled]
        simpa only [List.append_assoc, List.singleton_append] using result
      · exact Conversation.cons_iff.mpr ⟨begins, genuine, conversation⟩

/-- Circumstances in which no call is struck. -/
def Circumstances.calm (lookup : TagLookup) (time : List Event → Instant) : Circumstances where
  lookup := lookup
  time := time
  strikes := fun _ _ => none

theorem Circumstances.calm_unstruck {α : Type} (lookup : TagLookup) (time : List Event → Instant)
    (program : Program α) (journal : Journal) (unstruck : Event.Unstruck journal.events) :
    Event.Unstruck (program.run (calm lookup time).handle journal).2.events := by
  induction program generalizing journal with
  | done value => exact unstruck
  | ask call next induction =>
      apply induction
      apply Event.unstruck_append_iff.mpr
      exact ⟨unstruck, List.forall_mem_singleton.mpr rfl⟩

theorem Circumstances.exists_calm_conversation {α : Type} (lookup : TagLookup)
    (time : List Event → Instant) (program : Program α) (store : Store) :
    ∃ value events after,
      program.run (calm lookup time).handle { store, events := [] } =
          (some value, { store := after, events }) ∧
        Conversation lookup store events after ∧ Event.Unstruck events ∧
        program.Replays (events.map Event.toExchange) value := by
  have unstruck := calm_unstruck lookup time program { store, events := [] } Event.unstruck_nil
  obtain ⟨value, events, after, ran, conversation, replayed⟩ :=
    (calm lookup time).exists_conversation program { store, events := [] }
  rw [ran] at unstruck
  exact ⟨value, events, after, ran, conversation, unstruck, replayed⟩

end Cohort
