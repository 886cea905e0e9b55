import Cohort.ChangeSet
import Cohort.Failure

/-!
# Programs over a store

A program is a tree of calls: it ends with a value or makes a call and goes on with the
answer.  Nothing is said about who answers, so one program can be run over the store as
it is, over a store whose calls fail, or step by step among other programs.
-/

namespace Cohort

/-- A call that a program makes. -/
inductive Call where
  | liveContacts (owner : String)
  | tagsOf (contact : Int)
  /-- Ask for the tags of many contacts at once, for which a store need not have an
  answer. -/
  | tagsOfAll (contacts : List Int)
  | liveGroup (owner : String) (group : Int)
  | liveGroups (owner : String)
  | ownersWithGroups
  | currentMembers (group : Int)
  | commit (changes : ChangeSet)
  /-- Ask for the present time. -/
  | clock
  /-- Wait for the lock of a group and take it. -/
  | lock (group : Int)
  /-- Give the lock of a group back. -/
  | unlock (group : Int)

abbrev Call.Answer : Call → Type
  | .liveContacts _ => Except Failure (List Contact)
  | .tagsOf _ => Except Failure IdSet
  | .tagsOfAll _ => Except Failure (Option TagTable)
  | .liveGroup _ _ => Except Failure (Option Group)
  | .liveGroups _ => Except Failure (List Group)
  | .ownersWithGroups => Except Failure (List String)
  | .currentMembers _ => Except Failure (List Member)
  | .commit _ => Except Failure Unit
  | .clock => Instant
  | .lock _ => Unit
  | .unlock _ => Unit

/-- A program that ends with a value. -/
inductive Program (α : Type) : Type where
  | done (value : α)
  | ask (call : Call) (next : call.Answer → Program α)

namespace Program

def bind {α β : Type} : Program α → (α → Program β) → Program β
  | .done value, rest => rest value
  | .ask call next, rest => .ask call fun answer => (next answer).bind rest

instance : Monad Program where
  pure := .done
  bind := .bind

def call (call : Call) : Program call.Answer :=
  .ask call .done

theorem bind_done {α : Type} (program : Program α) : program.bind .done = program := by
  induction program with
  | done value => rfl
  | ask call next induction => simp only [bind, induction]

theorem bind_assoc {α β γ : Type} (program : Program α) (first : α → Program β)
    (second : β → Program γ) :
    (program.bind first).bind second = program.bind fun value => (first value).bind second := by
  induction program with
  | done value => rfl
  | ask call next induction => simp only [bind, induction]

instance : LawfulMonad Program :=
  LawfulMonad.mk' Program (fun program => bind_done program) (fun _ _ => rfl) bind_assoc

end Program

/-- One who answers calls and remembers a state; no answer breaks the program off. -/
abbrev Handler (σ : Type) := σ → (call : Call) → Option call.Answer × σ

/-- Let a handler answer the calls of a program.  There is no value if the program is
broken off. -/
def Program.run {σ α : Type} (handler : Handler σ) : Program α → σ → Option α × σ
  | .done value, state => (some value, state)
  | .ask call next, state =>
      match handler state call with
      | (none, state) => (none, state)
      | (some answer, state) => (next answer).run handler state

theorem Program.run_bind {σ α β : Type} (handler : Handler σ) (program : Program α)
    (rest : α → Program β) (state : σ) :
    (program.bind rest).run handler state =
      match program.run handler state with
      | (none, state) => (none, state)
      | (some value, state) => (rest value).run handler state := by
  induction program generalizing state with
  | done value => rfl
  | ask call next induction =>
      simp only [bind, run]
      split
      · rfl
      · exact induction _ _

abbrev Attempt := ExceptT Failure Program

namespace Attempt

/-- The program of a call that may fail. -/
def ask {α : Type} (program : Program (Except Failure α)) : Attempt α :=
  ExceptT.mk program

/-- The program of a call that cannot fail. -/
def always {α : Type} (program : Program α) : Attempt α :=
  ExceptT.lift program

end Attempt

end Cohort
