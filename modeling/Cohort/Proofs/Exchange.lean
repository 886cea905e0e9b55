import Cohort.Program

/-!
# Exchanges

`Reaches` says that a program makes some calls, is given some answers, and has a program
left; `Replays`, that nothing but a value is left.  What holds of every replay of a pass
holds of the pass alone, of passes whose calls fail, and of passes that take turns with
others.
-/

namespace Cohort

/-- A call and the answer that it got. -/
structure Exchange where
  call : Call
  answer : call.Answer

theorem Call.exists_answer : (call : Call) → Nonempty call.Answer
  | .liveContacts _ => ⟨.ok []⟩
  | .tagsOf _ => ⟨.ok .empty⟩
  | .tagsOfAll _ => ⟨.ok none⟩
  | .liveGroup _ _ => ⟨.ok none⟩
  | .liveGroups _ => ⟨.ok []⟩
  | .ownersWithGroups => ⟨.ok []⟩
  | .currentMembers _ => ⟨.ok []⟩
  | .commit _ => ⟨.ok ()⟩
  | .clock => ⟨{ date := ⟨1970, 1, 1, by decide⟩, second := 0, nano := 0, valid := by decide }⟩
  | .lock _ => ⟨()⟩
  | .unlock _ => ⟨()⟩

namespace Program

variable {α β : Type}

/-- A program makes these calls, is given these answers, and goes on as the program that
is left. -/
inductive Reaches : Program α → List Exchange → Program α → Prop where
  | here (program : Program α) : Reaches program [] program
  | ask {call : Call} {next : call.Answer → Program α} {answer : call.Answer}
      {exchanges : List Exchange} {rest : Program α} :
      Reaches (next answer) exchanges rest →
      Reaches (.ask call next) (⟨call, answer⟩ :: exchanges) rest

/-- A program makes these calls, is given these answers, and ends with the value. -/
def Replays (program : Program α) (exchanges : List Exchange) (value : α) : Prop :=
  program.Reaches exchanges (.done value)

theorem Reaches.trans {program middle rest : Program α} {front back : List Exchange}
    (first : program.Reaches front middle) (second : middle.Reaches back rest) :
    program.Reaches (front ++ back) rest := by
  induction first with
  | here program => exact second
  | ask _ induction => exact .ask (induction second)

theorem Reaches.answered {program : Program α} {exchanges : List Exchange} {call : Call}
    {next : call.Answer → Program α} (reached : program.Reaches exchanges (.ask call next))
    (answer : call.Answer) :
    program.Reaches (exchanges ++ [⟨call, answer⟩]) (next answer) :=
  reached.trans (.ask (.here _))

theorem exists_replays (program : Program α) :
    ∃ exchanges value, program.Replays exchanges value := by
  induction program with
  | done value => exact ⟨[], value, .here _⟩
  | ask call next induction =>
      obtain ⟨answer⟩ := call.exists_answer
      obtain ⟨exchanges, value, replayed⟩ := induction answer
      exact ⟨⟨call, answer⟩ :: exchanges, value, .ask replayed⟩

theorem replays_done_iff {value result : α} {exchanges : List Exchange} :
    (done value).Replays exchanges result ↔ exchanges = [] ∧ result = value := by
  constructor
  · intro replayed
    cases replayed
    exact ⟨rfl, rfl⟩
  · intro both
    rcases both with ⟨rfl, rfl⟩
    exact .here _

theorem replays_ask_iff {call : Call} {next : call.Answer → Program α} {result : α}
    {exchanges : List Exchange} :
    (ask call next).Replays exchanges result ↔
      ∃ answer rest, exchanges = ⟨call, answer⟩ :: rest ∧ (next answer).Replays rest result := by
  constructor
  · intro replayed
    cases replayed with
    | ask rest => exact ⟨_, _, rfl, rest⟩
  · intro parts
    rcases parts with ⟨answer, rest, rfl, replayed⟩
    exact .ask replayed

theorem replays_bind_iff {program : Program α} {rest : α → Program β} {result : β}
    {exchanges : List Exchange} :
    (program.bind rest).Replays exchanges result ↔
      ∃ value front back, exchanges = front ++ back ∧ program.Replays front value ∧
        (rest value).Replays back result := by
  induction program generalizing exchanges with
  | done value =>
      simp only [bind, replays_done_iff]
      constructor
      · intro replayed
        exact ⟨value, [], exchanges, rfl, ⟨rfl, rfl⟩, replayed⟩
      · intro parts
        rcases parts with ⟨_, _, back, rfl, ⟨rfl, rfl⟩, replayed⟩
        exact replayed
  | ask call next induction =>
      simp only [bind, replays_ask_iff, induction]
      constructor
      · intro parts
        rcases parts with ⟨answer, _, rfl, value, front, back, rfl, first, second⟩
        exact ⟨value, ⟨call, answer⟩ :: front, back, rfl, ⟨answer, front, rfl, first⟩, second⟩
      · intro parts
        rcases parts with ⟨value, _, back, rfl, ⟨answer, front, rfl, first⟩, second⟩
        exact ⟨answer, front ++ back, rfl, value, front, back, rfl, first, second⟩

theorem replays_call_iff {call : Call} {answer : call.Answer} {exchanges : List Exchange} :
    (Program.call call).Replays exchanges answer ↔ exchanges = [⟨call, answer⟩] := by
  simp only [Program.call, replays_ask_iff, replays_done_iff]
  constructor
  · intro parts
    rcases parts with ⟨_, _, rfl, rfl, rfl⟩
    rfl
  · intro same
    rcases same with rfl
    exact ⟨answer, [], rfl, rfl, rfl⟩

/-- A program makes only calls that are allowed, whatever it is told. -/
def MakesOnly (allowed : Call → Prop) : Program α → Prop
  | .done _ => True
  | .ask call next => allowed call ∧ ∀ answer, (next answer).MakesOnly allowed

theorem MakesOnly.bind {allowed : Call → Prop} {program : Program α} {rest : α → Program β}
    (first : program.MakesOnly allowed) (second : ∀ value, (rest value).MakesOnly allowed) :
    (program.bind rest).MakesOnly allowed := by
  induction program with
  | done value => exact second value
  | ask call next induction => exact ⟨first.1, fun answer => induction answer (first.2 answer)⟩

theorem MakesOnly.mono {allowed wider : Call → Prop} (implies : ∀ call, allowed call → wider call)
    {program : Program α} (only : program.MakesOnly allowed) : program.MakesOnly wider := by
  induction program with
  | done value => trivial
  | ask call next induction =>
      exact ⟨implies call only.1, fun answer => induction answer (only.2 answer)⟩

theorem Reaches.allowed {allowed : Call → Prop} {program rest : Program α}
    {exchanges : List Exchange} (reached : program.Reaches exchanges rest)
    (only : program.MakesOnly allowed) : ∀ exchange ∈ exchanges, allowed exchange.call := by
  induction reached with
  | here program => simp
  | ask _ induction =>
      intro exchange member
      rcases List.mem_cons.mp member with rfl | later
      · exact only.1
      · exact induction (only.2 _) exchange later

end Program

namespace Attempt

variable {α β : Type}

theorem replays_bind_iff {attempt : Attempt α} {rest : α → Attempt β} {result : Except Failure β}
    {exchanges : List Exchange} :
    (attempt >>= rest).run.Replays exchanges result ↔
      (∃ failure, result = .error failure ∧ attempt.run.Replays exchanges (.error failure)) ∨
        ∃ value front back, exchanges = front ++ back ∧ attempt.run.Replays front (.ok value) ∧
          (rest value).run.Replays back result := by
  have sequence : (attempt >>= rest).run = attempt.run.bind (ExceptT.bindCont rest) := rfl
  rw [sequence, Program.replays_bind_iff]
  constructor
  · intro parts
    rcases parts with ⟨value, front, back, rfl, first, second⟩
    cases value with
    | error failure =>
        obtain ⟨rfl, rfl⟩ := Program.replays_done_iff.mp second
        left
        exact ⟨failure, rfl, by rwa [List.append_nil]⟩
    | ok value => exact Or.inr ⟨value, front, back, rfl, first, second⟩
  · intro parts
    rcases parts with ⟨failure, rfl, first⟩ | ⟨value, front, back, rfl, first, second⟩
    · exact ⟨.error failure, exchanges, [], by simp, first, Program.replays_done_iff.mpr ⟨rfl, rfl⟩⟩
    · exact ⟨.ok value, front, back, rfl, first, second⟩

theorem makesOnly_bind {allowed : Call → Prop} {attempt : Attempt α} {rest : α → Attempt β}
    (first : attempt.run.MakesOnly allowed)
    (second : ∀ value, (rest value).run.MakesOnly allowed) :
    (attempt >>= rest).run.MakesOnly allowed := by
  apply Program.MakesOnly.bind first
  intro value
  cases value with
  | error failure => trivial
  | ok value => exact second value

theorem replays_pure_iff {value : α} {result : Except Failure α} {exchanges : List Exchange} :
    (pure value : Attempt α).run.Replays exchanges result ↔
      exchanges = [] ∧ result = .ok value :=
  Program.replays_done_iff

theorem replays_throw_iff {failure : Failure} {result : Except Failure α}
    {exchanges : List Exchange} :
    (throw failure : Attempt α).run.Replays exchanges result ↔
      exchanges = [] ∧ result = .error failure :=
  Program.replays_done_iff

theorem replays_always_iff {program : Program α} {result : Except Failure α}
    {exchanges : List Exchange} :
    (always program).run.Replays exchanges result ↔
      ∃ value, result = .ok value ∧ program.Replays exchanges value := by
  have lifted : (always program).run = program.bind fun value => .done (.ok value) := rfl
  rw [lifted, Program.replays_bind_iff]
  constructor
  · intro parts
    rcases parts with ⟨value, front, back, rfl, first, second⟩
    obtain ⟨rfl, rfl⟩ := Program.replays_done_iff.mp second
    exact ⟨value, rfl, by rwa [List.append_nil]⟩
  · intro parts
    rcases parts with ⟨value, rfl, first⟩
    exact ⟨value, exchanges, [], by simp, first, Program.replays_done_iff.mpr ⟨rfl, rfl⟩⟩

end Attempt

end Cohort
