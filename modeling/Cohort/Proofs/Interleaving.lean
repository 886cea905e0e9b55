import Cohort.Proofs.Passes
import Cohort.Proofs.PassUnderWay

/-!
# Passes that take turns

Any number of passes take turns call by call over one store, and between their calls
contacts, tags and groups are changed by others.  What carries the argument is that the
rows that a pass has read stay those of the store until it commits: only a commit for
the same group could change them, and that pass would have to hold the same lock.
-/

namespace Cohort

/-- A pass that has begun. -/
structure Task where
  owner : String
  group : Int
  /-- What the pass has said, with the store before and after each of its own calls. -/
  events : List Event
  /-- What is left of the pass. -/
  rest : Program (Except Failure PassReport)

def Task.said (task : Task) : List Exchange :=
  task.events.map Event.toExchange

/-- Passes over one store. -/
structure System where
  store : Store
  /-- The pass that holds the lock of a group. -/
  holder : Int → Option Nat
  tasks : List Task

/-- A change of contacts, tags or groups that does not come from a pass. -/
def Operation.IsMutation : Operation → Prop
  | .putContact _ | .editContact _ _ | .giveTag _ _ | .takeTag _ _ | .putGroup _
  | .setCriteria _ _ => True
  | _ => False

theorem Operation.IsMutation.members {operation : Operation} (outside : operation.IsMutation)
    (store : Store) : (operation.perform store).members = store.members := by
  cases operation with
  | giveTag contact tag =>
      simp only [Operation.perform, Store.giveTag]
      split <;> rfl
  | putContact contact => rfl
  | editContact id change => rfl
  | takeTag contact tag => rfl
  | putGroup group => rfl
  | setCriteria group document => rfl
  | putMember member => exact outside.elim
  | commit changes => exact outside.elim
  | run program now lookup faults => exact outside.elim

namespace System

/-- A lock is granted when nobody holds it. -/
def Grants (system : System) : Call → Prop
  | .lock group => system.holder group = none
  | _ => True

/-- Who holds the locks after a call of a pass. -/
def holderAfter (system : System) (index : Nat) : Call → Int → Option Nat
  | .lock group => fun other => if other = group then some index else system.holder other
  | .unlock group => fun other => if other = group then none else system.holder other
  | _ => system.holder

/-- One thing happens: a change from outside, the beginning of a pass, or one call of a
pass, which may also fail. -/
inductive Step (evaluation : Evaluation) (lookup : TagLookup) : System → System → Prop where
  | mutate {system : System} (operation : Operation) :
      operation.IsMutation →
      Step evaluation lookup system { system with store := operation.perform system.store }
  | begin {system : System} (owner : String) (group : Int) :
      Step evaluation lookup system
        { system with
          tasks := system.tasks ++
            [{ owner, group, events := [], rest := (evaluation.reconcile owner group).run }] }
  | call {system : System} {index : Nat} {task : Task} {event : Event}
      {next : event.call.Answer → Program (Except Failure PassReport)} :
      system.tasks[index]? = some task → task.rest = .ask event.call next →
      system.Grants event.call → event.before = system.store → event.Genuine lookup →
      Step evaluation lookup system
        { store := event.after
          holder := system.holderAfter index event.call
          tasks := system.tasks.set index
            { task with events := task.events ++ [event], rest := next event.answer } }

/-- What can come about from a store that operations lead to. -/
inductive Reachable (evaluation : Evaluation) (lookup : TagLookup) : System → Prop where
  | start {store : Store} :
      Store.ReachableBy (fun _ _ => True) store →
      Reachable evaluation lookup { store, holder := fun _ => none, tasks := [] }
  | step {system next : System} :
      Reachable evaluation lookup system → Step evaluation lookup system next →
      Reachable evaluation lookup next

end System

/-! ## What holds of one pass -/

/-- What a commit of a pass has come to, after what the pass had said before. -/
def Task.Came (evaluation : Evaluation) (task : Task) (front : List Event) (event : Event) : Prop :=
  ∃ group segment rows now,
    Prepared evaluation task.owner task.group (front.map Event.toExchange) group segment rows now ∧
      (∃ held, event.after.groups.find? task.group = some held ∧
        held.contactCount = segment.size) ∧
      (event.after.lapped = false → event.after.Reconciled task.group segment)

/-- What holds of a pass between any two steps. -/
structure Task.Sound (evaluation : Evaluation) (lookup : TagLookup) (store : Store)
    (task : Task) : Prop where
  reached : (evaluation.reconcile task.owner task.group).run.Reaches task.said task.rest
  genuine : ∀ event ∈ task.events, event.Genuine lookup ∧ event.before.Filed
  /-- The rows that have been read are still those of the store. -/
  rows : store.lapped = false → ∀ rows, ⟨.currentMembers task.group, .ok rows⟩ ∈ task.said →
    Uncommitted task.said → rows = store.currentMembers task.group
  commits : ∀ front event back changes, task.events = front ++ event :: back →
    event.toExchange = ⟨.commit changes, .ok ()⟩ → task.Came evaluation front event

variable {evaluation : Evaluation} {lookup : TagLookup} {store after : Store} {task : Task}

/-- A pass is not disturbed by what leaves the rows alone that it has read. -/
theorem Task.Sound.undisturbed (sound : task.Sound evaluation lookup store)
    (lapped_before : after.lapped = false → store.lapped = false)
    (same : after.lapped = false → Inside task.group task.said →
      after.currentMembers task.group = store.currentMembers task.group) :
    task.Sound evaluation lookup after where
  reached := sound.reached
  genuine := sound.genuine
  rows := by
    intro inOrder rows read uncommitted
    rw [same inOrder (sound.reached.inside_of_rows read uncommitted)]
    exact sound.rows (lapped_before inOrder) rows read uncommitted
  commits := sound.commits

theorem Task.Sound.prepared_group (sound : task.Sound evaluation lookup store) {group : Group}
    {segment : Segment} {rows : List Member} {now : Instant}
    (prepared : Prepared evaluation task.owner task.group task.said group segment rows now) :
    group.id = task.group := by
  obtain ⟨criteria, reading, said, _, _⟩ := prepared
  have told : ⟨.liveGroup task.owner task.group, .ok (some group)⟩ ∈ task.said := by
    rw [said]
    simp
  obtain ⟨event, member, exchange⟩ := List.mem_map.mp told
  obtain ⟨genuine, filed⟩ := sound.genuine event member
  obtain ⟨⟨call, answer⟩, before, last, struck⟩ := event
  cases exchange
  rcases genuine with ⟨_, _, failure, fails⟩ | ⟨_, time, answered⟩
  · cases fails
  · have found : before.liveGroup? task.owner task.group = some group :=
      Except.ok.inj (congrArg Prod.fst answered)
    exact filed.groups _ _ (Store.liveGroup?_eq_some_iff.mp found).1

/-- A commit that is carried out was planned from rows that the store still holds. -/
theorem Task.Sound.came (sound : task.Sound evaluation lookup store) (filed : store.Filed)
    {event : Event} {next : event.call.Answer → Program (Except Failure PassReport)}
    (asks : task.rest = .ask event.call next) (begins : event.before = store)
    (genuine : event.Genuine lookup) {changes : ChangeSet}
    (commits : event.toExchange = ⟨.commit changes, .ok ()⟩) :
    task.Came evaluation task.events event := by
  have committed := genuine.committed commits
  have reached := sound.reached
  rw [asks] at reached
  obtain ⟨⟨call, answer⟩, before, last, struck⟩ := event
  cases commits
  subst begins
  obtain ⟨group, segment, rows, now, rfl, prepared⟩ := reached.prepared
  have sameGroup := sound.prepared_group prepared
  refine ⟨group, segment, rows, now, prepared, ?_, fun inOrder => ?_⟩
  · rw [← sameGroup]
    exact Store.commit_plan_count committed
  · have current : rows = before.currentMembers task.group :=
      sound.rows (Store.lapped_of_commit committed inOrder) rows prepared.rows_read
        prepared.uncommitted
    rw [current, ← sameGroup] at committed
    rw [← sameGroup]
    exact filed.commit_plan_reconciled committed inOrder

theorem Task.Sound.called (sound : task.Sound evaluation lookup store) (filed : store.Filed)
    {event : Event} {next : event.call.Answer → Program (Except Failure PassReport)}
    (asks : task.rest = .ask event.call next) (begins : event.before = store)
    (genuine : event.Genuine lookup) :
    ({ task with events := task.events ++ [event], rest := next event.answer } : Task).Sound
      evaluation lookup event.after where
  reached := by
    have reached := sound.reached
    rw [asks] at reached
    simpa [Task.said] using reached.answered event.answer
  genuine := by
    intro other member
    rcases List.mem_append.mp member with earlier | last
    · exact sound.genuine other earlier
    · cases List.mem_singleton.mp last
      exact ⟨genuine, begins ▸ filed⟩
  rows := by
    intro inOrder rows read uncommitted
    simp only [Task.said, List.map_append, List.map_cons, List.map_nil] at read uncommitted
    obtain ⟨earlierUncommitted, lastUncommitted⟩ := uncommitted_append_iff.mp uncommitted
    have unchanged : event.after = store := by
      rcases genuine.writes with unchanged | ⟨changes, commits, _⟩
      · exact unchanged.trans begins
      · have none := (uncommitted_cons_iff.mp lastUncommitted).1 changes
        rw [commits] at none
        exact (none rfl).elim
    rw [unchanged] at inOrder ⊢
    rcases List.mem_append.mp read with earlier | last
    · exact sound.rows inOrder rows earlier earlierUncommitted
    · obtain ⟨⟨call, answer⟩, before, last, struck⟩ := event
      cases List.mem_singleton.mp last
      subst begins
      rcases genuine with ⟨_, _, failure, fails⟩ | ⟨_, time, answered⟩
      · cases fails
      · exact (Except.ok.inj (congrArg Prod.fst answered)).symm
  commits := by
    intro front found back changes split commits
    rcases List.eq_nil_or_concat back with rfl | ⟨later, last, rfl⟩
    · obtain ⟨rfl, same⟩ := List.append_inj' split rfl
      cases List.singleton_inj.mp same
      exact sound.came filed asks begins genuine commits
    · have whole : task.events ++ [event] = (front ++ found :: later) ++ [last] := by
        simpa using split
      obtain ⟨earlier, _⟩ := List.append_inj' whole rfl
      exact sound.commits front found later changes earlier commits

/-! ## What holds of all passes -/

/-- What holds between any two steps. -/
structure System.Sound (evaluation : Evaluation) (lookup : TagLookup) (system : System) : Prop where
  filed : system.store.Filed
  tasks : ∀ (index : Nat) (task : Task), system.tasks[index]? = some task →
    task.Sound evaluation lookup system.store
  holds : ∀ (index : Nat) (task : Task), system.tasks[index]? = some task →
    Inside task.group task.said → system.holder task.group = some index

namespace System

variable {system : System} {index : Nat} {event : Event}
  {next : event.call.Answer → Program (Except Failure PassReport)}

theorem mutation_currentMembers {operation : Operation} (outside : operation.IsMutation)
    (store : Store) (group : Int) :
    (operation.perform store).currentMembers group = store.currentMembers group := by
  unfold Store.currentMembers
  rw [outside.members store]

/-- While a pass makes a call, another pass that is inside its lock keeps its rows: if
the call is a commit, it is one for another group. -/
theorem Sound.other_rows (sound : system.Sound evaluation lookup) {other : Nat} {mine theirs : Task}
    (running : system.tasks[index]? = some mine) (waiting : system.tasks[other]? = some theirs)
    (different : other ≠ index) (asks : mine.rest = .ask event.call next)
    (begins : event.before = system.store) (genuine : event.Genuine lookup)
    (inOrder : event.after.lapped = false) (inside : Inside theirs.group theirs.said) :
    event.after.currentMembers theirs.group = system.store.currentMembers theirs.group := by
  rcases genuine.writes with unchanged | ⟨changes, commits, committed⟩
  · rw [unchanged, begins]
  · have mineSound := sound.tasks index mine running
    have reached := mineSound.reached
    rw [asks] at reached
    obtain ⟨⟨call, answer⟩, before, last, struck⟩ := event
    cases commits
    subst begins
    have holdsMine : system.holder mine.group = some index := by
      rcases reached.position with ⟨_, impossible⟩ | ⟨mineInside, _⟩
      · cases impossible
      · exact sound.holds index mine running mineInside
    have holdsTheirs := sound.holds other theirs waiting inside
    obtain ⟨group, segment, rows, now, rfl, prepared⟩ := reached.prepared
    -- Both passes are inside their locks, and a lock has one holder.
    have otherGroup : theirs.group ≠ group.id := by
      intro same
      rw [same, mineSound.prepared_group prepared, holdsMine] at holdsTheirs
      exact different (Option.some.inj holdsTheirs).symm
    exact sound.filed.currentMembers_of_other committed inOrder otherGroup

theorem getElem?_set_cases {tasks : List Task} {changed task : Task} {other : Nat}
    (found : (tasks.set index changed)[other]? = some task) :
    (other = index ∧ task = changed) ∨ (other ≠ index ∧ tasks[other]? = some task) := by
  rw [List.getElem?_set] at found
  split at found
  · rename_i same
    split at found
    · exact Or.inl ⟨same.symm, (Option.some.inj found).symm⟩
    · cases found
  · rename_i different
    exact Or.inr ⟨Ne.symm different, found⟩

theorem holderAfter_underLock {call : Call} (underLock : call.UnderLock) :
    system.holderAfter index call = system.holder := by
  cases call <;> first | rfl | exact underLock.elim

theorem Sound.holds_own (sound : system.Sound evaluation lookup) {mine : Task}
    (running : system.tasks[index]? = some mine) (asks : mine.rest = .ask event.call next)
    (inside : Inside mine.group (mine.said ++ [event.toExchange])) :
    system.holderAfter index event.call mine.group = some index := by
  have reached := (sound.tasks index mine running).reached
  rw [asks] at reached
  rcases reached.position with ⟨_, locks⟩ | ⟨already, unlocks | underLock⟩
  · rw [locks]
    exact if_pos rfl
  · obtain ⟨earlier, said, underLock⟩ := inside
    obtain ⟨before, same, _⟩ := already
    rw [same, List.cons_append] at said
    obtain ⟨_, rfl⟩ := List.cons.inj said
    have last := underLock event.toExchange (List.mem_append_right _ List.mem_cons_self)
    rw [unlocks] at last
    exact last.elim
  · rw [holderAfter_underLock underLock]
    exact sound.holds index mine running already

theorem Sound.holds_other (sound : system.Sound evaluation lookup) {other : Nat}
    {mine theirs : Task}
    (running : system.tasks[index]? = some mine) (waiting : system.tasks[other]? = some theirs)
    (different : other ≠ index) (asks : mine.rest = .ask event.call next)
    (granted : system.Grants event.call) (inside : Inside theirs.group theirs.said) :
    system.holderAfter index event.call theirs.group = some other := by
  have holds := sound.holds other theirs waiting inside
  have reached := (sound.tasks index mine running).reached
  rw [asks] at reached
  rcases reached.position with ⟨_, locks⟩ | ⟨already, unlocks | underLock⟩
  · rw [locks] at granted ⊢
    have otherGroup : theirs.group ≠ mine.group := by
      intro same
      rw [same] at holds
      cases granted.symm.trans holds
    exact (if_neg otherGroup).trans holds
  · have otherGroup : theirs.group ≠ mine.group := by
      intro same
      rw [same, sound.holds index mine running already] at holds
      exact different (Option.some.inj holds).symm
    rw [unlocks]
    exact (if_neg otherGroup).trans holds
  · rw [holderAfter_underLock underLock]
    exact holds

theorem Sound.step {next : System} (sound : system.Sound evaluation lookup)
    (step : Step evaluation lookup system next) : next.Sound evaluation lookup := by
  cases step with
  | mutate operation outside =>
      exact
        { filed := sound.filed.perform operation
          tasks := fun index task found =>
            (sound.tasks index task found).undisturbed Store.lapped_of_perform fun _ _ =>
              mutation_currentMembers outside system.store task.group
          holds := sound.holds }
  | begin owner group =>
      have cases_of {index : Nat} {task : Task} {begun : Task}
          (found : (system.tasks ++ [begun])[index]? = some task) :
          system.tasks[index]? = some task ∨ task = begun := by
        rw [List.getElem?_append] at found
        split at found
        · exact Or.inl found
        · exact Or.inr (List.mem_singleton.mp (List.mem_of_getElem? found))
      exact
        { filed := sound.filed
          tasks := by
            intro index task found
            rcases cases_of found with earlier | rfl
            · exact sound.tasks index task earlier
            · exact
                { reached := .here _
                  genuine := by simp
                  rows := by simp [Task.said]
                  commits := by simp }
          holds := by
            intro index task found inside
            rcases cases_of found with earlier | rfl
            · exact sound.holds index task earlier inside
            · obtain ⟨earlier, impossible, _⟩ := inside
              cases impossible }
  | call running asks granted begins genuine =>
      exact
        { filed := by
            rcases genuine.writes with unchanged | ⟨changes, _, committed⟩
            · rw [unchanged, begins]
              exact sound.filed
            · rw [begins] at committed
              exact sound.filed.commit committed
          tasks := by
            intro other task found
            rcases getElem?_set_cases found with ⟨rfl, rfl⟩ | ⟨different, waiting⟩
            · exact (sound.tasks _ _ running).called sound.filed asks begins genuine
            · exact (sound.tasks other task waiting).undisturbed
                (fun inOrder => begins ▸ genuine.lapped_before inOrder)
                fun inOrder inside =>
                  sound.other_rows running waiting different asks begins genuine inOrder inside
          holds := by
            intro other task found inside
            rcases getElem?_set_cases found with ⟨rfl, rfl⟩ | ⟨different, waiting⟩
            · have own := sound.holds_own running asks (by simpa [Task.said] using inside)
              exact own
            · exact sound.holds_other running waiting different asks granted inside }

theorem Reachable.sound (reachable : Reachable evaluation lookup system) :
    system.Sound evaluation lookup := by
  induction reachable with
  | start reached =>
      exact
        { filed := reached.filed
          tasks := by simp
          holds := by simp }
  | step _ step before => exact before.step step

/-- What is to happen next, without failures. -/
inductive Turn : Type 1 where
  | mutate (operation : Operation)
  | begin (owner : String) (group : Int)
  | call (index : Nat) (now : Instant)

def grants (system : System) : Call → Bool
  | .lock group => (system.holder group).isNone
  | _ => true

theorem grants_iff {call : Call} : system.grants call = true ↔ system.Grants call := by
  cases call with
  | lock group => exact Option.isNone_iff_eq_none
  | _ => exact iff_of_true rfl trivial

/-- The call of a pass, if it need not wait for its lock. -/
def call? (lookup : TagLookup) (now : Instant) (index : Nat) (system : System) :
    Option System := do
  let task ← system.tasks[index]?
  match task.rest with
  | .done _ => none
  | .ask call next =>
      if system.grants call then
        let (answer, after) := system.store.answer now lookup call
        let event : Event := ⟨⟨call, answer⟩, system.store, after, false⟩
        some
          { store := after
            holder := system.holderAfter index call
            tasks := system.tasks.set index
              { task with events := task.events ++ [event], rest := next answer } }
      else none

theorem step_of_call? {now : Instant} {next : System}
    (called : system.call? lookup now index = some next) : Step evaluation lookup system next := by
  obtain ⟨task, running, asked⟩ := Option.bind_eq_some_iff.mp called
  cases rest : task.rest with
  | done value => simp [rest] at asked
  | ask call following =>
      simp only [rest] at asked
      split at asked
      · rename_i granted
        rw [← Option.some.inj asked]
        let event : Event :=
          ⟨⟨call, (system.store.answer now lookup call).1⟩, system.store,
            (system.store.answer now lookup call).2, false⟩
        exact @Step.call evaluation lookup system index task event following running rest
          (grants_iff.mp granted) rfl
          (Or.inr ⟨rfl, now, rfl⟩)
      · cases asked

/-- The system after turns, if none of them has to wait. -/
def play? (evaluation : Evaluation) (lookup : TagLookup) : System → List Turn → Option System
  | system, [] => some system
  | system, .mutate operation :: turns =>
      play? evaluation lookup { system with store := operation.perform system.store } turns
  | system, .begin owner group :: turns =>
      let begun : Task :=
        { owner, group, events := [], rest := (evaluation.reconcile owner group).run }
      play? evaluation lookup { system with tasks := system.tasks ++ [begun] } turns
  | system, .call index now :: turns => do
      let next ← system.call? lookup now index
      play? evaluation lookup next turns

theorem Reachable.play {turns : List Turn} {last : System}
    (reachable : Reachable evaluation lookup system)
    (outside : ∀ operation, .mutate operation ∈ turns → operation.IsMutation)
    (played : play? evaluation lookup system turns = some last) :
    Reachable evaluation lookup last := by
  induction turns generalizing system with
  | nil =>
      cases played
      exact reachable
  | cons turn turns induction =>
      have later : ∀ operation, .mutate operation ∈ turns → operation.IsMutation :=
        fun operation member => outside operation (List.mem_cons_of_mem turn member)
      cases turn with
      | mutate operation =>
          exact induction
            (reachable.step (.mutate operation (outside operation List.mem_cons_self)))
            later played
      | begin owner group => exact induction (reachable.step (.begin owner group)) later played
      | call index now =>
          obtain ⟨next, called, rest⟩ := Option.bind_eq_some_iff.mp played
          exact induction (reachable.step (step_of_call? called)) later rest

end System

/-- The commits of a pass that have been carried out. -/
def Task.committed (task : Task) : List Event :=
  task.events.filter fun event =>
    match event.toExchange with
    | ⟨.commit _, .ok ()⟩ => true
    | _ => false

end Cohort
