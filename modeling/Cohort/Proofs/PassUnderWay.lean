import Mathlib.Data.List.Basic
import Cohort.Proofs.PassTrace

/-!
# Passes under way

A pass that has said something and goes on can be answered to its end, so what it has
said is the beginning of a whole pass.  This tells what a pass has done before each of
its calls.
-/

namespace Cohort

variable {evaluation : Evaluation} {owner : String} {id : Int} {said : List Exchange}
  {rest : Program (Except Failure PassReport)}

/-- The lock is taken and not yet given back. -/
def Inside (id : Int) (said : List Exchange) : Prop :=
  ∃ earlier, said = ⟨.lock id, ()⟩ :: earlier ∧ ∀ exchange ∈ earlier, exchange.call.UnderLock

/-- No commit has been asked for. -/
def Uncommitted (said : List Exchange) : Prop :=
  ∀ exchange ∈ said, ∀ changes, exchange.call ≠ .commit changes

/-- The pass has looked up its group, worked out the segment of its criteria, read its
rows and the clock, and has said nothing else. -/
def Prepared (evaluation : Evaluation) (owner : String) (id : Int) (said : List Exchange)
    (group : Group) (segment : Segment) (rows : List Member) (now : Instant) : Prop :=
  ∃ criteria reading,
    said = ⟨.lock id, ()⟩ :: ⟨.liveGroup owner id, .ok (some group)⟩ ::
      (reading ++ [⟨.currentMembers id, .ok rows⟩, ⟨.clock, now⟩]) ∧
    group.readCriteria = .ok criteria ∧
    (evaluation.segment owner criteria).run.Replays reading (.ok segment)

theorem exists_pass (reached : (evaluation.reconcile owner id).run.Reaches said rest) :
    ∃ more result inner, said ++ more = ⟨.lock id, ()⟩ :: (inner ++ [⟨.unlock id, ()⟩]) ∧
      rest.Replays more result ∧ PassTrace evaluation owner id inner result ∧
      ∀ exchange ∈ inner, exchange.call.UnderLock := by
  obtain ⟨more, result, replayed⟩ := rest.exists_replays
  obtain ⟨inner, whole, replayedInner⟩ :=
    Evaluation.reconcile_replays (Program.Reaches.trans reached replayed)
  exact ⟨more, result, inner, whole, replayed, .of_replays replayedInner,
    replayedInner.allowed (evaluation.reconcileLocked_makesOnly owner id)⟩

/-- A pass that makes a call begins with its lock, or it has taken it and makes the call
before it gives the lock back or by giving it back. -/
theorem Program.Reaches.position {call : Call}
    {next : call.Answer → Program (Except Failure PassReport)}
    (reached : (evaluation.reconcile owner id).run.Reaches said (.ask call next)) :
    (said = [] ∧ call = .lock id) ∨ (Inside id said ∧ (call = .unlock id ∨ call.UnderLock)) := by
  obtain ⟨more, result, inner, whole, replayed, _, underLock⟩ := exists_pass reached
  obtain ⟨answer, later, rfl, _⟩ := Program.replays_ask_iff.mp replayed
  cases said with
  | nil =>
      obtain ⟨first, _⟩ := List.cons.inj whole
      exact Or.inl ⟨rfl, congrArg Exchange.call first⟩
  | cons first earlier =>
      obtain ⟨rfl, remaining⟩ := List.cons.inj whole
      apply Or.inr
      rcases List.eq_nil_or_concat later with rfl | ⟨before, last, rfl⟩
      · obtain ⟨rfl, unlocks⟩ := List.append_inj' remaining rfl
        refine ⟨⟨earlier, rfl, underLock⟩, Or.inl ?_⟩
        exact congrArg Exchange.call (List.singleton_inj.mp unlocks)
      · have reordered : (earlier ++ ⟨call, answer⟩ :: before) ++ [last] =
            inner ++ [⟨.unlock id, ()⟩] := by
          simpa using remaining
        obtain ⟨rfl, _⟩ := List.append_inj' reordered rfl
        refine ⟨⟨earlier, rfl, fun exchange member => ?_⟩, Or.inr ?_⟩
        · exact underLock exchange (List.mem_append_left _ member)
        · exact underLock ⟨call, answer⟩ (List.mem_append_right _ List.mem_cons_self)

theorem uncommitted_nil : Uncommitted [] := by
  intro exchange member
  cases member

theorem uncommitted_append_iff {front back : List Exchange} :
    Uncommitted (front ++ back) ↔ Uncommitted front ∧ Uncommitted back :=
  List.forall_mem_append

theorem uncommitted_cons_iff {exchange : Exchange} :
    Uncommitted (exchange :: said) ↔
      (∀ changes, exchange.call ≠ .commit changes) ∧ Uncommitted said :=
  List.forall_mem_cons

/-- Working out a segment makes no call of a pass but its own. -/
theorem segment_reading (id : Int) {criteria : Criteria} {reading : List Exchange}
    {result : Except Failure Segment}
    (replayed : (evaluation.segment owner criteria).run.Replays reading result) :
    Uncommitted reading ∧ ∀ rows, ⟨.currentMembers id, .ok rows⟩ ∉ reading := by
  have reads := replayed.allowed (evaluation.segment_makesOnly owner criteria)
  constructor
  · intro exchange member changes commits
    have allowed := reads exchange member
    rw [commits] at allowed
    exact allowed
  · intro rows member
    exact reads _ member

theorem Prepared.uncommitted {group : Group} {segment : Segment} {rows : List Member}
    {now : Instant} (prepared : Prepared evaluation owner id said group segment rows now) :
    Uncommitted said := by
  obtain ⟨criteria, reading, rfl, _, replayed⟩ := prepared
  have reads := (segment_reading id replayed).1
  simp [uncommitted_cons_iff, uncommitted_append_iff, uncommitted_nil, reads]

theorem Prepared.rows_read {group : Group} {segment : Segment} {rows : List Member}
    {now : Instant} (prepared : Prepared evaluation owner id said group segment rows now) :
    ⟨.currentMembers id, .ok rows⟩ ∈ said := by
  obtain ⟨criteria, reading, rfl, _, _⟩ := prepared
  simp

/-- A whole pass fails before it has read rows or commits the plan that it has
prepared. -/
theorem PassTrace.uncommitted_or {inner : List Exchange} {result : Except Failure PassReport}
    (trace : PassTrace evaluation owner id inner result) :
    (Uncommitted inner ∧ ∀ rows, ⟨.currentMembers id, .ok rows⟩ ∉ inner) ∨
      ∃ earlier group segment rows now answer,
        inner = earlier ++ [⟨.commit (group.plan rows segment now), answer⟩] ∧
        Prepared evaluation owner id (⟨.lock id, ()⟩ :: earlier) group segment rows now ∧
        (answer = .ok () → ∃ report, result = .ok report) := by
  cases trace with
  | lookupFailed failure => exact Or.inl (by simp [uncommitted_cons_iff, uncommitted_nil])
  | noGroup => exact Or.inl (by simp [uncommitted_cons_iff, uncommitted_nil])
  | unusable unreadable => exact Or.inl (by simp [uncommitted_cons_iff, uncommitted_nil])
  | evaluationFailed readable replayed =>
      have reads := segment_reading id replayed
      exact Or.inl (by simp [uncommitted_cons_iff, reads])
  | rowsFailed failure readable replayed =>
      have reads := segment_reading id replayed
      exact Or.inl (by
        simp [uncommitted_cons_iff, uncommitted_append_iff, uncommitted_nil, reads])
  | commitFailed rows now failure readable replayed =>
      refine Or.inr ⟨_ :: (_ ++ [_, _]), _, _, rows, now, .error failure, by simp,
        ⟨_, _, rfl, readable, replayed⟩, ?_⟩
      intro impossible
      cases impossible
  | committed rows now readable replayed =>
      exact Or.inr ⟨_ :: (_ ++ [_, _]), _, _, rows, now, .ok (), by simp,
        ⟨_, _, rfl, readable, replayed⟩, fun _ => ⟨_, rfl⟩⟩

/-- Whatever a pass asks to commit is the plan that it has prepared. -/
theorem Program.Reaches.prepared {changes : ChangeSet}
    {next : (Call.commit changes).Answer → Program (Except Failure PassReport)}
    (reached : (evaluation.reconcile owner id).run.Reaches said (.ask (.commit changes) next)) :
    ∃ group segment rows now, changes = group.plan rows segment now ∧
      Prepared evaluation owner id said group segment rows now := by
  obtain ⟨more, result, inner, whole, replayed, trace, _⟩ := exists_pass reached
  obtain ⟨answer, later, rfl, _⟩ := Program.replays_ask_iff.mp replayed
  cases said with
  | nil => cases whole
  | cons first earlier =>
      obtain ⟨rfl, remaining⟩ := List.cons.inj whole
      have asked : (⟨.commit changes, answer⟩ : Exchange) ∈ inner ++ [⟨.unlock id, ()⟩] := by
        rw [← remaining]
        exact List.mem_append_right _ List.mem_cons_self
      rcases trace.uncommitted_or with ⟨uncommitted, _⟩ |
        ⟨before, group, segment, rows, now, told, rfl, prepared, _⟩
      · have none : Uncommitted (inner ++ [⟨.unlock id, ()⟩]) :=
          uncommitted_append_iff.mpr ⟨uncommitted, by simp [uncommitted_cons_iff, uncommitted_nil]⟩
        exact (none _ asked changes rfl).elim
      · have absent : (⟨.commit changes, answer⟩ : Exchange) ∉ before := fun member =>
          (uncommitted_cons_iff.mp prepared.uncommitted).2 _ member changes rfl
        rw [List.append_assoc, List.singleton_append] at remaining
        obtain ⟨rfl, same, _⟩ :=
          (List.append_cons_inj_of_notMem absent (by simp)).mp remaining.symm
        cases same
        exact ⟨group, segment, rows, now, rfl, prepared⟩

/-- A pass that has read its rows and has not committed holds its lock. -/
theorem Program.Reaches.inside_of_rows {rows : List Member}
    (reached : (evaluation.reconcile owner id).run.Reaches said rest)
    (read : ⟨.currentMembers id, .ok rows⟩ ∈ said) (uncommitted : Uncommitted said) :
    Inside id said := by
  cases rest with
  | ask call next =>
      rcases reached.position with ⟨rfl, _⟩ | ⟨inside, _⟩
      · cases read
      · exact inside
  | done value =>
      obtain ⟨more, result, inner, whole, replayed, trace, _⟩ := exists_pass reached
      obtain ⟨rfl, _⟩ := Program.replays_done_iff.mp replayed
      rw [List.append_nil] at whole
      subst whole
      rcases trace.uncommitted_or with ⟨_, unread⟩ |
        ⟨before, group, segment, rows, now, told, rfl, _, _⟩
      · exact (unread rows (by simpa using read)).elim
      · exact (uncommitted ⟨.commit (group.plan rows segment now), told⟩ (by simp) _ rfl).elim

theorem Program.Reaches.not_committed {failure : Failure}
    (reached : (evaluation.reconcile owner id).run.Reaches said (.done (.error failure)))
    (changes : ChangeSet) : ⟨.commit changes, .ok ()⟩ ∉ said := by
  intro member
  obtain ⟨more, result, inner, whole, replayed, trace, _⟩ := exists_pass reached
  obtain ⟨rfl, rfl⟩ := Program.replays_done_iff.mp replayed
  rw [List.append_nil] at whole
  subst whole
  have inInner : ⟨.commit changes, .ok ()⟩ ∈ inner := by simpa using member
  rcases trace.uncommitted_or with ⟨uncommitted, _⟩ |
    ⟨before, group, segment, rows, now, told, rfl, prepared, succeeds⟩
  · exact uncommitted _ inInner changes rfl
  · rcases List.mem_append.mp inInner with inBefore | last
    · exact (uncommitted_cons_iff.mp prepared.uncommitted).2 _ inBefore changes rfl
    · cases List.mem_singleton.mp last
      obtain ⟨report, impossible⟩ := succeeds rfl
      cases impossible

end Cohort
