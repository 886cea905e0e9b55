import Cohort.Schedule
import Mathlib

/-!
# Waits between rounds

A wait is as long as what is asked for exactly if that is at most thirty years: longer
waits are cut, and minutes whose seconds do not fit into a word of 64 bits wrap around
before that.
-/

namespace Cohort.Schedule

/-- The seconds that are asked for after a round. -/
def askedAfter (schedule : Schedule) : RoundOutcome → Nat
  | .finished _ => 60 * schedule.updateIntervalMinutes
  | .failed _ | .aborted => 60 * schedule.errorBackoffMinutes

/-- The waits that are asked for: before the first round, and after each round with its
outcome. -/
def asked (schedule : Schedule) (outcomes : List RoundOutcome) : List Nat :=
  schedule.initialDelaySeconds :: outcomes.map schedule.askedAfter

theorem waited_le (seconds : Nat) : waited seconds ≤ seconds :=
  Nat.min_le_left seconds thirtyYears

theorem waited_eq_iff {seconds : Nat} : waited seconds = seconds ↔ seconds ≤ thirtyYears :=
  min_eq_left_iff

theorem waitAfter_eq (schedule : Schedule) (outcome : RoundOutcome) :
    schedule.waitAfter outcome = waited (schedule.askedAfter outcome % 2 ^ 64) := by
  cases outcome <;> rfl

theorem waitAfter_le (schedule : Schedule) (outcome : RoundOutcome) :
    schedule.waitAfter outcome ≤ schedule.askedAfter outcome := by
  rw [waitAfter_eq]
  exact (waited_le _).trans (Nat.mod_le _ _)

/-- Thirty years are within a word, so nothing that is not cut wraps around. -/
theorem waitAfter_eq_iff {schedule : Schedule} {outcome : RoundOutcome} :
    schedule.waitAfter outcome = schedule.askedAfter outcome ↔
      schedule.askedAfter outcome ≤ thirtyYears := by
  have within : thirtyYears < 2 ^ 64 := by decide
  rw [waitAfter_eq]
  constructor
  · intro same
    rw [← same]
    exact Nat.min_le_right _ _
  · intro short
    rw [Nat.mod_eq_of_lt (short.trans_lt within)]
    exact waited_eq_iff.mpr short

theorem waits_le_asked (schedule : Schedule) (outcomes : List RoundOutcome) :
    List.Forall₂ (· ≤ ·) (schedule.waits outcomes) (schedule.asked outcomes) := by
  refine .cons (waited_le _) ?_
  induction outcomes with
  | nil => exact .nil
  | cons outcome outcomes induction => exact .cons (schedule.waitAfter_le outcome) induction

theorem waits_eq_asked_iff {schedule : Schedule} {outcomes : List RoundOutcome} :
    schedule.waits outcomes = schedule.asked outcomes ↔
      ∀ seconds ∈ schedule.asked outcomes, seconds ≤ thirtyYears := by
  have rest : outcomes.map schedule.waitAfter = outcomes.map schedule.askedAfter ↔
      ∀ outcome ∈ outcomes, schedule.askedAfter outcome ≤ thirtyYears := by
    rw [List.map_inj_left]
    exact forall₂_congr fun _ _ => waitAfter_eq_iff
  have first : schedule.firstWait = schedule.initialDelaySeconds ↔
      schedule.initialDelaySeconds ≤ thirtyYears := waited_eq_iff
  rw [waits, asked, List.cons.injEq, List.forall_mem_cons, List.forall_mem_map, first, rest]

theorem forall_waits_eq_asked_iff {schedule : Schedule} :
    (∀ outcomes, schedule.waits outcomes = schedule.asked outcomes) ↔
      schedule.initialDelaySeconds ≤ thirtyYears ∧
      60 * schedule.updateIntervalMinutes ≤ thirtyYears ∧
      60 * schedule.errorBackoffMinutes ≤ thirtyYears := by
  constructor
  · intro kept
    have short := waits_eq_asked_iff.mp (kept [.finished {}, .aborted])
    refine ⟨short _ ?_, short _ ?_, short _ ?_⟩
    · exact List.mem_cons_self
    · exact List.mem_cons_of_mem _ List.mem_cons_self
    · exact List.mem_cons_of_mem _ (List.mem_cons_of_mem _ List.mem_cons_self)
  · rintro ⟨first, interval, backoff⟩ outcomes
    refine waits_eq_asked_iff.mpr (List.forall_mem_cons.mpr ⟨first, ?_⟩)
    rw [List.forall_mem_map]
    intro outcome _
    cases outcome with
    | finished summary => exact interval
    | failed failure => exact backoff
    | aborted => exact backoff

theorem runningTotals_getElem? (total : Nat) (waits : List Nat) (place : Nat) :
    (runningTotals total waits)[place]? =
      if place < waits.length then some (total + (waits.take (place + 1)).sum) else none := by
  induction waits generalizing total place with
  | nil => rfl
  | cons wait waits induction =>
      cases place with
      | zero => simp [runningTotals]
      | succ place => simp [runningTotals, induction, Nat.add_assoc]

theorem startSeconds_getElem? (schedule : Schedule) (outcomes : List RoundOutcome) (place : Nat) :
    (schedule.startSeconds outcomes)[place]? =
      if place < outcomes.length then some ((schedule.waits outcomes).take (place + 1)).sum
      else none := by
  have length : (schedule.waits outcomes).length = outcomes.length + 1 := by
    rw [waits, List.length_cons, List.length_map]
  rw [startSeconds, List.getElem?_take, runningTotals_getElem?, length, Nat.zero_add]
  by_cases made : place < outcomes.length
  · rw [if_pos made, if_pos made, if_pos (Nat.lt_succ_of_lt made)]
  · rw [if_neg made, if_neg made]

/-- A schedule is kept to, whatever comes of the rounds, exactly if none of its three
waits is longer than thirty years.  In any case the wait before the first round is the
delay cut at thirty years, the one after a round is the interval or the backoff in
seconds, taken modulo `2 ^ 64` and then cut, by whether the round gave a summary, and a
round begins when all waits before it are over.  So no wait is longer than asked for,
and those of a sequence of rounds are as asked for exactly if each of them may be. -/
theorem kept_iff (schedule : Schedule) :
    ((∀ outcomes, schedule.waits outcomes = schedule.asked outcomes) ↔
      schedule.initialDelaySeconds ≤ thirtyYears ∧
      60 * schedule.updateIntervalMinutes ≤ thirtyYears ∧
      60 * schedule.errorBackoffMinutes ≤ thirtyYears) ∧
    ∀ outcomes,
      schedule.waits outcomes =
        min schedule.initialDelaySeconds thirtyYears ::
          outcomes.map (fun outcome => min (schedule.askedAfter outcome % 2 ^ 64) thirtyYears) ∧
      List.Forall₂ (· ≤ ·) (schedule.waits outcomes) (schedule.asked outcomes) ∧
      (schedule.waits outcomes = schedule.asked outcomes ↔
        ∀ seconds ∈ schedule.asked outcomes, seconds ≤ thirtyYears) ∧
      ∀ place, (schedule.startSeconds outcomes)[place]? =
        if place < outcomes.length then some ((schedule.waits outcomes).take (place + 1)).sum
        else none := by
  refine ⟨forall_waits_eq_asked_iff, fun outcomes => ⟨?_, ?_, waits_eq_asked_iff, ?_⟩⟩
  · exact congrArg _ (List.map_congr_left fun outcome _ => schedule.waitAfter_eq outcome)
  · exact schedule.waits_le_asked outcomes
  · exact schedule.startSeconds_getElem? outcomes

/-- A delay of a second more than thirty years is a second too short, and so many
minutes that their seconds do not fit into a word are waited out in less than a
minute. -/
theorem long_waits_cut :
    let delayed : Schedule := { initialDelaySeconds := 946080001 }
    let distant : Schedule := { updateIntervalMinutes := 307445734561825861 }
    delayed.asked [] = [946080001] ∧ delayed.waits [] = [946080000] ∧
      delayed.startSeconds [.finished {}] = [946080000] ∧
      distant.asked [.finished {}] = [60, 18446744073709551660] ∧
      distant.waits [.finished {}] = [60, 44] := by
  decide

end Cohort.Schedule
