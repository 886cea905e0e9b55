import Cohort.Criteria.Document
import Mathlib.Data.List.Forall2

/-!
# Slots

Every part of a record that is read from the members of an object is a slot.  A member
goes to the slot that has its name; a slot that is filled already refuses it.
-/

namespace Cohort

open Json

namespace Criteria

section Reading

variable {ε α β : Type}

theorem map_eq_ok_iff {reading : Except ε α} {function : α → β} {result : β} :
    reading.map function = .ok result ↔ ∃ part, reading = .ok part ∧ function part = result := by
  cases reading <;> simp [Except.map]

theorem map_eq_error_iff {reading : Except ε α} {function : α → β} {problem : ε} :
    reading.map function = .error problem ↔ reading = .error problem := by
  cases reading <;> simp [Except.map]

theorem bind_eq_ok_iff {reading : Except ε α} {next : α → Except ε β} {result : β} :
    reading >>= next = .ok result ↔ ∃ part, reading = .ok part ∧ next part = .ok result := by
  cases reading <;> simp [bind, Except.bind]

theorem mapM_eq_ok_iff {read : α → Except ε β} {items : List α} {parts : List β} :
    items.mapM read = .ok parts ↔
      List.Forall₂ (fun item part => read item = .ok part) items parts := by
  induction items generalizing parts with
  | nil => simp [pure, Except.pure, eq_comm]
  | cons item items induction =>
      simp only [List.mapM_cons, bind_eq_ok_iff, induction, List.forall₂_cons_left_iff]
      constructor
      · rintro ⟨first, readFirst, rest, readRest, ⟨⟩⟩
        exact ⟨first, rest, readFirst, readRest, rfl⟩
      · rintro ⟨first, rest, readFirst, readRest, rfl⟩
        exact ⟨first, readFirst, rest, readRest, rfl⟩

theorem exists_of_mapM_eq_error {read : α → Except ε β} {items : List α} {problem : ε}
    (refused : items.mapM read = .error problem) : ∃ item ∈ items, read item = .error problem := by
  induction items with
  | nil => cases refused
  | cons item items induction =>
      rw [List.mapM_cons] at refused
      cases readFirst : read item with
      | error other =>
          rw [readFirst] at refused
          cases refused
          exact ⟨item, List.mem_cons_self, readFirst⟩
      | ok first =>
          cases readRest : items.mapM read with
          | error other =>
              rw [readFirst, readRest] at refused
              cases refused
              obtain ⟨later, held, read⟩ := induction readRest
              exact ⟨later, List.mem_cons_of_mem _ held, read⟩
          | ok rest =>
              rw [readFirst, readRest] at refused
              cases refused

theorem exists_of_foldlM_eq_error {step : β → α → Except ε β} {items : List α} {state : β}
    {problem : ε} (refused : items.foldlM step state = .error problem) :
    ∃ item ∈ items, ∃ before, step before item = .error problem := by
  induction items generalizing state with
  | nil => cases refused
  | cons item items induction =>
      rw [List.foldlM_cons] at refused
      cases taken : step state item with
      | error other =>
          rw [taken] at refused
          cases refused
          exact ⟨item, List.mem_cons_self, state, taken⟩
      | ok next =>
          rw [taken] at refused
          obtain ⟨later, held, before, stopped⟩ := induction refused
          exact ⟨later, List.mem_cons_of_mem _ held, before, stopped⟩

/-- Items that leave every state alone may be left out. -/
theorem foldlM_filter_of_idle {step : β → α → Except ε β} {relevant : α → Bool}
    (idle : ∀ state item, relevant item = false → step state item = .ok state) (items : List α)
    (state : β) : (items.filter relevant).foldlM step state = items.foldlM step state := by
  induction items generalizing state with
  | nil => rfl
  | cons item items induction =>
      cases relevance : relevant item with
      | true =>
          simp only [List.filter_cons_of_pos relevance, List.foldlM_cons, induction]
      | false =>
          rw [List.filter_cons_of_neg (by simp [relevance]), List.foldlM_cons,
            idle state item relevance, induction]
          rfl

end Reading

/-- At most one member has one of the names, and this is its value. -/
def Given (names : List String) (members : List (String × Value)) (found : Option Value) : Prop :=
  (members.filter fun member => member.1 ∈ names).map Prod.snd = found.toList

theorem given_cons_of_mem {names : List String} {member : String × Value}
    (named : member.1 ∈ names) (members : List (String × Value)) (found : Option Value) :
    Given names (member :: members) found ↔ found = some member.2 ∧ Given names members none := by
  simp only [Given, named, List.filter_cons_of_pos, decide_true, List.map_cons]
  cases found with
  | none => simp
  | some value => simp [eq_comm (a := member.2)]

theorem given_cons_of_not_mem {names : List String} {member : String × Value}
    (unnamed : member.1 ∉ names) (members : List (String × Value)) (found : Option Value) :
    Given names (member :: members) found ↔ Given names members found := by
  simp [Given, unnamed]

/-- A part of a record: the names under which it may be given, and how its value is
read. -/
structure Slot (α : Type) where
  names : List String
  read : Value → Except CriteriaProblem α

namespace Slot

variable {α : Type} (slot : Slot α)

/-- Take a member into a slot.  A slot that is filled already refuses it. -/
def add (held : Option α) (member : String × Value) : Except CriteriaProblem (Option α) :=
  if member.1 ∈ slot.names then
    if held.isSome then .error .unreadable else (slot.read member.2).map some
  else .ok held

theorem add_of_not_mem {member : String × Value} (unnamed : member.1 ∉ slot.names)
    (held : Option α) : slot.add held member = .ok held :=
  if_neg unnamed

theorem add_eq_error {held : Option α} {member : String × Value} {problem : CriteriaProblem}
    (refused : slot.add held member = .error problem) :
    problem = .unreadable ∨ slot.read member.2 = .error problem := by
  unfold add at refused
  split at refused
  · split at refused
    · cases refused
      exact .inl rfl
    · exact .inr (map_eq_error_iff.mp refused)
  · cases refused

/-- A filled slot stays as it is, and no further member may have one of its names. -/
theorem foldlM_add_some_iff (part : α) (members : List (String × Value)) (held : Option α) :
    members.foldlM slot.add (some part) = .ok held ↔
      Given slot.names members none ∧ held = some part := by
  induction members with
  | nil => simp [Given, pure, Except.pure, eq_comm]
  | cons member members induction =>
      rw [List.foldlM_cons]
      by_cases named : member.1 ∈ slot.names
      · simp [add, named, given_cons_of_mem, bind, Except.bind]
      · rw [slot.add_of_not_mem named, given_cons_of_not_mem named, ← induction]
        rfl

/-- An empty slot is filled by the only member that has one of its names.  What the
slot stands for is told by a relation that agrees with its reader. -/
theorem foldlM_add_none_iff {Says : Option Value → α → Prop} {default : α}
    (absent : ∀ part, Says none part ↔ part = default)
    (present : ∀ value part, Says (some value) part ↔ slot.read value = .ok part)
    (members : List (String × Value)) (part : α) :
    (∃ held, members.foldlM slot.add none = .ok held ∧ held.getD default = part) ↔
      ∃ found, Given slot.names members found ∧ Says found part := by
  induction members with
  | nil =>
      constructor
      · rintro ⟨_, ⟨⟩, rfl⟩
        exact ⟨none, rfl, (absent _).mpr rfl⟩
      · rintro ⟨found, given, said⟩
        cases found with
        | some value => cases given
        | none => exact ⟨none, rfl, ((absent part).mp said).symm⟩
  | cons member members induction =>
      by_cases named : member.1 ∈ slot.names
      · -- This member fills the slot, so the rest is gone through with a filled slot.
        have taken : slot.add none member = (slot.read member.2).map some := if_pos named
        simp only [List.foldlM_cons, taken, bind_eq_ok_iff, map_eq_ok_iff,
          given_cons_of_mem named]
        constructor
        · rintro ⟨held, ⟨_, ⟨first, read, rfl⟩, rest⟩, rfl⟩
          obtain ⟨alone, rfl⟩ := (slot.foldlM_add_some_iff first members held).mp rest
          exact ⟨some member.2, ⟨rfl, alone⟩, (present _ _).mpr read⟩
        · rintro ⟨_, ⟨rfl, alone⟩, said⟩
          have rest := (slot.foldlM_add_some_iff part members _).mpr ⟨alone, rfl⟩
          exact ⟨some part, ⟨some part, ⟨part, (present _ _).mp said, rfl⟩, rest⟩, rfl⟩
      · simp only [List.foldlM_cons, slot.add_of_not_mem named, given_cons_of_not_mem named,
          ← induction]
        rfl

end Slot

end Criteria

end Cohort
