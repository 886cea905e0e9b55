import Cohort.Text.Lowercase
import Mathlib.Data.List.Induction

/-!
# The lower case of a part of a text

A part of a text has its own place in the lower case of the whole.  It becomes what it
becomes alone exactly if its sigmas are kept, that is if each ends a word where the part
stands as it does in the part alone.
-/

namespace Cohort.Text

/-- Lower-case a text between a text that ends in a cased letter or does not, and a text
that follows. -/
def lowerBetween (before : Bool) (after : List Char) : List Char → List Char
  | [] => []
  | c :: rest =>
      lowerAt before c (rest ++ after) ++ lowerBetween (endsCased before c) after rest

theorem lowerFrom_eq_lowerBetween (before : Bool) (letters : List Char) :
    lowerFrom before letters = lowerBetween before [] letters := by
  induction letters generalizing before with
  | nil => rfl
  | cons c rest induction => simp only [lowerFrom, lowerBetween, induction, List.append_nil]

theorem lowerBetween_append (before : Bool) (after front back : List Char) :
    lowerBetween before after (front ++ back) =
      lowerBetween before (back ++ after) front ++
        lowerBetween (front.foldl endsCased before) after back := by
  induction front generalizing before with
  | nil => rfl
  | cons c rest induction =>
      simp only [List.cons_append, lowerBetween, induction, List.foldl_cons, List.append_assoc]

theorem lowerLetters_append (front back : List Char) :
    lowerLetters (front ++ back) =
      lowerBetween false back front ++ lowerBetween (front.foldl endsCased false) [] back := by
  rw [lowerLetters, lowerFrom_eq_lowerBetween, lowerBetween_append, List.append_nil]

/-- Does a capital sigma between two texts end a word? -/
def endsWord (before after : List Char) : Bool :=
  startsCased before.reverse && !startsCased after

/-- Each capital sigma of a text ends a word between the texts around it exactly if it
does so in the text alone. -/
def SigmasKept (before letters after : List Char) : Prop :=
  ∀ front back, letters = front ++ 'Σ' :: back →
    endsWord (before ++ front) (back ++ after) = endsWord front back

theorem sigmasKept_of_not_mem {letters : List Char} (absent : 'Σ' ∉ letters)
    (before after : List Char) : SigmasKept before letters after := by
  intro front back split
  apply absurd _ absent
  rw [split]
  exact List.mem_append_right front List.mem_cons_self

/-- The state after a text tells whether a cased letter comes first from its end. -/
theorem foldl_endsCased (letters : List Char) :
    letters.foldl endsCased false = startsCased letters.reverse := by
  induction letters using List.reverseRecOn with
  | nil => rfl
  | append_singleton letters c induction =>
      rw [List.foldl_append, induction, List.reverse_append]
      by_cases ignorable : isCaseIgnorable c = true
      · simp [endsCased, startsCased, ignorable]
      · simp [endsCased, startsCased, ignorable]

theorem length_lowerAt (before other : Bool) (c : Char) (after behind : List Char) :
    (lowerAt before c after).length = (lowerAt other c behind).length := by
  unfold lowerAt
  by_cases sigma : c = 'Σ'
  · rw [if_pos sigma, if_pos sigma]
    split <;> split <;> rfl
  · rw [if_neg sigma, if_neg sigma]

theorem length_lowerBetween (before other : Bool) (after behind letters : List Char) :
    (lowerBetween before after letters).length = (lowerBetween other behind letters).length := by
  induction letters generalizing before other with
  | nil => rfl
  | cons c rest induction =>
      rw [lowerBetween, lowerBetween, List.length_append, List.length_append,
        length_lowerAt before other c (rest ++ after) (rest ++ behind), induction]

/-- Only a capital sigma looks around. -/
theorem lowerAt_eq_iff {before other : Bool} {c : Char} {after behind : List Char} :
    lowerAt before c after = lowerAt other c behind ↔
      (c = 'Σ' → (before && !startsCased after) = (other && !startsCased behind)) := by
  unfold lowerAt
  by_cases sigma : c = 'Σ'
  · simp only [sigma, if_true, true_implies]
    cases (before && !startsCased after) <;> cases (other && !startsCased behind) <;> decide
  · simp [sigma]

theorem lowerBetween_eq_iff {before other : Bool} {after behind letters : List Char} :
    lowerBetween before after letters = lowerBetween other behind letters ↔
      ∀ front back, letters = front ++ 'Σ' :: back →
        (front.foldl endsCased before && !startsCased (back ++ after)) =
          (front.foldl endsCased other && !startsCased (back ++ behind)) := by
  induction letters generalizing before other with
  | nil => simp [lowerBetween]
  | cons c rest induction =>
      have sameLength := length_lowerAt before other c (rest ++ after) (rest ++ behind)
      rw [lowerBetween, lowerBetween, List.append_eq_append_iff_of_size_eq_left sameLength,
        lowerAt_eq_iff, induction]
      -- A sigma is the first character or stands in the rest.
      constructor
      · intro both front back split
        obtain ⟨first, later⟩ := both
        cases front with
        | nil =>
            obtain ⟨rfl, rfl⟩ := List.cons.inj split
            exact first rfl
        | cons head front =>
            obtain ⟨rfl, rfl⟩ := List.cons.inj split
            exact later front back rfl
      · intro all
        constructor
        · intro sigma
          subst sigma
          exact all [] rest rfl
        · intro front back split
          subst split
          exact all (c :: front) back rfl

theorem lowerBetween_congr {letters : List Char} (absent : 'Σ' ∉ letters) (before other : Bool)
    (after behind : List Char) :
    lowerBetween before after letters = lowerBetween other behind letters := by
  rw [lowerBetween_eq_iff]
  intro front back split
  apply absurd _ absent
  rw [split]
  exact List.mem_append_right front List.mem_cons_self

/-- A part of a text becomes there what it becomes alone exactly if its sigmas are
kept. -/
theorem lowerBetween_eq_lowerLetters_iff {before letters after : List Char} :
    lowerBetween (before.foldl endsCased false) after letters = lowerLetters letters ↔
      SigmasKept before letters after := by
  rw [lowerLetters, lowerFrom_eq_lowerBetween, lowerBetween_eq_iff]
  refine forall_congr' fun front => forall_congr' fun back => forall_congr' fun _ => ?_
  rw [← List.foldl_append, foldl_endsCased, foldl_endsCased, List.append_nil]
  rfl

end Cohort.Text
