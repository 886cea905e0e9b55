import Cohort.Proofs.Text.Casing
import Cohort.Text.Search
import Mathlib.Data.List.DropRight

/-!
# Items of a list that is a text

A separator that is a break and blanks at the ends of a piece mean nothing to the
letters, so it does not matter whether a text is lower-cased before or after it is cut
and trimmed.
-/

namespace Cohort.Text

theorem splitAt_eq_splitOn (separator : Char) (letters : List Char) :
    splitAt separator letters = letters.splitOn separator := by
  induction letters with
  | nil => rfl
  | cons c rest induction =>
      rw [splitAt, List.splitOn_cons_eq_if_modifyHead, induction]
      by_cases here : c = separator
      · simp [here]
      · rw [if_neg here, if_neg (by simpa using here)]
        cases cut : List.splitOn separator rest with
        | nil => exact absurd cut (List.splitOn_ne_nil separator rest)
        | cons piece pieces => rfl

theorem joinWith_cons_cons (separator : Char) (first next : List Char) (others : List (List Char)) :
    joinWith separator (first :: next :: others) =
      first ++ separator :: joinWith separator (next :: others) :=
  rfl

theorem joinWith_eq_intercalate (separator : Char) (pieces : List (List Char)) :
    joinWith separator pieces = [separator].intercalate pieces := by
  induction pieces with
  | nil => rfl
  | cons piece pieces induction =>
      cases pieces with
      | nil => exact List.intercalate_singleton.symm
      | cons next pieces =>
          rw [joinWith_cons_cons, induction, List.intercalate_cons_cons, List.append_assoc]
          rfl

theorem joinWith_splitAt (separator : Char) (letters : List Char) :
    joinWith separator (splitAt separator letters) = letters := by
  rw [joinWith_eq_intercalate, splitAt_eq_splitOn, List.intercalate_splitOn]

theorem splitAt_ne_nil (separator : Char) (letters : List Char) :
    splitAt separator letters ≠ [] := by
  rw [splitAt_eq_splitOn]
  exact List.splitOn_ne_nil separator letters

/-- The pieces of joined texts are those of each of them. -/
theorem splitAt_joinWith {separator : Char} {texts : List (List Char)} (some : texts ≠ []) :
    splitAt separator (joinWith separator texts) = texts.flatMap (splitAt separator) := by
  induction texts with
  | nil => exact absurd rfl some
  | cons text texts induction =>
      cases texts with
      | nil => simp [joinWith]
      | cons next texts =>
          rw [joinWith_cons_cons, splitAt_eq_splitOn, List.splitOn_append_cons_self,
            ← splitAt_eq_splitOn, ← splitAt_eq_splitOn, induction (List.cons_ne_nil next texts)]
          rfl

theorem splitAt_of_not_mem {separator : Char} {letters : List Char} (absent : separator ∉ letters) :
    splitAt separator letters = [letters] := by
  rw [splitAt_eq_splitOn, List.splitOn_eq_singleton absent]

theorem splitAt_joinWith_of_not_mem {separator : Char} {pieces : List (List Char)}
    (some : pieces ≠ []) (absent : ∀ piece ∈ pieces, separator ∉ piece) :
    splitAt separator (joinWith separator pieces) = pieces := by
  rw [joinWith_eq_intercalate, splitAt_eq_splitOn, List.splitOn_intercalate separator absent some]

theorem not_mem_of_mem_splitAt {separator : Char} {letters piece : List Char}
    (listed : piece ∈ splitAt separator letters) : separator ∉ piece := by
  induction letters generalizing piece with
  | nil =>
      rw [List.mem_singleton.mp listed]
      exact List.not_mem_nil
  | cons c rest induction =>
      rw [splitAt_eq_splitOn, List.splitOn_cons_eq_if_modifyHead, ← splitAt_eq_splitOn] at listed
      split at listed
      · rcases List.mem_cons.mp listed with rfl | later
        · exact List.not_mem_nil
        · exact induction later
      · rename_i apart
        cases cut : splitAt separator rest with
        | nil => exact absurd cut (splitAt_ne_nil separator rest)
        | cons first others =>
            rw [cut] at listed induction
            rcases List.mem_cons.mp listed with rfl | later
            · have other : separator ≠ c := by
                rintro rfl
                exact apart (beq_self_eq_true _)
              exact List.not_mem_cons_of_ne_of_not_mem other (induction List.mem_cons_self)
            · exact induction (List.mem_cons_of_mem _ later)

theorem trimEnd_eq_rdropWhile (letters : List Char) :
    trimEnd letters = letters.rdropWhile isBlank :=
  rfl

theorem exists_trim (letters : List Char) :
    ∃ before after, (∀ c ∈ before, isBlank c = true) ∧ (∀ c ∈ after, isBlank c = true) ∧
      letters = before ++ trim letters ++ after := by
  refine ⟨letters.takeWhile isBlank, (trimStart letters).rtakeWhile isBlank,
    fun c => List.mem_takeWhile_imp, fun c => List.mem_rtakeWhile_imp, ?_⟩
  rw [List.append_assoc, trim, trimEnd_eq_rdropWhile, List.rdropWhile_append_rtakeWhile, trimStart,
    List.takeWhile_append_dropWhile]

theorem trim_append_blanks {before after : List Char} (letters : List Char)
    (blankBefore : ∀ c ∈ before, isBlank c = true) (blankAfter : ∀ c ∈ after, isBlank c = true) :
    trim (before ++ letters ++ after) = trim letters := by
  have start : trimStart (before ++ letters ++ after) = trimStart (letters ++ after) := by
    rw [List.append_assoc]
    exact List.dropWhile_append_of_pos blankBefore
  have ending (front : List Char) : trimEnd (front ++ after) = trimEnd front := by
    have blank : ∀ c ∈ after.reverse, isBlank c = true := fun c member =>
      blankAfter c (List.mem_reverse.mp member)
    rw [trimEnd, List.reverse_append, List.dropWhile_append_of_pos blank]
    rfl
  rw [trim, start, trimStart, List.dropWhile_append]
  split
  · rename_i nothing
    have allBlank : trimStart letters = [] := List.isEmpty_iff.mp nothing
    rw [trim, allBlank, List.dropWhile_eq_nil_iff.mpr blankAfter]
  · exact ending _

@[simp] theorem trim_trim (letters : List Char) : trim (trim letters) = trim letters := by
  obtain ⟨before, after, blankBefore, blankAfter, whole⟩ := exists_trim letters
  conv => rhs; rw [whole]
  rw [trim_append_blanks _ blankBefore blankAfter]

theorem trim_eq_self {letters : List Char} (solid : ∀ c ∈ letters, isBlank c = false) :
    trim letters = letters := by
  obtain ⟨before, after, blankBefore, blankAfter, whole⟩ := exists_trim letters
  have none {blanks : List Char} (part : blanks ⊆ letters)
    (blank : ∀ c ∈ blanks, isBlank c = true) :
      blanks = [] := by
    apply List.eq_nil_iff_forall_not_mem.mpr
    intro c member
    have noBlank := solid c (part member)
    rw [blank c member] at noBlank
    cases noBlank
  have noneBefore := none (fun c member => by rw [whole]; simp [member]) blankBefore
  have noneAfter := none (fun c member => by rw [whole]; simp [member]) blankAfter
  simpa [noneBefore, noneAfter] using whole.symm

theorem mem_of_mem_trim {letters : List Char} {c : Char} (member : c ∈ trim letters) :
    c ∈ letters := by
  obtain ⟨before, after, _, _, whole⟩ := exists_trim letters
  rw [whole]
  simp [member]

theorem lowerLetters_cons_break {sign : Char} (breaks : isBreak sign = true) (rest : List Char) :
    lowerLetters (sign :: rest) = sign :: lowerLetters rest :=
  lowerLetters_append_break breaks [] rest

theorem lowerLetters_append_blanks {before after : List Char} (letters : List Char)
    (blankBefore : ∀ c ∈ before, isBlank c = true) (blankAfter : ∀ c ∈ after, isBlank c = true) :
    lowerLetters (before ++ letters ++ after) = before ++ lowerLetters letters ++ after := by
  have ending : lowerLetters (letters ++ after) = lowerLetters letters ++ after := by
    cases after with
    | nil => rw [List.append_nil, List.append_nil]
    | cons c rest =>
        obtain ⟨blank, blankRest⟩ := List.forall_mem_cons.mp blankAfter
        have settled : ∀ other ∈ rest, isSettled other = true := fun other member =>
          isSettled_of_isBreak (isBreak_of_isBlank (blankRest other member))
        rw [lowerLetters_append_break (isBreak_of_isBlank blank), lowerLetters, lowerLetters,
          lowerFrom_of_isSettled settled]
  rw [List.append_assoc, List.append_assoc, ← ending]
  induction before with
  | nil => rfl
  | cons c rest induction =>
      obtain ⟨blank, blankRest⟩ := List.forall_mem_cons.mp blankBefore
      rw [List.cons_append, lowerLetters_cons_break (isBreak_of_isBlank blank), induction blankRest]
      rfl

theorem lowerLetters_joinWith {separator : Char} (breaks : isBreak separator = true)
    (pieces : List (List Char)) :
    lowerLetters (joinWith separator pieces) = joinWith separator (pieces.map lowerLetters) := by
  induction pieces with
  | nil => rfl
  | cons piece pieces induction =>
      cases pieces with
      | nil => rfl
      | cons next pieces =>
          rw [joinWith_cons_cons, lowerLetters_append_break breaks, induction]
          rfl

/-- Lower-casing moves no separator. -/
theorem splitAt_lowerLetters {separator : Char} (breaks : isBreak separator = true)
    (letters : List Char) :
    splitAt separator (lowerLetters letters) = (splitAt separator letters).map lowerLetters := by
  have some : (splitAt separator letters).map lowerLetters ≠ [] := by
    rw [Ne, List.map_eq_nil_iff]
    exact splitAt_ne_nil separator letters
  have absent : ∀ piece ∈ (splitAt separator letters).map lowerLetters, separator ∉ piece := by
    intro low listed
    obtain ⟨piece, cut, rfl⟩ := List.mem_map.mp listed
    exact mt (mem_lowerFrom_iff breaks).mp (not_mem_of_mem_splitAt cut)
  rw [← splitAt_joinWith_of_not_mem some absent, ← lowerLetters_joinWith breaks, joinWith_splitAt]

theorem lowerAt_ne_nil (before : Bool) (c : Char) (after : List Char) :
    lowerAt before c after ≠ [] := by
  unfold lowerAt
  split
  · split <;> exact List.cons_ne_nil _ _
  · split <;> exact List.cons_ne_nil _ _

theorem isBlank_of_mem_lowerAt {before : Bool} {c low : Char} {after : List Char}
    (solid : isBlank c = false) (member : low ∈ lowerAt before c after) : isBlank low = false := by
  by_contra blank
  rw [Bool.not_eq_false] at blank
  rw [(mem_lowerAt_iff (isBreak_of_isBlank blank)).mp member, solid] at blank
  cases blank

theorem trimStart_lowerLetters (letters : List Char) :
    trimStart (lowerLetters letters) = lowerLetters (trimStart letters) := by
  induction letters with
  | nil => rfl
  | cons c rest induction =>
      cases blank : isBlank c with
      | true =>
          rw [lowerLetters_cons_break (isBreak_of_isBlank blank), trimStart, trimStart,
            List.dropWhile_cons_of_pos blank, List.dropWhile_cons_of_pos blank]
          exact induction
      | false =>
          obtain ⟨low, more, form⟩ := List.exists_cons_of_ne_nil (lowerAt_ne_nil false c rest)
          have solid : isBlank low = false :=
            isBlank_of_mem_lowerAt blank (form ▸ List.mem_cons_self)
          rw [trimStart, trimStart, List.dropWhile_cons_of_neg (by simp [blank]), lowerLetters,
            lowerFrom, form, List.cons_append, List.dropWhile_cons_of_neg (by simp [solid])]

theorem trimEnd_lowerLetters (letters : List Char) :
    trimEnd (lowerLetters letters) = lowerLetters (trimEnd letters) := by
  simp only [trimEnd_eq_rdropWhile]
  induction letters using List.reverseRecOn with
  | nil => rfl
  | append_singleton front c induction =>
      cases blank : isBlank c with
      | true =>
          rw [lowerLetters_append_break (isBreak_of_isBlank blank),
            List.rdropWhile_concat_pos _ _ _ blank]
          exact (List.rdropWhile_concat_pos _ _ _ blank).trans induction
      | false =>
          let before := front.foldl endsCased false
          obtain ⟨more, low, form⟩ :=
            (List.eq_nil_or_concat' (lowerAt before c [])).resolve_left (lowerAt_ne_nil _ _ _)
          have solid : isBlank low = false :=
            isBlank_of_mem_lowerAt blank (form ▸ List.mem_append_right more List.mem_cons_self)
          have ends :
            lowerLetters (front ++ [c]) = lowerBetween false [c] front ++ more ++ [low] := by
            rw [lowerLetters_append, lowerBetween, lowerBetween, List.append_nil, List.append_nil,
              form, List.append_assoc]
          rw [List.rdropWhile_concat_neg _ _ _ (by simp [blank]), ends,
            List.rdropWhile_concat_neg _ _ _ (by simp [solid])]

/-- Lower-casing adds no blanks at the ends of a text and takes none away. -/
theorem trim_lowerLetters (letters : List Char) :
    trim (lowerLetters letters) = lowerLetters (trim letters) := by
  rw [trim, trimStart_lowerLetters, trimEnd_lowerLetters, trim]

theorem trim_eq_self_of_trim_lowerLetters {letters : List Char}
    (trimmed : trim (lowerLetters letters) = lowerLetters letters) : trim letters = letters := by
  obtain ⟨before, after, blankBefore, blankAfter, whole⟩ := exists_trim letters
  have low : lowerLetters letters = before ++ lowerLetters (trim letters) ++ after := by
    rw [← lowerLetters_append_blanks _ blankBefore blankAfter, ← whole]
  have lengths := congrArg List.length (trimmed.symm.trans (trim_lowerLetters letters))
  rw [low, List.length_append, List.length_append] at lengths
  have noneBefore : before = [] := List.length_eq_zero_iff.mp (by omega)
  have noneAfter : after = [] := List.length_eq_zero_iff.mp (by omega)
  rw [noneBefore, noneAfter, List.nil_append, List.append_nil] at whole
  exact whole.symm

end Cohort.Text
