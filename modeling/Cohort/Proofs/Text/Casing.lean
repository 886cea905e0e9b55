import Cohort.Proofs.Text.Lowering
import Cohort.Text.Blank

/-!
# What lower-casing changes

What lower-casing writes is settled: it stays as it is wherever it stands.  A break is a
character that is neither cased nor passed over, such as a comma, and what is on one
side of it means nothing to the letters on the other.
-/

namespace Cohort.Text

/-- Do all of the points `first`, `first + step`, … up to `last` lie in the ranges? -/
def covered (first last step : Nat) : List (Nat × Nat) → Bool
  | [] => false
  | (low, high) :: ranges =>
      low.ble first &&
        bif high.blt first then covered first last step ranges
        else last.ble high || covered (first + ((high - first) / step + 1) * step) last step ranges

/-- Does no row give any of the points `first`, `first + step`, … up to `last` another
form?  Inside a row the points may lie between the letters. -/
def unlisted (first last step : Nat) : List (Nat × Nat × Nat × Int) → Bool
  | [] => true
  | (low, high, width, _) :: rows =>
      bif high.blt first then unlisted first last step rows
      else
        last.blt low ||
          (step.beq 2 || first.beq last) && width.beq 2 && ((first + low) % 2).beq 1 &&
            unlisted first last step rows

theorem inRanges_of_covered {ranges : List (Nat × Nat)} {first last step place : Nat}
    (all : covered first last step ranges = true) (within : first + place * step ≤ last) :
    inRanges (first + place * step) ranges = true := by
  induction ranges generalizing first place with
  | nil => cases all
  | cons range ranges induction =>
      obtain ⟨low, high⟩ := range
      rw [covered, Bool.and_eq_true, Nat.ble_eq] at all
      obtain ⟨least, rest⟩ := all
      rw [inRanges, if_neg (by omega)]
      split
      · rfl
      · rename_i above
        simp only [cond_eq_ite, Nat.blt_eq] at rest
        split at rest
        · exact induction rest within
        · rw [Bool.or_eq_true, Nat.ble_eq] at rest
          have later := rest.resolve_left (by omega)
          -- The first point behind the range is so many places on.
          have passed : (high - first) / step + 1 ≤ place := by
            apply Nat.succ_le_of_lt
            apply Nat.div_lt_of_lt_mul
            rw [Nat.mul_comm]
            omega
          obtain ⟨left, rfl⟩ := Nat.exists_eq_add_of_le passed
          rw [Nat.add_mul, ← Nat.add_assoc] at within ⊢
          exact induction later within

theorem lowerPoint_of_unlisted {rows : List (Nat × Nat × Nat × Int)}
    {first last step place : Nat} (none : unlisted first last step rows = true)
    (within : first + place * step ≤ last) :
    lowerPoint (first + place * step) rows = first + place * step := by
  induction rows with
  | nil => rfl
  | cons row rows induction =>
      obtain ⟨low, high, width, shift⟩ := row
      simp only [unlisted, cond_eq_ite, Nat.blt_eq] at none
      unfold lowerPoint
      split
      · rfl
      · split at none
        · rw [if_neg (by omega)]
          exact induction none
        · simp only [Bool.or_eq_true, Bool.and_eq_true, Nat.blt_eq, Nat.beq_eq] at none
          obtain ⟨⟨⟨pace, rfl⟩, odd⟩, later⟩ := none.resolve_left (by omega)
          split
          · -- The point and the letters of the row have different parities.
            rcases pace with rfl | rfl <;> rw [if_neg (by omega)]
          · exact induction later

/-- A point has a form of its own only from a row in which it is listed. -/
theorem lowerPoint_cases (point : Nat) (rows : List (Nat × Nat × Nat × Int)) :
    lowerPoint point rows = point ∨
      ∃ first last step shift place, (first, last, step, shift) ∈ rows ∧
        point = first + place * step ∧ point ≤ last ∧
        lowerPoint point rows = ((point : Int) + shift).toNat := by
  induction rows with
  | nil => exact Or.inl rfl
  | cons row rows induction =>
      obtain ⟨first, last, step, shift⟩ := row
      unfold lowerPoint
      split
      · exact Or.inl rfl
      · split
        · split
          · rename_i notBefore notAfter onStep
            have place : point = first + (point - first) / step * step := by
              rw [Nat.div_mul_cancel (Nat.dvd_of_mod_eq_zero onStep)]
              omega
            exact Or.inr ⟨first, last, step, shift, _, List.mem_cons_self, place, notAfter, rfl⟩
          · exact Or.inl rfl
        · refine induction.imp_right ?_
          rintro ⟨first, last, step, shift, place, listed, rest⟩
          exact ⟨first, last, step, shift, place, List.mem_cons_of_mem _ listed, rest⟩

/-- Are the letters of a row and their forms cased, and have the forms no other form? -/
def isCasedRow (row : Nat × Nat × Nat × Int) : Bool :=
  let (first, last, step, shift) := row
  let lowFirst := ((first : Int) + shift).toNat
  let lowLast := ((last : Int) + shift).toNat
  0 ≤ first + shift && covered first last step casedRanges &&
    covered lowFirst lowLast step casedRanges && unlisted lowFirst lowLast step lowerRows &&
    (lowLast < 'İ'.toNat || 'İ'.toNat < lowFirst) &&
    (lowLast < 0xD800 || 0xDFFF < lowFirst && lowLast < 0x110000)

theorem isCasedRow_of_mem : ∀ row ∈ lowerRows, isCasedRow row = true := by
  have all : lowerRows.all isCasedRow = true := by decide +kernel
  exact List.all_eq_true.mp all

/-- Does a character stay as it is wherever it stands? -/
def isSettled (c : Char) : Bool :=
  c != 'İ' && lowerChar c == c

/-- Only cased letters are changed, and they become settled cased letters. -/
theorem lowerChar_cases (c : Char) :
    lowerChar c = c ∨
      isCased c = true ∧ isCased (lowerChar c) = true ∧ isSettled (lowerChar c) = true := by
  rcases lowerPoint_cases c.toNat lowerRows with
    same | ⟨first, last, step, shift, place, listed, point, within, form⟩
  · left
    rw [lowerChar, same, Char.ofNat_toNat]
  · right
    have row := isCasedRow_of_mem _ listed
    simp only [isCasedRow, Bool.and_eq_true, Bool.or_eq_true, decide_eq_true_eq] at row
    obtain ⟨⟨⟨⟨⟨shifted, cased⟩, lowCased⟩, settled⟩, dotted⟩, valid⟩ := row
    have lowPoint : lowerPoint c.toNat lowerRows = (first + shift).toNat + place * step := by
      omega
    have lowWithin : (first + shift).toNat + place * step ≤ (last + shift).toNat := by
      omega
    have isChar : (lowerPoint c.toNat lowerRows).isValidChar := by
      unfold Nat.isValidChar
      omega
    have code : (lowerChar c).toNat = lowerPoint c.toNat lowerRows := by
      rw [lowerChar, Char.ofNat, dif_pos isChar]
      rfl
    refine ⟨?_, ?_, ?_⟩
    · rw [isCased, point]
      exact inRanges_of_covered cased (by omega)
    · rw [isCased, code, lowPoint]
      exact inRanges_of_covered lowCased lowWithin
    · have undotted : lowerChar c ≠ 'İ' := by
        intro same
        rw [← Char.toNat_inj, code] at same
        omega
      have again : lowerChar (lowerChar c) = lowerChar c := by
        rw [lowerChar, code, lowPoint, lowerPoint_of_unlisted settled lowWithin, ← lowPoint, ← code,
          Char.ofNat_toNat]
      simp [isSettled, undotted, again]

theorem lowerAt_of_isSettled {c : Char} (settled : isSettled c = true) (before : Bool)
    (after : List Char) : lowerAt before c after = [c] := by
  have noSigma : c ≠ 'Σ' := by
    rintro rfl
    exact absurd settled (by decide +kernel)
  simp only [isSettled, Bool.and_eq_true, bne_iff_ne, beq_iff_eq] at settled
  rw [lowerAt, if_neg noSigma, if_neg settled.1, settled.2]

theorem isSettled_of_mem_lowerAt {before : Bool} {c low : Char} {after : List Char}
    (member : low ∈ lowerAt before c after) : isSettled low = true := by
  unfold lowerAt at member
  split at member
  · have sigma : low = 'ς' ∨ low = 'σ' := by
      split at member
      · exact Or.inl (List.mem_singleton.mp member)
      · exact Or.inr (List.mem_singleton.mp member)
    rcases sigma with rfl | rfl <;> decide +kernel
  · split at member
    · simp only [List.mem_cons, List.not_mem_nil, or_false] at member
      rcases member with rfl | rfl <;> decide +kernel
    · rename_i undotted
      obtain rfl := List.mem_singleton.mp member
      rcases lowerChar_cases c with same | ⟨_, _, settled⟩
      · simp [isSettled, same, undotted]
      · exact settled

theorem isSettled_of_mem_lowerFrom {before : Bool} {low : Char} {letters : List Char}
    (member : low ∈ lowerFrom before letters) : isSettled low = true := by
  induction letters generalizing before with
  | nil => exact absurd member List.not_mem_nil
  | cons c rest induction =>
      rcases List.mem_append.mp member with here | later
      · exact isSettled_of_mem_lowerAt here
      · exact induction later

theorem lowerFrom_of_isSettled {letters : List Char}
    (settled : ∀ c ∈ letters, isSettled c = true) (before : Bool) :
    lowerFrom before letters = letters := by
  induction letters generalizing before with
  | nil => rfl
  | cons c rest induction =>
      rw [lowerFrom, lowerAt_of_isSettled (settled c List.mem_cons_self),
        induction fun c member => settled c (List.mem_cons_of_mem _ member)]
      rfl

/-- The lower case of a text is in lower case. -/
@[simp] theorem lowerLetters_lowerLetters (letters : List Char) :
    lowerLetters (lowerLetters letters) = lowerLetters letters :=
  lowerFrom_of_isSettled (fun _ => isSettled_of_mem_lowerFrom) false

/-- Is a character neither cased nor passed over when the end of a word is looked
for? -/
def isBreak (c : Char) : Bool :=
  !isCased c && !isCaseIgnorable c

theorem isSettled_of_isBreak {c : Char} (breaks : isBreak c = true) : isSettled c = true := by
  have undotted : c ≠ 'İ' := by
    rintro rfl
    exact absurd breaks (by decide +kernel)
  simp only [isBreak, Bool.and_eq_true, Bool.not_eq_true'] at breaks
  rcases lowerChar_cases c with same | ⟨cased, _⟩
  · simp [isSettled, undotted, same]
  · rw [breaks.1] at cased
    cases cased

theorem mem_lowerAt_iff {sign : Char} (breaks : isBreak sign = true) {before : Bool} {c : Char}
    {after : List Char} : sign ∈ lowerAt before c after ↔ sign = c := by
  constructor
  · intro member
    unfold lowerAt at member
    split at member
    · have sigma : sign = 'ς' ∨ sign = 'σ' := by
        split at member
        · exact Or.inl (List.mem_singleton.mp member)
        · exact Or.inr (List.mem_singleton.mp member)
      rcases sigma with rfl | rfl <;> exact absurd breaks (by decide +kernel)
    · split at member
      · simp only [List.mem_cons, List.not_mem_nil, or_false] at member
        rcases member with rfl | rfl <;> exact absurd breaks (by decide +kernel)
      · obtain rfl := List.mem_singleton.mp member
        rcases lowerChar_cases c with same | ⟨_, cased, _⟩
        · exact same
        · simp [isBreak, cased] at breaks
  · rintro rfl
    rw [lowerAt_of_isSettled (isSettled_of_isBreak breaks)]
    exact List.mem_singleton_self sign

theorem mem_lowerFrom_iff {sign : Char} (breaks : isBreak sign = true) {before : Bool}
    {letters : List Char} : sign ∈ lowerFrom before letters ↔ sign ∈ letters := by
  induction letters generalizing before with
  | nil => rfl
  | cons c rest induction =>
      rw [lowerFrom, List.mem_append, mem_lowerAt_iff breaks, induction, List.mem_cons]

theorem endsCased_of_isBreak {sign : Char} (breaks : isBreak sign = true) (before : Bool) :
    endsCased before sign = false := by
  simp only [isBreak, Bool.and_eq_true, Bool.not_eq_true'] at breaks
  simp [endsCased, breaks.1, breaks.2]

theorem startsCased_append_of_isBreak {sign : Char} (breaks : isBreak sign = true)
    (letters after : List Char) : startsCased (letters ++ sign :: after) = startsCased letters := by
  simp only [isBreak, Bool.and_eq_true, Bool.not_eq_true'] at breaks
  induction letters with
  | nil => simp [startsCased, breaks.1, breaks.2]
  | cons c rest induction =>
      by_cases ignorable : isCaseIgnorable c = true
      · simpa [startsCased, ignorable] using induction
      · simp [startsCased, ignorable]

/-- The parts of a text on both sides of a break are lower-cased apart. -/
theorem lowerLetters_append_break {sign : Char} (breaks : isBreak sign = true)
    (front back : List Char) :
    lowerLetters (front ++ sign :: back) = lowerLetters front ++ sign :: lowerLetters back := by
  have frontKept : lowerBetween false (sign :: back) front = lowerLetters front := by
    rw [lowerLetters, lowerFrom_eq_lowerBetween, lowerBetween_eq_iff]
    intro before after _
    rw [startsCased_append_of_isBreak breaks, List.append_nil]
  rw [lowerLetters_append, frontKept, lowerBetween,
    lowerAt_of_isSettled (isSettled_of_isBreak breaks), endsCased_of_isBreak breaks,
    ← lowerFrom_eq_lowerBetween]
  rfl

theorem isBreak_comma : isBreak ',' = true := by
  decide +kernel

def blankPoints : List Nat :=
  List.range' 0x9 5 ++ List.range' 0x2000 11 ++
    [0x20, 0x85, 0xA0, 0x1680, 0x2028, 0x2029, 0x202F, 0x205F, 0x3000]

theorem mem_blankPoints {c : Char} (blank : isBlank c = true) : c.toNat ∈ blankPoints := by
  simp only [isBlank, Bool.or_eq_true, Bool.and_eq_true, decide_eq_true_eq, beq_iff_eq] at blank
  simp only [blankPoints, List.mem_append, List.mem_range'_1, List.mem_cons, List.not_mem_nil,
    or_false]
  omega

theorem isBreak_of_isBlank {c : Char} (blank : isBlank c = true) : isBreak c = true := by
  have points : ∀ point ∈ blankPoints,
      (!inRanges point casedRanges && !inRanges point caseIgnorableRanges) = true := by
    decide +kernel
  exact points c.toNat (mem_blankPoints blank)

end Cohort.Text
