import Cohort.Proofs.Json.Compact
import Cohort.Text.Blank
import Cohort.Text.Numeral
import Mathlib.Data.List.TakeDrop
import Mathlib.Data.List.TakeWhile

/-!
# Numerals are read back

The digits that are written for a number spell the number, without a needless zero in
front.
-/

namespace Cohort

section Sequence

variable {α β : Type} {next : α → Option β}

theorem some_bind (part : α) : some part >>= next = next part :=
  rfl

theorem bind_eq_some {reading : Option α} {result : β} :
    reading >>= next = some result ↔ ∃ part, reading = some part ∧ next part = some result :=
  Option.bind_eq_some_iff

end Sequence

namespace Text

theorem bounds_of_isDigit {c : Char} (digit : isDigit c = true) :
    48 ≤ c.toNat ∧ c.toNat ≤ 57 := by
  simp only [isDigit, Bool.and_eq_true, decide_eq_true_eq] at digit
  exact digit

theorem isBlank_of_isDigit {c : Char} (digit : isDigit c = true) : isBlank c = false := by
  have bounds := bounds_of_isDigit digit
  simp only [isBlank, Bool.or_eq_false_iff, Bool.and_eq_false_iff, beq_eq_false_iff_ne,
    decide_eq_false_iff_not]
  omega

theorem digitsFrom_eq_ofDigitChars (read : Nat) (digits : List Char) :
    digitsFrom read digits = Nat.ofDigitChars 10 digits read := by
  rw [Nat.ofDigitChars_eq_foldl, digitsFrom]
  congr 1
  funext value c
  rw [Nat.mul_comm]
  rfl

theorem digitsValue_natLetters (value : Nat) : digitsValue (natLetters value) = value := by
  rw [digitsValue, digitsFrom_eq_ofDigitChars]
  exact Nat.ofDigitChars_ten_toDigits

theorem natLetters_ne_nil (value : Nat) : natLetters value ≠ [] :=
  Nat.toDigits_ne_nil

theorem isDigit_of_mem_natLetters {value : Nat} {c : Char} (listed : c ∈ natLetters value) :
    isDigit c = true := by
  have same : isDigit c = c.isDigit := rfl
  rw [same]
  exact Nat.isDigit_of_mem_toDigits (by decide) (by decide) listed

/-- Only the number zero begins with a zero. -/
theorem head?_natLetters {value : Nat} (positive : 0 < value) :
    (natLetters value).head? ≠ some '0' := by
  induction value using Nat.strongRecOn with
  | ind value induction =>
      by_cases single : value < 10
      · have digit : natLetters value = [value.digitChar] := Nat.toDigits_of_lt_base single
        rw [digit, List.head?_cons, Ne, Option.some.injEq, Nat.digitChar_eq_zero]
        omega
      · have split : natLetters value = natLetters (value / 10) ++ [(value % 10).digitChar] :=
          Nat.toDigits_of_base_le (by decide) (by omega)
        obtain ⟨c, rest, first⟩ := List.exists_cons_of_ne_nil (natLetters_ne_nil (value / 10))
        have shorter := induction (value / 10) (by omega) (by omega)
        rw [first] at shorter
        rw [split, first]
        exact shorter

theorem isDigit_or_minus_of_mem_intLetters {value : Int} {c : Char}
    (listed : c ∈ intLetters value) : isDigit c = true ∨ c = '-' := by
  cases value with
  | ofNat magnitude => exact Or.inl (isDigit_of_mem_natLetters listed)
  | negSucc less =>
      rcases List.mem_cons.mp listed with minus | digit
      · exact Or.inr minus
      · exact Or.inl (isDigit_of_mem_natLetters digit)

theorem digits?_natLetters (value : Nat) : digits? (natLetters value) = some value := by
  have numeral : natLetters value ≠ [] ∧ (natLetters value).all isDigit = true :=
    ⟨natLetters_ne_nil value, List.all_eq_true.mpr fun c => isDigit_of_mem_natLetters⟩
  rw [digits?, if_pos numeral, digitsValue_natLetters]

theorem integer?_intLetters (value : Int) : integer? (intLetters value) = some value := by
  cases value with
  | ofNat magnitude =>
      have unsigned {sign : Char} (noDigit : isDigit sign = false) (rest : List Char) :
          natLetters magnitude ≠ sign :: rest := by
        intro same
        have digit : isDigit sign = true :=
          isDigit_of_mem_natLetters (same ▸ List.mem_cons_self)
        rw [noDigit] at digit
        cases digit
      rw [intLetters, integer?, digits?_natLetters]
      · rfl
      · exact unsigned rfl
      · exact unsigned rfl
  | negSucc less =>
      rw [intLetters, integer?, digits?_natLetters]
      rfl

theorem signedNumeral?_intLetters {value : Int} (least : minSigned ≤ value)
    (most : value ≤ maxSigned) : signedNumeral? (intLetters value) = some value := by
  rw [signedNumeral?, integer?_intLetters, Option.bind_some, signed?, if_pos ⟨least, most⟩]

theorem takeWhile_isDigit {digits rest : List Char} (all : ∀ c ∈ digits, isDigit c = true)
    (stops : ∀ c ∈ rest.head?, isDigit c = false) :
    (digits ++ rest).takeWhile isDigit = digits := by
  have none : rest.takeWhile isDigit = [] := by
    cases rest with
    | nil => rfl
    | cons c rest => rw [List.takeWhile_cons, stops c rfl, if_neg Bool.false_ne_true]
  rw [List.takeWhile_append_of_pos all, none, List.append_nil]

end Text

namespace Json

open Text

theorem isBare_of_isDigit {c : Char} (digit : isDigit c = true) : isBare c = true := by
  have same : isDigit c = c.isDigit := rfl
  rw [same] at digit
  simp [isBare, Char.isAlphanum, digit]

theorem Literal.read?_natLetters (value : Nat) :
    Literal.read? (natLetters value) =
        some
          { negative := false, whole := natLetters value, fraction := none, exponent := none } ∧
      Literal.read? ('-' :: natLetters value) =
        some
          { negative := true, whole := natLetters value, fraction := none,
            exponent := none } := by
  have digits : ∀ c ∈ natLetters value, isDigit c = true := fun c => isDigit_of_mem_natLetters
  have spanned : (natLetters value).span isDigit = (natLetters value, []) := by
    rw [List.span_eq_takeWhile_dropWhile, List.takeWhile_eq_self_iff.mpr digits,
      List.dropWhile_eq_nil_iff.mpr digits]
  have proper : ¬(natLetters value = [] ∨
      ((natLetters value).head? = some '0' ∧ 1 < (natLetters value).length)) := by
    intro improper
    rcases improper with none | ⟨zero, longer⟩
    · exact natLetters_ne_nil value none
    · cases Nat.eq_zero_or_pos value with
      | inl isZero =>
          subst isZero
          exact absurd longer (by decide)
      | inr positive => exact head?_natLetters positive zero
  have unsigned : ∀ rest, natLetters value ≠ '-' :: rest := by
    intro rest same
    have minus := digits '-' (same ▸ List.mem_cons_self)
    cases minus
  constructor
  · unfold Literal.read?
    split
    rename_i negative letters given
    split at given
    · rename_i rest same
      exact (unsigned rest same).elim
    · cases given
      simp only [spanned, if_neg proper]
      rfl
  · unfold Literal.read?
    simp only [spanned, if_neg proper]
    rfl

/-- What is made of digits and minus signs is none of the three words. -/
theorem Token.ofBare?_numeral {letters : List Char} {literal : Literal}
    (numeric : ∀ c ∈ letters, isDigit c = true ∨ c = '-')
    (read : Literal.read? letters = some literal) :
    Token.ofBare? letters = some (.number literal.number?) := by
  have apart {word : List Char} {c : Char} (listed : c ∈ word)
      (other : ¬(isDigit c = true ∨ c = '-')) : letters ≠ word := by
    intro same
    exact other (numeric c (same ▸ listed))
  have notNull : letters ≠ ['n', 'u', 'l', 'l'] := apart (c := 'n') (by decide) (by decide)
  have notTrue : letters ≠ ['t', 'r', 'u', 'e'] := apart (c := 't') (by decide) (by decide)
  have notFalse : letters ≠ ['f', 'a', 'l', 's', 'e'] := apart (c := 'f') (by decide) (by decide)
  rw [Token.ofBare?, if_neg notNull, if_neg notTrue, if_neg notFalse, read]
  rfl

theorem Number.legible_int {value : Int} (least : minSigned ≤ value) (most : value ≤ maxUnsigned) :
    (Number.int value).Legible := by
  cases value with
  | ofNat magnitude =>
      have numeric : ∀ c ∈ natLetters magnitude, isDigit c = true ∨ c = '-' := by
        intro c listed
        left
        exact isDigit_of_mem_natLetters listed
      constructor
      · intro c listed
        exact isBare_of_isDigit (isDigit_of_mem_natLetters listed)
      · have token := Token.ofBare?_numeral numeric (Literal.read?_natLetters magnitude).1
        have within : minSigned ≤ (magnitude : Int) ∧ (magnitude : Int) ≤ maxUnsigned :=
          ⟨least, most⟩
        refine token.trans ?_
        simp [Literal.number?, digitsValue_natLetters, within]
  | negSucc less =>
      have numeric : ∀ c ∈ '-' :: natLetters (less + 1), isDigit c = true ∨ c = '-' := by
        intro c listed
        rcases List.mem_cons.mp listed with minus | digit
        · exact Or.inr minus
        · exact Or.inl (isDigit_of_mem_natLetters digit)
      constructor
      · intro c listed
        rcases numeric c listed with digit | minus
        · exact isBare_of_isDigit digit
        · rw [minus]
          rfl
      · have token := Token.ofBare?_numeral numeric (Literal.read?_natLetters (less + 1)).2
        have same : -((less + 1 : Nat) : Int) = .negSucc less := rfl
        have notZero : ¬((less : Int) + 1 = 0) := by omega
        refine token.trans ?_
        rw [Literal.number?, digitsValue_natLetters]
        simp only [if_true, same]
        simp [least, most, notZero]

end Json

end Cohort
