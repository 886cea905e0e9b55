import Cohort.Proofs.Text.Numerals
import Cohort.Time.Text

/-!
# Instants are read back

Each part of an instant is followed by a mark that no number goes on with, so it is read
from in front of whatever comes after it.
-/

namespace Cohort.Instant

open Cohort.Text

theorem digitsValue_padded (width value : Nat) : digitsValue (padded width value) = value := by
  rw [padded, digitsValue, digitsFrom_eq_ofDigitChars, Nat.ofDigitChars_append,
    Nat.ofDigitChars_replicate_zero, Nat.mul_zero]
  exact Nat.ofDigitChars_ten_toDigits

theorem isDigit_of_mem_padded {width value : Nat} {c : Char} (listed : c ∈ padded width value) :
    isDigit c = true := by
  rcases List.mem_append.mp listed with zero | digit
  · rw [(List.mem_replicate.mp zero).2]
    rfl
  · exact isDigit_of_mem_natLetters digit

theorem padded_ne_nil (width value : Nat) : padded width value ≠ [] :=
  List.append_ne_nil_of_right_ne_nil _ (natLetters_ne_nil value)

theorem exists_cons_padded (width value : Nat) :
    ∃ c rest, padded width value = c :: rest ∧ isDigit c = true := by
  obtain ⟨c, rest, split⟩ := List.exists_cons_of_ne_nil (padded_ne_nil width value)
  exact ⟨c, rest, split, isDigit_of_mem_padded (split ▸ List.mem_cons_self)⟩

theorem length_padded {width value : Nat} (positive : 0 < width) (fits : value < tenPow width) :
    (padded width value).length = width := by
  have atMost : (natLetters value).length ≤ width :=
    (Nat.length_toDigits_le_iff (by decide) positive).mpr fits
  rw [padded, List.length_append, List.length_replicate]
  omega

theorem stops_cons {c : Char} (noDigit : isDigit c = false) (rest : List Char) :
    ∀ d ∈ (c :: rest).head?, isDigit d = false := by
  intro d first
  cases first
  exact noDigit

variable {rest : List Char}

theorem readDigits?_padded {most width value : Nat}
    (fits : (padded width value).length ≤ most) (stops : ∀ c ∈ rest.head?, isDigit c = false) :
    readDigits? most (padded width value ++ rest) = some (value, rest) := by
  have digits : (padded width value ++ rest).takeWhile isDigit = padded width value :=
    takeWhile_isDigit (fun c => isDigit_of_mem_padded) stops
  rw [readDigits?, digits, List.take_of_length_le fits]
  simp only [padded_ne_nil, if_false, digitsValue_padded, List.drop_left]

theorem trimStart_cons {c : Char} (solid : isBlank c = false) (rest : List Char) :
    trimStart (c :: rest) = c :: rest := by
  rw [trimStart, List.dropWhile_cons_of_neg (by rw [solid]; exact Bool.false_ne_true)]

theorem trimStart_padded (width value : Nat) (rest : List Char) :
    trimStart (padded width value ++ rest) = padded width value ++ rest := by
  obtain ⟨c, others, split, digit⟩ := exists_cons_padded width value
  rw [split, List.cons_append, trimStart_cons (isBlank_of_isDigit digit)]

theorem skipMark?_cons (mark : Char) (solid : isBlank mark = false) (rest : List Char) :
    skipMark? mark (mark :: rest) = some rest := by
  rw [skipMark?, trimStart_cons solid]
  exact if_pos rfl

theorem readPart?_padded {value : Nat} (small : value < 100)
    (stops : ∀ c ∈ rest.head?, isDigit c = false) :
    readPart? (padded 2 value ++ rest) = some (value, rest) := by
  have two : (padded 2 value).length = 2 := length_padded (by decide) small
  rw [readPart?, trimStart_padded]
  exact readDigits?_padded (Nat.le_of_eq two) stops

theorem readYear?_yearLetters (year : Int) (stops : ∀ c ∈ rest.head?, isDigit c = false) :
    readYear? (yearLetters year ++ rest) = some (year, rest) := by
  have signed (value : Nat) :
      readDigits? (padded 4 value ++ rest).length (padded 4 value ++ rest) =
        some (value, rest) := by
    apply readDigits?_padded _ stops
    rw [List.length_append]
    exact Nat.le_add_right _ _
  unfold yearLetters
  split
  · rename_i short
    obtain ⟨c, others, first, digit⟩ := exists_cons_padded 4 year.toNat
    have small : year.toNat < 10000 := by omega
    have four : (padded 4 year.toNat).length = 4 := length_padded (by decide) small
    have value : ((year.toNat : Nat) : Int) = year := by omega
    unfold readYear?
    rw [trimStart_padded]
    split
    · rename_i same
      rw [first] at same
      cases same
      cases digit
    · rename_i same
      rw [first] at same
      cases same
      cases digit
    · simp only [readDigits?_padded (Nat.le_of_eq four) stops, Option.map_some, value]
  · split
    · rename_i negative
      have minus : trimStart ('-' :: padded 4 year.natAbs ++ rest) =
          '-' :: (padded 4 year.natAbs ++ rest) := trimStart_cons rfl _
      have value : -((year.natAbs : Nat) : Int) = year := by omega
      simp only [readYear?, minus, signed, Option.map_some, value]
    · rename_i notNegative
      have plus : trimStart ('+' :: padded 4 year.natAbs ++ rest) =
          '+' :: (padded 4 year.natAbs ++ rest) := trimStart_cons rfl _
      have value : ((year.natAbs : Nat) : Int) = year := by omega
      simp only [readYear?, plus, signed, Option.map_some, value]

theorem readFraction?_point {width value : Nat} (atMost : width ≤ 9) (positive : 0 < width)
    (fits : value < tenPow width) :
    readFraction? ('.' :: padded width value ++ ['Z']) =
      some (value * tenPow (9 - width), ['Z']) := by
  have digits : (padded width value ++ ['Z']).takeWhile isDigit = padded width value :=
    takeWhile_isDigit (fun c => isDigit_of_mem_padded) (stops_cons rfl _)
  have long : (padded width value).length = width := length_padded positive fits
  have kept : (padded width value).take 9 = padded width value :=
    List.take_of_length_le (by omega)
  have after : (padded width value ++ ['Z']).drop width = ['Z'] := List.drop_left' long
  simp only [List.cons_append, readFraction?, digits, kept, padded_ne_nil, if_false,
    digitsValue_padded, long, after]

theorem readFraction?_fractionLetters {nano : Nat} (within : nano < secondNanos) :
    readFraction? (fractionLetters nano ++ ['Z']) = some (nano, ['Z']) := by
  unfold secondNanos at within
  unfold fractionLetters
  split
  · rename_i none
    rw [none]
    rfl
  split
  · rename_i milli
    have fits : nano / 1000000 < tenPow 3 := Nat.div_lt_of_lt_mul within
    rw [readFraction?_point (by decide) (by decide) fits]
    have whole : nano / 1000000 * tenPow (9 - 3) = nano :=
      Nat.div_mul_cancel (Nat.dvd_of_mod_eq_zero milli)
    rw [whole]
  split
  · rename_i micro
    have fits : nano / 1000 < tenPow 6 := Nat.div_lt_of_lt_mul within
    rw [readFraction?_point (by decide) (by decide) fits]
    have whole : nano / 1000 * tenPow (9 - 6) = nano :=
      Nat.div_mul_cancel (Nat.dvd_of_mod_eq_zero micro)
    rw [whole]
  · rw [readFraction?_point (by decide) (by decide) within]
    exact congrArg (fun value => some (value, ['Z'])) (Nat.mul_one nano)

/-- The parts of an instant in universal time, the second 60 for a leap second, are the
instant. -/
theorem ofLocal?_parts (instant : Instant) :
    ofLocal? instant.date (instant.second / 3600) (instant.second / 60 % 60)
        (instant.second % 60 + instant.nano / secondNanos) (instant.nano % secondNanos) 0 =
      some instant := by
  obtain ⟨inDay, inNanos, leaps⟩ := instant.valid
  have leapWithin : instant.second % 60 + instant.nano / secondNanos ≤ 60 ∧
      (instant.second % 60 + instant.nano / secondNanos) / 60 = instant.nano / secondNanos := by
    unfold secondNanos at inNanos leaps ⊢
    omega
  have nanos : instant.nano % secondNanos + instant.nano / secondNanos * secondNanos =
      instant.nano := Nat.mod_add_div' ..
  have seconds : ((instant.second / 3600 : Nat) : Int) * 3600 +
      ((instant.second / 60 % 60 : Nat) : Int) * 60 +
      ((instant.second % 60 + instant.nano / secondNanos - instant.nano / secondNanos :
        Nat) : Int) - 0 * 60 = (instant.second : Int) := by
    rw [Nat.add_sub_cancel]
    omega
  have within : instant.second / 3600 < 24 ∧ instant.second / 60 % 60 < 60 ∧
      instant.second % 60 + instant.nano / secondNanos ≤ 60 ∧ (0 : Int).natAbs < 24 * 60 :=
    ⟨by omega, by omega, leapWithin.1, by decide⟩
  rw [ofLocal?, if_pos within]
  have notBefore : ¬(instant.second : Int) < 0 := by omega
  have sameDay : (instant.second : Int) < 86400 := by omega
  simp only [leapWithin.2, nanos, seconds, if_neg notBefore, if_pos sameDay, Int.toNat_natCast]
  exact dif_pos instant.valid

theorem stops_fraction (nano : Nat) :
    ∀ c ∈ (fractionLetters nano ++ ['Z']).head?, isDigit c = false := by
  unfold fractionLetters
  split
  · exact stops_cons rfl _
  split
  · exact stops_cons rfl _
  split
  · exact stops_cons rfl _
  · exact stops_cons rfl _

theorem read?_text (instant : Instant) : read? instant.text = some instant := by
  obtain ⟨_, ⟨_, _⟩, _, _⟩ := instant.date.valid
  obtain ⟨inDay, inNanos, leaps⟩ := instant.valid
  have letters : instant.text.toList =
      yearLetters instant.date.year ++ '-' :: (padded 2 instant.date.month ++
        '-' :: (padded 2 instant.date.day ++ 'T' :: (padded 2 (instant.second / 3600) ++
          ':' :: (padded 2 (instant.second / 60 % 60) ++
            ':' :: (padded 2 (instant.second % 60 + instant.nano / secondNanos) ++
              (fractionLetters (instant.nano % secondNanos) ++ ['Z'])))))) := by
    rw [text, String.toList_ofList, letters]
    simp only [List.append_assoc, List.cons_append]
  have days : daysInMonth instant.date.year instant.date.month ≤ 31 := by
    unfold daysInMonth
    split <;> split <;> omega
  have date : Date.ofParts? instant.date.year instant.date.month instant.date.day =
      some instant.date := dif_pos instant.date.valid
  have second : instant.second % 60 + instant.nano / secondNanos < 100 := by
    unfold secondNanos at inNanos ⊢
    omega
  have positive : 0 < secondNanos := by
    unfold secondNanos
    omega
  have fraction : readFraction? (fractionLetters (instant.nano % secondNanos) ++ ['Z']) =
      some (instant.nano % secondNanos, ['Z']) :=
    readFraction?_fractionLetters (Nat.mod_lt _ positive)
  have universal : readOffset? (trimStart ['Z']) = some (0, []) := rfl
  rw [read?, letters, readYear?_yearLetters _ (stops_cons rfl _)]
  simp only [some_bind, skipMark?_cons '-' rfl]
  rw [readPart?_padded (by omega) (stops_cons rfl _)]
  simp only [some_bind, skipMark?_cons '-' rfl]
  rw [readPart?_padded (by omega) (stops_cons rfl _)]
  simp only [some_bind, date]
  rw [readPart?_padded (by omega) (stops_cons rfl _)]
  simp only [some_bind, skipMark?_cons ':' rfl]
  rw [readPart?_padded (by omega) (stops_cons rfl _)]
  simp only [some_bind, skipMark?_cons ':' rfl]
  rw [readPart?_padded second (stops_fraction _)]
  simp only [some_bind, fraction, universal, List.all_nil, if_true]
  exact ofLocal?_parts instant

end Cohort.Instant
