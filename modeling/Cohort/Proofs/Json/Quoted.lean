import Cohort.Json.Quoted

namespace Cohort.Json.Quoted

theorem hexValue?_hexDigit {value : Nat} (small : value < 16) :
    hexValue? (hexDigit value) = some value := by
  have all : ∀ digit < 16, hexValue? (hexDigit digit) = some digit := by decide
  exact all value small

theorem hexDigit_plain {value : Nat} (small : value < 16) :
    hexDigit value ≠ '"' ∧ hexDigit value ≠ '\\' := by
  have all : ∀ digit < 16, hexDigit digit ≠ '"' ∧ hexDigit digit ≠ '\\' := by decide
  exact all value small

theorem pieces?_control {c : Char} (control : c.toNat < 0x20) (rest : List Char) :
    pieces?
      ('\\' :: 'u' :: '0' :: '0' :: hexDigit (c.toNat / 16) :: hexDigit (c.toNat % 16) :: rest) =
      (pieces? rest).map (.char c :: ·) := by
  have high : hexValue? (hexDigit (c.toNat / 16)) = some (c.toNat / 16) :=
    hexValue?_hexDigit (by omega)
  have low : hexValue? (hexDigit (c.toNat % 16)) = some (c.toNat % 16) :=
    hexValue?_hexDigit (by omega)
  have zero : hexValue? '0' = some 0 := rfl
  have unit : hexUnit? '0' '0' (hexDigit (c.toNat / 16)) (hexDigit (c.toNat % 16)) =
      some c.toNat := by
    simp only [hexUnit?, zero, high, low, Option.bind_eq_bind, Option.bind_some, Option.some.injEq]
    omega
  have piece : Piece.ofUnit c.toNat = .char c := by
    have whole : ¬(0xD800 ≤ c.toNat ∧ c.toNat < 0xE000) := by omega
    simp only [Piece.ofUnit, whole, if_false, Char.ofNat_toNat]
  simp only [pieces?, unit, piece, Option.bind_eq_bind, Option.bind_some]
  cases pieces? rest <;> rfl

theorem pieces?_short {letter escaped : Char} (meaning : shortEscape? letter = some escaped)
    (rest : List Char) :
    pieces? ('\\' :: letter :: rest) = (pieces? rest).map (.char escaped :: ·) := by
  have notUnit : letter ≠ 'u' := by
    rintro rfl
    cases meaning
  rw [pieces?, meaning]
  · cases pieces? rest <;> rfl
  · simp [notUnit]

theorem pieces?_plain {c : Char} (allowed : ¬(c.toNat < 0x20 ∨ c = '"' ∨ c = '\\'))
    (rest : List Char) : pieces? (c :: rest) = (pieces? rest).map (.char c :: ·) := by
  have noBackslash : c ≠ '\\' := fun same => allowed (Or.inr (Or.inr same))
  rw [pieces?, if_neg allowed]
  · simp [noBackslash]
  · simp [noBackslash]

/-- What is written for a character is one piece in front of whatever follows. -/
theorem pieces?_encodeChar (c : Char) (rest : List Char) :
    pieces? (encodeChar c ++ rest) = (pieces? rest).map (.char c :: ·) := by
  unfold encodeChar
  iterate 7
    split
    · subst c
      exact pieces?_short rfl rest
  split
  · rename_i control
    exact pieces?_control control rest
  · rename_i noQuote noBackslash _ _ _ _ _ printable
    exact pieces?_plain (by simp [noQuote, noBackslash, printable]) rest

theorem pieces?_encode (letters : List Char) :
    pieces? (encode letters) = some (letters.map .char) := by
  induction letters with
  | nil => rfl
  | cons c rest induction =>
      have split : encode (c :: rest) = encodeChar c ++ encode rest := rfl
      rw [split, pieces?_encodeChar, induction]
      rfl

theorem readPieces?_map_char (letters : List Char) :
    readPieces? (letters.map .char) = some letters := by
  induction letters with
  | nil => rfl
  | cons c rest induction => simp only [List.map_cons, readPieces?, induction, Option.map_some]

/-- What is written between quotes is read back. -/
theorem decode?_encode (letters : List Char) : decode? (encode letters) = some (some letters) := by
  rw [decode?, pieces?_encode, Option.map_some, readPieces?_map_char]

end Cohort.Json.Quoted
