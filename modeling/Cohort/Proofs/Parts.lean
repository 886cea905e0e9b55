import Cohort.Proofs.Text.Lowering
import Cohort.Rule.Comparison

/-!
Both texts of a comparison are lower-cased as wholes.  So a part of a text is found in
it, at its beginning or at its end, if its capital sigmas are kept there, and at the two
ends only then.
-/

namespace Cohort

open Text

namespace Text

theorem length_lowerLetters_eq (before : Bool) (after letters : List Char) :
    (lowerLetters letters).length = (lowerBetween before after letters).length := by
  rw [lowerLetters, lowerFrom_eq_lowerBetween]
  exact length_lowerBetween false before [] after letters

theorem lowerLetters_prefix_iff {part after : List Char} :
    lowerLetters part <+: lowerLetters (part ++ after) ↔ SigmasKept [] part after := by
  rw [← lowerBetween_eq_lowerLetters_iff, lowerLetters_append]
  have sameLength := length_lowerLetters_eq false after part
  constructor
  · intro begins
    have inPart := List.prefix_of_prefix_length_le begins (List.prefix_append _ _)
      (Nat.le_of_eq sameLength)
    exact (inPart.eq_of_length sameLength).symm
  · intro same
    rw [← same]
    exact List.prefix_append _ _

theorem lowerLetters_suffix_iff {before part : List Char} :
    lowerLetters part <:+ lowerLetters (before ++ part) ↔ SigmasKept before part [] := by
  rw [← lowerBetween_eq_lowerLetters_iff, lowerLetters_append]
  have sameLength := length_lowerLetters_eq (before.foldl endsCased false) [] part
  constructor
  · intro ends
    have inPart := List.suffix_of_suffix_length_le ends (List.suffix_append _ _)
      (Nat.le_of_eq sameLength)
    exact (inPart.eq_of_length sameLength).symm
  · intro same
    rw [← same]
    exact List.suffix_append _ _

theorem containsRun_lowerLetters {before part after : List Char}
    (kept : SigmasKept before part after) :
    containsRun (lowerLetters part) (lowerLetters (before ++ part ++ after)) = true := by
  apply containsRun_iff.mpr
  rw [← lowerBetween_eq_lowerLetters_iff.mpr kept, lowerLetters_append, lowerBetween_append]
  exact ⟨_, _, rfl⟩

end Text

namespace Comparison

/-- A text contains each of its parts whose capital sigmas are kept in it.  It begins
or ends with a part exactly if they are kept there.  They are kept wherever the part
has none. -/
theorem holds_of_part (before part after : String) :
    (SigmasKept before.toList part.toList after.toList →
      (∀ name, lower name = "contains" →
        (ofName name).holds (before ++ part ++ after) part = true) ∧
      ∀ name, lower name = "notcontains" →
        (ofName name).holds (before ++ part ++ after) part = false) ∧
    (∀ name, lower name = "startswith" →
      ((ofName name).holds (part ++ after) part = true ↔
        SigmasKept [] part.toList after.toList)) ∧
    (∀ name, lower name = "endswith" →
      ((ofName name).holds (before ++ part) part = true ↔
        SigmasKept before.toList part.toList [])) ∧
    ('Σ' ∉ part.toList → ∀ front back, SigmasKept front part.toList back) := by
  refine ⟨?_, ?_, ?_, sigmasKept_of_not_mem⟩
  · intro kept
    have found := containsRun_lowerLetters kept
    rw [← String.toList_append, ← String.toList_append] at found
    constructor
    · intro name spelled
      rw [ofName, spelled]
      exact found
    · intro name spelled
      rw [ofName, spelled]
      exact congrArg not found
  · intro name spelled
    rw [ofName, spelled, ← lowerLetters_prefix_iff, ← String.toList_append]
    exact List.isPrefixOf_iff_prefix
  · intro name spelled
    rw [ofName, spelled, ← lowerLetters_suffix_iff, ← String.toList_append]
    exact List.isSuffixOf_iff_suffix

/-- The sigma ends a word in the address as it does in the name of the street. -/
theorem street_found :
    SigmasKept "ΑΒ ".toList "ΟΔΟΣ".toList " 5".toList ∧
      (ofName "Contains").holds ("ΑΒ " ++ "ΟΔΟΣ" ++ " 5") "ΟΔΟΣ" = true ∧
      (ofName "NOTcontains").holds ("ΑΒ " ++ "ΟΔΟΣ" ++ " 5") "ΟΔΟΣ" = false := by
  have kept : SigmasKept "ΑΒ ".toList "ΟΔΟΣ".toList " 5".toList :=
    lowerBetween_eq_lowerLetters_iff.mp (by decide +kernel)
  obtain ⟨contains, omits⟩ := (holds_of_part "ΑΒ " "ΟΔΟΣ" " 5").1 kept
  exact ⟨kept, contains "Contains" (by decide +kernel), omits "NOTcontains" (by decide +kernel)⟩

/-- A text need not contain its parts, nor begin or end with them: a sigma that ends a
word in the one and not in the other has two lower-case forms. -/
theorem sigma_not_found :
    (ofName "contains").holds ("ο" ++ "Σ" ++ "") "Σ" = false ∧
      (ofName "notcontains").holds ("ο" ++ "Σ" ++ "") "Σ" = true ∧
      (ofName "startswith").holds ("οΣ" ++ "α") "οΣ" = false ∧
      (ofName "endswith").holds ("ο" ++ "Σ") "Σ" = false := by
  decide +kernel

end Comparison

end Cohort
