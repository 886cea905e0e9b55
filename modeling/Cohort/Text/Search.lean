namespace Cohort.Text

/-- Does `needle` occur in `text` as a run of consecutive characters? -/
def containsRun (needle : List Char) : List Char → Bool
  | [] => needle.isEmpty
  | c :: rest => needle.isPrefixOf (c :: rest) || containsRun needle rest

/-- `containsRun` finds exactly the runs that a text can be divided around. -/
theorem containsRun_iff {needle text : List Char} :
    containsRun needle text = true ↔ ∃ before after, text = before ++ needle ++ after := by
  induction text with
  | nil =>
      constructor
      · intro found
        exact ⟨[], [], by simpa [containsRun] using found⟩
      · rintro ⟨before, after, equality⟩
        simp_all [containsRun]
  | cons c rest induction =>
      simp only [containsRun, Bool.or_eq_true, List.isPrefixOf_iff_prefix, induction]
      constructor
      · rintro (⟨after, equality⟩ | ⟨before, after, equality⟩)
        · exact ⟨[], after, by simp [equality]⟩
        · exact ⟨c :: before, after, by simp [equality]⟩
      · rintro ⟨before, after, equality⟩
        cases before with
        | nil => exact Or.inl ⟨after, by simpa using equality.symm⟩
        | cons first before =>
            simp only [List.cons_append, List.cons.injEq] at equality
            exact Or.inr ⟨before, after, equality.2⟩

/-- Cut a text at every occurrence of a separator.  There is always at least one
piece. -/
def splitAt (separator : Char) : List Char → List (List Char)
  | [] => [[]]
  | c :: rest =>
      if c = separator then [] :: splitAt separator rest
      else
        match splitAt separator rest with
        | [] => [[c]]
        | piece :: pieces => (c :: piece) :: pieces

def joinWith (separator : Char) : List (List Char) → List Char
  | [] => []
  | [piece] => piece
  | piece :: pieces => piece ++ separator :: joinWith separator pieces

end Cohort.Text
