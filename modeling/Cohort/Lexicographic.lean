namespace Cohort

/-- Does the first list come before the second, or is it the same? -/
def lexAtMost : List Int → List Int → Bool
  | [], _ => true
  | _ :: _, [] => false
  | first :: rest, other :: others =>
      if first = other then lexAtMost rest others else decide (first < other)

theorem lexAtMost_total (left right : List Int) :
    lexAtMost left right = true ∨ lexAtMost right left = true := by
  induction left generalizing right with
  | nil => exact Or.inl rfl
  | cons first rest induction =>
      cases right with
      | nil => exact Or.inr rfl
      | cons other others =>
          by_cases equality : first = other
          · subst equality
            simpa [lexAtMost] using induction others
          · have reversed : ¬other = first := fun same => equality same.symm
            simp only [lexAtMost, equality, reversed, if_false, decide_eq_true_eq]
            omega

theorem lexAtMost_antisymm {left right : List Int} (forward : lexAtMost left right = true)
    (backward : lexAtMost right left = true) : left = right := by
  induction left generalizing right with
  | nil =>
      cases right with
      | nil => rfl
      | cons other others => simp [lexAtMost] at backward
  | cons first rest induction =>
      cases right with
      | nil => simp [lexAtMost] at forward
      | cons other others =>
          by_cases equality : first = other
          · subst equality
            simp only [lexAtMost, if_true] at forward backward
            rw [induction forward backward]
          · have reversed : ¬other = first := fun same => equality same.symm
            simp only [lexAtMost, equality, reversed, if_false, decide_eq_true_eq]
              at forward backward
            omega

theorem lexAtMost_trans {first second third : List Int} (left : lexAtMost first second = true)
    (right : lexAtMost second third = true) : lexAtMost first third = true := by
  induction first generalizing second third with
  | nil => rfl
  | cons head tail induction =>
      cases second with
      | nil => simp [lexAtMost] at left
      | cons middle middles =>
          cases third with
          | nil => simp [lexAtMost] at right
          | cons last lasts =>
              simp only [lexAtMost] at left right ⊢
              by_cases near : head = middle
              · subst near
                by_cases far : head = last
                · subst far
                  simp only [if_true] at left right ⊢
                  exact induction left right
                · simpa [far] using right
              · by_cases far : middle = last
                · subst far
                  simpa [near] using left
                · simp only [near, far, if_false, decide_eq_true_eq] at left right
                  have different : ¬head = last := by omega
                  simp only [different, if_false, decide_eq_true_eq]
                  omega

end Cohort
