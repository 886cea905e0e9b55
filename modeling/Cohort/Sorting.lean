namespace Cohort

variable {α : Type}

/-- Put an item before the first that it may stand before. -/
def placeBy (mayPrecede : α → α → Bool) (item : α) : List α → List α
  | [] => [item]
  | first :: rest =>
      if mayPrecede item first then item :: first :: rest
      else first :: placeBy mayPrecede item rest

def sortBy (mayPrecede : α → α → Bool) (items : List α) : List α :=
  items.foldr (placeBy mayPrecede) []

variable {mayPrecede : α → α → Bool}

theorem placeBy_perm (item : α) (items : List α) :
    (placeBy mayPrecede item items).Perm (item :: items) := by
  induction items with
  | nil => exact .refl _
  | cons first rest induction =>
      unfold placeBy
      split
      · exact .refl _
      · exact (induction.cons first).trans (.swap item first rest)

theorem sortBy_perm (items : List α) : (sortBy mayPrecede items).Perm items := by
  induction items with
  | nil => exact .refl _
  | cons item rest induction => exact (placeBy_perm item _).trans (induction.cons item)

section Order

variable (total : ∀ left right, mayPrecede left right = true ∨ mayPrecede right left = true)
  (transitive : ∀ first second third, mayPrecede first second = true →
    mayPrecede second third = true → mayPrecede first third = true)

include total transitive

theorem placeBy_pairwise {item : α} {items : List α}
    (sorted : items.Pairwise (mayPrecede · · = true)) :
    (placeBy mayPrecede item items).Pairwise (mayPrecede · · = true) := by
  induction items with
  | nil => simp [placeBy]
  | cons first rest induction =>
      obtain ⟨least, restSorted⟩ := List.pairwise_cons.mp sorted
      unfold placeBy
      split
      · rename_i before
        refine List.pairwise_cons.mpr ⟨fun other listed => ?_, sorted⟩
        rcases List.mem_cons.mp listed with rfl | later
        · exact before
        · exact transitive _ _ _ before (least other later)
      · rename_i behind
        refine List.pairwise_cons.mpr ⟨fun other listed => ?_, induction restSorted⟩
        rcases List.mem_cons.mp ((placeBy_perm item rest).mem_iff.mp listed) with rfl | later
        · exact (total first other).resolve_right behind
        · exact least other later

theorem sortBy_pairwise (items : List α) :
    (sortBy mayPrecede items).Pairwise (mayPrecede · · = true) := by
  induction items with
  | nil => exact .nil
  | cons item rest induction => exact placeBy_pairwise total transitive induction

end Order

end Cohort
