/-!
# Sets of identifiers

A set of identifiers is its strictly ascending list, so two sets with the same elements
are equal and every listing of a set is in order.
-/

namespace Cohort

/-- A finite set of identifiers, kept as its ascending list. -/
structure IdSet where
  /-- The elements in ascending order. -/
  toList : List Int
  /-- No element is repeated and none is out of order. -/
  ascending : toList.Pairwise (· < ·)
  deriving DecidableEq

namespace IdSet

instance : Membership Int IdSet :=
  ⟨fun set id => id ∈ set.toList⟩

instance (id : Int) (set : IdSet) : Decidable (id ∈ set) :=
  inferInstanceAs (Decidable (id ∈ set.toList))

theorem mem_def {id : Int} {set : IdSet} : id ∈ set ↔ id ∈ set.toList :=
  Iff.rfl

def empty : IdSet :=
  ⟨[], .nil⟩

instance : Inhabited IdSet := ⟨empty⟩

@[simp] theorem toList_empty : empty.toList = [] := rfl

@[simp] theorem not_mem_empty (id : Int) : id ∉ empty := by
  simp [mem_def]

/-- Put an identifier in its place in an ascending list. -/
def place (id : Int) : List Int → List Int
  | [] => [id]
  | first :: rest =>
      if id < first then id :: first :: rest
      else if id = first then first :: rest
      else first :: place id rest

@[simp] theorem mem_place {id other : Int} {ids : List Int} :
    other ∈ place id ids ↔ other = id ∨ other ∈ ids := by
  induction ids with
  | nil => simp [place]
  | cons first rest induction =>
      unfold place
      split
      · simp
      · split
        · rename_i equality
          subst equality
          simp
        · simp only [List.mem_cons, induction]
          grind

theorem place_ascending {id : Int} {ids : List Int} (ascending : ids.Pairwise (· < ·)) :
    (place id ids).Pairwise (· < ·) := by
  induction ids with
  | nil => simp [place]
  | cons first rest induction =>
      obtain ⟨below, tail⟩ := List.pairwise_cons.mp ascending
      unfold place
      split
      · rename_i before
        refine List.pairwise_cons.mpr ⟨?_, ascending⟩
        intro other member
        rcases List.mem_cons.mp member with rfl | member
        · exact before
        · exact Int.lt_trans before (below other member)
      · split
        · exact ascending
        · refine List.pairwise_cons.mpr ⟨?_, induction tail⟩
          intro other member
          rcases mem_place.mp member with rfl | member
          · omega
          · exact below other member

def insert (id : Int) (set : IdSet) : IdSet :=
  ⟨place id set.toList, place_ascending set.ascending⟩

@[simp] theorem mem_insert {id other : Int} {set : IdSet} :
    other ∈ set.insert id ↔ other = id ∨ other ∈ set := by
  simp [mem_def, insert]

def ofList (ids : List Int) : IdSet :=
  ids.foldr insert empty

@[simp] theorem mem_ofList {id : Int} {ids : List Int} : id ∈ ofList ids ↔ id ∈ ids := by
  induction ids with
  | nil => simp [ofList]
  | cons first rest induction =>
      have step : ofList (first :: rest) = (ofList rest).insert first := rfl
      simp [step, induction]

def union (left right : IdSet) : IdSet :=
  left.toList.foldr insert right

@[simp] theorem mem_union {id : Int} {left right : IdSet} :
    id ∈ left.union right ↔ id ∈ left ∨ id ∈ right := by
  have elements (ids : List Int) : id ∈ ids.foldr insert right ↔ id ∈ ids ∨ id ∈ right := by
    induction ids with
    | nil => simp
    | cons first rest induction => simp [induction, or_assoc]
  exact elements left.toList

def size (set : IdSet) : Nat :=
  set.toList.length

def isEmpty (set : IdSet) : Bool :=
  set.toList.isEmpty

def contains (set : IdSet) (id : Int) : Bool :=
  set.toList.contains id

@[simp] theorem contains_iff {set : IdSet} {id : Int} : set.contains id = true ↔ id ∈ set := by
  simp [contains, mem_def]

/-- Have two sets an element in common? -/
def meets (left right : IdSet) : Bool :=
  left.toList.any right.contains

theorem meets_iff {left right : IdSet} :
    left.meets right = true ↔ ∃ id, id ∈ left ∧ id ∈ right := by
  simp [meets, mem_def, contains]

theorem nodup (set : IdSet) : set.toList.Nodup :=
  set.ascending.imp Int.ne_of_lt

theorem eq_of_mem_iff {left right : IdSet} (same : ∀ id, id ∈ left ↔ id ∈ right) :
    left = right := by
  have permuted : left.toList.Perm right.toList :=
    (List.perm_ext_iff_of_nodup left.nodup right.nodup).mpr same
  have lists : left.toList = right.toList :=
    permuted.eq_of_pairwise (fun _ _ _ _ less more => absurd less (Int.lt_asymm more))
      left.ascending right.ascending
  obtain ⟨first, _⟩ := left
  obtain ⟨second, _⟩ := right
  subst lists
  rfl

end IdSet

end Cohort
