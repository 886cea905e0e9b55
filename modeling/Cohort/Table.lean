/-!
# Tables

The view of a table is `find?`: `find?_insert` and `find?_modify` say what writing
changes, and `ext_find?` that two tables which answer every search alike are equal.
-/

namespace Cohort

/-- Records under identifiers, in ascending order of the identifiers. -/
structure Table (α : Type) where
  /-- The identifiers with their records. -/
  entries : List (Int × α)
  /-- No identifier is repeated and none is out of order. -/
  ascending : entries.Pairwise (·.1 < ·.1)

namespace Table

variable {α : Type}

def empty : Table α :=
  ⟨[], .nil⟩

instance : Inhabited (Table α) := ⟨empty⟩

def lookup (id : Int) : List (Int × α) → Option α
  | [] => none
  | (key, record) :: rest => if key = id then some record else lookup id rest

def find? (table : Table α) (id : Int) : Option α :=
  lookup id table.entries

def records (table : Table α) : List α :=
  table.entries.map (·.2)

/-- Put a record in its place among ascending entries, over the one that is there. -/
def place (id : Int) (record : α) : List (Int × α) → List (Int × α)
  | [] => [(id, record)]
  | (key, other) :: rest =>
      if id < key then (id, record) :: (key, other) :: rest
      else if id = key then (id, record) :: rest
      else (key, other) :: place id record rest

theorem mem_place_key {id : Int} {record : α} {entries : List (Int × α)} {entry : Int × α}
    (member : entry ∈ place id record entries) : entry.1 = id ∨ entry ∈ entries := by
  induction entries with
  | nil =>
      simp only [place, List.mem_singleton] at member
      exact Or.inl (by rw [member])
  | cons first rest induction =>
      obtain ⟨key, other⟩ := first
      unfold place at member
      split at member
      · rcases List.mem_cons.mp member with rfl | member
        · exact Or.inl rfl
        · exact Or.inr member
      · split at member
        · rcases List.mem_cons.mp member with rfl | member
          · exact Or.inl rfl
          · exact Or.inr (List.mem_cons_of_mem _ member)
        · rcases List.mem_cons.mp member with rfl | member
          · exact Or.inr (by simp)
          · exact (induction member).imp_right (List.mem_cons_of_mem _)

theorem place_ascending {id : Int} {record : α} {entries : List (Int × α)}
    (ascending : entries.Pairwise (·.1 < ·.1)) :
    (place id record entries).Pairwise (·.1 < ·.1) := by
  induction entries with
  | nil => simp [place]
  | cons first rest induction =>
      obtain ⟨key, other⟩ := first
      obtain ⟨below, tail⟩ := List.pairwise_cons.mp ascending
      unfold place
      split
      · rename_i before
        refine List.pairwise_cons.mpr ⟨?_, ascending⟩
        intro entry member
        rcases List.mem_cons.mp member with rfl | member
        · exact before
        · exact Int.lt_trans before (below entry member)
      · split
        · rename_i equality
          subst equality
          exact List.pairwise_cons.mpr ⟨below, tail⟩
        · refine List.pairwise_cons.mpr ⟨?_, induction tail⟩
          intro entry member
          rcases mem_place_key member with equality | member
          · show key < entry.1
            omega
          · exact below entry member

/-- The table with a record under an identifier, over the one that was there. -/
def insert (table : Table α) (id : Int) (record : α) : Table α :=
  ⟨place id record table.entries, place_ascending table.ascending⟩

/-- Change the record under an identifier in a list of entries. -/
def modifyEntries (id : Int) (change : α → α) (entries : List (Int × α)) : List (Int × α) :=
  entries.map fun entry => if entry.1 = id then (entry.1, change entry.2) else entry

theorem modifyEntries_keys (id : Int) (change : α → α) (entries : List (Int × α)) :
    (modifyEntries id change entries).map (·.1) = entries.map (·.1) := by
  induction entries with
  | nil => rfl
  | cons first rest induction =>
      have head : (if first.1 = id then (first.1, change first.2) else first).1 = first.1 := by
        split <;> rfl
      simp only [modifyEntries, List.map_cons, head, List.cons.injEq, true_and]
      exact induction

/-- The table with the record under an identifier changed; the same table if there is
none. -/
def modify (table : Table α) (id : Int) (change : α → α) : Table α where
  entries := modifyEntries id change table.entries
  ascending := by
    have keys := modifyEntries_keys id change table.entries
    have ordered := List.pairwise_map.mpr table.ascending
    rw [← keys] at ordered
    exact List.pairwise_map.mp ordered

@[simp] theorem find?_empty (id : Int) : (empty : Table α).find? id = none := rfl

theorem find?_eq_some_iff {table : Table α} {id : Int} {record : α} :
    table.find? id = some record ↔ (id, record) ∈ table.entries := by
  obtain ⟨entries, ascending⟩ := table
  show lookup id entries = some record ↔ (id, record) ∈ entries
  induction entries with
  | nil => simp [lookup]
  | cons first rest induction =>
      obtain ⟨key, other⟩ := first
      obtain ⟨below, tail⟩ := List.pairwise_cons.mp ascending
      unfold lookup
      split
      · rename_i equality
        subst equality
        constructor
        · intro found
          simp only [Option.some.injEq] at found
          simp [found]
        · intro member
          rcases List.mem_cons.mp member with same | later
          · simp only [Prod.mk.injEq] at same
            simp [same.2]
          · have less : key < key := below (key, record) later
            omega
      · rename_i different
        rw [induction tail]
        constructor
        · exact List.mem_cons_of_mem _
        · intro member
          rcases List.mem_cons.mp member with same | later
          · simp only [Prod.mk.injEq] at same
            exact absurd same.1.symm different
          · exact later

private theorem lookup_place (id other : Int) (record : α) (entries : List (Int × α)) :
    lookup other (place id record entries) =
      if id = other then some record else lookup other entries := by
  induction entries with
  | nil => simp [place, lookup]
  | cons first rest induction =>
      obtain ⟨key, held⟩ := first
      unfold place
      split
      · simp [lookup]
      · split
        · rename_i equality
          subst equality
          simp only [lookup]
          split <;> rfl
        · rename_i notEqual
          simp only [lookup, induction]
          split
          · rename_i equality
            subst equality
            simp [notEqual]
          · rfl

/-- After an insertion the identifier finds the new record and every other what it found
before. -/
@[simp] theorem find?_insert (table : Table α) (id other : Int) (record : α) :
    (table.insert id record).find? other = if id = other then some record else table.find? other :=
  lookup_place id other record table.entries

private theorem lookup_modifyEntries (id other : Int) (change : α → α)
    (entries : List (Int × α)) :
    lookup other (modifyEntries id change entries) =
      if id = other then (lookup other entries).map change else lookup other entries := by
  induction entries with
  | nil => simp [modifyEntries, lookup]
  | cons first rest induction =>
      obtain ⟨key, held⟩ := first
      have step : modifyEntries id change ((key, held) :: rest) =
          (key, if key = id then change held else held) :: modifyEntries id change rest := by
        simp only [modifyEntries, List.map_cons]
        split <;> rfl
      simp only [step, lookup, induction]
      grind

/-- After a change the identifier finds the changed record and every other what it found
before. -/
@[simp] theorem find?_modify (table : Table α) (id other : Int) (change : α → α) :
    (table.modify id change).find? other =
      if id = other then (table.find? other).map change else table.find? other :=
  lookup_modifyEntries id other change table.entries

/-- Two tables that find the same record under every identifier are equal. -/
theorem ext_find? {left right : Table α} (same : ∀ id, left.find? id = right.find? id) :
    left = right := by
  have members : ∀ entry, entry ∈ left.entries ↔ entry ∈ right.entries := by
    intro (id, record)
    rw [← find?_eq_some_iff, ← find?_eq_some_iff, same]
  have nodup (table : Table α) : table.entries.Nodup :=
    table.ascending.imp fun less equal => Int.ne_of_lt less (congrArg Prod.fst equal)
  have permuted : left.entries.Perm right.entries :=
    (List.perm_ext_iff_of_nodup (nodup left) (nodup right)).mpr members
  have lists : left.entries = right.entries :=
    permuted.eq_of_pairwise (fun _ _ _ _ less more => absurd less (Int.lt_asymm more))
      left.ascending right.ascending
  obtain ⟨first, _⟩ := left
  obtain ⟨second, _⟩ := right
  subst lists
  rfl

end Table

end Cohort
