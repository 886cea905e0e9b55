import Cohort.Json.Record
import Cohort.Proofs.Text.Numerals

/-!
# Records are read back

A reader and a writer belong together when what the reader gives satisfies a condition,
and whatever satisfies the condition is written legibly and read back.
-/

namespace Cohort.Json

open Text

/-- Only items with the property are read, and each of them is written so that it is
read back. -/
structure ReadBack {α : Type} (read : Tree → Option α) (write : α → Value) (Held : α → Prop) :
    Prop where
  held : ∀ tree item, read tree = some item → Held item
  legible : ∀ item, Held item → (write item).Legible
  reads : ∀ item, Held item → read (write item).tree = some item

def IsSigned (value : Int) : Prop :=
  minSigned ≤ value ∧ value ≤ maxSigned

def IsUnsigned (value : Nat) : Prop :=
  value ≤ maxUnsigned

theorem readBack_signed : ReadBack Tree.signed? Value.int IsSigned where
  held := by
    intro tree value read
    unfold Tree.signed? at read
    split at read
    · obtain ⟨within, same⟩ := Option.ite_none_right_eq_some.mp read
      cases same
      exact within
    · cases read
  legible := by
    intro value within
    have most : maxSigned ≤ maxUnsigned := by decide
    exact Number.legible_int within.1 (Int.le_trans within.2 most)
  reads := by
    intro value within
    exact if_pos within

theorem readBack_unsigned : ReadBack Tree.unsigned? Value.nat IsUnsigned where
  held := by
    intro tree value read
    unfold Tree.unsigned? at read
    split at read
    · obtain ⟨within, same⟩ := Option.ite_none_right_eq_some.mp read
      cases same
      unfold IsUnsigned
      omega
    · cases read
  legible := by
    intro value within
    have least : minSigned ≤ 0 := by decide
    exact Number.legible_int (Int.le_trans least (Int.natCast_nonneg value))
      (Int.ofNat_le.mpr within)
  reads := by
    intro value within
    exact if_pos ⟨Int.natCast_nonneg value, Int.ofNat_le.mpr within⟩

@[simp] theorem text?_text (value : String) : (Value.text value).tree.text? = some value :=
  rfl

@[simp] theorem bool?_bool (value : Bool) : (Value.bool value).tree.bool? = some value :=
  rfl

section List

variable {α : Type} {read : Tree → Option α} {write : α → Value} {Held : α → Prop}

theorem ReadBack.list (items : ReadBack read write Held) :
    ReadBack (Tree.list? read) (fun list => .array (list.map write))
      fun list => ∀ item ∈ list, Held item where
  held := by
    intro tree list found
    unfold Tree.list? at found
    split at found
    · rename_i trees
      induction trees generalizing list with
      | nil =>
          cases found
          exact List.forall_mem_nil _
      | cons first rest induction =>
          simp only [List.mapM_cons, Option.bind_eq_bind, Option.bind_eq_some_iff,
            Option.pure_def] at found
          obtain ⟨item, readFirst, others, readRest, same⟩ := found
          cases same
          exact List.forall_mem_cons.mpr
            ⟨items.held first item readFirst, induction others readRest⟩
    · cases found
  legible := by
    intro list held
    apply Value.legibleItems_map
    intro item listed
    exact items.legible item (held item listed)
  reads := by
    intro list held
    show (Value.treesOfItems (list.map write)).mapM read = some list
    induction list with
    | nil => rfl
    | cons item list induction =>
        obtain ⟨first, others⟩ := List.forall_mem_cons.mp held
        simp only [List.map_cons, Value.treesOfItems, List.mapM_cons, items.reads item first,
          induction others, Option.bind_eq_bind, Option.bind_some, Option.pure_def]

end List

section Field

variable {α : Type} {read : Tree → Option α} {write : α → Value} {Held : α → Prop}
  {record : Record} {name : String} {item : α}

theorem ReadBack.required (field : ReadBack read write Held)
    (found : record.required name read = some item) : Held item := by
  obtain ⟨tree, _, given⟩ := Option.bind_eq_some_iff.mp found
  exact field.held tree item given

theorem ReadBack.withDefault (field : ReadBack read write Held) {value : α} (held : Held value)
    (found : record.withDefault name value read = some item) : Held item := by
  unfold Record.withDefault at found
  split at found
  · cases found
    exact held
  · exact field.held _ item found

end Field

namespace Record

/-- A tree that may be null. -/
def orNull {α : Type} (read : Tree → Option α) : Tree → Option (Option α)
  | .null => some none
  | tree => (read tree).map some

theorem optional_eq {α : Type} (record : Record) (name : String) (read : Tree → Option α) :
    record.optional name read = ((record.get? name).map (orNull read)).getD (some none) := by
  unfold optional
  split
  · rename_i absent
    rw [absent]
    rfl
  · rename_i null
    rw [null]
    rfl
  · rename_i tree notNull found
    rw [found]
    cases tree with
    | null => exact (notNull rfl).elim
    | _ => rfl

@[simp] theorem orNull_optionalText (text : Option String) :
    orNull Tree.text? (Value.optionalText text).tree = some text := by
  cases text <;> rfl

theorem known?_treesOfMembers {names : List String} {members : List (String × Value)}
    (known : ∀ member ∈ members, member.1 ∈ names) :
    known? names (Value.treesOfMembers members) =
      some (members.map fun member => (member.1, member.2.tree)) := by
  induction members with
  | nil => rfl
  | cons member members induction =>
      obtain ⟨first, others⟩ := List.forall_mem_cons.mp known
      have listed : names.contains member.1 = true := List.contains_iff_mem.mpr first
      simp only [Value.treesOfMembers, known?, induction others, Option.bind_eq_bind,
        Option.bind_some, listed, if_true, List.map_cons]

/-- An object with exactly the fields of a record, each once, is read as these
fields. -/
theorem ofTree?_object {names : List String} {members : List (String × Value)}
    (declared : members.map Prod.fst = names) (distinct : names.Nodup) :
    ofTree? names (Value.object members).tree =
      some { fields := members.map fun member => (member.1, member.2.tree) } := by
  have known : ∀ member ∈ members, member.1 ∈ names := by
    intro member listed
    exact declared ▸ List.mem_map_of_mem listed
  have same : (members.map fun member => (member.1, member.2.tree)).map (·.1) = names := by
    rw [List.map_map]
    exact declared
  have trees : (Value.object members).tree = .object (Value.treesOfMembers members) := rfl
  rw [trees, ofTree?, known?_treesOfMembers known, Option.bind_eq_bind, Option.bind_some, same,
    if_pos distinct]

end Record

end Cohort.Json
