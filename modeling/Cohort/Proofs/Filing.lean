import Cohort.Table

/-!
A table is filed by a key when every record lies under the identifier that the key reads
off it.  In a filed table the list of records says everything.
-/

namespace Cohort.Table

variable {α : Type}

theorem mem_records {table : Table α} {record : α} :
    record ∈ table.records ↔ ∃ id, table.find? id = some record := by
  simp only [records, List.mem_map, find?_eq_some_iff]
  constructor
  · intro member
    rcases member with ⟨⟨id, held⟩, member, rfl⟩
    exact ⟨id, member⟩
  · intro member
    rcases member with ⟨id, member⟩
    exact ⟨(id, record), member, rfl⟩

/-- Each record is stored under the identifier that it carries. -/
def FiledBy (key : α → Int) (table : Table α) : Prop :=
  ∀ id record, table.find? id = some record → key record = id

namespace FiledBy

variable {key : α → Int} {table : Table α}

theorem empty : FiledBy key (.empty : Table α) := by
  intro id record found
  simp at found

theorem insert (filed : FiledBy key table) (record : α) :
    FiledBy key (table.insert (key record) record) := by
  intro id other found
  rw [find?_insert] at found
  split at found
  · cases found
    assumption
  · exact filed id other found

theorem modify (filed : FiledBy key table) (id : Int) {change : α → α}
    (keeps : ∀ record, key (change record) = key record) :
    FiledBy key (table.modify id change) := by
  intro other record found
  rw [find?_modify] at found
  split at found
  · obtain ⟨held, heldFound, rfl⟩ := Option.map_eq_some_iff.mp found
    exact (keeps held).trans (filed other held heldFound)
  · exact filed other record found

theorem mem_records (filed : FiledBy key table) {record : α} :
    record ∈ table.records ↔ table.find? (key record) = some record := by
  rw [Table.mem_records]
  constructor
  · intro member
    rcases member with ⟨id, found⟩
    rw [filed id record found]
    exact found
  · intro found
    exact ⟨key record, found⟩

theorem entry_key (filed : FiledBy key table) {entry : Int × α} (member : entry ∈ table.entries) :
    key entry.2 = entry.1 :=
  filed entry.1 entry.2 (find?_eq_some_iff.mpr member)

theorem records_ascending (filed : FiledBy key table) :
    table.records.Pairwise (key · < key ·) := by
  refine List.pairwise_map.mpr (table.ascending.imp_of_mem ?_)
  intro first second firstMember secondMember less
  rw [filed.entry_key firstMember, filed.entry_key secondMember]
  exact less

theorem records_keys_nodup (filed : FiledBy key table) : (table.records.map key).Nodup :=
  List.pairwise_map.mpr (filed.records_ascending.imp fun less => Int.ne_of_lt less)

theorem records_modify (filed : FiledBy key table) (id : Int) (change : α → α) :
    (table.modify id change).records =
      table.records.map fun record => if key record = id then change record else record := by
  simp only [records, Table.modify, modifyEntries, List.map_map]
  refine List.map_congr_left fun entry member => ?_
  have carried := filed.entry_key member
  simp only [Function.comp_apply, carried]
  split <;> rfl

end FiledBy

private theorem length_le_place (id : Int) (record : α) (entries : List (Int × α)) :
    entries.length ≤ (place id record entries).length := by
  induction entries with
  | nil => exact Nat.zero_le _
  | cons first rest induction =>
      unfold place
      split
      · exact Nat.le_succ _
      · split
        · exact Nat.le_refl _
        · exact Nat.succ_le_succ induction

theorem length_le_insert (table : Table α) (id : Int) (record : α) :
    table.records.length ≤ (table.insert id record).records.length := by
  simpa only [records, insert, List.length_map] using length_le_place id record table.entries

theorem length_modify (table : Table α) (id : Int) (change : α → α) :
    (table.modify id change).records.length = table.records.length := by
  simp only [records, modify, modifyEntries, List.length_map]

private theorem place_above {id : Int} {record : α} {entries : List (Int × α)}
    (above : ∀ entry ∈ entries, entry.1 < id) :
    place id record entries = entries ++ [(id, record)] := by
  induction entries with
  | nil => rfl
  | cons first rest induction =>
      obtain ⟨key, other⟩ := first
      have below : key < id := above (key, other) (by simp)
      have later := induction fun entry member => above entry (List.mem_cons_of_mem _ member)
      have notBefore : ¬id < key := by omega
      have notSame : ¬id = key := by omega
      simp only [place, notBefore, notSame, if_false, later, List.cons_append]

theorem records_insert_above {table : Table α} {id : Int} {record : α}
    (above : ∀ other held, table.find? other = some held → other < id) :
    (table.insert id record).records = table.records ++ [record] := by
  have entriesAbove : ∀ entry ∈ table.entries, entry.1 < id := by
    intro entry member
    exact above entry.1 entry.2 (find?_eq_some_iff.mpr member)
  simp only [records, Table.insert, place_above entriesAbove, List.map_append, List.map_cons,
    List.map_nil]

end Cohort.Table
