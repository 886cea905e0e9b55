import Cohort.ChangeSet
import Mathlib.Data.List.Nodup
import Mathlib.Data.List.Perm.Basic

/-!
# What a plan reaches

Going through the active rows of a group in order of rank keeps the first row of each
contact of the segment.  The contacts of the rows that a plan leaves in place and the
contacts that it adds are together the segment, each once, whatever rows the group had
before.
-/

namespace Cohort

/-- The rows that going through rows keeps. -/
def keptRows (wanted kept : IdSet) : List Member → List Member
  | [] => []
  | row :: rows =>
      if wanted.contains row.contact && !kept.contains row.contact then
        row :: keptRows wanted (kept.insert row.contact) rows
      else keptRows wanted kept rows

/-- The rows that going through rows drops. -/
def droppedRows (wanted kept : IdSet) : List Member → List Member
  | [] => []
  | row :: rows =>
      if wanted.contains row.contact && !kept.contains row.contact then
        droppedRows wanted (kept.insert row.contact) rows
      else row :: droppedRows wanted kept rows

theorem sift_removals (wanted kept : IdSet) (rows : List Member) :
    (sift wanted kept rows).removals = (droppedRows wanted kept rows).map Member.id := by
  induction rows generalizing kept with
  | nil => rfl
  | cons row rows induction =>
      unfold sift droppedRows
      split
      · exact induction _
      · exact congrArg (row.id :: ·) (induction kept)

theorem keptRows_droppedRows_perm (wanted kept : IdSet) (rows : List Member) :
    (keptRows wanted kept rows ++ droppedRows wanted kept rows).Perm rows := by
  induction rows generalizing kept with
  | nil => exact List.Perm.refl _
  | cons row rows induction =>
      unfold keptRows droppedRows
      split
      · exact (induction _).cons row
      · exact List.perm_middle.trans ((induction kept).cons row)

theorem keptRows_removals_perm (wanted kept : IdSet) (rows : List Member) :
    ((keptRows wanted kept rows).map Member.id ++ (sift wanted kept rows).removals).Perm
      (rows.map Member.id) := by
  rw [sift_removals, ← List.map_append]
  exact (keptRows_droppedRows_perm wanted kept rows).map Member.id

theorem mem_keptRows {wanted kept : IdSet} {rows : List Member} {row : Member}
    (listed : row ∈ keptRows wanted kept rows) : row.contact ∈ wanted ∧ row.contact ∉ kept := by
  induction rows generalizing kept with
  | nil => simp [keptRows] at listed
  | cons first rows induction =>
      unfold keptRows at listed
      split at listed
      · rename_i chosen
        rcases List.mem_cons.mp listed with rfl | later
        · simpa [IdSet.contains, IdSet.mem_def] using chosen
        · obtain ⟨inWanted, notKept⟩ := induction later
          refine ⟨inWanted, fun already => notKept ?_⟩
          exact IdSet.mem_insert.mpr (Or.inr already)
      · exact induction listed

theorem keptRows_contacts_nodup (wanted kept : IdSet) (rows : List Member) :
    ((keptRows wanted kept rows).map Member.contact).Nodup := by
  induction rows generalizing kept with
  | nil => exact List.nodup_nil
  | cons row rows induction =>
      unfold keptRows
      split
      · refine List.nodup_cons.mpr ⟨?_, induction _⟩
        intro again
        obtain ⟨other, listed, same⟩ := List.mem_map.mp again
        exact (mem_keptRows listed).2 (IdSet.mem_insert.mpr (Or.inl same))
      · exact induction kept

theorem mem_sift_kept {wanted kept : IdSet} {rows : List Member} {id : Int} :
    id ∈ (sift wanted kept rows).kept ↔
      id ∈ kept ∨ id ∈ (keptRows wanted kept rows).map Member.contact := by
  induction rows generalizing kept with
  | nil => simp [sift, keptRows]
  | cons row rows induction =>
      unfold sift keptRows
      split
      · rw [induction, IdSet.mem_insert, List.map_cons, List.mem_cons, or_assoc, or_left_comm]
      · exact induction

theorem keptRows_of_wanted {wanted kept : IdSet} {rows : List Member} {id : Int}
    (isWanted : id ∈ wanted) (listed : id ∈ rows.map Member.contact) :
    id ∈ kept ∨ id ∈ (keptRows wanted kept rows).map Member.contact := by
  induction rows generalizing kept with
  | nil => cases listed
  | cons row rows induction =>
      unfold keptRows
      split
      · rcases List.mem_cons.mp listed with rfl | later
        · exact Or.inr List.mem_cons_self
        · have remaining : id ∈ kept.insert row.contact ∨
              id ∈ (keptRows wanted (kept.insert row.contact) rows).map Member.contact :=
            induction later
          rcases remaining with already | found
          · rcases IdSet.mem_insert.mp already with rfl | already
            · exact Or.inr List.mem_cons_self
            · exact Or.inl already
          · exact Or.inr (List.mem_cons_of_mem _ found)
      · rename_i passed
        rcases List.mem_cons.mp listed with rfl | later
        · left
          simpa [isWanted] using passed
        · exact induction later

theorem filter_not_removed (wanted kept : IdSet) {rows : List Member}
    (distinct : (rows.map Member.id).Nodup) :
    rows.filter (fun row => row.id ∉ (sift wanted kept rows).removals) =
      keptRows wanted kept rows := by
  induction rows generalizing kept with
  | nil => rfl
  | cons row rows induction =>
      obtain ⟨notAgain, distinctRest⟩ := List.nodup_cons.mp distinct
      unfold sift keptRows
      split
      · have removed : row.id ∉ (sift wanted (kept.insert row.contact) rows).removals := by
          intro listed
          have every := keptRows_removals_perm wanted (kept.insert row.contact) rows
          exact notAgain (every.mem_iff.mp (List.mem_append_right _ listed))
        simp only [List.filter_cons, removed, not_false_eq_true, decide_true, if_true,
          induction _ distinctRest]
      · have others : rows.filter
            (fun other => other.id ∉ row.id :: (sift wanted kept rows).removals) =
            rows.filter (fun other => other.id ∉ (sift wanted kept rows).removals) := by
          refine List.filter_congr fun other listed => ?_
          have different : other.id ≠ row.id := by
            intro same
            exact notAgain (List.mem_map.mpr ⟨other, listed, same⟩)
          simp [different]
        simp only [List.filter_cons, List.mem_cons, true_or, not_true_eq_false, decide_false,
          Bool.false_eq_true, if_false]
        simp only [List.mem_cons] at others
        rw [others, induction kept distinctRest]

theorem byRank_perm (rows : List Member) : (byRank rows).Perm rows :=
  sortBy_perm rows

namespace Group

variable (group : Group) (rows : List Member) (segment : Segment) (now : Instant)

theorem plan_removals_perm :
    ((keptRows segment.contacts .empty (byRank rows)).map Member.id ++
        (group.plan rows segment now).removals).Perm (rows.map Member.id) :=
  (keptRows_removals_perm segment.contacts .empty (byRank rows)).trans
    ((byRank_perm rows).map Member.id)

theorem plan_removals_subset {row : Int} (removed : row ∈ (group.plan rows segment now).removals) :
    row ∈ rows.map Member.id :=
  (group.plan_removals_perm rows segment now).mem_iff.mp (List.mem_append_right _ removed)

/-- The added contacts are those of the segment that have no kept row, in ascending
order. -/
theorem plan_additions_contacts :
    (group.plan rows segment now).additions.map Admission.contact =
      segment.contacts.toList.filter fun id =>
        !(sift segment.contacts .empty (byRank rows)).kept.contains id := by
  simp only [plan, List.map_map]
  exact (List.map_congr_left fun _ _ => rfl).trans (List.map_id _)

theorem plan_additions_length_le :
    (group.plan rows segment now).additions.length ≤ segment.size := by
  have contacts := congrArg List.length (plan_additions_contacts group rows segment now)
  rw [List.length_map] at contacts
  rw [contacts]
  exact List.length_filter_le _ _

theorem plan_additions_nodup :
    ((group.plan rows segment now).additions.map Admission.contact).Nodup := by
  rw [plan_additions_contacts]
  exact segment.contacts.nodup.filter _

variable {rows}

/-- The rows that a plan leaves in place, up to their order. -/
theorem plan_remaining_perm (distinct : (rows.map Member.id).Nodup) :
    (rows.filter fun row => row.id ∉ (group.plan rows segment now).removals).Perm
      (keptRows segment.contacts .empty (byRank rows)) := by
  have distinctRanked : ((byRank rows).map Member.id).Nodup :=
    ((byRank_perm rows).map Member.id).nodup_iff.mpr distinct
  have ranked := filter_not_removed segment.contacts .empty distinctRanked
  rw [← ranked]
  exact ((byRank_perm rows).filter _).symm

theorem plan_addition_free (distinct : (rows.map Member.id).Nodup) {row : Member}
    (listed : row ∈ rows)
    (added : row.contact ∈ (group.plan rows segment now).additions.map Admission.contact) :
    row.id ∈ (group.plan rows segment now).removals := by
  by_contra stays
  have remains : row ∈ rows.filter fun row => row.id ∉ (group.plan rows segment now).removals :=
    List.mem_filter.mpr ⟨listed, by simpa using stays⟩
  have kept := (group.plan_remaining_perm segment now distinct).mem_iff.mp remains
  have keptContact : row.contact ∈ (sift segment.contacts .empty (byRank rows)).kept :=
    mem_sift_kept.mpr (Or.inr (List.mem_map_of_mem kept))
  rw [plan_additions_contacts, List.mem_filter] at added
  have absent := added.2
  rw [Bool.not_eq_true', ← Bool.not_eq_true, IdSet.contains_iff] at absent
  exact absent keptContact

/-- The only row of a contact of the segment is left in place. -/
theorem plan_keeps (distinct : (rows.map Member.id).Nodup) {row : Member} (listed : row ∈ rows)
    (inSegment : row.contact ∈ segment.contacts)
    (only : ∀ other ∈ rows, other.contact = row.contact → other = row) :
    row.id ∉ (group.plan rows segment now).removals ∧
      row.contact ∉ (group.plan rows segment now).additions.map Admission.contact := by
  have ranked : row.contact ∈ (byRank rows).map Member.contact :=
    List.mem_map_of_mem ((byRank_perm rows).mem_iff.mpr listed)
  have kept := (keptRows_of_wanted inSegment ranked).resolve_left (IdSet.not_mem_empty _)
  constructor
  · obtain ⟨other, isKept, same⟩ := List.mem_map.mp kept
    obtain ⟨inRows, stays⟩ :=
      List.mem_filter.mp ((group.plan_remaining_perm segment now distinct).mem_iff.mpr isKept)
    obtain rfl := only other inRows same
    simpa using stays
  · rw [plan_additions_contacts, List.mem_filter, Bool.not_eq_true', ← Bool.not_eq_true,
      IdSet.contains_iff, mem_sift_kept]
    exact fun added => added.2 (Or.inr kept)

/-- The contacts of the rows left in place and the added contacts are the segment, each
once. -/
theorem plan_reaches (distinct : (rows.map Member.id).Nodup) :
    ((rows.filter fun row => row.id ∉ (group.plan rows segment now).removals).map Member.contact ++
        (group.plan rows segment now).additions.map Admission.contact).Perm
      segment.contacts.toList := by
  let kept := keptRows segment.contacts .empty (byRank rows)
  have remaining := (group.plan_remaining_perm segment now distinct).map Member.contact
  apply (remaining.append_right _).trans
  have separate : (kept.map Member.contact ++
      (group.plan rows segment now).additions.map Admission.contact).Nodup := by
    refine List.nodup_append.mpr
      ⟨keptRows_contacts_nodup _ _ _, group.plan_additions_nodup rows segment now, ?_⟩
    intro id keptId other added same
    subst other
    obtain ⟨row, listed, rfl⟩ := List.mem_map.mp keptId
    have remains := (group.plan_remaining_perm segment now distinct).mem_iff.mpr listed
    obtain ⟨inRows, stays⟩ := List.mem_filter.mp remains
    have removed := group.plan_addition_free segment now distinct inRows added
    simp [removed] at stays
  -- Neither side repeats a contact, so it is enough to compare what they contain.
  refine (List.perm_ext_iff_of_nodup separate segment.contacts.nodup).mpr fun id => ?_
  rw [List.mem_append, plan_additions_contacts, List.mem_filter, Bool.not_eq_true',
    ← Bool.not_eq_true, IdSet.contains_iff, mem_sift_kept]
  constructor
  · intro member
    rcases member with keptId | ⟨inSegment, _⟩
    · obtain ⟨row, listed, rfl⟩ := List.mem_map.mp keptId
      exact (mem_keptRows listed).1
    · exact inSegment
  · intro inSegment
    by_cases keptId : id ∈ kept.map Member.contact
    · exact Or.inl keptId
    · refine Or.inr ⟨inSegment, ?_⟩
      simpa using keptId

/-- There is nothing to do where the rows carry the contacts of the segment already, one
row each. -/
theorem plan_leavesMembers (distinct : (rows.map Member.id).Nodup)
    (reached : (rows.map Member.contact).Perm segment.contacts.toList) :
    (group.plan rows segment now).leavesMembers = true := by
  have single := List.inj_on_of_nodup_map (reached.nodup_iff.mpr segment.contacts.nodup)
  have keeps : ∀ row ∈ rows, row.id ∉ (group.plan rows segment now).removals ∧
      row.contact ∉ (group.plan rows segment now).additions.map Admission.contact := by
    intro row listed
    have inSegment := reached.mem_iff.mp (List.mem_map_of_mem listed)
    exact group.plan_keeps segment now distinct listed inSegment fun other otherListed same =>
      single otherListed listed same
  have noRemovals : (group.plan rows segment now).removals = [] := by
    apply List.eq_nil_iff_forall_not_mem.mpr
    intro id removed
    obtain ⟨row, listed, rfl⟩ :=
      List.mem_map.mp (group.plan_removals_subset rows segment now removed)
    exact (keeps row listed).1 removed
  have noAdditions : (group.plan rows segment now).additions = [] := by
    apply List.eq_nil_iff_forall_not_mem.mpr
    intro addition listed
    have added := List.mem_map_of_mem (f := Admission.contact) listed
    have inSegment := added
    rw [plan_additions_contacts] at inSegment
    obtain ⟨row, rowListed, same⟩ :=
      List.mem_map.mp (reached.mem_iff.mpr (List.mem_filter.mp inSegment).1)
    exact (keeps row rowListed).2 (same ▸ added)
  rw [ChangeSet.leavesMembers, noRemovals, noAdditions]
  rfl

/-- Rows before and rows added make up the segment and the rows removed. -/
theorem plan_count (distinct : (rows.map Member.id).Nodup) :
    rows.length + (group.plan rows segment now).additions.length =
      segment.size + (group.plan rows segment now).removals.length := by
  have reached := (group.plan_reaches segment now distinct).length_eq
  have divided := (group.plan_removals_perm rows segment now).length_eq
  have remaining := (group.plan_remaining_perm segment now distinct).length_eq
  simp only [List.length_append, List.length_map] at reached divided
  have size : segment.contacts.toList.length = segment.size := rfl
  omega

end Group

end Cohort
