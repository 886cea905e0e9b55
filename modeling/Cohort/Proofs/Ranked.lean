import Cohort.Proofs.Plan
import Mathlib.Data.List.Sort

/-!
# Plans by rank

`Division` says which rows a plan keeps without going through the rows, and
`Division.removals_eq` that it leaves no choice: rows of one rank carry one identifier,
so whichever of them goes, the identifiers to be removed are the same list.
-/

namespace Cohort

/-! ## Ranks -/

/-- The first member comes before the second by rank, or both have the same rank. -/
def Member.AtMost (first second : Member) : Prop :=
  lexAtMost first.rank second.rank = true

theorem Member.AtMost.refl (member : Member) : member.AtMost member :=
  or_self_iff.mp (lexAtMost_total member.rank member.rank)

theorem Member.id_eq_of_rank_eq {first second : Member} (same : first.rank = second.rank) :
    first.id = second.id :=
  List.append_singleton_inj.mp same |>.2

theorem byRank_pairwise (rows : List Member) : (byRank rows).Pairwise Member.AtMost := by
  apply sortBy_pairwise
  · intro first second
    exact lexAtMost_total first.rank second.rank
  · intro first second third
    exact lexAtMost_trans

/-! ## Going through rows by rank -/

theorem droppedRows_sublist (wanted kept : IdSet) (rows : List Member) :
    (droppedRows wanted kept rows).Sublist rows := by
  induction rows generalizing kept with
  | nil => exact List.Sublist.refl _
  | cons row rows induction =>
      unfold droppedRows
      split
      · exact (induction _).cons row
      · exact (induction kept).cons_cons row

/-- Going through rows by rank keeps the first row of a contact. -/
theorem keptRows_first {wanted kept : IdSet} {rows : List Member}
    (ranked : rows.Pairwise Member.AtMost) {row : Member}
    (isKept : row ∈ keptRows wanted kept rows) :
    ∀ other ∈ rows, other.contact = row.contact → row.AtMost other := by
  induction rows generalizing kept with
  | nil => cases isKept
  | cons first rows induction =>
      obtain ⟨before, rankedRest⟩ := List.pairwise_cons.mp ranked
      unfold keptRows at isKept
      split at isKept
      · rcases List.mem_cons.mp isKept with rfl | later
        · intro other listed _
          rcases List.mem_cons.mp listed with rfl | listed
          · exact .refl other
          · exact before other listed
        · intro other listed same
          rcases List.mem_cons.mp listed with rfl | listed
          · exact ((mem_keptRows later).2 (IdSet.mem_insert.mpr (Or.inl same.symm))).elim
          · exact induction rankedRest later other listed same
      · rename_i passed
        intro other listed same
        rcases List.mem_cons.mp listed with rfl | listed
        · obtain ⟨isWanted, notKept⟩ := mem_keptRows isKept
          rw [same] at passed
          simp only [IdSet.contains_iff.mpr isWanted, Bool.true_and, Bool.not_eq_true',
            Bool.not_eq_false, IdSet.contains_iff] at passed
          exact (notKept passed).elim
        · exact induction rankedRest isKept other listed same

/-! ## Divisions -/

/-- The rows are divided into those that stay and those that go: of each contact of the
segment that has a row the first by rank stays, and all others go, in order of rank. -/
structure Division (rows : List Member) (segment : Segment) (kept dropped : List Member) :
    Prop where
  divided : (kept ++ dropped).Perm rows
  single : (kept.map Member.contact).Nodup
  contacts : ∀ contact, contact ∈ kept.map Member.contact ↔
    contact ∈ segment.contacts ∧ contact ∈ rows.map Member.contact
  first : ∀ row ∈ kept, ∀ other ∈ rows, other.contact = row.contact → row.AtMost other
  ordered : dropped.Pairwise Member.AtMost

namespace Division

variable {rows other kept dropped : List Member} {segment : Segment}

theorem of_perm (division : Division other segment kept dropped) (reordered : other.Perm rows) :
    Division rows segment kept dropped where
  divided := division.divided.trans reordered
  single := division.single
  contacts contact := by
    rw [division.contacts, (reordered.map Member.contact).mem_iff]
  first row isKept held listed := division.first row isKept held (reordered.mem_iff.mpr listed)
  ordered := division.ordered

theorem mem_of_kept (division : Division rows segment kept dropped) {row : Member}
    (isKept : row ∈ kept) : row ∈ rows :=
  division.divided.mem_iff.mp (List.mem_append_left _ isKept)

/-- The rows that stay have the same ranks in every division. -/
theorem kept_ranks_perm {keptAgain droppedAgain : List Member}
    (division : Division rows segment kept dropped)
    (again : Division rows segment keptAgain droppedAgain) :
    (kept.map Member.rank).Perm (keptAgain.map Member.rank) := by
  -- The rank of a row that stays is a function of its contact, the same in both
  -- divisions.
  let rankOf (contact : Int) : List Int :=
    ((kept.find? (·.contact == contact)).map Member.rank).getD []
  have read (list : List Member) (first : ∀ row ∈ list, row ∈ rows ∧
      ∀ held ∈ rows, held.contact = row.contact → row.AtMost held)
      (covered : ∀ row ∈ list, row.contact ∈ kept.map Member.contact) :
      list.map Member.rank = (list.map Member.contact).map rankOf := by
    rw [List.map_map]
    apply List.map_congr_left
    intro row listed
    cases found : kept.find? (·.contact == row.contact) with
    | none =>
        obtain ⟨held, isKept, same⟩ := List.mem_map.mp (covered row listed)
        exact (List.find?_eq_none.mp found held isKept (beq_iff_eq.mpr same)).elim
    | some held =>
        have isKept := List.mem_of_find?_eq_some found
        have same : held.contact = row.contact := by simpa using List.find?_some found
        have forward := (first row listed).2 held (division.mem_of_kept isKept) same
        have backward := division.first held isKept row (first row listed).1 same.symm
        simp only [Function.comp_apply, rankOf, found, Option.map_some, Option.getD_some]
        exact lexAtMost_antisymm forward backward
  have contacts : (kept.map Member.contact).Perm (keptAgain.map Member.contact) := by
    apply (List.perm_ext_iff_of_nodup division.single again.single).mpr
    intro contact
    rw [division.contacts, again.contacts]
  rw [read kept (fun row isKept => ⟨division.mem_of_kept isKept, division.first row isKept⟩)
      fun row isKept => List.mem_map_of_mem isKept,
    read keptAgain (fun row isKept => ⟨again.mem_of_kept isKept, again.first row isKept⟩)
      fun row isKept => contacts.mem_iff.mpr (List.mem_map_of_mem isKept)]
  exact contacts.map rankOf

/-- The identifiers of the rows that go are the same list in every division. -/
theorem removals_eq {keptAgain droppedAgain : List Member}
    (division : Division rows segment kept dropped)
    (again : Division rows segment keptAgain droppedAgain) :
    dropped.map Member.id = droppedAgain.map Member.id := by
  have whole : (kept.map Member.rank ++ dropped.map Member.rank).Perm
      (keptAgain.map Member.rank ++ droppedAgain.map Member.rank) := by
    rw [← List.map_append, ← List.map_append]
    exact (division.divided.trans again.divided.symm).map Member.rank
  have ranks : (dropped.map Member.rank).Perm (droppedAgain.map Member.rank) :=
    (List.perm_append_left_iff _).mp
      (((division.kept_ranks_perm again).symm.append_right _).trans whole)
  have ordered : dropped.map Member.rank = droppedAgain.map Member.rank :=
    ranks.eq_of_pairwise (fun _ _ _ _ => lexAtMost_antisymm)
      (List.pairwise_map.mpr division.ordered) (List.pairwise_map.mpr again.ordered)
  have ids (list : List Member) :
      list.map Member.id = (list.map Member.rank).map fun rank => rank.getLastD 0 := by
    rw [List.map_map]
    apply List.map_congr_left
    intro row _
    simp [Member.rank]
  rw [ids, ids, ordered]

end Division

/-! ## The rows that a plan keeps -/

namespace Group

variable (group : Group) (rows : List Member) (segment : Segment) (now : Instant)

theorem plan_divides :
    ∃ kept dropped, Division rows segment kept dropped ∧
      (group.plan rows segment now).removals = dropped.map Member.id := by
  let kept := keptRows segment.contacts .empty (byRank rows)
  let dropped := droppedRows segment.contacts .empty (byRank rows)
  have ranked := byRank_pairwise rows
  have division : Division (byRank rows) segment kept dropped :=
    { divided := keptRows_droppedRows_perm _ _ _
      single := keptRows_contacts_nodup _ _ _
      contacts := by
        intro contact
        constructor
        · intro isKept
          obtain ⟨row, listed, rfl⟩ := List.mem_map.mp isKept
          refine ⟨(mem_keptRows listed).1, List.mem_map_of_mem ?_⟩
          exact (keptRows_droppedRows_perm _ _ _).mem_iff.mp (List.mem_append_left _ listed)
        · intro held
          exact (keptRows_of_wanted held.1 held.2).resolve_left (IdSet.not_mem_empty _)
      first := fun _ isKept => keptRows_first ranked isKept
      ordered := ranked.sublist (droppedRows_sublist _ _ _) }
  exact ⟨kept, dropped, division.of_perm (byRank_perm rows), sift_removals _ _ _⟩

theorem plan_additions :
    (group.plan rows segment now).additions =
      (segment.contacts.toList.filter fun contact => contact ∉ rows.map Member.contact).map
        fun contact => { contact, joinedAt := now } := by
  have sameTest : ∀ contact ∈ segment.contacts.toList,
      (!(sift segment.contacts .empty (byRank rows)).kept.contains contact) =
        decide (contact ∉ rows.map Member.contact) := by
    intro contact inSegment
    have ranked : contact ∈ (byRank rows).map Member.contact ↔ contact ∈ rows.map Member.contact :=
      ((byRank_perm rows).map Member.contact).mem_iff
    have kept : contact ∈ (sift segment.contacts .empty (byRank rows)).kept ↔
        contact ∈ rows.map Member.contact := by
      rw [mem_sift_kept, ← ranked, or_iff_right (IdSet.not_mem_empty contact)]
      constructor
      · intro isKept
        obtain ⟨row, listed, rfl⟩ := List.mem_map.mp isKept
        apply List.mem_map_of_mem
        exact (keptRows_droppedRows_perm _ _ _).mem_iff.mp (List.mem_append_left _ listed)
      · intro held
        exact (keptRows_of_wanted inSegment held).resolve_left (IdSet.not_mem_empty contact)
    apply Bool.eq_iff_iff.mpr
    rw [Bool.not_eq_true', ← Bool.not_eq_true, IdSet.contains_iff, kept, decide_eq_true_iff]
  simp only [plan]
  rw [List.filter_congr sameTest]

end Group

/-! ## Plans among all change sets -/

/-- With the removals gone and the additions made, the rows carry the contacts of the
segment, one row each. -/
def ChangeSet.Reaches (changes : ChangeSet) (rows : List Member) (segment : Segment) : Prop :=
  ((rows.filter fun row => row.id ∉ changes.removals).map Member.contact ++
    changes.additions.map Admission.contact).Perm segment.contacts.toList

namespace Division

variable {rows kept dropped : List Member} {segment : Segment}

theorem length_eq (division : Division rows segment kept dropped) :
    kept.length + dropped.length = rows.length := by
  rw [← List.length_append]
  exact division.divided.length_eq

theorem remaining_perm (division : Division rows segment kept dropped)
    (distinct : (rows.map Member.id).Nodup) :
    (rows.filter fun row => row.id ∉ dropped.map Member.id).Perm kept := by
  have apart := (division.divided.map Member.id).nodup_iff.mpr distinct
  rw [List.map_append] at apart
  obtain ⟨_, _, disjoint⟩ := List.nodup_append.mp apart
  apply (division.divided.symm.filter _).trans
  rw [List.filter_append]
  have stays : kept.filter (fun row => row.id ∉ dropped.map Member.id) = kept := by
    apply List.filter_eq_self.mpr
    intro row isKept
    apply decide_eq_true
    exact fun goes => disjoint row.id (List.mem_map_of_mem isKept) row.id goes rfl
  have goes : dropped.filter (fun row => row.id ∉ dropped.map Member.id) = [] := by
    apply List.filter_eq_nil_iff.mpr
    intro row isDropped
    simpa using ⟨row, isDropped, rfl⟩
  rw [stays, goes, List.append_nil]

/-- A row stays exactly if its contact is in the segment and it is the first of the
contact. -/
theorem stays_iff (division : Division rows segment kept dropped)
    (distinct : (rows.map Member.id).Nodup) {row : Member} (listed : row ∈ rows) :
    row.id ∉ dropped.map Member.id ↔
      row.contact ∈ segment.contacts ∧
        ∀ other ∈ rows, other.contact = row.contact → row.AtMost other := by
  have remains : row.id ∉ dropped.map Member.id ↔ row ∈ kept := by
    rw [← (division.remaining_perm distinct).mem_iff, List.mem_filter, decide_eq_true_iff]
    exact (and_iff_right listed).symm
  rw [remains]
  constructor
  · intro isKept
    exact ⟨((division.contacts _).mp (List.mem_map_of_mem isKept)).1, division.first row isKept⟩
  · intro first
    obtain ⟨inSegment, first⟩ := first
    have covered := (division.contacts row.contact).mpr ⟨inSegment, List.mem_map_of_mem listed⟩
    obtain ⟨held, isKept, same⟩ := List.mem_map.mp covered
    have heldListed := division.mem_of_kept isKept
    have ranks : held.rank = row.rank :=
      lexAtMost_antisymm (division.first held isKept row listed same.symm)
        (first held heldListed same)
    have unique := List.inj_on_of_nodup_map distinct heldListed listed
      (Member.id_eq_of_rank_eq ranks)
    exact unique ▸ isKept

theorem remaining_length_le (division : Division rows segment kept dropped) {changes : ChangeSet}
    (reaches : changes.Reaches rows segment) :
    (rows.filter fun row => row.id ∉ changes.removals).length ≤ kept.length := by
  have single := List.nodup_append.mp (reaches.nodup_iff.mpr segment.contacts.nodup) |>.1
  have covered : (rows.filter fun row => row.id ∉ changes.removals).map Member.contact ⊆
      kept.map Member.contact := by
    intro contact remains
    have inSegment := reaches.mem_iff.mp (List.mem_append_left _ remains)
    obtain ⟨row, listed, rfl⟩ := List.mem_map.mp remains
    apply (division.contacts row.contact).mpr
    exact ⟨inSegment, List.mem_map_of_mem (List.mem_filter.mp listed).1⟩
  simpa using (List.subperm_of_subset single covered).length_le

end Division

theorem length_le_remaining_add {rows : List Member} (distinct : (rows.map Member.id).Nodup)
    (removals : List Int) :
    rows.length ≤ (rows.filter fun row => row.id ∉ removals).length + removals.length := by
  have divided := List.length_eq_length_filter_add (l := rows) fun row => decide (row.id ∈ removals)
  have gone : (rows.filter fun row => row.id ∈ removals).length ≤ removals.length := by
    have single := distinct.sublist
      ((List.filter_sublist (p := fun row : Member => decide (row.id ∈ removals))).map Member.id)
    have covered : (rows.filter fun row => row.id ∈ removals).map Member.id ⊆ removals := by
      intro id gone
      obtain ⟨row, listed, rfl⟩ := List.mem_map.mp gone
      exact of_decide_eq_true (List.mem_filter.mp listed).2
    simpa using (List.subperm_of_subset single covered).length_le
  simp only [decide_not]
  omega

namespace Group

variable (group : Group) {rows : List Member} (segment : Segment) (now : Instant)

theorem plan_perm {other : List Member} (reordered : other.Perm rows) :
    group.plan other segment now = group.plan rows segment now := by
  obtain ⟨_, _, division, removals⟩ := group.plan_divides rows segment now
  obtain ⟨_, _, again, removalsAgain⟩ := group.plan_divides other segment now
  have sameRemovals : (group.plan other segment now).removals =
      (group.plan rows segment now).removals := by
    rw [removals, removalsAgain]
    exact (again.of_perm reordered).removals_eq division
  have sameAdditions : (group.plan other segment now).additions =
      (group.plan rows segment now).additions := by
    rw [plan_additions, plan_additions]
    congr 1
    apply List.filter_congr
    intro contact _
    apply decide_eq_decide.mpr
    rw [(reordered.map Member.contact).mem_iff]
  rw [ChangeSet.mk.injEq]
  exact ⟨rfl, rfl, sameAdditions, sameRemovals, rfl, rfl⟩

/-- There is nothing to do exactly where the rows carry the contacts of the segment, one
row each. -/
theorem plan_leavesMembers_iff :
    (group.plan rows segment now).leavesMembers = true ↔
      (rows.map Member.contact).Perm segment.contacts.toList := by
  obtain ⟨kept, dropped, division, removals⟩ := group.plan_divides rows segment now
  have nothing : (group.plan rows segment now).leavesMembers = true ↔
      (∀ contact ∈ segment.contacts, contact ∈ rows.map Member.contact) ∧ dropped = [] := by
    rw [ChangeSet.leavesMembers, Bool.and_eq_true, List.isEmpty_iff, List.isEmpty_iff, removals,
      plan_additions, List.map_eq_nil_iff, List.map_eq_nil_iff, List.filter_eq_nil_iff]
    simp only [decide_eq_true_eq, not_not]
    rfl
  rw [nothing]
  constructor
  · intro idle
    obtain ⟨covered, rfl⟩ := idle
    have all : kept.Perm rows := by simpa using division.divided
    have contacts := all.map Member.contact
    apply contacts.symm.trans
    apply (List.perm_ext_iff_of_nodup division.single segment.contacts.nodup).mpr
    intro contact
    rw [division.contacts]
    exact and_iff_left_of_imp (covered contact)
  · intro reached
    refine ⟨fun contact inSegment => reached.mem_iff.mpr inSegment, ?_⟩
    have contacts : (kept.map Member.contact).Perm (rows.map Member.contact) := by
      apply (List.perm_ext_iff_of_nodup division.single
        (reached.nodup_iff.mpr segment.contacts.nodup)).mpr
      intro contact
      rw [division.contacts]
      exact and_iff_right_of_imp reached.mem_iff.mp
    have stay : kept.length = rows.length := by simpa using contacts.length_eq
    have divided := division.length_eq
    apply List.eq_nil_of_length_eq_zero
    omega

/-- A change set that reaches the segment removes and adds at least as much as the
plan. -/
theorem plan_length_le (distinct : (rows.map Member.id).Nodup) {changes : ChangeSet}
    (reaches : changes.Reaches rows segment) :
    (group.plan rows segment now).removals.length ≤ changes.removals.length ∧
      (group.plan rows segment now).additions.length ≤ changes.additions.length := by
  obtain ⟨kept, dropped, division, removals⟩ := group.plan_divides rows segment now
  have divided := division.length_eq
  have remaining := division.remaining_length_le reaches
  have missing := length_le_remaining_add distinct changes.removals
  have reached := reaches.length_eq
  have planned := (group.plan_reaches segment now distinct).length_eq
  have stay := (division.remaining_perm distinct).length_eq
  rw [removals] at planned ⊢
  simp only [List.length_append, List.length_map] at reached planned ⊢
  omega

/-- Of each contact of the segment that has a row a plan keeps the first by rank.  It
removes each other row once, in order of rank, and admits the contacts without a row in
ascending order.  If no two rows have one identifier, the rows that stay and the
additions are the segment, and every change set that reaches the segment removes and
adds as much at least.  Neither the order of the rows nor the order of equal ranks
matters, and a plan is empty exactly if the rows are the segment already. -/
theorem plan_least (rows : List Member) :
    (∃ kept dropped, Division rows segment kept dropped ∧
        (group.plan rows segment now).removals = dropped.map Member.id) ∧
      (group.plan rows segment now).additions =
        ((segment.contacts.toList.filter fun contact => contact ∉ rows.map Member.contact).map
          fun contact => { contact, joinedAt := now }) ∧
      ((group.plan rows segment now).additions.map Admission.contact).Pairwise (· < ·) ∧
      ((rows.map Member.id).Nodup →
        (∀ row ∈ rows, row.id ∉ (group.plan rows segment now).removals ↔
          row.contact ∈ segment.contacts ∧
            ∀ other ∈ rows, other.contact = row.contact → row.AtMost other) ∧
        (group.plan rows segment now).Reaches rows segment ∧
        (∀ addition ∈ (group.plan rows segment now).additions, ∀ row ∈ rows,
          row.id ∈ (group.plan rows segment now).removals → row.contact ≠ addition.contact) ∧
        ∀ changes : ChangeSet, changes.Reaches rows segment →
          (group.plan rows segment now).removals.length ≤ changes.removals.length ∧
            (group.plan rows segment now).additions.length ≤ changes.additions.length) ∧
      (∀ other : List Member, other.Perm rows →
        group.plan other segment now = group.plan rows segment now) ∧
      ((group.plan rows segment now).leavesMembers = true ↔
        (rows.map Member.contact).Perm segment.contacts.toList) := by
  refine ⟨group.plan_divides rows segment now, group.plan_additions rows segment now, ?_, ?_,
    fun _ => group.plan_perm segment now, group.plan_leavesMembers_iff segment now⟩
  · rw [plan_additions_contacts]
    exact segment.contacts.ascending.filter _
  intro distinct
  refine ⟨?_, group.plan_reaches segment now distinct, ?_,
    fun _ => group.plan_length_le segment now distinct⟩
  · intro row listed
    obtain ⟨_, _, division, removals⟩ := group.plan_divides rows segment now
    rw [removals]
    exact division.stays_iff distinct listed
  · intro addition added row listed _ same
    rw [plan_additions] at added
    obtain ⟨contact, missing, rfl⟩ := List.mem_map.mp added
    have noRow := of_decide_eq_true (List.mem_filter.mp missing).2
    exact noRow (List.mem_map.mpr ⟨row, listed, same⟩)

end Group

def onTheHour (hour : Fin 24) : Instant where
  date := { year := 2024, month := 2, day := 29, valid := by decide }
  second := hour * 3600
  nano := 0
  valid := by
    have small := hour.isLt
    simp only [IsTimeOfDay, secondNanos]
    omega

/-- A contact with two rows, of which the later one is listed first, and one that has
left. -/
def doubledRows : List Member :=
  [{ id := 7, group := 9, contact := 10, joinedAt := onTheHour 11 },
    { id := 3, group := 9, contact := 10, joinedAt := onTheHour 10 },
    { id := 4, group := 9, contact := 11, joinedAt := onTheHour 10 }]

theorem doubledRows_plan :
    let group : Group := { id := 9, owner := "ana", name := "Gold", updatedAt := onTheHour 9 }
    let segment : Segment := { contacts := .ofList [12, 10] }
    let plan := group.plan doubledRows segment (onTheHour 12)
    (doubledRows.map Member.id).Nodup ∧ plan.removals = [4, 7] ∧
      plan.additions = [{ contact := 12, joinedAt := onTheHour 12 }] ∧
      ∀ changes : ChangeSet, changes.Reaches doubledRows segment →
        2 ≤ changes.removals.length ∧ 1 ≤ changes.additions.length := by
  intro group segment plan
  have distinct : (doubledRows.map Member.id).Nodup := by decide
  have removals : plan.removals = [4, 7] := by decide
  have additions : plan.additions = [{ contact := 12, joinedAt := onTheHour 12 }] := by decide
  refine ⟨distinct, removals, additions, ?_⟩
  intro changes reaches
  obtain ⟨_, _, _, whenDistinct, _⟩ := group.plan_least segment (onTheHour 12) doubledRows
  have least := (whenDistinct distinct).2.2.2 changes reaches
  rwa [show group.plan doubledRows segment (onTheHour 12) = plan from
    rfl, removals, additions] at least

end Cohort
