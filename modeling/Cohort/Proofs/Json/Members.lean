import Cohort.Json.Value
import Mathlib.Data.List.Induction

/-!
# The order of members

A text whose tree is rearranged, at any depth, has the same value as long as equal names
keep their order.
-/

namespace Cohort.Json

namespace Value

theorem placeMember_comm {first second : String} (different : first ≠ second)
    (one two : Value) (members : List (String × Value)) :
    placeMember first one (placeMember second two members) =
      placeMember second two (placeMember first one members) := by
  induction members with
  | nil =>
      simp only [placeMember]
      grind
  | cons member members induction =>
      simp only [placeMember]
      grind [placeMember]

/-- Neighbours with different names may change places. -/
theorem settle_swap {first second : String × Value} (different : first.1 ≠ second.1)
    (before after : List (String × Value)) :
    settle (before ++ first :: second :: after) = settle (before ++ second :: first :: after) := by
  simp only [settle, List.foldl_append, List.foldl_cons,
    placeMember_comm different.symm second.2 first.2]

theorem settle_concat (members : List (String × Value)) (member : String × Value) :
    settle (members ++ [member]) = placeMember member.1 member.2 (settle members) := by
  simp only [settle, List.foldl_append, List.foldl_cons, List.foldl_nil]

theorem placeMember_last {name : String} (value : Value) {members : List (String × Value)}
    (last : ∀ member ∈ members, member.1 < name) :
    placeMember name value members = members ++ [(name, value)] := by
  induction members with
  | nil => rfl
  | cons member members induction =>
      obtain ⟨first, others⟩ := List.forall_mem_cons.mp last
      have notBefore : ¬ name < member.1 := String.lt_asymm first
      have different : name ≠ member.1 := fun same => String.lt_irrefl name (same ▸ first)
      simp only [placeMember, if_neg notBefore, if_neg different, induction others,
        List.cons_append]

theorem settle_of_ascending {members : List (String × Value)}
    (ascending : (members.map Prod.fst).Pairwise (· < ·)) : settle members = members := by
  induction members using List.reverseRecOn with
  | nil => rfl
  | append_singleton members member induction =>
      rw [List.map_append, List.pairwise_append] at ascending
      obtain ⟨inside, _, before⟩ := ascending
      have last : ∀ other ∈ members, other.1 < member.1 := by
        intro other listed
        exact before _ (List.mem_map_of_mem listed) _ List.mem_cons_self
      rw [settle_concat, induction inside, placeMember_last member.2 last]

theorem member?_placeMember (name wanted : String) (value : Value)
    (members : List (String × Value)) :
    member? wanted (placeMember name value members) =
      if name = wanted then some value else member? wanted members := by
  induction members with
  | nil => rfl
  | cons member members induction =>
      simp only [placeMember]
      split
      · rfl
      · split
        · rename_i same
          subst same
          simp only [member?]
          split <;> rfl
        · simp only [member?, induction]
          grind

/-- The last of several equal names decides. -/
theorem member?_settle (wanted : String) (members : List (String × Value)) :
    member? wanted (settle members) = member? wanted members.reverse := by
  induction members using List.reverseRecOn with
  | nil => rfl
  | append_singleton members member induction =>
      rw [settle_concat, member?_placeMember, induction, List.reverse_append]
      rfl

theorem mem_placeMember {name : String} {value : Value} {members : List (String × Value)}
    {member : String × Value} (placed : member ∈ placeMember name value members) :
    member.1 = name ∨ member ∈ members := by
  induction members with
  | nil =>
      obtain rfl := List.mem_singleton.mp placed
      exact Or.inl rfl
  | cons first rest induction =>
      unfold placeMember at placed
      split at placed
      · exact (List.mem_cons.mp placed).imp_left fun same => by rw [same]
      · split at placed
        · rcases List.mem_cons.mp placed with rfl | later
          · exact Or.inl rfl
          · exact Or.inr (List.mem_cons_of_mem _ later)
        · rcases List.mem_cons.mp placed with rfl | later
          · exact Or.inr List.mem_cons_self
          · exact (induction later).imp_right (List.mem_cons_of_mem _)

theorem placeMember_ascending {name : String} {value : Value} {members : List (String × Value)}
    (ascending : members.Pairwise (·.1 < ·.1)) :
    (placeMember name value members).Pairwise (·.1 < ·.1) := by
  induction members with
  | nil => exact List.pairwise_singleton _ _
  | cons first rest induction =>
      obtain ⟨firstLess, restAscending⟩ := List.pairwise_cons.mp ascending
      unfold placeMember
      split
      · rename_i less
        refine List.pairwise_cons.mpr ⟨?_, ascending⟩
        intro member listed
        rcases List.mem_cons.mp listed with rfl | later
        · exact less
        · exact String.lt_trans less (firstLess member later)
      · rename_i notLess
        split
        · rename_i same
          subst same
          exact List.pairwise_cons.mpr ⟨firstLess, restAscending⟩
        · rename_i different
          refine List.pairwise_cons.mpr ⟨?_, induction restAscending⟩
          intro member listed
          rcases mem_placeMember listed with named | later
          · rw [named]
            refine String.not_le.mp fun notGreater => ?_
            exact different (String.le_antisymm notGreater (String.not_lt.mp notLess))
          · exact firstLess member later

theorem settle_ascending (members : List (String × Value)) :
    (settle members).Pairwise (·.1 < ·.1) := by
  induction members using List.reverseRecOn with
  | nil => exact .nil
  | append_singleton members member induction =>
      rw [settle_concat]
      exact placeMember_ascending induction

theorem settle_nodup (members : List (String × Value)) :
    ((settle members).map Prod.fst).Nodup := by
  refine List.Pairwise.imp ?_ (List.pairwise_map.mpr (settle_ascending members))
  intro name other less same
  exact String.lt_irrefl name (same ▸ less)

/-- The value is that of the last member with the name. -/
inductive LastUnder (name : String) : List (String × Value) → Value → Prop where
  | here {value : Value} {rest : List (String × Value)} :
      (∀ member ∈ rest, member.1 ≠ name) → LastUnder name ((name, value) :: rest) value
  | there {member : String × Value} {rest : List (String × Value)} {value : Value} :
      LastUnder name rest value → LastUnder name (member :: rest) value

theorem member?_append (name : String) (front back : List (String × Value)) :
    member? name (front ++ back) = (member? name front).or (member? name back) := by
  induction front with
  | nil => rfl
  | cons member members induction =>
      simp only [List.cons_append, member?, induction]
      split <;> rfl

theorem member?_eq_none_iff {name : String} {members : List (String × Value)} :
    member? name members = none ↔ ∀ member ∈ members, member.1 ≠ name := by
  induction members with
  | nil => simp [member?]
  | cons member members induction =>
      rw [member?, List.forall_mem_cons, ← induction]
      split
      · rename_i same
        simp [same]
      · rename_i different
        simp [different]

theorem member?_settle_eq_some_iff {name : String} {members : List (String × Value)}
    {value : Value} :
    member? name (settle members) = some value ↔ LastUnder name members value := by
  rw [member?_settle]
  induction members with
  | nil =>
      constructor
      · intro found
        cases found
      · intro last
        cases last
  | cons member members induction =>
      rw [List.reverse_cons, member?_append]
      constructor
      · intro found
        cases later : member? name members.reverse with
        | some held =>
            rw [later, Option.some_or] at found
            exact .there (induction.mp (later.trans found))
        | none =>
            rw [later, Option.none_or, member?] at found
            have others : ∀ other ∈ members, other.1 ≠ name := fun other listed =>
              member?_eq_none_iff.mp later other (List.mem_reverse.mpr listed)
            split at found
            · rename_i same
              cases found
              subst same
              exact .here others
            · cases found
      · intro last
        cases last with
        | here others =>
            have none : member? name members.reverse = none :=
              member?_eq_none_iff.mpr fun other listed => others other (List.mem_reverse.mp listed)
            rw [none, Option.none_or, member?, if_pos rfl]
        | there last => rw [induction.mpr last, Option.some_or]

theorem member?_eq_some_iff {name : String} {members : List (String × Value)} {value : Value}
    (distinct : (members.map Prod.fst).Nodup) :
    member? name members = some value ↔ (name, value) ∈ members := by
  induction members with
  | nil => simp [member?]
  | cons member members induction =>
      obtain ⟨apart, distinct⟩ := List.nodup_cons.mp distinct
      rw [member?, List.mem_cons]
      split
      · rename_i same
        subst same
        constructor
        · rintro ⟨rfl⟩
          exact Or.inl rfl
        · rintro (same | later)
          · rw [← same]
          · exact (apart (List.mem_map.mpr ⟨_, later, rfl⟩)).elim
      · rename_i different
        rw [induction distinct]
        constructor
        · exact Or.inr
        · rintro (same | later)
          · exact (different (by rw [← same])).elim
          · exact later

/-- What is left under a name is the last value that was given under it. -/
theorem mem_settle_iff {name : String} {members : List (String × Value)} {value : Value} :
    (name, value) ∈ settle members ↔ LastUnder name members value := by
  rw [← member?_eq_some_iff (settle_nodup members), member?_settle_eq_some_iff]

end Value

/-- The trees differ in the order of members with different names, at any depth. -/
inductive Tree.Rearranged : Tree → Tree → Prop where
  | refl (tree : Tree) : Rearranged tree tree
  | trans {first second third : Tree} :
      Rearranged first second → Rearranged second third → Rearranged first third
  | swap {first second : Option String × Tree} (before after : List (Option String × Tree)) :
      first.1 ≠ second.1 →
      Rearranged (.object (before ++ first :: second :: after))
        (.object (before ++ second :: first :: after))
  | member {value changed : Tree} (name : Option String)
      (before after : List (Option String × Tree)) :
      Rearranged value changed →
      Rearranged (.object (before ++ (name, value) :: after))
        (.object (before ++ (name, changed) :: after))
  | item {value changed : Tree} (before after : List Tree) :
      Rearranged value changed →
      Rearranged (.array (before ++ value :: after)) (.array (before ++ changed :: after))

namespace Tree

theorem depthOfItems_append (front back : List Tree) :
    depthOfItems (front ++ back) = max (depthOfItems front) (depthOfItems back) := by
  induction front with
  | nil => simp [depthOfItems]
  | cons item items induction => simp [depthOfItems, induction, Nat.max_assoc]

theorem depthOfMembers_append (front back : List (Option String × Tree)) :
    depthOfMembers (front ++ back) = max (depthOfMembers front) (depthOfMembers back) := by
  induction front with
  | nil => simp [depthOfMembers]
  | cons member members induction => simp [depthOfMembers, induction, Nat.max_assoc]

theorem Rearranged.depth_eq {tree changed : Tree} (rearranged : tree.Rearranged changed) :
    tree.depth = changed.depth := by
  induction rearranged with
  | refl => rfl
  | trans _ _ first second => exact first.trans second
  | swap before after different =>
      simp only [depth, depthOfMembers_append, depthOfMembers, Nat.max_left_comm]
  | member name before after _ induction =>
      simp only [depth, depthOfMembers_append, depthOfMembers, induction]
  | item before after _ induction =>
      simp only [depth, depthOfItems_append, depthOfItems, induction]

end Tree

namespace Value

open Cohort.Json.Tree (Rearranged)

theorem ofItems?_append (front back : List Tree) :
    ofItems? (front ++ back) =
      (ofItems? front).bind fun first => (ofItems? back).map (first ++ ·) := by
  induction front with
  | nil => simp [ofItems?]
  | cons item items induction =>
      simp only [List.cons_append, ofItems?, induction]
      cases ofTree? item <;> cases ofItems? items <;> cases ofItems? back <;> rfl

def ofMember? (member : Option String × Tree) : Option (String × Value) :=
  member.1.bind fun name => (ofTree? member.2).map fun value => (name, value)

theorem ofMember?_name {member : Option String × Tree} {read : String × Value}
    (given : ofMember? member = some read) : member.1 = some read.1 := by
  obtain ⟨name, named, valued⟩ := Option.bind_eq_some_iff.mp given
  obtain ⟨value, _, rfl⟩ := Option.map_eq_some_iff.mp valued
  exact named

theorem ofMembers?_cons (member : Option String × Tree) (members : List (Option String × Tree)) :
    ofMembers? (member :: members) =
      (ofMember? member).bind fun first => (ofMembers? members).map (first :: ·) := by
  simp only [ofMembers?, ofMember?]
  cases member.1 <;> cases ofTree? member.2 <;> cases ofMembers? members <;> rfl

theorem ofMembers?_append (front back : List (Option String × Tree)) :
    ofMembers? (front ++ back) =
      (ofMembers? front).bind fun first => (ofMembers? back).map (first ++ ·) := by
  induction front with
  | nil => simp [ofMembers?]
  | cons member members induction =>
      simp only [List.cons_append, ofMembers?_cons, induction]
      cases ofMember? member <;> cases ofMembers? members <;> cases ofMembers? back <;> rfl

theorem ofTree?_swap {first second : Option String × Tree} (different : first.1 ≠ second.1)
    (before after : List (Option String × Tree)) :
    ofTree? (.object (before ++ first :: second :: after)) =
      ofTree? (.object (before ++ second :: first :: after)) := by
  simp only [ofTree?, ofMembers?_append, ofMembers?_cons]
  cases givenFirst : ofMember? first with
  | none => cases ofMember? second <;> rfl
  | some left =>
      cases givenSecond : ofMember? second with
      | none => rfl
      | some right =>
          have apart : left.1 ≠ right.1 := by
            intro same
            exact different (by rw [ofMember?_name givenFirst, ofMember?_name givenSecond, same])
          cases ofMembers? before <;> cases ofMembers? after <;>
            simp [settle_swap apart]

theorem ofTree?_eq_of_rearranged {tree changed : Tree} (rearranged : tree.Rearranged changed) :
    ofTree? tree = ofTree? changed := by
  induction rearranged with
  | refl => rfl
  | trans _ _ first second => exact first.trans second
  | swap before after different => exact ofTree?_swap different before after
  | member name before after _ induction =>
      simp only [ofTree?, ofMembers?_append, ofMembers?, induction]
  | item before after _ induction =>
      simp only [ofTree?, ofItems?_append, ofItems?, induction]

theorem parse?_eq_of_rearranged {text other : String} {tree changed : Tree}
    (said : Tree.parse? text = some tree) (saidOther : Tree.parse? other = some changed)
    (rearranged : tree.Rearranged changed) : parse? text = parse? other := by
  simp only [parse?, said, saidOther, Option.bind_eq_bind, Option.bind_some,
    rearranged.depth_eq, ofTree?_eq_of_rearranged rearranged]

end Value

end Cohort.Json
