import Cohort.Proofs.Settings.Variables

/-!
# The seed path among the variables

What several variables come to together has a seed path only if one of them gives one,
in whatever order they come: where the seed path is looked for, a variable leaves a text
only if it would leave one there on its own.
-/

namespace Cohort

namespace Setting

/-- What was put at the end of a path has its own text, and what leads there has
none. -/
theorem text?_put (value setting : Setting) (steps : List PathStep) :
    (put value steps setting).text? = if steps = [] then value.text? else none := by
  cases steps with
  | nil => rfl
  | cons step steps => cases step <;> rfl

theorem join_optionalText? (setting : Setting) : setting.optionalText?.join = setting.text? := by
  cases setting <;> rfl

theorem headD_modify (place : Nat) (change : Setting → Setting) (items : List Setting) :
    (items.modify place change).headD .absent = items.headD .absent ∨
      place = 0 ∧ (items.modify place change).headD .absent = change (items.headD .absent) := by
  cases items with
  | nil =>
      left
      cases place <;> rfl
  | cons item items =>
      cases place with
      | zero => exact Or.inr ⟨rfl, rfl⟩
      | succ place => exact Or.inl rfl

/-- The first item of a list after a change of a place was the first before or was
absent, and it is changed only if the place is the first or is counted from the end. -/
theorem headD_alterItem (index : Int) (change : Setting → Setting) (items : List Setting) :
    ∃ first, (first = items.headD .absent ∨ first = .absent) ∧
      ((alterItem index change items).headD .absent = first ∨
        index ≤ 0 ∧ (alterItem index change items).headD .absent = change first) := by
  unfold alterItem
  split
  · refine ⟨_, ?_, (headD_modify _ _ _).imp_right (And.imp_left fun first => by omega)⟩
    cases items with
    | nil => cases index.toNat + 1 - [].length <;> exact Or.inr rfl
    | cons item items => exact Or.inl rfl
  · refine ⟨_, ?_, (headD_modify _ _ _).imp_right (And.imp_left fun _ => by omega)⟩
    cases index.natAbs - items.length with
    | zero => exact Or.inl rfl
    | succ size => exact Or.inr rfl

theorem headD_alterItem_nil {index : Int} (change : Setting → Setting) (first : index ≤ 0) :
    (alterItem index change []).headD .absent = change .absent := by
  unfold alterItem
  dsimp only
  split
  · obtain rfl : index = 0 := by omega
    rfl
  · obtain ⟨size, back⟩ : ∃ size, index.natAbs = size + 1 := ⟨index.natAbs - 1, by omega⟩
    rw [back]
    simp [List.replicate_succ]

end Setting

namespace Settings

open Setting

/-- A variable gives a seed path if there is one in the settings of an environment
without any other variable. -/
def GivesSeedPath (binding : String × String) : Prop :=
  ((ofEnvironment? [binding]).bind seedPath).isSome

instance (binding : String × String) : Decidable (GivesSeedPath binding) :=
  inferInstanceAs (Decidable (_ = true))

/-- The seed path that the section for the store has, if it can be read and has one. -/
def sectionSeedPath (store : Setting) : Option String :=
  (seedPathOf? store).join

theorem sectionSeedPath_table (entries : List (String × Setting)) :
    sectionSeedPath (.table entries) = (entries.lookup "seed_path").bind text? := by
  show (field? entries "seed_path" none optionalText?).join = _
  unfold field?
  cases entries.lookup "seed_path" with
  | none => rfl
  | some setting => exact join_optionalText? setting

theorem sectionSeedPath_list (items : List Setting) :
    sectionSeedPath (.list items) = (items.headD .absent).text? := by
  cases items with
  | nil => rfl
  | cons item items => exact join_optionalText? item

section Section

variable {store value : Setting}

theorem text?_lookup_tableEntries (unseeded : sectionSeedPath store = none) :
    (store.tableEntries.lookup "seed_path").bind text? = none := by
  cases store with
  | table entries => rwa [sectionSeedPath_table] at unseeded
  | _ => rfl

theorem text?_headD_listItems (unseeded : sectionSeedPath store = none) :
    (store.listItems.headD .absent).text? = none := by
  cases store with
  | list items => rwa [sectionSeedPath_list] at unseeded
  | _ => rfl

/-- What is put into a section without a seed path leaves it without one, unless it
would have given one where there was nothing before. -/
theorem sectionSeedPath_put {steps : List PathStep}
    (alone : sectionSeedPath (put value steps .absent) = none)
    (unseeded : sectionSeedPath store = none) :
    sectionSeedPath (put value steps store) = none := by
  cases steps with
  | nil => exact alone
  | cons step steps =>
      cases step with
      | name name =>
          rw [put, sectionSeedPath_table, lookup_alterEntry] at alone ⊢
          by_cases same : "seed_path" = name
          · rw [if_pos same, Option.bind_some, text?_put] at alone ⊢
            exact alone
          · rw [if_neg same]
            exact text?_lookup_tableEntries unseeded
      | place index =>
          rw [put, sectionSeedPath_list] at alone ⊢
          obtain ⟨first, known, changed⟩ :=
            headD_alterItem index (put value steps) store.listItems
          rcases changed with kept | ⟨reached, changed⟩
          · rw [kept]
            rcases known with rfl | rfl
            · exact text?_headD_listItems unseeded
            · rfl
          · -- The text of what is put there does not depend on what it replaces, so it can be
            -- read off the list that was empty before.
            have listItems : Setting.absent.listItems = [] := rfl
            rw [listItems, headD_alterItem_nil _ reached, text?_put] at alone
            rw [changed, text?_put]
            exact alone

end Section

/-- The seed path under the name of the section for the store. -/
def collectedSeedPath (root : Setting) : Option String :=
  (root.tableEntries.lookup "store").bind sectionSeedPath

/-- The seed path of settings that can be read is the one under the name of its
section. -/
theorem seedPath_of_ofEnvironment? {environment : List (String × String)} {settings : Settings}
    (read : ofEnvironment? environment = some settings) :
    settings.seedPath = collectedSeedPath (environment.foldl takeVariable (.table [])) := by
  obtain ⟨_, _, read⟩ := bind_eq_some.mp read
  obtain ⟨_, _, read⟩ := bind_eq_some.mp read
  obtain ⟨_, _, read⟩ := bind_eq_some.mp read
  obtain ⟨seedPath, store, read⟩ := bind_eq_some.mp read
  cases read
  unfold field? at store
  unfold collectedSeedPath sectionSeedPath
  split at store
  · rename_i absent
    cases store
    rw [absent]
    rfl
  · rename_i setting found
    rw [found, Option.bind_some, store]
    rfl

theorem ofEnvironment?_of_store {environment : List (String × String)} {store : Setting}
    (collected : environment.foldl takeVariable (.table []) = .table [("store", store)]) :
    ofEnvironment? environment = (seedPathOf? store).map fun seedPath => { seedPath } := by
  unfold ofEnvironment?
  rw [collected]
  show (seedPathOf? store).bind _ = _
  cases seedPathOf? store <;> rfl

/-- A variable changes nothing, or it puts its value at one path whatever there is. -/
theorem takeVariable_eq (binding : String × String) :
    (∀ root, takeVariable root binding = root) ∨
      ∃ first steps, ∀ root, takeVariable root binding =
        put (.ofText binding.2) (.name first :: steps) root := by
  unfold takeVariable
  dsimp only
  split
  · split
    · exact Or.inr ⟨_, _, fun _ => rfl⟩
    · exact Or.inl fun _ => rfl
  · exact Or.inl fun _ => rfl

theorem collectedSeedPath_put (value root : Setting) (first : String) (steps : List PathStep) :
    collectedSeedPath (put value (.name first :: steps) root) =
      if "store" = first then
        sectionSeedPath (put value steps ((root.tableEntries.lookup "store").getD .absent))
      else collectedSeedPath root := by
  unfold collectedSeedPath
  rw [put, tableEntries, lookup_alterEntry]
  by_cases same : "store" = first
  · subst same
    rw [if_pos rfl, if_pos rfl, Option.bind_some]
  · rw [if_neg same, if_neg same]

/-- What a variable puts below the name of the section, where there is nothing, is a
seed path only if the variable gives one. -/
theorem sectionSeedPath_eq_none {binding : String × String} {steps : List PathStep}
    (notGiven : ¬GivesSeedPath binding)
    (puts : ∀ root, takeVariable root binding =
      put (.ofText binding.2) (.name "store" :: steps) root) :
    sectionSeedPath (put (.ofText binding.2) steps .absent) = none := by
  have read : ofEnvironment? [binding] = _ := ofEnvironment?_of_store (puts (.table []))
  rw [GivesSeedPath, read, Option.not_isSome_iff_eq_none] at notGiven
  rw [← notGiven, sectionSeedPath]
  cases seedPathOf? (put (.ofText binding.2) steps .absent) <;> rfl

theorem collectedSeedPath_takeVariable {root : Setting} {binding : String × String}
    (notGiven : ¬GivesSeedPath binding) (unseeded : collectedSeedPath root = none) :
    collectedSeedPath (takeVariable root binding) = none := by
  rcases takeVariable_eq binding with same | ⟨first, steps, puts⟩
  · rw [same]
    exact unseeded
  · rw [puts, collectedSeedPath_put]
    split
    · rename_i same
      subst same
      apply sectionSeedPath_put (sectionSeedPath_eq_none notGiven puts)
      unfold collectedSeedPath at unseeded
      cases found : root.tableEntries.lookup "store" with
      | none => rfl
      | some store => rwa [found] at unseeded
    · exact unseeded

theorem seedPath_eq_none {environment : List (String × String)}
    (notGiven : ∀ binding ∈ environment, ¬GivesSeedPath binding) {settings : Settings}
    (read : ofEnvironment? environment = some settings) : settings.seedPath = none := by
  rw [seedPath_of_ofEnvironment? read]
  -- Each variable keeps what was collected before it without a seed path.
  apply List.foldlRecOn (motive := (collectedSeedPath · = none)) environment takeVariable rfl
  intro root unseeded binding listed
  exact collectedSeedPath_takeVariable (notGiven binding listed) unseeded

/-- Not only one spelling gives a seed path; it has to be the first item of its
section. -/
example : GivesSeedPath ("audience_sync__Store[-1]", "7") ∧
    ¬GivesSeedPath ("AUDIENCE_SYNC__STORE[1]", "seed.json") := by
  decide +kernel

end Settings

end Cohort
