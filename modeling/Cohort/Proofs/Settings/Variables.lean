import Cohort.Proofs.Text.Casing
import Cohort.Proofs.Text.Numerals
import Cohort.Settings.Environment
import Mathlib

/-!
# Settings given by variables

Every variable puts its value at the path of its setting, and as no path goes on from
another, what was put at one path is not touched by what is put at another.
-/

namespace Cohort

open Text

namespace Settings

/-- The settings that there are. -/
inductive Key where
  | nodeId
  | parallelThreshold
  | updateInterval
  | initialDelay
  | errorBackoff
  | seedPath
  deriving DecidableEq

namespace Key

/-- The section that a setting stands in, if it stands in one. -/
def section? : Key → Option String
  | .nodeId => none
  | .parallelThreshold => some "segmentation"
  | .updateInterval | .initialDelay | .errorBackoff => some "sync"
  | .seedPath => some "store"

def name : Key → String
  | .nodeId => "node_id"
  | .parallelThreshold => "parallel_threshold"
  | .updateInterval => "update_interval_minutes"
  | .initialDelay => "initial_delay_secs"
  | .errorBackoff => "error_backoff_minutes"
  | .seedPath => "seed_path"

def path (key : Key) : List String :=
  key.section?.toList ++ [key.name]

def variableLetters (key : Key) : List Char :=
  environmentStart ++ (String.intercalate "__" key.path).toList

end Key

/-- What a setting is set to. -/
inductive GivenValue where
  | text (content : String)
  | number (value : Nat)

namespace GivenValue

/-- A text is neither a truth value nor a number, and a number is within the signed
bounds. -/
def Fits : GivenValue → Prop
  | .text content =>
      lower content ≠ "true" ∧ lower content ≠ "false" ∧ signedNumeral? content.toList = none ∧
        Double.read? content.toList = none
  | .number value => value < 2 ^ 63

/-- A text is spelled by itself and a number by decimal digits. -/
def SpelledBy (spelling : String) : GivenValue → Prop
  | .text content => spelling = content
  | .number value => digits? spelling.toList = some value

def setting : GivenValue → Setting
  | .text content => .text content
  | .number value => .whole value

end GivenValue

/-- A choice of the settings, each with what it is set to. -/
structure Given where
  nodeId : Option String := none
  parallelThreshold : Option Nat := none
  updateInterval : Option Nat := none
  initialDelay : Option Nat := none
  errorBackoff : Option Nat := none
  seedPath : Option String := none

namespace Given

def value? (given : Given) : Key → Option GivenValue
  | .nodeId => given.nodeId.map .text
  | .parallelThreshold => given.parallelThreshold.map .number
  | .updateInterval => given.updateInterval.map .number
  | .initialDelay => given.initialDelay.map .number
  | .errorBackoff => given.errorBackoff.map .number
  | .seedPath => given.seedPath.map .text

def Fits (given : Given) : Prop :=
  ∀ key, ∀ value ∈ given.value? key, value.Fits

/-- The settings that are given, and the defaults of those that are not. -/
def settings (given : Given) : Settings where
  nodeId := given.nodeId.getD ({} : Settings).nodeId
  parallelThreshold := given.parallelThreshold.getD ({} : Settings).parallelThreshold
  schedule :=
    { updateIntervalMinutes := given.updateInterval.getD ({} : Schedule).updateIntervalMinutes
      initialDelaySeconds := given.initialDelay.getD ({} : Schedule).initialDelaySeconds
      errorBackoffMinutes := given.errorBackoff.getD ({} : Schedule).errorBackoffMinutes }
  seedPath := given.seedPath

/-- Among the variables, whose names may be in any case, are those of the given
settings, each of which spells what its setting is set to, and no others that begin as
they do. -/
structure InEnvironment (given : Given) (environment : List (String × String)) : Prop where
  known : ∀ binding ∈ environment, environmentStart <+: lowerLetters binding.1.toList →
    ∃ key value, lowerLetters binding.1.toList = key.variableLetters ∧
      given.value? key = some value ∧ value.SpelledBy binding.2
  complete : ∀ key, (given.value? key).isSome →
    ∃ binding ∈ environment, lowerLetters binding.1.toList = key.variableLetters

/-- At a place, of which is known what is found there under a name, each setting that
belongs there is found as it is given, and not found if it is not given. -/
def FoundAs {α : Type} (given : Given) (place : Option String) (find? : String → Option α)
    (write : GivenValue → α) : Prop :=
  ∀ key : Key, key.section? = place → find? key.name = (given.value? key).map write

end Given

end Settings

/-! ## Values -/

namespace Text

theorem unsigned?_of_lt {value : Nat} (small : value < 2 ^ 63) : unsigned? value = some value := by
  have within : 0 ≤ (value : Int) ∧ (value : Int) ≤ maxUnsigned := by
    unfold maxUnsigned
    omega
  rw [unsigned?, if_pos within, Int.toNat_natCast]

theorem head?_lowerLetters_of_isDigit {c : Char} (digit : isDigit c = true) (rest : List Char) :
    (lowerLetters (c :: rest)).head? = some c := by
  have bounds := bounds_of_isDigit digit
  have notSigma : c ≠ 'Σ' := by
    rintro rfl
    exact absurd bounds (by decide)
  have notDotted : c ≠ 'İ' := by
    rintro rfl
    exact absurd bounds (by decide)
  have same : lowerPoint c.toNat lowerRows = c.toNat := by
    have below : c.toNat < 0x41 := by omega
    rw [lowerRows, lowerPoint, if_pos below]
  rw [lowerLetters, lowerFrom, lowerAt, if_neg notSigma, if_neg notDotted, lowerChar, same,
    Char.ofNat_toNat]
  rfl

theorem lower_ne_of_digits {text word : String} {value : Nat} {letter : Char} {others : List Char}
    (digits : digits? text.toList = some value) (begins : word.toList = letter :: others)
    (noDigit : isDigit letter = false) : lower text ≠ word := by
  intro same
  obtain ⟨⟨notEmpty, all⟩, _⟩ := Option.ite_none_right_eq_some.mp digits
  obtain ⟨c, rest, split⟩ := List.exists_cons_of_ne_nil notEmpty
  have digit : isDigit c = true := List.all_eq_true.mp all c (split ▸ List.mem_cons_self)
  have letters : lowerLetters text.toList = word.toList := by
    rw [← same, lower, String.toList_ofList]
  have first := head?_lowerLetters_of_isDigit digit rest
  rw [← split, letters, begins, List.head?_cons, Option.some.injEq] at first
  rw [first, digit] at noDigit
  cases noDigit

theorem signedNumeral?_of_digits {letters : List Char} {value : Nat}
    (digits : digits? letters = some value) (small : value < 2 ^ 63) :
    signedNumeral? letters = some (value : Int) := by
  have within : minSigned ≤ (value : Int) ∧ (value : Int) ≤ maxSigned := by
    unfold minSigned maxSigned
    omega
  obtain ⟨⟨_, all⟩, _⟩ := Option.ite_none_right_eq_some.mp digits
  have spelled : integer? letters = some (value : Int) := by
    unfold integer?
    split
    · exact absurd (List.all_eq_true.mp all '-' List.mem_cons_self) (by decide)
    · exact absurd (List.all_eq_true.mp all '+' List.mem_cons_self) (by decide)
    · rw [digits]
      rfl
  rw [signedNumeral?, spelled, Option.bind_some, signed?, if_pos within]

end Text

namespace Settings.GivenValue

theorem ofText_of_spelledBy {value : GivenValue} {spelling : String} (fits : value.Fits)
    (spelled : value.SpelledBy spelling) : Setting.ofText spelling = value.setting := by
  cases value with
  | text content =>
      obtain ⟨notTrue, notFalse, noInteger, noDouble⟩ := fits
      subst spelled
      simp only [Setting.ofText, if_neg notTrue, if_neg notFalse, noInteger, noDouble, setting]
  | number value =>
      have digits : digits? spelling.toList = some value := spelled
      have notTrue : lower spelling ≠ "true" := lower_ne_of_digits digits rfl rfl
      have notFalse : lower spelling ≠ "false" := lower_ne_of_digits digits rfl rfl
      simp only [Setting.ofText, if_neg notTrue, if_neg notFalse,
        signedNumeral?_of_digits digits fits, setting]

end Settings.GivenValue

/-! ## Paths -/

theorem lookup_cons {α : Type} (name : String) (entry : String × α) (entries : List (String × α)) :
    (entry :: entries).lookup name =
      if name = entry.1 then some entry.2 else entries.lookup name := by
  rw [List.lookup_cons]
  by_cases same : name = entry.1
  · rw [if_pos same, beq_iff_eq.mpr same]
  · rw [if_neg same, beq_false_of_ne same]

namespace Setting

/-- What is found at the end of a path of names. -/
def at? : List String → Setting → Option Setting
  | [], setting => some setting
  | name :: names, setting => (setting.tableEntries.lookup name).bind (at? names)

theorem lookup_alterEntry (name other : String) (change : Setting → Setting)
    (entries : List (String × Setting)) :
    (alterEntry name change entries).lookup other =
      if other = name then some (change ((entries.lookup name).getD .absent))
      else entries.lookup other := by
  induction entries with
  | nil => exact lookup_cons other (name, change .absent) []
  | cons entry entries induction =>
      obtain ⟨first, setting⟩ := entry
      unfold alterEntry
      by_cases here : first = name
      · subst here
        simp only [if_true, lookup_cons, Option.getD_some]
        split <;> rfl
      · simp only [if_neg here, lookup_cons, induction, if_neg (Ne.symm here)]
        by_cases same : other = first
        · subst same
          rw [if_pos rfl, if_neg here, if_pos rfl]
        · rw [if_neg same, if_neg same]

variable {value setting : Setting} {names others : List String}

theorem at?_cons_put (name other : String) (steps : List PathStep) :
    (put value (.name name :: steps) setting).at? (other :: others) =
      if other = name then
        (put value steps ((setting.tableEntries.lookup name).getD .absent)).at? others
      else setting.at? (other :: others) := by
  show ((alterEntry name (put value steps) setting.tableEntries).lookup other).bind _ = _
  rw [lookup_alterEntry]
  split <;> rfl

theorem at?_put : (put value (names.map .name) setting).at? names = some value := by
  induction names generalizing setting with
  | nil => rfl
  | cons name names induction => rw [List.map_cons, at?_cons_put, if_pos rfl, induction]

/-- What is found under a path that neither goes on from another nor leads to it is not
touched by what is put there. -/
theorem at?_put_of_apart (notBefore : ¬names <+: others) (notBehind : ¬others <+: names) :
    (put value (names.map .name) setting).at? others = setting.at? others := by
  induction names generalizing others setting with
  | nil => exact (notBefore List.nil_prefix).elim
  | cons name names induction =>
      cases others with
      | nil => exact (notBehind List.nil_prefix).elim
      | cons other others =>
          rw [List.map_cons, at?_cons_put]
          by_cases same : other = name
          · subst same
            rw [List.cons_prefix_cons, not_and] at notBefore notBehind
            rw [if_pos rfl, induction (notBefore rfl) (notBehind rfl)]
            cases found : setting.tableEntries.lookup other with
            | some inner => simp only [at?, found, Option.getD_some, Option.bind_some]
            | none =>
                cases others with
                | nil => exact (notBehind rfl List.nil_prefix).elim
                | cons first rest =>
                    simp only [at?, found]
                    rfl
          · rw [if_neg same]

end Setting

/-! ## Variables -/

namespace Settings

def sectionNames : List String :=
  ["segmentation", "sync", "store"]

namespace Key

def all : List Key :=
  [.nodeId, .parallelThreshold, .updateInterval, .initialDelay, .errorBackoff, .seedPath]

theorem mem_all (key : Key) : key ∈ all := by
  cases key <;> decide

theorem variableLetters_injective : Function.Injective variableLetters := by
  have distinct : (all.map variableLetters).Nodup := by decide +kernel
  intro key other same
  exact List.inj_on_of_nodup_map distinct (mem_all key) (mem_all other) same

theorem path_apart {key other : Key} (different : key ≠ other) : ¬key.path <+: other.path := by
  cases key <;> cases other <;> first | exact absurd rfl different | decide +kernel

theorem read?_variableLetters (key : Key) :
    ∃ path, SettingPath.read? (pointed (key.variableLetters.drop environmentStart.length)) =
      some path ∧ .name path.first :: path.steps = key.path.map PathStep.name := by
  cases key <;> exact ⟨_, rfl, rfl⟩

theorem name_not_mem_sectionNames {key : Key} (outside : key.section? = none) :
    key.name ∉ sectionNames := by
  cases key with
  | nodeId => decide
  | _ => cases outside

end Key

/-- A variable either does not begin as those of settings do, and is passed over, or it
is that of a given setting and puts its value at its path. -/
theorem takeVariable_cases {given : Given} {environment : List (String × String)}
    (fits : given.Fits) (inEnvironment : given.InEnvironment environment)
    {binding : String × String} (listed : binding ∈ environment) :
    (∀ key : Key, lowerLetters binding.1.toList ≠ key.variableLetters) ∧
        (∀ root, takeVariable root binding = root) ∨
      ∃ key value, lowerLetters binding.1.toList = key.variableLetters ∧
        given.value? key = some value ∧
        ∀ root, takeVariable root binding =
          Setting.put value.setting (key.path.map .name) root := by
  by_cases ours : environmentStart <+: lowerLetters binding.1.toList
  · obtain ⟨key, value, same, chosen, spelled⟩ := inEnvironment.known binding listed ours
    obtain ⟨path, read, steps⟩ := key.read?_variableLetters
    refine Or.inr ⟨key, value, same, chosen, fun root => ?_⟩
    have starts : environmentStart.isPrefixOf key.variableLetters = true :=
      List.isPrefixOf_iff_prefix.mpr (List.prefix_append _ _)
    simp only [takeVariable, same, starts, if_true, read, steps,
      GivenValue.ofText_of_spelledBy (fits key value chosen) spelled]
  · refine Or.inl ⟨fun key same => ours ?_, fun root => ?_⟩
    · rw [same]
      exact List.prefix_append _ _
    · have foreign : environmentStart.isPrefixOf (lowerLetters binding.1.toList) = false :=
        Bool.eq_false_iff.mpr fun starts => ours (List.isPrefixOf_iff_prefix.mp starts)
      simp only [takeVariable, foreign, Bool.false_eq_true, if_false]

section Environment

variable {given : Given} {environment : List (String × String)} {root : Setting}

/-- Whatever the order of the variables, each setting that has one is found with its
value in the end, and the others are found as they were before. -/
theorem at?_foldl_takeVariable (fits : given.Fits) (inEnvironment : given.InEnvironment environment)
    (key : Key) {bindings : List (String × String)} (listed : bindings ⊆ environment) :
    (bindings.foldl takeVariable root).at? key.path =
      if ∃ binding ∈ bindings, lowerLetters binding.1.toList = key.variableLetters then
        (given.value? key).map GivenValue.setting
      else root.at? key.path := by
  induction bindings generalizing root with
  | nil => rfl
  | cons binding bindings induction =>
      obtain ⟨first, others⟩ := List.cons_subset.mp listed
      simp only [List.foldl_cons, induction others, List.exists_mem_cons_iff]
      -- A later variable of the setting puts the same value again, so only the last
      -- one matters.
      by_cases later : ∃ binding ∈ bindings, lowerLetters binding.1.toList = key.variableLetters
      · rw [if_pos later, if_pos (Or.inr later)]
      · rw [if_neg later]
        rcases takeVariable_cases fits inEnvironment first with
          ⟨foreign, same⟩ | ⟨other, value, named, chosen, puts⟩
        · rw [same, if_neg (not_or.mpr ⟨foreign key, later⟩)]
        · rw [puts]
          by_cases own : other = key
          · subst own
            rw [if_pos (Or.inl named), Setting.at?_put, chosen, Option.map_some]
          · have notNamed : lowerLetters binding.1.toList ≠ key.variableLetters :=
              fun same => own (Key.variableLetters_injective (named.symm.trans same))
            rw [if_neg (not_or.mpr ⟨notNamed, later⟩),
              Setting.at?_put_of_apart (Key.path_apart own) (Key.path_apart (Ne.symm own))]

/-- What stands under the name of a section is a section. -/
def Sectioned (root : Setting) : Prop :=
  ∀ name ∈ sectionNames, ∀ found, root.at? [name] = some found → ∃ entries, found = .table entries

theorem Sectioned.put (sectioned : Sectioned root) (value : Setting) (key : Key) :
    Sectioned (Setting.put value (key.path.map .name) root) := by
  intro name listed found there
  unfold Key.path at there
  cases place : key.section? with
  | none =>
      have apart : name ≠ key.name := fun same =>
        Key.name_not_mem_sectionNames place (same ▸ listed)
      rw [place, Option.toList_none, List.nil_append, List.map_singleton, Setting.at?_cons_put,
        if_neg apart] at there
      exact sectioned name listed found there
  | some other =>
      rw [place, Option.toList_some, List.singleton_append, List.map_cons,
        Setting.at?_cons_put] at there
      split at there
      · cases there
        exact ⟨_, rfl⟩
      · exact sectioned name listed found there

theorem sectioned_foldl_takeVariable (fits : given.Fits)
    (inEnvironment : given.InEnvironment environment) (sectioned : Sectioned root) :
    Sectioned (environment.foldl takeVariable root) := by
  apply List.foldlRecOn (motive := Sectioned) environment takeVariable sectioned
  intro before sectioned binding listed
  rcases takeVariable_cases fits inEnvironment listed with ⟨_, same⟩ | ⟨key, value, _, _, puts⟩
  · rw [same]
    exact sectioned
  · rw [puts]
    exact sectioned.put value.setting key

/-! ## What the variables come to -/

theorem at?_collected (fits : given.Fits) (inEnvironment : given.InEnvironment environment)
    (key : Key) :
    (environment.foldl takeVariable (.table [])).at? key.path =
      (given.value? key).map GivenValue.setting := by
  rw [at?_foldl_takeVariable fits inEnvironment key (List.Subset.refl environment)]
  split
  · rfl
  · rename_i absent
    have notGiven : given.value? key = none := by
      rw [← Option.not_isSome_iff_eq_none]
      exact fun chosen => absent (inEnvironment.complete key chosen)
    rw [notGiven]
    cases key <;> rfl

/-- A section that is not there stands for an empty one, and what is given in it is
found in it. -/
theorem found_in_section (fits : given.Fits) (inEnvironment : given.InEnvironment environment)
    (name : String) (listed : name ∈ sectionNames) :
    let fields := (environment.foldl takeVariable (.table [])).tableEntries
    ∃ entries,
      (fields.lookup name = none ∧ entries = [] ∨ fields.lookup name = some (.table entries)) ∧
        given.FoundAs (some name) (List.lookup · entries) GivenValue.setting := by
  intro fields
  have found (key : Key) (inside : key.section? = some name) :
      (fields.lookup name).bind (Setting.at? [key.name]) =
        (given.value? key).map GivenValue.setting := by
    rw [← at?_collected fits inEnvironment key, Key.path, inside]
    rfl
  cases there : fields.lookup name with
  | none =>
      refine ⟨[], Or.inl ⟨rfl, rfl⟩, fun key inside => ?_⟩
      rw [← found key inside, there]
      rfl
  | some held =>
      have sectioned : Sectioned (environment.foldl takeVariable (.table [])) := by
        apply sectioned_foldl_takeVariable fits inEnvironment
        intro _ _ _ nowhere
        cases nowhere
      have heldThere : (environment.foldl takeVariable (.table [])).at? [name] = some held := by
        rw [Setting.at?]
        exact congrArg (Option.bind · (Setting.at? [])) there
      obtain ⟨entries, rfl⟩ := sectioned name listed held heldThere
      refine ⟨entries, Or.inr rfl, fun key inside => ?_⟩
      rw [← found key inside, there, Option.bind_some, Setting.at?]
      exact (Option.bind_fun_some _).symm

theorem found_outside (fits : given.Fits) (inEnvironment : given.InEnvironment environment) :
    given.FoundAs none
      (List.lookup · (environment.foldl takeVariable (.table [])).tableEntries)
      GivenValue.setting := by
  intro key outside
  rw [← at?_collected fits inEnvironment key, Key.path, outside]
  exact (Option.bind_fun_some _).symm

end Environment

/-! ## What is read -/

section Reading

variable {given : Given} {fields entries : List (String × Setting)} {name : String}

theorem field?_section {α : Type} {value result : α} {read : Setting → Option α}
    (blank : read (.table []) = some value)
    (found : fields.lookup name = none ∧ entries = [] ∨ fields.lookup name = some (.table entries))
    (reads : read (.table entries) = some result) :
    Setting.field? fields name value read = some result := by
  unfold Setting.field?
  rcases found with ⟨absent, rfl⟩ | there
  · rw [absent, ← reads, blank]
  · rw [there]
    exact reads

theorem Given.Fits.small (fits : given.Fits) (key : Key) {chosen : Option Nat}
    (numbers : given.value? key = chosen.map .number) : ∀ value ∈ chosen, value < 2 ^ 63 := by
  intro value listed
  apply fits key (.number value)
  rw [numbers]
  exact Option.mem_map_of_mem GivenValue.number listed

theorem field?_number {chosen : Option Nat} (value : Nat)
    (found : fields.lookup name = (chosen.map .number).map GivenValue.setting)
    (small : ∀ number ∈ chosen, number < 2 ^ 63) :
    Setting.field? fields name value Setting.number? = some (chosen.getD value) := by
  unfold Setting.field?
  rw [found]
  cases chosen with
  | none => rfl
  | some number => exact unsigned?_of_lt (small number rfl)

theorem thresholdOf?_table (fits : given.Fits)
    (found : given.FoundAs (some "segmentation") (List.lookup · entries) GivenValue.setting) :
    thresholdOf? (.table entries) = some given.settings.parallelThreshold :=
  field?_number _ (found .parallelThreshold rfl) (fits.small .parallelThreshold rfl)

theorem scheduleOf?_table (fits : given.Fits)
    (found : given.FoundAs (some "sync") (List.lookup · entries) GivenValue.setting) :
    scheduleOf? (.table entries) = some given.settings.schedule := by
  have updateInterval := field?_number ({} : Schedule).updateIntervalMinutes
    (found .updateInterval rfl) (fits.small .updateInterval rfl)
  have initialDelay := field?_number ({} : Schedule).initialDelaySeconds
    (found .initialDelay rfl) (fits.small .initialDelay rfl)
  have errorBackoff := field?_number ({} : Schedule).errorBackoffMinutes
    (found .errorBackoff rfl) (fits.small .errorBackoff rfl)
  refine bind_eq_some.mpr ⟨entries, rfl, ?_⟩
  refine bind_eq_some.mpr ⟨_, updateInterval, ?_⟩
  refine bind_eq_some.mpr ⟨_, initialDelay, ?_⟩
  exact bind_eq_some.mpr ⟨_, errorBackoff, rfl⟩

theorem seedPathOf?_table
    (found : given.FoundAs (some "store") (List.lookup · entries) GivenValue.setting) :
    seedPathOf? (.table entries) = some given.settings.seedPath := by
  have seedPath : entries.lookup "seed_path" =
      (given.seedPath.map .text).map GivenValue.setting := found .seedPath rfl
  refine bind_eq_some.mpr ⟨entries, rfl, ?_⟩
  rw [Setting.field?, seedPath, Given.settings]
  cases given.seedPath <;> rfl

/-- From the variables of the given settings, in whatever order, these are read, with
the defaults of the others. -/
theorem ofEnvironment?_of_inEnvironment {environment : List (String × String)} (fits : given.Fits)
    (inEnvironment : given.InEnvironment environment) :
    ofEnvironment? environment = some given.settings := by
  have outside := found_outside fits inEnvironment
  have inside := found_in_section fits inEnvironment
  unfold ofEnvironment?
  dsimp only at inside ⊢
  generalize (environment.foldl takeVariable (.table [])).tableEntries = fields at outside inside ⊢
  have nodeId : Setting.field? fields "node_id" ({} : Settings).nodeId Setting.text? =
      some given.settings.nodeId := by
    have found : fields.lookup "node_id" = (given.nodeId.map .text).map GivenValue.setting :=
      outside .nodeId rfl
    rw [Setting.field?, found, Given.settings]
    cases given.nodeId <;> rfl
  obtain ⟨_, segmentation, inSegmentation⟩ := inside "segmentation" (by decide)
  obtain ⟨_, sync, inSync⟩ := inside "sync" (by decide)
  obtain ⟨_, store, inStore⟩ := inside "store" (by decide)
  refine bind_eq_some.mpr ⟨_, nodeId, ?_⟩
  refine bind_eq_some.mpr
    ⟨_, field?_section rfl segmentation (thresholdOf?_table fits inSegmentation), ?_⟩
  refine bind_eq_some.mpr ⟨_, field?_section rfl sync (scheduleOf?_table fits inSync), ?_⟩
  exact bind_eq_some.mpr ⟨_, field?_section rfl store (seedPathOf?_table inStore), rfl⟩

end Reading

end Settings

end Cohort
