import Cohort.Proofs.Settings.Variables
import Cohort.Settings.Document

/-!
# Variables and documents agree

A document gives settings by the members of an object and of the objects within it, in
any order and among members with other names.  It makes no difference for the defaults
whether a section is left out or is there and empty.
-/

namespace Cohort

open Json Text

namespace Json

/-- What an object holds under a name. -/
def treesUnder (name : String) (members : List (Option String × Tree)) : List Tree :=
  (members.filter (·.1 == some name)).map (·.2)

namespace Record

variable {members : List (Option String × Tree)}

theorem known?_members (names : List String) (legible : ∀ member ∈ members, member.1.isSome) :
    ∃ fields, known? names members = some fields ∧ (∀ field ∈ fields, field.1 ∈ names) ∧
      ∀ name ∈ names, (fields.filter (·.1 == name)).map (·.2) = treesUnder name members := by
  induction members with
  | nil => exact ⟨[], rfl, List.forall_mem_nil _, fun _ _ => rfl⟩
  | cons member members induction =>
      obtain ⟨first, others⟩ := List.forall_mem_cons.mp legible
      obtain ⟨fields, taken, declared, found⟩ := induction others
      obtain ⟨named, tree⟩ := member
      obtain ⟨own, rfl⟩ := Option.isSome_iff_exists.mp first
      by_cases listed : own ∈ names
      · refine ⟨(own, tree) :: fields, ?_, List.forall_mem_cons.mpr ⟨listed, declared⟩, ?_⟩
        · simp [known?, taken, listed]
        · intro name inNames
          have rest := found name inNames
          unfold treesUnder at rest ⊢
          by_cases same : own = name
          · simp [same, rest]
          · simp [same, rest]
      · refine ⟨fields, ?_, declared, ?_⟩
        · simp [known?, taken, listed]
        · intro name inNames
          have other : own ≠ name := fun same => listed (same ▸ inNames)
          have rest := found name inNames
          unfold treesUnder at rest ⊢
          simp [other, rest]

theorem lookup_eq_head? (name : String) (fields : List (String × Tree)) :
    fields.lookup name = ((fields.filter (·.1 == name)).map (·.2)).head? := by
  induction fields with
  | nil => rfl
  | cons field fields induction =>
      rw [lookup_cons, induction, List.filter_cons]
      by_cases same : name = field.1
      · simp [same]
      · simp [same, Ne.symm same]

/-- An object that holds no known name twice is read as a record, in which each name has
what the object holds under it. -/
theorem ofTree?_members {names : List String} (legible : ∀ member ∈ members, member.1.isSome)
    (once : ∀ name ∈ names, (treesUnder name members).length ≤ 1) :
    ∃ record, ofTree? names (.object members) = some record ∧
      ∀ name ∈ names, record.get? name = (treesUnder name members).head? := by
  obtain ⟨fields, taken, declared, found⟩ := known?_members names legible
  have distinct : (fields.map (·.1)).Nodup := by
    rw [List.nodup_iff_count_le_one]
    intro name
    by_cases inNames : name ∈ names
    · have count := once name inNames
      rw [← found name inNames, List.length_map, ← List.countP_eq_length_filter] at count
      rwa [List.count, List.countP_map]
    · have absent : name ∉ fields.map (·.1) := by
        intro member
        obtain ⟨field, listed, rfl⟩ := List.mem_map.mp member
        exact inNames (declared field listed)
      rw [List.count_eq_zero_of_not_mem absent]
      exact Nat.zero_le 1
  refine ⟨{ fields }, ?_, ?_⟩
  · rw [ofTree?, taken, Option.bind_eq_bind, Option.bind_some, if_pos distinct]
  · intro name inNames
    rw [get?, lookup_eq_head?, found name inNames]

end Record

end Json

namespace Settings

def Key.namesIn (place : Option String) : List String :=
  (all.filter (·.section? == place)).map name

theorem Key.mem_namesIn {place : Option String} {name : String} :
    name ∈ namesIn place ↔ ∃ key : Key, key.section? = place ∧ key.name = name := by
  simp [namesIn, mem_all]

def GivenValue.tree : GivenValue → Tree
  | .text content => .text (some content)
  | .number value => .number (some (.int value))

namespace Given

/-- An object whose names can be read holds each given setting of a place once, and no
other setting of that place. -/
structure HeldBy (given : Given) (place : Option String)
    (members : List (Option String × Tree)) : Prop where
  legible : ∀ member ∈ members, member.1.isSome
  trees : ∀ key : Key, key.section? = place →
    treesUnder key.name members = ((given.value? key).map GivenValue.tree).toList

/-- The members of a document give the settings outside the sections, and under the name
of a section is an object that gives those within it, or nothing, which stands for an
empty one. -/
structure InDocument (given : Given) (members : List (Option String × Tree)) : Prop where
  outside : given.HeldBy none members
  inside : ∀ name ∈ sectionNames, ∃ inner,
    (treesUnder name members = [] ∧ inner = [] ∨ treesUnder name members = [.object inner]) ∧
      given.HeldBy (some name) inner

variable {given : Given} {place : Option String} {members : List (Option String × Tree)}

/-- A record that knows the settings of a place, and other names that are held at most
once, finds them all. -/
theorem HeldBy.record (held : given.HeldBy place members) {others : List String}
    (once : ∀ name ∈ others, (treesUnder name members).length ≤ 1) :
    ∃ record, Record.ofTree? (Key.namesIn place ++ others) (.object members) = some record ∧
      given.FoundAs place record.get? GivenValue.tree ∧
      ∀ name ∈ others, record.get? name = (treesUnder name members).head? := by
  have all : ∀ name ∈ Key.namesIn place ++ others, (treesUnder name members).length ≤ 1 := by
    intro name listed
    rcases List.mem_append.mp listed with own | other
    · obtain ⟨key, here, rfl⟩ := Key.mem_namesIn.mp own
      rw [held.trees key here]
      cases given.value? key <;> simp
    · exact once name other
  obtain ⟨record, read, found⟩ := Record.ofTree?_members held.legible all
  refine ⟨record, read, fun key here => ?_, fun name other => ?_⟩
  · rw [found key.name (List.mem_append_left _ (Key.mem_namesIn.mpr ⟨key, here, rfl⟩)),
      held.trees key here, Option.head?_toList]
  · exact found name (List.mem_append_right _ other)

theorem HeldBy.sectionRecord (held : given.HeldBy place members) :
    ∃ record, Record.ofTree? (Key.namesIn place) (.object members) = some record ∧
      given.FoundAs place record.get? GivenValue.tree := by
  obtain ⟨record, read, found, _⟩ := held.record (List.forall_mem_nil _)
  rw [List.append_nil] at read
  exact ⟨record, read, found⟩

end Given

section Reading

variable {given : Given} {record : Record} {name : String}
  {members inner : List (Option String × Tree)}

/-- A section that is not there is read as an empty one. -/
theorem withDefault_section {α : Type} {value result : α} {read : Tree → Option α}
    (blank : read (.object []) = some value)
    (found : record.get? name = none ∧ inner = [] ∨ record.get? name = some (.object inner))
    (reads : read (.object inner) = some result) :
    record.withDefault name value read = some result := by
  unfold Record.withDefault
  rcases found with ⟨absent, rfl⟩ | there
  · rw [absent, ← reads, blank]
  · rw [there]
    exact reads

theorem withDefault_number {chosen : Option Nat} (value : Nat)
    (found : record.get? name = (chosen.map .number).map GivenValue.tree)
    (small : ∀ number ∈ chosen, number < 2 ^ 63) :
    record.withDefault name value Tree.unsigned? = some (chosen.getD value) := by
  unfold Record.withDefault
  rw [found]
  cases chosen with
  | none => rfl
  | some number => exact unsigned?_of_lt (small number rfl)

theorem readThreshold?_object (fits : given.Fits)
    (held : given.HeldBy (some "segmentation") inner) :
    readThreshold? (.object inner) = some given.settings.parallelThreshold := by
  obtain ⟨record, read, found⟩ := held.sectionRecord
  have threshold := withDefault_number ({} : Settings).parallelThreshold
    (found .parallelThreshold rfl) (fits.small .parallelThreshold rfl)
  exact bind_eq_some.mpr ⟨record, read, threshold⟩

theorem readSchedule?_object (fits : given.Fits) (held : given.HeldBy (some "sync") inner) :
    Schedule.read? (.object inner) = some given.settings.schedule := by
  obtain ⟨record, read, found⟩ := held.sectionRecord
  have updateInterval := withDefault_number ({} : Schedule).updateIntervalMinutes
    (found .updateInterval rfl) (fits.small .updateInterval rfl)
  have initialDelay := withDefault_number ({} : Schedule).initialDelaySeconds
    (found .initialDelay rfl) (fits.small .initialDelay rfl)
  have errorBackoff := withDefault_number ({} : Schedule).errorBackoffMinutes
    (found .errorBackoff rfl) (fits.small .errorBackoff rfl)
  refine bind_eq_some.mpr ⟨record, read, ?_⟩
  refine bind_eq_some.mpr ⟨_, updateInterval, ?_⟩
  refine bind_eq_some.mpr ⟨_, initialDelay, ?_⟩
  exact bind_eq_some.mpr ⟨_, errorBackoff, rfl⟩

theorem readSeedPath?_object (held : given.HeldBy (some "store") inner) :
    readSeedPath? (.object inner) = some given.settings.seedPath := by
  obtain ⟨record, read, found⟩ := held.sectionRecord
  have seedPath : record.get? "seed_path" = (given.seedPath.map .text).map GivenValue.tree :=
    found .seedPath rfl
  refine bind_eq_some.mpr ⟨record, read, ?_⟩
  rw [Record.optional, seedPath, Given.settings]
  cases given.seedPath <;> rfl

/-- From a document with the given settings these are read, with the defaults of the
others. -/
theorem read?_object (fits : given.Fits) (inDocument : given.InDocument members) :
    read? (.object members) = some given.settings := by
  have once : ∀ name ∈ sectionNames, (treesUnder name members).length ≤ 1 := by
    intro name listed
    obtain ⟨_, there | there, _⟩ := inDocument.inside name listed
    · rw [there.1]
      exact Nat.zero_le 1
    · rw [there]
      exact Nat.le_refl 1
  obtain ⟨record, read, outside, found⟩ := inDocument.outside.record once
  have inside : ∀ name ∈ sectionNames, ∃ inner,
      (record.get? name = none ∧ inner = [] ∨ record.get? name = some (.object inner)) ∧
        given.HeldBy (some name) inner := by
    intro name listed
    obtain ⟨inner, there, held⟩ := inDocument.inside name listed
    refine ⟨inner, there.imp (And.imp_left fun absent => ?_) fun present => ?_, held⟩
    · rw [found name listed, absent, List.head?_nil]
    · rw [found name listed, present, List.head?_cons]
  have nodeId : record.withDefault "node_id" ({} : Settings).nodeId Tree.text? =
      some given.settings.nodeId := by
    have there : record.get? "node_id" = (given.nodeId.map .text).map GivenValue.tree :=
      outside .nodeId rfl
    rw [Record.withDefault, there, Given.settings]
    cases given.nodeId <;> rfl
  obtain ⟨_, segmentation, inSegmentation⟩ := inside "segmentation" (by decide)
  obtain ⟨_, sync, inSync⟩ := inside "sync" (by decide)
  obtain ⟨_, store, inStore⟩ := inside "store" (by decide)
  refine bind_eq_some.mpr ⟨record, read, ?_⟩
  refine bind_eq_some.mpr ⟨_, nodeId, ?_⟩
  refine bind_eq_some.mpr
    ⟨_, withDefault_section rfl segmentation (readThreshold?_object fits inSegmentation), ?_⟩
  refine bind_eq_some.mpr
    ⟨_, withDefault_section rfl sync (readSchedule?_object fits inSync), ?_⟩
  exact bind_eq_some.mpr
    ⟨_, withDefault_section rfl store (readSeedPath?_object inStore), rfl⟩

end Reading

/-- Whatever settings are chosen, with numbers within the signed bounds and texts that
read as nothing else, every environment with their variables and every document with
their members lead to the settings that are given and the defaults of the others. -/
theorem Given.sources_agree {given : Given} (fits : given.Fits)
    {environment : List (String × String)} (inEnvironment : given.InEnvironment environment)
    {document : String} {members : List (Option String × Tree)}
    (parsed : Tree.parse? document = some (.object members))
    (inDocument : given.InDocument members) :
    ofEnvironment? environment = some given.settings ∧
      parse? document = some given.settings := by
  constructor
  · exact ofEnvironment?_of_inEnvironment fits inEnvironment
  · rw [parse?, parsed]
    exact read?_object fits inDocument

namespace Given

def sample : Given where
  nodeId := some "n7"
  updateInterval := some 10

theorem sample_fits : sample.Fits := by
  intro key value chosen
  cases key with
  | nodeId =>
      cases chosen
      exact ⟨by decide +kernel, by decide +kernel, by decide +kernel, by decide +kernel⟩
  | updateInterval =>
      cases chosen
      show 10 < 2 ^ 63
      decide
  | _ => cases chosen

/-- The names are in several cases, and the number has a needless zero in front. -/
def sampleEnvironment : List (String × String) :=
  [("PATH", "/bin"), ("audience_sync__SYNC__Update_Interval_Minutes", "010"),
    ("AUDIENCE_SYNC__NODE_ID", "n7")]

theorem sample_inEnvironment : sample.InEnvironment sampleEnvironment where
  known := by
    simp only [sampleEnvironment, List.forall_mem_cons]
    refine ⟨fun foreign => ?_, fun _ => ?_, fun _ => ?_, List.forall_mem_nil _⟩
    · exact absurd foreign (by decide +kernel)
    · exact ⟨.updateInterval, .number 10, by decide +kernel, rfl, rfl⟩
    · exact ⟨.nodeId, .text "n7", by decide +kernel, rfl, rfl⟩
  complete := by
    intro key chosen
    cases key with
    | nodeId => exact ⟨("AUDIENCE_SYNC__NODE_ID", "n7"), by decide, by decide +kernel⟩
    | updateInterval =>
        exact ⟨("audience_sync__SYNC__Update_Interval_Minutes", "010"), by decide,
          by decide +kernel⟩
    | _ => cases chosen

/-- One section is empty and one is left out, and there is a member that belongs to no
setting. -/
def sampleMembers : List (Option String × Tree) :=
  [(some "segmentation", .object []),
    (some "sync", .object
      [(some "days", .array []), (some "update_interval_minutes", .number (some (.int 10)))]),
    (some "node_id", .text (some "n7"))]

theorem sample_inDocument : sample.InDocument sampleMembers where
  outside := by
    constructor
    · decide
    · intro key here
      cases key with
      | nodeId => rfl
      | _ => cases here
  inside := by
    simp only [sectionNames, List.forall_mem_cons]
    refine ⟨⟨_, Or.inr rfl, ?_, ?_⟩, ⟨_, Or.inr rfl, ?_, ?_⟩, ⟨_, Or.inl ⟨rfl, rfl⟩, ?_, ?_⟩, ?_⟩
    · decide
    · intro key here
      cases key <;> first | rfl | exact absurd here (by decide)
    · decide
    · intro key here
      cases key <;> first | rfl | exact absurd here (by decide)
    · decide
    · intro key here
      cases key <;> first | rfl | exact absurd here (by decide)
    · exact List.forall_mem_nil _

def sampleDocument : String :=
  "\x7b\"segmentation\": \x7b\x7d,
    \"sync\": \x7b\"days\": [], \"update_interval_minutes\": 10\x7d, \"node_id\": \"n7\"\x7d"

set_option maxRecDepth 2000 in
theorem parse?_sampleDocument : Tree.parse? sampleDocument = some (.object sampleMembers) := by
  cbv

theorem sample_sources_agree :
    ofEnvironment? sampleEnvironment = some sample.settings ∧
      parse? sampleDocument = some sample.settings :=
  sources_agree sample_fits sample_inEnvironment parse?_sampleDocument sample_inDocument

end Given

end Settings

end Cohort
