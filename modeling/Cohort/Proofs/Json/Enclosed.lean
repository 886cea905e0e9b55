import Cohort.Proofs.Json.Compact

/-!
# Texts inside texts

The scanner keeps the tokens that it has read and never looks at them, and the machine
keeps the arrays and objects around.  So a text says a tree exactly if it says this tree
behind any tokens and in any surroundings.
-/

namespace Cohort.Json

namespace Scanner

/-- The scanner with earlier tokens before its own. -/
def onTopOf (earlier : List Token) (scanner : Scanner) : Scanner :=
  { scanner with tokens := scanner.tokens ++ earlier.reverse }

theorem begin_onTopOf (earlier : List Token) (scanner : Scanner) (c : Char) :
    (scanner.onTopOf earlier).begin c = (scanner.begin c).map (onTopOf earlier) := by
  unfold begin
  split
  · rfl
  split
  · rfl
  split
  · rfl
  · rw [Option.map_map]
    rfl

theorem step_onTopOf (earlier : List Token) (scanner : Scanner) (c : Char) :
    (scanner.onTopOf earlier).step c = (scanner.step c).map (onTopOf earlier) := by
  obtain ⟨mode, tokens⟩ := scanner
  cases mode with
  | between => exact begin_onTopOf earlier _ c
  | bare read =>
      simp only [step, onTopOf]
      split
      · rfl
      · cases Token.ofBare? read.reverse with
        | none => rfl
        | some token => exact begin_onTopOf earlier (push { mode := .bare read, tokens } token) c
  | quoted read =>
      simp only [step, onTopOf]
      split
      · rw [Option.map_map]
        rfl
      split <;> rfl
  | escaped read => rfl

theorem foldlM_onTopOf (earlier : List Token) (letters : List Char) (scanner : Scanner) :
    letters.foldlM step (scanner.onTopOf earlier) =
      (letters.foldlM step scanner).map (onTopOf earlier) := by
  induction letters generalizing scanner with
  | nil => rfl
  | cons c letters induction =>
      rw [List.foldlM_cons, List.foldlM_cons, step_onTopOf]
      cases scanner.step c with
      | none => rfl
      | some next => exact induction next

theorem holds_of_finish {scanner : Scanner} {made : List Token}
    (finished : scanner.finish = some made) (earlier : List Token) :
    (scanner.onTopOf earlier).Holds (earlier ++ made) := by
  obtain ⟨mode, tokens⟩ := scanner
  cases mode with
  | between =>
      cases finished
      have held := Holds.ended (earlier ++ tokens.reverse)
      simpa [behind, onTopOf] using held
  | bare read =>
      obtain ⟨token, spelled, rfl⟩ := Option.map_eq_some_iff.mp finished
      have held := Holds.word (earlier ++ tokens.reverse) spelled
      simpa [onTopOf] using held
  | quoted read => cases finished
  | escaped read => cases finished

end Scanner

theorem Scans.of_scan? {letters : List Char} {made : List Token}
    (scanned : Token.scan? letters = some made) : Scans letters made := by
  obtain ⟨scanner, reached, finished⟩ := Option.bind_eq_some_iff.mp scanned
  intro earlier
  refine ⟨scanner.onTopOf earlier, ?_, Scanner.holds_of_finish finished earlier⟩
  have start : Scanner.start.onTopOf earlier = .behind earlier := rfl
  rw [← start, Scanner.foldlM_onTopOf, reached, Option.map_some]

namespace Tree.Machine

/-- The machine with further arrays and objects open around all that it has open. -/
def within (outer : List Frame) : Machine → Machine
  | .value around => .value (around ++ outer)
  | .firstItem around => .firstItem (around ++ outer)
  | .afterItem done around => .afterItem done (around ++ outer)
  | .firstName around => .firstName (around ++ outer)
  | .nextName done around => .nextName done (around ++ outer)
  | .colon done name around => .colon done name (around ++ outer)
  | .afterMember done around => .afterMember done (around ++ outer)
  | .complete tree => put tree outer

theorem put_within (outer : List Frame) (tree : Tree) (around : List Frame) :
    (put tree around).within outer = put tree (around ++ outer) := by
  cases around with
  | nil => rfl
  | cons frame around => cases frame <;> rfl

theorem begin_within {around : List Frame} {token : Token} {next : Machine}
    (taken : begin around token = some next) (outer : List Frame) :
    begin (around ++ outer) token = some (next.within outer) := by
  cases token with
  | null | bool _ | number _ | text _ =>
      cases taken
      exact congrArg some (put_within outer _ around).symm
  | openArray | openObject =>
      cases taken
      rfl
  | _ => cases taken

theorem step_within {machine next : Machine} {token : Token}
    (taken : machine.step token = some next) (outer : List Frame) :
    (machine.within outer).step token = some (next.within outer) := by
  cases machine with
  | value around => exact begin_within taken outer
  | firstItem around =>
      by_cases ends : token = .closeArray
      · subst ends
        cases taken
        exact congrArg some (put_within outer _ around).symm
      · rw [step_firstItem ends] at taken
        exact (step_firstItem ends _).trans (begin_within taken outer)
  | afterItem done around =>
      cases token with
      | comma =>
          cases taken
          rfl
      | closeArray =>
          cases taken
          exact congrArg some (put_within outer _ around).symm
      | _ => cases taken
  | firstName around =>
      cases token with
      | text name =>
          cases taken
          rfl
      | closeObject =>
          cases taken
          exact congrArg some (put_within outer _ around).symm
      | _ => cases taken
  | nextName done around =>
      cases token with
      | text name =>
          cases taken
          rfl
      | _ => cases taken
  | colon done name around =>
      cases token with
      | colon =>
          cases taken
          rfl
      | _ => cases taken
  | afterMember done around =>
      cases token with
      | comma =>
          cases taken
          rfl
      | closeObject =>
          cases taken
          exact congrArg some (put_within outer _ around).symm
      | _ => cases taken
  | complete tree => cases taken

theorem foldlM_within {tokens : List Token} {machine last : Machine}
    (taken : tokens.foldlM step machine = some last) (outer : List Frame) :
    tokens.foldlM step (machine.within outer) = some (last.within outer) := by
  induction tokens generalizing machine with
  | nil =>
      cases taken
      rfl
  | cons token tokens induction =>
      obtain ⟨next, first, rest⟩ := Option.bind_eq_some_iff.mp taken
      exact foldlM_cons_of (step_within first outer) (induction rest)

theorem Builds.of_ofTokens? {tokens : List Token} {tree : Tree}
    (built : ofTokens? tokens = some tree) : Builds tokens tree := by
  obtain ⟨last, taken, completed⟩ := Option.bind_eq_some_iff.mp built
  have complete : last = .complete tree := by
    cases last with
    | complete other =>
        cases completed
        rfl
    | _ => cases completed
  subst complete
  exact fun around => foldlM_within taken around

theorem Builds.head {tokens : List Token} {tree : Tree} (built : Builds tokens tree) :
    ∃ token rest, tokens = token :: rest ∧ token ≠ .closeArray := by
  cases tokens with
  | nil => cases built []
  | cons token rest =>
      refine ⟨token, rest, rfl, ?_⟩
      rintro rfl
      cases built []

end Tree.Machine

open Tree.Machine (Builds foldlM_append_of foldlM_cons_of foldlM_firstItem foldlM_firstName)

/-- The characters say the tree wherever a value is due. -/
def Written (letters : List Char) (tree : Tree) : Prop :=
  ∃ tokens, Scans letters tokens ∧ Builds tokens tree

/-- The characters say the members, with commas between them, wherever a name is due. -/
def WrittenMembers (letters : List Char) (members : List (Option String × Tree)) : Prop :=
  ∃ tokens, Scans letters tokens ∧ (∃ name rest, tokens = .text name :: rest) ∧
    ∀ done around, tokens.foldlM Tree.Machine.step (.nextName done around) =
      some (.afterMember (members.reverse ++ done) around)

/-- What a text says alone it says wherever a value is due. -/
theorem written_iff {text : String} {tree : Tree} :
    Written text.toList tree ↔ Tree.parse? text = some tree := by
  constructor
  · rintro ⟨tokens, scans, builds⟩
    obtain ⟨scanner, reached, held⟩ := scans []
    have start : Scanner.start = .behind [] := rfl
    have scanned : Token.scan? text.toList = some tokens := by
      rw [Token.scan?, start, reached, Option.bind_eq_bind, Option.bind_some]
      exact held.finish
    rw [Tree.parse?, scanned, Option.bind_eq_bind, Option.bind_some, Tree.ofTokens?, builds []]
    rfl
  · intro said
    obtain ⟨tokens, scanned, built⟩ := Option.bind_eq_some_iff.mp said
    exact ⟨tokens, .of_scan? scanned, .of_ofTokens? built⟩

theorem written_quoted (text : String) : Written (Value.quoted text) (.text (some text)) :=
  ⟨_, .quoted text, fun _ => rfl⟩

variable {letters others : List Char} {tree : Tree} {members : List (Option String × Tree)}

theorem WrittenMembers.one (name : String) (value : Written letters tree) :
    WrittenMembers (Value.quoted name ++ ':' :: letters) [(some name, tree)] := by
  obtain ⟨tokens, scans, builds⟩ := value
  refine ⟨_, (Scans.quoted name).mark rfl scans, ⟨_, _, rfl⟩, fun done around => ?_⟩
  exact foldlM_cons_of rfl (foldlM_cons_of rfl (builds (.object done (some name) :: around)))

theorem WrittenMembers.cons (name : String) (value : Written letters tree)
    (rest : WrittenMembers others members) :
    WrittenMembers ((Value.quoted name ++ ':' :: letters) ++ ',' :: others)
      ((some name, tree) :: members) := by
  obtain ⟨first, scans, builds⟩ := value
  obtain ⟨tokens, scansRest, _, buildsRest⟩ := rest
  refine ⟨_, ((Scans.quoted name).mark rfl scans).mark rfl scansRest, ⟨_, _, rfl⟩, ?_⟩
  intro done around
  refine foldlM_cons_of rfl (foldlM_cons_of rfl
    (foldlM_append_of (builds _) (foldlM_cons_of rfl ((buildsRest _ around).trans ?_))))
  simp

theorem WrittenMembers.object (inside : WrittenMembers letters members) :
    Written ('{' :: letters ++ ['}']) (.object members) := by
  obtain ⟨tokens, scans, head, builds⟩ := inside
  refine ⟨_, .after rfl (scans.mark rfl .nil), fun around => ?_⟩
  have read := builds [] around
  rw [← foldlM_firstName head, List.append_nil] at read
  refine foldlM_cons_of rfl (foldlM_append_of read (foldlM_cons_of rfl ?_))
  rw [List.reverse_reverse]
  rfl

theorem Written.singleton (item : Written letters tree) :
    Written ('[' :: letters ++ [']']) (.array [tree]) := by
  obtain ⟨tokens, scans, builds⟩ := item
  refine ⟨_, .after rfl (scans.mark rfl .nil), fun around => ?_⟩
  have read := builds (.array [] :: around)
  rw [← foldlM_firstItem builds.head] at read
  exact foldlM_cons_of rfl (foldlM_append_of read (foldlM_cons_of rfl rfl))

end Cohort.Json
