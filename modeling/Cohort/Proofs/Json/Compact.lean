import Cohort.Json.Printer
import Cohort.Proofs.Json.Quoted

/-!
# Compact texts are read back

The scanner makes the tokens of a value from its characters, and the machine makes the
tree from the tokens.  Both are followed from any state in which a value is due, with
whatever came before.
-/

namespace Cohort.Json

/-- The text of the number is read as the number. -/
structure Number.Legible (number : Number) : Prop where
  bare : ∀ c ∈ number.letters, isBare c = true
  read : Token.ofBare? number.letters = some (.number (some number))

namespace Value

mutual

/-- All numbers of a value are legible. -/
def Legible : Value → Prop
  | .number held => held.Legible
  | .array items => LegibleItems items
  | .object members => LegibleMembers members
  | _ => True

def LegibleItems : List Value → Prop
  | [] => True
  | item :: items => Legible item ∧ LegibleItems items

def LegibleMembers : List (String × Value) → Prop
  | [] => True
  | (_, value) :: members => Legible value ∧ LegibleMembers members

end

theorem legible_optionalText (text : Option String) : (Value.optionalText text).Legible := by
  cases text <;> exact trivial

theorem legibleItems_map {α : Type} {write : α → Value} {items : List α}
    (legible : ∀ item ∈ items, (write item).Legible) : LegibleItems (items.map write) := by
  induction items with
  | nil => exact trivial
  | cons item items induction =>
      obtain ⟨first, others⟩ := List.forall_mem_cons.mp legible
      exact ⟨first, induction others⟩

mutual

def tokens : Value → List Token
  | .null => [.null]
  | .bool value => [.bool value]
  | .number value => [.number (some value)]
  | .text value => [.text (some value)]
  | .array items => .openArray :: itemTokens items ++ [.closeArray]
  | .object members => .openObject :: memberTokens members ++ [.closeObject]

def itemTokens : List Value → List Token
  | [] => []
  | [item] => tokens item
  | item :: items => tokens item ++ .comma :: itemTokens items

def memberTokens : List (String × Value) → List Token
  | [] => []
  | [(name, value)] => .text (some name) :: .colon :: tokens value
  | (name, value) :: members =>
      .text (some name) :: .colon :: tokens value ++ .comma :: memberTokens members

end

end Value

namespace Scanner

/-- The scanner between tokens, with those that it has read. -/
def behind (tokens : List Token) : Scanner :=
  { mode := .between, tokens := tokens.reverse }

/-- The scanner has read the tokens, the last of them perhaps a word that nothing has
ended yet. -/
inductive Holds : Scanner → List Token → Prop where
  | ended (tokens : List Token) : Holds (behind tokens) tokens
  | word {read : List Char} {token : Token} (tokens : List Token) :
      Token.ofBare? read.reverse = some token →
      Holds { mode := .bare read, tokens := tokens.reverse } (tokens ++ [token])

theorem begin_mark {c : Char} {token : Token} (mark : Token.mark? c = some token)
    (scanner : Scanner) : scanner.begin c = some (scanner.push token) := by
  have plain : isJsonBlank c = false ∧ c ≠ '"' ∧ isBare c = false := by
    unfold Token.mark? at mark
    split at mark
    case h_7 => cases mark
    all_goals decide
  obtain ⟨noBlank, noQuote, notBare⟩ := plain
  simp only [begin, noBlank, noQuote, notBare, mark, Bool.false_eq_true, if_false, Option.map_some]

theorem begin_bare {c : Char} (bare : isBare c = true) (scanner : Scanner) :
    scanner.begin c = some { scanner with mode := .bare [c] } := by
  have noBlank : isJsonBlank c = false := by
    refine Bool.eq_false_iff.mpr fun blank => ?_
    simp only [isJsonBlank, Bool.or_eq_true, beq_iff_eq] at blank
    rcases blank with ((rfl | rfl) | rfl) | rfl <;> cases bare
  have noQuote : c ≠ '"' := by
    rintro rfl
    cases bare
  simp only [begin, noBlank, noQuote, bare, Bool.false_eq_true, if_false, if_true]

/-- A mark ends what was read before and is a token of its own. -/
theorem Holds.step_mark {scanner : Scanner} {tokens : List Token} (held : scanner.Holds tokens)
    {c : Char} {token : Token} (mark : Token.mark? c = some token) :
    scanner.step c = some (behind (tokens ++ [token])) := by
  have pushed (before : List Token) (mode : Mode) :
      ({ mode, tokens := before.reverse } : Scanner).push token = behind (before ++ [token]) := by
    simp [push, behind]
  cases held with
  | ended tokens => exact (begin_mark mark _).trans (congrArg some (pushed tokens .between))
  | @word read last tokens spelled =>
      have notBare : isBare c = false := by
        unfold Token.mark? at mark
        split at mark
        case h_7 => cases mark
        all_goals decide
      have finished : ({ mode := .bare read, tokens := tokens.reverse } : Scanner).push last =
          behind (tokens ++ [last]) := by
        simp [push, behind]
      simp only [step, notBare, spelled, finished, Bool.false_eq_true, if_false,
        Option.bind_eq_bind, Option.bind_some]
      exact (begin_mark mark _).trans (congrArg some (pushed _ .between))

theorem Holds.finish {scanner : Scanner} {tokens : List Token} (held : scanner.Holds tokens) :
    scanner.finish = some tokens := by
  cases held with
  | ended tokens => simp [Scanner.finish, behind]
  | word tokens spelled => simp [Scanner.finish, spelled]

theorem foldlM_bare {letters : List Char} (bare : ∀ c ∈ letters, isBare c = true)
    (read : List Char) (tokens : List Token) :
    letters.foldlM step { mode := .bare read, tokens } =
      some { mode := .bare (letters.reverse ++ read), tokens } := by
  induction letters generalizing read with
  | nil => rfl
  | cons c letters induction =>
      obtain ⟨first, others⟩ := List.forall_mem_cons.mp bare
      have taken : step { mode := .bare read, tokens } c =
          some { mode := .bare (c :: read), tokens } := by
        simp only [step, first, if_true]
      rw [List.foldlM_cons, taken, Option.bind_eq_bind, Option.bind_some, induction others]
      simp

theorem foldlM_encodeChar (c : Char) (read : List Char) (tokens : List Token) :
    (Quoted.encodeChar c).foldlM step { mode := .quoted read, tokens } =
      some { mode := .quoted ((Quoted.encodeChar c).reverse ++ read), tokens } := by
  have plain {d : Char} (noQuote : d ≠ '"') (noBackslash : d ≠ '\\') (read : List Char) :
      step { mode := .quoted read, tokens } d = some { mode := .quoted (d :: read), tokens } := by
    simp only [step, noQuote, noBackslash, if_false]
  unfold Quoted.encodeChar
  iterate 7
    split
    · rfl
  split
  · rename_i control
    have high : c.toNat / 16 < 16 := by omega
    have low : c.toNat % 16 < 16 := by omega
    obtain ⟨highQuote, highBackslash⟩ := Quoted.hexDigit_plain high
    obtain ⟨lowQuote, lowBackslash⟩ := Quoted.hexDigit_plain low
    have escape : step { mode := .quoted read, tokens } '\\' =
        some { mode := .escaped ('\\' :: read), tokens } := rfl
    have unit : step { mode := .escaped ('\\' :: read), tokens } 'u' =
        some { mode := .quoted ('u' :: '\\' :: read), tokens } := rfl
    simp only [List.foldlM_cons, List.foldlM_nil, escape, unit,
      plain (d := '0') (by decide) (by decide),
      plain highQuote highBackslash, plain lowQuote lowBackslash, Option.bind_eq_bind,
      Option.bind_some, Option.pure_def]
    rfl
  · rename_i noQuote noBackslash _ _ _ _ _ _
    simp only [List.foldlM_cons, List.foldlM_nil, plain noQuote noBackslash, Option.bind_eq_bind,
      Option.bind_some, Option.pure_def]
    rfl

theorem foldlM_encode (letters read : List Char) (tokens : List Token) :
    (Quoted.encode letters).foldlM step { mode := .quoted read, tokens } =
      some { mode := .quoted ((Quoted.encode letters).reverse ++ read), tokens } := by
  induction letters generalizing read with
  | nil => rfl
  | cons c letters induction =>
      have split : Quoted.encode (c :: letters) =
          Quoted.encodeChar c ++ Quoted.encode letters := rfl
      rw [split, List.foldlM_append, foldlM_encodeChar, Option.bind_eq_bind, Option.bind_some,
        induction]
      simp

end Scanner

/-- From wherever a token is due, the scanner makes these tokens of these characters. -/
def Scans (letters : List Char) (made : List Token) : Prop :=
  ∀ tokens, ∃ scanner, letters.foldlM Scanner.step (.behind tokens) = some scanner ∧
    scanner.Holds (tokens ++ made)

namespace Scans

theorem nil : Scans [] [] := by
  intro tokens
  refine ⟨_, rfl, ?_⟩
  rw [List.append_nil]
  exact .ended tokens

theorem mark {first rest : List Char} {made more : List Token} {c : Char} {token : Token}
    (front : Scans first made) (isMark : Token.mark? c = some token) (back : Scans rest more) :
    Scans (first ++ c :: rest) (made ++ token :: more) := by
  intro tokens
  obtain ⟨middle, reached, held⟩ := front tokens
  obtain ⟨last, ended, heldLast⟩ := back (tokens ++ made ++ [token])
  refine ⟨last, ?_, by simpa using heldLast⟩
  rw [List.foldlM_append, reached, Option.bind_eq_bind, Option.bind_some, List.foldlM_cons,
    held.step_mark isMark, Option.bind_eq_bind, Option.bind_some, ended]

theorem after {letters : List Char} {made : List Token} {c : Char} {token : Token}
    (isMark : Token.mark? c = some token) (back : Scans letters made) :
    Scans (c :: letters) (token :: made) :=
  nil.mark isMark back

theorem word {letters : List Char} {token : Token} (bare : ∀ c ∈ letters, isBare c = true)
    (spelled : Token.ofBare? letters = some token) : Scans letters [token] := by
  intro tokens
  cases letters with
  | nil => cases spelled
  | cons c letters =>
      obtain ⟨first, others⟩ := List.forall_mem_cons.mp bare
      refine ⟨{ mode := .bare (letters.reverse ++ [c]), tokens := tokens.reverse }, ?_, ?_⟩
      · have begun : Scanner.step (.behind tokens) c =
            some { mode := .bare [c], tokens := tokens.reverse } := Scanner.begin_bare first _
        rw [List.foldlM_cons, begun, Option.bind_eq_bind, Option.bind_some,
          Scanner.foldlM_bare others]
      · exact .word tokens (by simpa using spelled)

theorem quoted (text : String) : Scans (Value.quoted text) [.text (some text)] := by
  intro tokens
  refine ⟨_, ?_, .ended _⟩
  have opened : Scanner.step (.behind tokens) '"' =
      some { mode := .quoted [], tokens := tokens.reverse } := rfl
  have read : Token.ofQuoted? (Quoted.encode text.toList) = some (.text (some text)) := by
    simp [Token.ofQuoted?, Quoted.decode?_encode]
  have closed : Scanner.step
      { mode := .quoted (Quoted.encode text.toList).reverse, tokens := tokens.reverse } '"' =
        some (.behind (tokens ++ [.text (some text)])) := by
    simp [Scanner.step, read, Scanner.push, Scanner.behind]
  unfold Value.quoted
  rw [List.cons_append, List.foldlM_cons, opened, Option.bind_eq_bind, Option.bind_some,
    List.foldlM_append, Scanner.foldlM_encode, List.append_nil, Option.bind_eq_bind,
    Option.bind_some, List.foldlM_cons, closed]
  rfl

end Scans

namespace Value

mutual

/-- The scanner makes the tokens of a value from its characters. -/
theorem scans_letters : ∀ value : Value, value.Legible → Scans value.letters value.tokens
  | .null, _ => .word (List.all_eq_true.mp rfl) rfl
  | .bool true, _ => .word (List.all_eq_true.mp rfl) rfl
  | .bool false, _ => .word (List.all_eq_true.mp rfl) rfl
  | .number _, legible => .word legible.bare legible.read
  | .text held, _ => .quoted held
  | .array items, legible => .after rfl ((scans_itemLetters items legible).mark rfl .nil)
  | .object members, legible => .after rfl ((scans_memberLetters members legible).mark rfl .nil)

theorem scans_itemLetters :
    ∀ items : List Value, LegibleItems items → Scans (itemLetters items) (itemTokens items)
  | [], _ => .nil
  | [item], legible => scans_letters item legible.1
  | item :: next :: items, legible =>
      (scans_letters item legible.1).mark rfl (scans_itemLetters (next :: items) legible.2)

theorem scans_memberLetters :
    ∀ members : List (String × Value), LegibleMembers members →
      Scans (memberLetters members) (memberTokens members)
  | [], _ => .nil
  | [(name, value)], legible => (Scans.quoted name).mark rfl (scans_letters value legible.1)
  | (name, value) :: next :: members, legible =>
      ((Scans.quoted name).mark rfl (scans_letters value legible.1)).mark rfl
        (scans_memberLetters (next :: members) legible.2)

end

theorem scan?_letters {value : Value} (legible : value.Legible) :
    Token.scan? value.letters = some value.tokens := by
  obtain ⟨scanner, reached, held⟩ := scans_letters value legible []
  have start : Scanner.start = .behind [] := rfl
  rw [Token.scan?, start, reached, Option.bind_eq_bind, Option.bind_some]
  exact held.finish

end Value

namespace Tree.Machine

/-- Where a value is due, the machine makes this tree of these tokens. -/
def Builds (tokens : List Token) (tree : Tree) : Prop :=
  ∀ around, tokens.foldlM step (.value around) = some (put tree around)

theorem foldlM_append_of {front back : List Token} {start middle last : Machine}
    (first : front.foldlM step start = some middle) (second : back.foldlM step middle = some last) :
    (front ++ back).foldlM step start = some last := by
  rw [List.foldlM_append, first, Option.bind_eq_bind, Option.bind_some, second]

theorem foldlM_cons_of {token : Token} {back : List Token} {start middle last : Machine}
    (first : start.step token = some middle) (second : back.foldlM step middle = some last) :
    (token :: back).foldlM step start = some last := by
  rw [List.foldlM_cons, first, Option.bind_eq_bind, Option.bind_some, second]

/-- An array that does not end at once begins like a value in an array. -/
theorem step_firstItem {token : Token} (noEnd : token ≠ .closeArray) (around : List Frame) :
    step (.firstItem around) token = step (.value (.array [] :: around)) token := by
  cases token with
  | closeArray => exact (noEnd rfl).elim
  | _ => rfl

theorem foldlM_firstItem {tokens : List Token}
    (head : ∃ token rest, tokens = token :: rest ∧ token ≠ .closeArray) (around : List Frame) :
    tokens.foldlM step (.firstItem around) =
      tokens.foldlM step (.value (.array [] :: around)) := by
  obtain ⟨token, rest, rfl, noEnd⟩ := head
  rw [List.foldlM_cons, List.foldlM_cons, step_firstItem noEnd]

/-- The first name of an object is read like any other. -/
theorem foldlM_firstName {tokens : List Token} (head : ∃ name rest, tokens = .text name :: rest)
    (around : List Frame) :
    tokens.foldlM step (.firstName around) = tokens.foldlM step (.nextName [] around) := by
  obtain ⟨name, rest, rfl⟩ := head
  rfl

end Tree.Machine

namespace Value

open Cohort.Json.Tree (Frame Machine)
open Cohort.Json.Tree.Machine (Builds foldlM_append_of foldlM_cons_of)

theorem tokens_head (value : Value) :
    ∃ token rest, value.tokens = token :: rest ∧ token ≠ .closeArray := by
  cases value <;> exact ⟨_, _, rfl, by simp⟩

theorem itemTokens_head (item : Value) (items : List Value) :
    ∃ token rest, itemTokens (item :: items) = token :: rest ∧ token ≠ .closeArray := by
  obtain ⟨token, rest, equality, noEnd⟩ := item.tokens_head
  cases items with
  | nil => exact ⟨token, rest, equality, noEnd⟩
  | cons next items =>
      have split : itemTokens (item :: next :: items) =
          item.tokens ++ .comma :: itemTokens (next :: items) := rfl
      exact ⟨token, _, by rw [split, equality, List.cons_append], noEnd⟩

theorem memberTokens_head (name : String) (value : Value) (members : List (String × Value)) :
    ∃ name' rest, memberTokens ((name, value) :: members) = .text name' :: rest := by
  cases members with
  | nil => exact ⟨_, _, rfl⟩
  | cons next members => exact ⟨_, _, rfl⟩

mutual

/-- The machine makes the tree of a value from its tokens. -/
theorem builds_tokens : ∀ value : Value, Builds value.tokens value.tree
  | .null, _ => rfl
  | .bool _, _ => rfl
  | .number _, _ => rfl
  | .text _, _ => rfl
  | .array [], _ => rfl
  | .array (item :: items), around => by
      have inside := builds_itemTokens (item :: items) (List.cons_ne_nil _ _) [] around
      rw [← Tree.Machine.foldlM_firstItem (itemTokens_head item items), List.append_nil] at inside
      refine foldlM_cons_of rfl (foldlM_append_of inside (foldlM_cons_of rfl ?_))
      rw [List.reverse_reverse]
      rfl
  | .object [], _ => rfl
  | .object ((name, value) :: members), around => by
      have inside := builds_memberTokens ((name, value) :: members) (List.cons_ne_nil _ _) [] around
      rw [← Tree.Machine.foldlM_firstName (memberTokens_head name value members),
        List.append_nil] at inside
      refine foldlM_cons_of rfl (foldlM_append_of inside (foldlM_cons_of rfl ?_))
      rw [List.reverse_reverse]
      rfl

theorem builds_itemTokens : ∀ items : List Value, items ≠ [] → ∀ (done : List Tree)
    (around : List Frame),
    (itemTokens items).foldlM Machine.step (.value (.array done :: around)) =
      some (.afterItem ((treesOfItems items).reverse ++ done) around)
  | [], nonempty, _, _ => (nonempty rfl).elim
  | [item], _, done, around => builds_tokens item (.array done :: around)
  | item :: next :: items, _, done, around => by
      have rest :=
        builds_itemTokens (next :: items) (List.cons_ne_nil _ _) (item.tree :: done) around
      refine foldlM_append_of (builds_tokens item _) (foldlM_cons_of rfl (rest.trans ?_))
      simp [treesOfItems]

theorem builds_memberTokens : ∀ members : List (String × Value), members ≠ [] →
    ∀ (done : List (Option String × Tree)) (around : List Frame),
    (memberTokens members).foldlM Machine.step (.nextName done around) =
      some (.afterMember ((treesOfMembers members).reverse ++ done) around)
  | [], nonempty, _, _ => (nonempty rfl).elim
  | [(name, value)], _, done, around =>
      foldlM_cons_of rfl (foldlM_cons_of rfl (builds_tokens value (.object done name :: around)))
  | (name, value) :: next :: members, _, done, around => by
      have rest := builds_memberTokens (next :: members) (List.cons_ne_nil _ _)
        ((some name, value.tree) :: done) around
      refine foldlM_cons_of rfl (foldlM_cons_of rfl
        (foldlM_append_of (builds_tokens value _) (foldlM_cons_of rfl (rest.trans ?_))))
      simp [treesOfMembers]

end

/-- A legible value that is written without blanks is read back as its tree. -/
theorem parse?_compact {value : Value} (legible : value.Legible) :
    Tree.parse? value.compact = some value.tree := by
  have letters : value.compact.toList = value.letters := String.toList_ofList
  have built := value.builds_tokens []
  rw [Tree.parse?, letters, scan?_letters legible, Option.bind_eq_bind, Option.bind_some,
    Tree.ofTokens?, built]
  rfl

end Value

end Cohort.Json
