/-!
`plain` takes control characters and control sequences out of a text.  White space
stays, inside a sequence too; what follows it there counts as text up to the next
control character, behind which the sequence goes on.
-/

namespace Cohort.Text

/-- What a control sequence is waiting for. -/
inductive Sequence where
  /-- The character behind the escape character, which tells the kind of the
  sequence. -/
  | kind
  /-- The last character of a sequence whose kind has two characters. -/
  | final
  /-- The letter that ends a list of parameters. -/
  | letter
  /-- The bell that ends a command to the operating system. -/
  | bell
  /-- The letter that ends the parameters of a device control string, before any is
  given. -/
  | deviceStart
  /-- The same, among the parameters. -/
  | deviceParameter
  /-- The same, among the marks behind the parameters. -/
  | deviceMark
  /-- The byte that ends a string. -/
  | terminator
  deriving DecidableEq

/-- Where a text is with respect to control sequences. -/
inductive ControlState where
  | outside
  | inside (sequence : Sequence)
  /-- In text that stands inside a sequence. -/
  | interrupted (sequence : Sequence)
  deriving DecidableEq

/-- White space among the ASCII characters that is not taken out. -/
def isSpacing (c : Char) : Bool :=
  c == ' ' || c == '\t' || c == '\n' || c == '\r' || c == '\x0c'

def isPlain (c : Char) : Bool :=
  isSpacing c || ('!' ≤ c && c ≠ '\x7f')

/-- Is one of the bytes of the character that which ends strings? -/
def hasTerminator (c : Char) : Bool :=
  (String.utf8EncodeChar c).contains 0x9C

namespace Sequence

/-- The sequence after the character that tells its kind; none if that is all of it. -/
def ofKind (c : Char) : Option Sequence :=
  if '\x7f' ≤ c || c < ' ' then some kind
  else if c ≤ '/' then some final
  else
    match c with
    | '[' => some letter
    | ']' => some bell
    | 'P' => some deviceStart
    | 'X' | '^' | '_' => some terminator
    | _ => none

/-- The sequence after one more character, none if that is its last.  The characters
that begin or cancel a sequence are not among these. -/
def next (sequence : Sequence) (c : Char) : Option Sequence :=
  let isLetter := '@' ≤ c && c ≤ '~'
  let isParameter := '0' ≤ c && c ≤ ';'
  let isPrivate := '<' ≤ c && c ≤ '?'
  let isMark := ' ' ≤ c && c ≤ '/'
  match sequence with
  | kind => ofKind c
  | final => if isParameter || isPrivate || isLetter then none else some final
  | letter => if isLetter then none else some letter
  | bell => if c = '\x07' then none else some bell
  | deviceStart =>
      if isLetter then some terminator
      else if isParameter || isPrivate then some deviceParameter
      else if isMark then some deviceMark
      else some deviceStart
  | deviceParameter =>
      if isLetter || isPrivate then some terminator
      else if isMark then some deviceMark
      else some deviceParameter
  | deviceMark =>
      if isLetter || isParameter || isPrivate then some terminator else some deviceMark
  | terminator => if hasTerminator c then none else some terminator

/-- Does white space inside the sequence stay? -/
def keepsSpacing : Sequence → Bool
  | kind | final | letter => true
  | bell | deviceStart | deviceParameter | deviceMark | terminator => false

end Sequence

namespace ControlState

/-- Is the text at a character that stays? -/
def keeps : ControlState → Char → Bool
  | outside, c | interrupted _, c => isPlain c
  | inside sequence, c => sequence.keepsSpacing && c ≠ ' ' && isSpacing c

/-- Where the text is after a character. -/
def next (state : ControlState) (c : Char) : ControlState :=
  if c = '\x1b' then inside .kind
  else if c = '\x18' ∨ c = '\x1a' then outside
  else
    match state with
    | outside => outside
    | inside sequence =>
        if state.keeps c then interrupted sequence
        else
          match sequence.next c with
          | none => outside
          | some sequence => inside sequence
    | interrupted sequence =>
        if c.toNat ≥ 0x80 then outside
        else if isPlain c then interrupted sequence
        else
          match sequence.next c with
          | none => outside
          | some sequence => inside sequence

end ControlState

def plainFrom (state : ControlState) : List Char → List Char
  | [] => []
  | c :: rest =>
      if state.keeps c then c :: plainFrom (state.next c) rest else plainFrom (state.next c) rest

/-- A text without control characters and control sequences. -/
def plain (letters : List Char) : List Char :=
  plainFrom .outside letters

end Cohort.Text
