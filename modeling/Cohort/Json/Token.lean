import Cohort.Json.Number
import Cohort.Json.Quoted

/-!
A number out of range and a quoted text with half a surrogate pair are tokens without a
reading: they are allowed where nothing is made of them.
-/

namespace Cohort.Json

/-- A token of a JSON text. -/
inductive Token where
  | openArray
  | closeArray
  | openObject
  | closeObject
  | comma
  | colon
  | null
  | bool (value : Bool)
  /-- A number, none if it is out of range. -/
  | number (reading : Option Number)
  /-- A quoted text, none if it has half a surrogate pair. -/
  | text (reading : Option String)
  deriving DecidableEq

/-- The four characters that may stand between tokens. -/
def isJsonBlank (c : Char) : Bool :=
  c == ' ' || c == '\t' || c == '\n' || c == '\r'

/-- The characters of which words and numbers are made. -/
def isBare (c : Char) : Bool :=
  c.isAlphanum || c == '+' || c == '-' || c == '.'

def Token.mark? : Char → Option Token
  | '[' => some .openArray
  | ']' => some .closeArray
  | '{' => some .openObject
  | '}' => some .closeObject
  | ',' => some .comma
  | ':' => some .colon
  | _ => none

def Token.ofBare? (letters : List Char) : Option Token :=
  if letters = ['n', 'u', 'l', 'l'] then some .null
  else if letters = ['t', 'r', 'u', 'e'] then some (.bool true)
  else if letters = ['f', 'a', 'l', 's', 'e'] then some (.bool false)
  else (Literal.read? letters).map fun literal => .number literal.number?

def Token.ofQuoted? (letters : List Char) : Option Token :=
  (Quoted.decode? letters).map fun reading => .text (reading.map String.ofList)

/-- Where a scanner stands: between tokens, or inside one whose characters so far are
held in reverse. -/
inductive Mode where
  | between
  | bare (read : List Char)
  | quoted (read : List Char)
  | escaped (read : List Char)

/-- A scanner at a place in a text, with the tokens before that place in reverse. -/
structure Scanner where
  mode : Mode
  tokens : List Token

namespace Scanner

def start : Scanner :=
  { mode := .between, tokens := [] }

/-- The scanner behind one more token. -/
def push (scanner : Scanner) (token : Token) : Scanner :=
  { mode := .between, tokens := token :: scanner.tokens }

/-- Take a character between tokens. -/
def begin (scanner : Scanner) (c : Char) : Option Scanner :=
  if isJsonBlank c then some { scanner with mode := .between }
  else if c = '"' then some { scanner with mode := .quoted [] }
  else if isBare c then some { scanner with mode := .bare [c] }
  else (Token.mark? c).map scanner.push

/-- Take one character. -/
def step (scanner : Scanner) (c : Char) : Option Scanner :=
  match scanner.mode with
  | .between => scanner.begin c
  | .bare read =>
      if isBare c then some { scanner with mode := .bare (c :: read) }
      else do
        let token ← Token.ofBare? read.reverse
        (scanner.push token).begin c
  | .quoted read =>
      if c = '"' then (Token.ofQuoted? read.reverse).map scanner.push
      else if c = '\\' then some { scanner with mode := .escaped (c :: read) }
      else some { scanner with mode := .quoted (c :: read) }
  | .escaped read => some { scanner with mode := .quoted (c :: read) }

/-- The tokens of a text that ends here. -/
def finish (scanner : Scanner) : Option (List Token) :=
  match scanner.mode with
  | .between => some scanner.tokens.reverse
  | .bare read => (Token.ofBare? read.reverse).map fun token => (token :: scanner.tokens).reverse
  | .quoted _ | .escaped _ => none

end Scanner

def Token.scan? (letters : List Char) : Option (List Token) := do
  let scanner ← letters.foldlM Scanner.step Scanner.start
  scanner.finish

end Cohort.Json
