/-!
A control sequence in the words of a span that is not finished goes on into the marks
behind it, so that its end depends on where styles begin.
-/

namespace Cohort.Text

/-- How text looks. -/
inductive Style where
  | normal
  | bold
  /-- Bold and underlined. -/
  | heading
  deriving DecidableEq

namespace Style

def beginning : Style → List Char
  | normal => []
  | bold => ['\x1b', '[', '1', 'm']
  | heading => ['\x1b', '[', '1', 'm', '\x1b', '[', '4', 'm']

def ending : Style → List Char
  | normal => []
  | bold | heading => ['\x1b', '[', '0', 'm']

end Style

/-- Text in a style. -/
structure Span where
  style : Style
  text : String
  deriving DecidableEq

abbrev Styled := List Span

namespace Styled

def of (style : Style) (text : String) : Styled :=
  [{ style, text }]

def ofText (text : String) : Styled :=
  of .normal text

def marked (spans : Styled) : List Char :=
  spans.flatMap fun span => span.style.beginning ++ span.text.toList ++ span.style.ending

def words (spans : Styled) : List Char :=
  spans.flatMap fun span => span.text.toList

def width (spans : Styled) : Nat :=
  spans.words.length

end Styled

end Cohort.Text
