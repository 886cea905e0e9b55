namespace Cohort.Text

/-- The twenty-five characters of the property White_Space. -/
def isBlank (c : Char) : Bool :=
  let point := c.toNat
  (0x9 ≤ point && point ≤ 0xD) || point == 0x20 || point == 0x85 || point == 0xA0 ||
    point == 0x1680 || (0x2000 ≤ point && point ≤ 0x200A) || point == 0x2028 ||
    point == 0x2029 || point == 0x202F || point == 0x205F || point == 0x3000

def trimStart (letters : List Char) : List Char :=
  letters.dropWhile isBlank

def trimEnd (letters : List Char) : List Char :=
  (letters.reverse.dropWhile isBlank).reverse

def trim (letters : List Char) : List Char :=
  trimEnd (trimStart letters)

def allBlank (text : String) : Bool :=
  text.toList.all isBlank

end Cohort.Text
