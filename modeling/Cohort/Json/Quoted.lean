/-!
Every JSON escape is accepted between quotes.  An escape `\u` may name half of a
surrogate pair: two halves that belong together are one character, and a half left alone
makes the text well formed but unreadable.
-/

namespace Cohort.Json.Quoted

/-- The digit of a number below sixteen, in lower case. -/
def hexDigit (value : Nat) : Char :=
  if value < 10 then Char.ofNat ('0'.toNat + value) else Char.ofNat ('a'.toNat + (value - 10))

def hexValue? (c : Char) : Option Nat :=
  if '0' ≤ c ∧ c ≤ '9' then some (c.toNat - '0'.toNat)
  else if 'a' ≤ c ∧ c ≤ 'f' then some (c.toNat - 'a'.toNat + 10)
  else if 'A' ≤ c ∧ c ≤ 'F' then some (c.toNat - 'A'.toNat + 10)
  else none

def encodeChar (c : Char) : List Char :=
  if c = '"' then ['\\', '"']
  else if c = '\\' then ['\\', '\\']
  else if c = '\u0008' then ['\\', 'b']
  else if c = '\t' then ['\\', 't']
  else if c = '\n' then ['\\', 'n']
  else if c = '\u000c' then ['\\', 'f']
  else if c = '\r' then ['\\', 'r']
  else if c.toNat < 0x20 then
    ['\\', 'u', '0', '0', hexDigit (c.toNat / 16), hexDigit (c.toNat % 16)]
  else [c]

def encode (letters : List Char) : List Char :=
  letters.flatMap encodeChar

/-- What stands between quotes once the escapes are resolved. -/
inductive Piece where
  | char (c : Char)
  /-- Half of a surrogate pair. -/
  | half (unit : Nat)

/-- The piece that an escape of four digits names. -/
def Piece.ofUnit (unit : Nat) : Piece :=
  if 0xD800 ≤ unit ∧ unit < 0xE000 then .half unit else .char (Char.ofNat unit)

def hexUnit? (a b c d : Char) : Option Nat := do
  let first ← hexValue? a
  let second ← hexValue? b
  let third ← hexValue? c
  let fourth ← hexValue? d
  some (((first * 16 + second) * 16 + third) * 16 + fourth)

/-- The character that a backslash and one letter stand for. -/
def shortEscape? : Char → Option Char
  | '"' => some '"'
  | '\\' => some '\\'
  | '/' => some '/'
  | 'b' => some '\u0008'
  | 'f' => some '\u000c'
  | 'n' => some '\n'
  | 'r' => some '\r'
  | 't' => some '\t'
  | _ => none

/-- Resolve the escapes between quotes; none if there is a false escape, a bare quote or
a control character. -/
def pieces? : List Char → Option (List Piece)
  | [] => some []
  | '\\' :: 'u' :: a :: b :: c :: d :: rest => do
      let unit ← hexUnit? a b c d
      let pieces ← pieces? rest
      some (.ofUnit unit :: pieces)
  | '\\' :: c :: rest => do
      let escaped ← shortEscape? c
      let pieces ← pieces? rest
      some (.char escaped :: pieces)
  | c :: rest =>
      if c.toNat < 0x20 ∨ c = '"' ∨ c = '\\' then none
      else (pieces? rest).map fun pieces => .char c :: pieces

def joinHalves (leading trailing : Nat) : Char :=
  Char.ofNat (0x10000 + (leading - 0xD800) * 0x400 + (trailing - 0xDC00))

/-- The characters of the pieces; none if a half stands alone. -/
def readPieces? : List Piece → Option (List Char)
  | [] => some []
  | .char c :: rest => (readPieces? rest).map (c :: ·)
  | .half leading :: .half trailing :: rest =>
      if leading < 0xDC00 ∧ 0xDC00 ≤ trailing then
        (readPieces? rest).map (joinHalves leading trailing :: ·)
      else none
  | .half _ :: _ => none

/-- Read what stands between quotes.  The outer option is none for an ill-formed text,
the inner one for a well-formed text that is unreadable. -/
def decode? (letters : List Char) : Option (Option (List Char)) :=
  (pieces? letters).map readPieces?

end Cohort.Json.Quoted
