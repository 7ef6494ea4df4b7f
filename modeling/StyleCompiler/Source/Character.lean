import StyleCompiler.Text.LetterTable

/-!
# Characters of source text

Blanks, line breaks and the characters of identifiers.
-/

namespace StyleCompiler.Source

/-- Does a character end a line? -/
def isLineBreak (c : Char) : Bool :=
  c = '\n' || c = '\r' || c = '\u2028' || c = '\u2029'

/-- Is a character a blank within a line? -/
def isBlank (c : Char) : Bool :=
  c = ' ' || c = '\t' || c = '\x0b' || c = '\x0c' || c = '\xa0' || c = '\ufeff' ||
    c = '\u1680' || ('\u2000' ≤ c && c ≤ '\u200a') || c = '\u202f' || c = '\u205f' || c = '\u3000'

/-- Can a character start an identifier? -/
def isIdentifierStart (c : Char) : Bool :=
  c.isAlpha || c = '$' || c = '_' || (128 ≤ c.toNat && insideRun identifierStartBounds c.toNat)

/-- Can a character stand inside an identifier? -/
def isIdentifierPart (c : Char) : Bool :=
  isIdentifierStart c || c.isDigit ||
    (128 ≤ c.toNat && insideRun identifierExtendBounds c.toNat)

/-- The value of a hexadecimal digit. -/
def hexValue? (c : Char) : Option Nat :=
  if c.isDigit then some (c.toNat - 48)
  else if 'a' ≤ c ∧ c ≤ 'f' then some (c.toNat - 87)
  else if 'A' ≤ c ∧ c ≤ 'F' then some (c.toNat - 55)
  else none

/-- Is a character a hexadecimal digit? -/
def isHexDigit (c : Char) : Bool := (hexValue? c).isSome

/-- Is a character an octal digit? -/
def isOctalDigit (c : Char) : Bool := '0' ≤ c && c ≤ '7'

/-- Is a character a binary digit? -/
def isBinaryDigit (c : Char) : Bool := c = '0' || c = '1'

end StyleCompiler.Source
