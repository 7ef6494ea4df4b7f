import StyleCompiler.Double
import StyleCompiler.Source.Character
import StyleCompiler.Text.Utf16

/-!
# Literals

The values of string, template and number literals. Every reader takes the characters that are
left and gives what it read with the characters after it.
-/

namespace StyleCompiler.Source

/-! ## Escapes -/

/-- The value of hexadecimal digits, one after the other. -/
def hexNumber? (ds : List Char) : Option Nat :=
  ds.foldl (fun n d => do return 16 * (← n) + (← hexValue? d)) (some 0)

/-- The largest code point. -/
def maxCodePoint : Nat := 0x10FFFF

/-- The character that a one-letter escape stands for. -/
def simpleEscape (c : Char) : Char :=
  match c with
  | 'n' => '\n'
  | 't' => '\t'
  | 'b' => '\x08'
  | 'v' => '\x0b'
  | 'f' => '\x0c'
  | 'r' => '\r'
  | _ => c

mutual

/-- The 16-bit units that the text between the quotes stands for, if its escapes are valid. A
zero may be escaped alone; other octal escapes are not valid. -/
def unescape? : List Char → Option (List Nat)
  | [] => some []
  | '\\' :: 'u' :: '{' :: cs => unescapeBraced? none cs
  | '\\' :: 'u' :: a :: b :: c :: d :: cs => do
    let unit ← hexNumber? [a, b, c, d]
    return unit :: (← unescape? cs)
  | '\\' :: 'x' :: a :: b :: cs => do
    let unit ← hexNumber? [a, b]
    return unit :: (← unescape? cs)
  | '\\' :: '\r' :: '\n' :: cs => unescape? cs
  | ['\\', '0'] => some [0]
  | '\\' :: '0' :: c :: cs =>
    if isOctalDigit c then none else (unescape? (c :: cs)).map (0 :: ·)
  | '\\' :: c :: cs =>
    if isLineBreak c then unescape? cs
    else if c = 'u' || c = 'x' || isOctalDigit c then none
    else (unescape? cs).map (Utf16.unitsOf (simpleEscape c) ++ ·)
  | c :: cs => (unescape? cs).map (Utf16.unitsOf c ++ ·)

/-- The same from inside the braces of an escape on, of which the given number has been read. -/
def unescapeBraced? (code : Option Nat) : List Char → Option (List Nat)
  | [] => none
  | '}' :: cs => do
    let code ← code
    return Utf16.unitsOfCode code ++ (← unescape? cs)
  | c :: cs => do
    let next := 16 * code.getD 0 + (← hexValue? c)
    if next ≤ maxCodePoint then unescapeBraced? (some next) cs else none

end

/-! ## Strings and templates -/

/-- Read the text of a string up to its closing quote. A line break in it has to be escaped. -/
def readQuoted (quote : Char) : List Char → Option (List Char × List Char)
  | [] => none
  | '\\' :: '\r' :: '\n' :: cs =>
    (readQuoted quote cs).map fun (text, rest) => ('\\' :: '\n' :: text, rest)
  | '\\' :: c :: cs => (readQuoted quote cs).map fun (text, rest) => ('\\' :: c :: text, rest)
  | c :: cs =>
    if c = quote then some ([], cs)
    else if c = '\n' || c = '\r' then none
    else (readQuoted quote cs).map fun (text, rest) => (c :: text, rest)

/-- How a stretch of template text ends. -/
inductive TemplateEnd where
  | done
  | interpolation
deriving DecidableEq

/-- Read a stretch of template text up to the closing quote or an interpolation. Line breaks of
any kind read as line feeds. -/
def readTemplate : List Char → Option (List Char × TemplateEnd × List Char)
  | [] => none
  | '`' :: cs => some ([], .done, cs)
  | '$' :: '{' :: cs => some ([], .interpolation, cs)
  | '\r' :: '\n' :: cs => (readTemplate cs).map fun (text, rest) => ('\n' :: text, rest)
  | '\r' :: cs => (readTemplate cs).map fun (text, rest) => ('\n' :: text, rest)
  | '\\' :: '\r' :: '\n' :: cs =>
    (readTemplate cs).map fun (text, rest) => ('\\' :: '\n' :: text, rest)
  | '\\' :: '\r' :: cs => (readTemplate cs).map fun (text, rest) => ('\\' :: '\n' :: text, rest)
  | '\\' :: c :: cs => (readTemplate cs).map fun (text, rest) => ('\\' :: c :: text, rest)
  | c :: cs => (readTemplate cs).map fun (text, rest) => (c :: text, rest)

/-! ## Numbers -/

/-- Read digits, between any two of which one underscore may stand. -/
def readDigits (isDigit : Char → Bool) : List Char → Option (List Char × List Char)
  | [] => none
  | [c] => if isDigit c then some ([c], []) else none
  | c :: '_' :: cs =>
    if isDigit c then (readDigits isDigit cs).map fun (ds, rest) => (c :: ds, rest) else none
  | c :: d :: cs =>
    if !isDigit c then none
    else if isDigit d then
      (readDigits isDigit (d :: cs)).map fun (ds, rest) => (c :: ds, rest)
    else some ([c], d :: cs)

/-- A number literal. -/
inductive NumberLiteral where
  | double (value : Double)
  | bigint (digits : String)

/-- The value of decimal digits. -/
def decimalNumber (ds : List Char) : Nat := ds.foldl (fun n d => 10 * n + (d.toNat - 48)) 0

/-- Read the exponent of a decimal number, zero if there is none. -/
def readExponent : List Char → Option (Int × List Char)
  | c :: cs =>
    if c = 'e' || c = 'E' then do
      let (negative, cs) := match cs with
        | '+' :: cs => (false, cs)
        | '-' :: cs => (true, cs)
        | cs => (false, cs)
      let (ds, rest) ← readDigits Char.isDigit cs
      let n : Int := decimalNumber ds
      return (if negative then -n else n, rest)
    else some (0, c :: cs)
  | [] => some (0, [])

/-- Read the digits after a point, of which there may be none. -/
def readFraction (cs : List Char) : Option (List Char × List Char) :=
  match cs with
  | c :: _ => if c.isDigit then readDigits Char.isDigit cs else some ([], cs)
  | [] => some ([], [])

/-- Read what follows the digits before the point of a decimal number. -/
def readDecimalTail (whole : List Char) : List Char → Option (NumberLiteral × List Char)
  | 'n' :: cs => some (.bigint (String.ofList whole), cs)
  | '.' :: cs => do
    let (fraction, cs) ← readFraction cs
    let (exponent, cs) ← readExponent cs
    let value := Double.ofDecimal (decimalNumber (whole ++ fraction)) (exponent - fraction.length)
    return (.double value, cs)
  | cs => do
    let (exponent, cs) ← readExponent cs
    return (.double (Double.ofDecimal (decimalNumber whole) exponent), cs)

/-- Read the digits of a number in another base. -/
def readRadix (base : Nat) (isDigit : Char → Bool) (cs : List Char) :
    Option (NumberLiteral × List Char) := do
  let (ds, cs) ← readDigits isDigit cs
  match cs with
  | 'n' :: cs => return (.bigint (String.ofList ds), cs)
  | cs => return (.double (Double.ofDigits base (ds.filterMap hexValue?)), cs)

/-- Read a number that starts here. No zero stands before another digit. -/
def readNumberBody : List Char → Option (NumberLiteral × List Char)
  | '.' :: cs => do
    let (fraction, cs) ← readDigits Char.isDigit cs
    let (exponent, cs) ← readExponent cs
    let value := Double.ofDecimal (decimalNumber fraction) (exponent - fraction.length)
    return (.double value, cs)
  | '0' :: c :: cs =>
    if c = 'x' || c = 'X' then readRadix 16 isHexDigit cs
    else if c = 'o' || c = 'O' then readRadix 8 isOctalDigit cs
    else if c = 'b' || c = 'B' then readRadix 2 isBinaryDigit cs
    else if c.isDigit || c = '_' then none
    else readDecimalTail ['0'] (c :: cs)
  | cs => do
    let (whole, cs) ← readDigits Char.isDigit cs
    readDecimalTail whole cs

/-- Read a number. Neither an identifier nor another digit may follow without a gap. -/
def readNumber (cs : List Char) : Option (NumberLiteral × List Char) := do
  let (literal, rest) ← readNumberBody cs
  match rest with
  | c :: _ => if isIdentifierPart c || c = '\\' then none else some (literal, rest)
  | [] => some (literal, rest)

/-! ## Regular expressions -/

/-- Read the pattern of a regular expression up to its closing slash. A slash inside a class does
not close it. -/
def readPattern (inClass : Bool) : List Char → Option (List Char × List Char)
  | [] => none
  | '\\' :: c :: cs =>
    if isLineBreak c then none
    else (readPattern inClass cs).map fun (text, rest) => ('\\' :: c :: text, rest)
  | c :: cs =>
    if isLineBreak c then none
    else if c = '/' && !inClass then some ([], cs)
    else
      let inClass := if c = '[' then true else if c = ']' then false else inClass
      (readPattern inClass cs).map fun (text, rest) => (c :: text, rest)

/-- Are these flags of a regular expression, none twice? -/
def validFlags (flags : List Char) : Bool :=
  flags.all (fun c => ['d', 'g', 'i', 'm', 's', 'u', 'v', 'y'].contains c) &&
    flags.eraseDups.length == flags.length

end StyleCompiler.Source
