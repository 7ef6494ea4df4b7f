import StyleCompiler.Text.Utf16

/-!
# JSON text

Writing strings and objects as JSON text, and reading JSON text piece by piece. A reader takes
the characters that are left and gives what it read with the characters after it, or nothing if
the text does not have the expected form.

Strings are written with escapes for quotes, backslashes and control characters only; everything
else stands for itself. Strings are read with all escapes; an escaped surrogate has to be the
first half of an escaped pair. This follows `serde_json`, as far as declarations and options need
it.
-/

namespace StyleCompiler

namespace Json

/-! ## Writing -/

/-- The hexadecimal digit of a number below sixteen. -/
def hexDigit (n : Nat) : Char := if n < 10 then Char.ofNat (48 + n) else Char.ofNat (87 + n)

/-- A control character in a string. -/
def escapeControl (c : Char) : List Char :=
  if c = '\x08' then ['\\', 'b']
  else if c = '\t' then ['\\', 't']
  else if c = '\n' then ['\\', 'n']
  else if c = '\x0c' then ['\\', 'f']
  else if c = '\r' then ['\\', 'r']
  else ['\\', 'u', '0', '0', hexDigit (c.toNat / 16), hexDigit (c.toNat % 16)]

/-- A character in a string. -/
def escape (c : Char) : List Char :=
  if c = '"' then ['\\', '"']
  else if c = '\\' then ['\\', '\\']
  else if c.toNat < 32 then escapeControl c
  else [c]

/-- A string in quotes. -/
def quote (s : String) : List Char := '"' :: (s.toList.flatMap escape ++ ['"'])

/-- Pieces between brackets, set apart by commas. -/
def enclose (left right : Char) (pieces : List (List Char)) : List Char :=
  left :: (List.intercalate [','] pieces ++ [right])

/-- An object whose members are given by name and text. -/
def object (members : List (String × List Char)) : List Char :=
  enclose '{' '}' (members.map fun (name, text) => quote name ++ ':' :: text)

/-! ## Readers -/

/-- Read a value off the front of a text. -/
abbrev Reader (α : Type) := List Char → Option (α × List Char)

/-- The characters that may stand between the parts of JSON text. -/
def isBlank (c : Char) : Bool := c = ' ' || c = '\n' || c = '\t' || c = '\r'

/-- The text after leading blanks. -/
def skipBlanks (cs : List Char) : List Char := cs.dropWhile isBlank

/-- Read one character, after blanks. -/
def expect (c : Char) (cs : List Char) : Option (List Char) :=
  match skipBlanks cs with
  | d :: rest => if d = c then some rest else none
  | [] => none

/-- Read a word, without blanks before it. -/
def expectWord : List Char → List Char → Option (List Char)
  | [], cs => some cs
  | w :: ws, c :: cs => if w = c then expectWord ws cs else none
  | _ :: _, [] => none

/-! ## Strings -/

/-- The value of a hexadecimal digit. -/
def hexValue? (c : Char) : Option Nat :=
  if '0' ≤ c ∧ c ≤ '9' then some (c.toNat - 48)
  else if 'a' ≤ c ∧ c ≤ 'f' then some (c.toNat - 87)
  else if 'A' ≤ c ∧ c ≤ 'F' then some (c.toNat - 55)
  else none

/-- The value of four hexadecimal digits. -/
def hexQuad? (a b c d : Char) : Option Nat := do
  return 4096 * (← hexValue? a) + 256 * (← hexValue? b) + 16 * (← hexValue? c) + (← hexValue? d)

/-- The character that a one-letter escape stands for. -/
def unescape? (c : Char) : Option Char :=
  if c = '"' then some '"'
  else if c = '\\' then some '\\'
  else if c = '/' then some '/'
  else if c = 'b' then some '\x08'
  else if c = 'f' then some '\x0c'
  else if c = 'n' then some '\n'
  else if c = 'r' then some '\r'
  else if c = 't' then some '\t'
  else none

/-- Read the characters of a string up to and including the closing quote. -/
def readChars : Reader (List Char)
  | [] => none
  | '"' :: rest => some ([], rest)
  | '\\' :: 'u' :: a :: b :: c :: d :: rest =>
    match hexQuad? a b c d with
    | none => none
    | some unit =>
      if Utf16.isHigh unit then
        match rest with
        | '\\' :: 'u' :: e :: f :: g :: h :: rest =>
          match hexQuad? e f g h with
          | none => none
          | some low =>
            if Utf16.isLow low then
              (readChars rest).map fun (cs, r) => (Utf16.combine unit low :: cs, r)
            else none
        | _ => none
      else if Utf16.isLow unit then none
      else (readChars rest).map fun (cs, r) => (Char.ofNat unit :: cs, r)
  | '\\' :: c :: rest =>
    match unescape? c with
    | none => none
    | some e => (readChars rest).map fun (cs, r) => (e :: cs, r)
  | c :: rest =>
    if c.toNat < 32 then none else (readChars rest).map fun (cs, r) => (c :: cs, r)

/-- Read a string, after blanks. -/
def readString : Reader String := fun cs => do
  let cs ← expect '"' cs
  let (text, rest) ← readChars cs
  return (String.ofList text, rest)

/-- Read over the rest of a string whose text does not matter. Any escaped unit will do. -/
def skipChars : List Char → Option (List Char)
  | [] => none
  | '"' :: rest => some rest
  | '\\' :: 'u' :: a :: b :: c :: d :: rest =>
    match hexQuad? a b c d with
    | none => none
    | some _ => skipChars rest
  | '\\' :: c :: rest =>
    match unescape? c with
    | none => none
    | some _ => skipChars rest
  | c :: rest => if c.toNat < 32 then none else skipChars rest

/-- Read over a string, after blanks. -/
def skipString : Reader Unit := fun cs => do
  let cs ← expect '"' cs
  return ((), ← skipChars cs)

/-! ## Containers -/

/-- Read members up to and including the closing brace; there is at least one. A member's value
is read as its name asks for. -/
def readMembers {κ α : Type} (name : Reader κ) (value : κ → Reader α) : Nat → Reader (List α)
  | 0, _ => none
  | fuel + 1, cs => do
    let (n, cs) ← name cs
    let cs ← expect ':' cs
    let (v, cs) ← value n cs
    match skipBlanks cs with
    | ',' :: cs =>
      let (vs, cs) ← readMembers name value fuel cs
      return (v :: vs, cs)
    | '}' :: cs => return ([v], cs)
    | _ => none

/-- Read the members of an object, whose opening brace has been read. -/
def readObject {κ α : Type} (name : Reader κ) (value : κ → Reader α) : Reader (List α) := fun cs =>
  match skipBlanks cs with
  | '}' :: rest => some ([], rest)
  | rest => readMembers name value rest.length rest

/-- Read elements up to and including the closing bracket; there is at least one. -/
def readElements {α : Type} (value : Reader α) : Nat → Reader (List α)
  | 0, _ => none
  | fuel + 1, cs => do
    let (v, cs) ← value cs
    match skipBlanks cs with
    | ',' :: cs =>
      let (vs, cs) ← readElements value fuel cs
      return (v :: vs, cs)
    | ']' :: cs => return ([v], cs)
    | _ => none

/-- Read the elements of an array, whose opening bracket has been read. -/
def readArray {α : Type} (value : Reader α) : Reader (List α) := fun cs =>
  match skipBlanks cs with
  | ']' :: rest => some ([], rest)
  | rest => readElements value rest.length rest

/-- Read as many elements as there are readers, each by its own, and the closing bracket. -/
def readTuple {α : Type} : List (Reader α) → Reader (List α)
  | [], cs => (expect ']' cs).map fun rest => ([], rest)
  | [value], cs => do
    let (v, cs) ← value cs
    return ([v], ← expect ']' cs)
  | value :: values, cs => do
    let (v, cs) ← value cs
    let cs ← expect ',' cs
    let (vs, cs) ← readTuple values cs
    return (v :: vs, cs)

/-! ## Values that do not matter -/

/-- Read over at least one digit. -/
def skipDigits (cs : List Char) : Option (List Char) :=
  match cs with
  | c :: rest => if c.isDigit then some (rest.dropWhile Char.isDigit) else none
  | [] => none

/-- Read over the whole part of a number: no zero in front of another digit. -/
def skipWhole : List Char → Option (List Char)
  | '0' :: c :: rest => if c.isDigit then none else some (c :: rest)
  | cs => skipDigits cs

/-- Read over the digits after the point, if there is one. -/
def skipFraction : List Char → Option (List Char)
  | '.' :: rest => skipDigits rest
  | cs => some cs

/-- Read over the exponent, if there is one. -/
def skipExponent : List Char → Option (List Char)
  | c :: rest =>
    if c = 'e' ∨ c = 'E' then
      match rest with
      | '+' :: rest => skipDigits rest
      | '-' :: rest => skipDigits rest
      | rest => skipDigits rest
    else some (c :: rest)
  | [] => some []

/-- Read over a number. -/
def skipNumber (cs : List Char) : Option (List Char) := do
  let cs := match cs with
    | '-' :: rest => rest
    | cs => cs
  skipExponent (← skipFraction (← skipWhole cs))

/-- Read over any value that is nested less deep than the fuel. -/
def skipValue : Nat → Reader Unit
  | 0, _ => none
  | fuel + 1, cs =>
    match skipBlanks cs with
    | '"' :: rest => (skipChars rest).map fun r => ((), r)
    | '{' :: rest =>
      (readObject skipString (fun _ => skipValue fuel) rest).map fun (_, r) => ((), r)
    | '[' :: rest => (readArray (skipValue fuel) rest).map fun (_, r) => ((), r)
    | 't' :: rest => (expectWord ['r', 'u', 'e'] rest).map fun r => ((), r)
    | 'f' :: rest => (expectWord ['a', 'l', 's', 'e'] rest).map fun r => ((), r)
    | 'n' :: rest => (expectWord ['u', 'l', 'l'] rest).map fun r => ((), r)
    | rest => (skipNumber rest).map fun r => ((), r)

/-- Read over any value, nested at most as deep as the text is long. -/
def skipAny : Reader Unit := fun cs => skipValue (cs.length + 1) cs

/-- What a reader makes of a whole text: nothing but blanks may follow. -/
def readAll? {α : Type} (reader : Reader α) (text : String) : Option α := do
  let (value, rest) ← reader text.toList
  if skipBlanks rest = [] then some value else none

end Json

end StyleCompiler
