/-!
# Text in 16-bit units

String literals denote sequences of 16-bit units. Such a sequence is Unicode text exactly when
every surrogate in it is half of a pair.
-/

namespace StyleCompiler

namespace Utf16

/-- The first half of a pair. -/
def isHigh (unit : Nat) : Bool := 0xD800 ≤ unit && unit < 0xDC00

/-- The second half of a pair. -/
def isLow (unit : Nat) : Bool := 0xDC00 ≤ unit && unit < 0xE000

/-- The character of a pair. -/
def combine (high low : Nat) : Char :=
  Char.ofNat (0x10000 + (high - 0xD800) * 0x400 + (low - 0xDC00))

/-- The units of a code point, which may be a surrogate. -/
def unitsOfCode (code : Nat) : List Nat :=
  if code < 0x10000 then [code]
  else [0xD800 + (code - 0x10000) / 0x400, 0xDC00 + (code - 0x10000) % 0x400]

/-- The units of a character. -/
def unitsOf (c : Char) : List Nat := unitsOfCode c.toNat

/-- The characters of a sequence of units, if no surrogate stands alone. -/
def decode? : List Nat → Option (List Char)
  | [] => some []
  | [unit] => if isHigh unit || isLow unit then none else some [Char.ofNat unit]
  | unit :: next :: rest =>
    if isHigh unit then
      if isLow next then (decode? rest).map (combine unit next :: ·) else none
    else if isLow unit then none
    else (decode? (next :: rest)).map (Char.ofNat unit :: ·)

/-- The text of a sequence of units, if no surrogate stands alone. -/
def text? (units : List Nat) : Option String := (decode? units).map String.ofList

end Utf16

end StyleCompiler
