/-!
# Doubles

Numbers in 64-bit binary floating point, held by their bits so that every operation here is exact
arithmetic on natural numbers. A finite double is `± significand · 2 ^ exponent`.
-/

namespace StyleCompiler

/-- A 64-bit binary floating-point number. -/
structure Double where
  bits : UInt64
deriving DecidableEq, Inhabited

/-- A power of two. -/
def twoTo (n : Nat) : Nat := Nat.pow 2 n

/-- A power of ten. -/
def tenTo (n : Nat) : Nat := Nat.pow 10 n

namespace Double

/-! ## Fields -/

/-- Is the sign bit set? -/
def isNegative (x : Double) : Bool := twoTo 63 ≤ x.bits.toNat

/-- The eleven bits of the stored exponent. -/
def biased (x : Double) : Nat := x.bits.toNat / twoTo 52 % twoTo 11

/-- The fifty-two stored bits of the significand. -/
def fraction (x : Double) : Nat := x.bits.toNat % twoTo 52

/-- Infinities and values that are not numbers have the largest stored exponent. -/
def isFinite (x : Double) : Bool := x.biased != 2047

/-- Not a number. -/
def isNaN (x : Double) : Bool := x.biased == 2047 && x.fraction != 0

/-- Either zero. -/
def isZero (x : Double) : Bool := x.biased == 0 && x.fraction == 0

/-- The integer significand of a finite double. -/
def significand (x : Double) : Nat :=
  if x.biased = 0 then x.fraction else twoTo 52 + x.fraction

/-- The power of two that scales the significand of a finite double. -/
def exponent (x : Double) : Int := (max x.biased 1 : Nat) - 1075

/-! ## Construction -/

/-- The double with the given sign whose other bits are the given number. -/
def ofMagnitude (negative : Bool) (magnitude : Nat) : Double :=
  ⟨UInt64.ofNat (if negative then twoTo 63 + magnitude else magnitude)⟩

/-- Positive zero. -/
def zero : Double := ofMagnitude false 0

/-- The bits of infinity, one past those of the largest finite double. -/
def infinityBits : Nat := 2047 * twoTo 52

/-- Positive infinity. -/
def infinity : Double := ofMagnitude false infinityBits

/-- The value that is no number. -/
def nan : Double := ofMagnitude false (infinityBits + twoTo 51)

/-- The opposite sign; all other bits stay. -/
def neg (x : Double) : Double := ⟨x.bits ^^^ 0x8000000000000000⟩

/-! ## Rounding -/

/-- The integer nearest to `num / den`; halfway between two, the even one. -/
def divNearest (num den : Nat) : Nat :=
  let floor := num / den
  let excess := 2 * (num % den)
  if excess < den then floor
  else if den < excess then floor + 1
  else if floor % 2 = 0 then floor else floor + 1

/-- The exponent of the leading bit of `num / den`, both positive. -/
def leadingExponent (num den : Nat) : Int :=
  let estimate : Int := (num.log2 : Int) - (den.log2 : Int)
  if den * twoTo estimate.toNat ≤ num * twoTo (-estimate).toNat then estimate else estimate - 1

/-- The positive double nearest to `num / den`, halfway the even one, infinity past the largest.
The significand is rounded at the exponent of the result's last bit. A significand that rounds up
to the next power of two carries into the stored exponent, as it should. -/
def ofRatio (num den : Nat) : Double :=
  if num = 0 then zero
  else
    let last : Int := max (-1074) (leadingExponent num den - 52)
    let rounded := divNearest (num * twoTo (-last).toNat) (den * twoTo last.toNat)
    ofMagnitude false (min infinityBits ((last + 1074).toNat * twoTo 52 + rounded))

/-- The positive double nearest to `coefficient · 10 ^ exponent`. Numbers of more than 400 digits
before the point are infinite and those with more than 400 zeros after it are zero, which is
decided before any power is formed. -/
def ofDecimal (coefficient : Nat) (exponent : Int) : Double :=
  let size : Int := (Nat.toDigits 10 coefficient).length + exponent
  if coefficient = 0 then zero
  else if 400 < size then infinity
  else if size < -400 then zero
  else ofRatio (coefficient * tenTo exponent.toNat) (tenTo (-exponent).toNat)

/-- A natural number rounded to the fifty-three leading bits. -/
def roundNat (n : Nat) : Nat :=
  if n < twoTo 53 then n else divNearest n (twoTo (n.log2 - 52)) * twoTo (n.log2 - 52)

/-- The value of a digit string in the given base, accumulated digit by digit in double
precision. -/
def ofDigits (base : Nat) (digits : List Nat) : Double :=
  ofRatio (digits.foldl (fun n d => roundNat (min (n * base + d) (twoTo 1024))) 0) 1

end Double

end StyleCompiler
