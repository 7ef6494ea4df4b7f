import StyleCompiler.Double

/-!
# Shortest decimals

The decimal with the fewest digits among those that round to a given double, and of these the
nearest. All comparisons are exact: a decimal `c · 10 ^ e` and a binary number `n · 2 ^ u` are
brought to a common scale and compared as natural numbers.

The search tries ever finer decimal grids. On each it looks at the two grid points around the
value, and it stops at the first grid where one of them rounds to the double. The grid that holds
the value itself is reached in the end, so the search always succeeds.
-/

namespace StyleCompiler

/-- A nonnegative decimal `coefficient · 10 ^ exponent`. -/
structure Decimal where
  coefficient : Nat
  exponent : Int
deriving DecidableEq, Repr

namespace Decimal

/-- The decimal `c · 10 ^ e` on the scale it shares with numbers `n · 2 ^ u`. -/
def scaledDecimal (c : Nat) (e u : Int) : Nat := c * tenTo e.toNat * twoTo (-u).toNat

/-- The binary number `n · 2 ^ u` on the scale it shares with decimals `c · 10 ^ e`. -/
def scaledBinary (n : Nat) (u e : Int) : Nat := n * twoTo u.toNat * tenTo (-e).toNat

/-- The numbers that round to a positive double, in quarters of its last place: its value `mid`,
the ends `low` and `high`, and whether the ends belong to it. -/
structure Span where
  low : Nat
  mid : Nat
  high : Nat
  unit : Int
  closed : Bool
deriving DecidableEq, Repr

/-- The span of a double. Below a power of two the neighbour is only half as far away. -/
def spanOf (x : Double) : Span :=
  let m := x.significand
  { low := if x.fraction = 0 ∧ 1 < x.biased then 4 * m - 1 else 4 * m - 2
    mid := 4 * m
    high := 4 * m + 2
    unit := x.exponent - 2
    closed := m % 2 == 0 }

/-- Does the decimal lie in the span? -/
def Span.holds (s : Span) (c : Nat) (e : Int) : Bool :=
  let point := scaledDecimal c e s.unit
  let low := scaledBinary s.low s.unit e
  let high := scaledBinary s.high s.unit e
  if s.closed then low ≤ point && point ≤ high else low < point && point < high

/-- The grid point at or below the value, in units of `10 ^ e`. -/
def Span.floor (s : Span) (e : Int) : Nat :=
  scaledBinary s.mid s.unit e / scaledDecimal 1 e s.unit

/-- Is the grid point `c` strictly nearer to the value than the next one above it? -/
def Span.lowerIsNearer (s : Span) (c : Nat) (e : Int) : Bool :=
  let mid := scaledBinary s.mid s.unit e
  2 * mid < scaledDecimal c e s.unit + scaledDecimal (c + 1) e s.unit

/-- The point of the grid `10 ^ e` that is taken for the value, if one of its two neighbours
there lies in the span. Of two the nearer is taken, and halfway the upper. -/
def Span.onGrid? (s : Span) (e : Int) : Option Nat :=
  let c := s.floor e
  match s.holds c e, s.holds (c + 1) e with
  | true, true => some (if s.lowerIsNearer c e then c else c + 1)
  | true, false => some c
  | false, true => some (c + 1)
  | false, false => none

/-- The first hit on the grids `10 ^ e`, `10 ^ (e - 1)`, …. -/
def Span.search (s : Span) : Nat → Int → Decimal
  | 0, e => ⟨s.floor e, e⟩
  | steps + 1, e =>
    match s.onGrid? e with
    | some c => ⟨c, e⟩
    | none => s.search steps (e - 1)

/-- The exponent of a power of ten above the value. -/
def Span.start (s : Span) : Int :=
  (Nat.toDigits 10 (scaledBinary s.mid s.unit 0 / scaledDecimal 1 0 s.unit)).length

/-- The shortest decimal in a span. The value itself is on the grid of its last binary place. -/
def Span.shortest (s : Span) : Decimal :=
  s.search (s.start - min 0 s.unit).toNat s.start

end Decimal

/-- The decimal with the fewest digits that rounds to a positive finite double. -/
def Double.shortest (x : Double) : Decimal := (Decimal.spanOf x).shortest

end StyleCompiler
