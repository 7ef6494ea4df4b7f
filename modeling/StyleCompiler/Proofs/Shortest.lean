import Mathlib.Tactic.LinearCombination
import StyleCompiler.Decimal.Text
import StyleCompiler.Proofs.Rounding

/-!
# The shortest decimal

The search for the shortest decimal of a double, step by step down the decimal grids, and what the
result is: a decimal that rounds to the double and stands on the coarsest grid that has one. That
alone makes its digits the fewest.

* `scaledDecimal_eq`, `scaledBinary_eq`: the two sides of an exact comparison, over one scale.
* `Span.holds_iff`, `spanOf_contains`: the test of the search is membership in an interval, and the
  interval of a double holds exactly the numbers that round to it.
* `Span.onGrid?_eq_none`: a grid is left only when none of its points is in the interval.
* `Span.search_spec`: the run of the search, by induction on its steps.
* `Coarsest.length_digits_le`: a decimal on the coarsest grid has no more digits than any other.
* `Double.shortest_rounds`, `Double.length_digits_shortest_le`: all of it for a double.
* `Double.le_leading_shortest_iff`: where the leading digit stands, read off the double.
-/

namespace StyleCompiler

namespace Decimal

/-! ## Comparison over a common scale -/

/-- The factor that makes `c · 10 ^ e` and `n · 2 ^ u` natural numbers. -/
def commonScale (e u : ℤ) : ℚ := 10 ^ (-e).toNat * 2 ^ (-u).toNat

theorem commonScale_pos (e u : ℤ) : 0 < commonScale e u := by
  unfold commonScale
  positivity

theorem pow_toNat_eq {b : ℚ} (hb : b ≠ 0) (k : ℤ) : b ^ k.toNat = b ^ k * b ^ (-k).toNat := by
  rcases le_total 0 k with h | h
  · have hneg : (-k).toNat = 0 := by omega
    rw [hneg, pow_zero, mul_one, ← zpow_natCast, Int.toNat_of_nonneg h]
  · have hpos : k.toNat = 0 := by omega
    rw [hpos, pow_zero, ← zpow_natCast, Int.toNat_of_nonneg (by omega), ← zpow_add₀ hb,
      add_neg_cancel, zpow_zero]

theorem scaledDecimal_eq (c : ℕ) (e u : ℤ) :
    (scaledDecimal c e u : ℚ) = c * 10 ^ e * commonScale e u := by
  have hten := pow_toNat_eq (b := 10) (by norm_num) e
  unfold scaledDecimal commonScale tenTo twoTo
  simp only [Nat.pow_eq]
  push_cast
  rw [hten]
  ring

theorem scaledBinary_eq (n : ℕ) (u e : ℤ) :
    (scaledBinary n u e : ℚ) = n * 2 ^ u * commonScale e u := by
  have htwo := pow_toNat_eq (b := 2) (by norm_num) u
  unfold scaledBinary commonScale tenTo twoTo
  simp only [Nat.pow_eq]
  push_cast
  rw [htwo]
  ring

theorem scaledBinary_lt_scaledDecimal {n c : ℕ} {u e : ℤ} :
    scaledBinary n u e < scaledDecimal c e u ↔ (n : ℚ) * 2 ^ u < c * 10 ^ e := by
  rw [← Nat.cast_lt (α := ℚ), scaledBinary_eq, scaledDecimal_eq]
  exact mul_lt_mul_iff_left₀ (commonScale_pos e u)

theorem scaledDecimal_lt_scaledBinary {n c : ℕ} {u e : ℤ} :
    scaledDecimal c e u < scaledBinary n u e ↔ (c : ℚ) * 10 ^ e < n * 2 ^ u := by
  rw [← Nat.cast_lt (α := ℚ), scaledBinary_eq, scaledDecimal_eq]
  exact mul_lt_mul_iff_left₀ (commonScale_pos e u)

/-! ## Spans as intervals -/

namespace Span

variable {s : Span} {q : ℚ}

/-- The value in the middle of the span. -/
def value (s : Span) : ℚ := s.mid * 2 ^ s.unit

/-- The numbers of a span. -/
def Contains (s : Span) (q : ℚ) : Prop :=
  Within (s.low * 2 ^ s.unit) (s.high * 2 ^ s.unit) (s.closed = true) q

theorem holds_iff (s : Span) (c : ℕ) (e : ℤ) : s.holds c e = true ↔ s.Contains (c * 10 ^ e) := by
  unfold holds
  cases hclosed : s.closed with
  | true =>
    simp only [if_true, Bool.and_eq_true, decide_eq_true_eq, ← not_lt,
      scaledBinary_lt_scaledDecimal, scaledDecimal_lt_scaledBinary]
    simp only [not_lt, le_iff_lt_or_eq]
    exact ⟨fun h => ⟨h.1.imp id fun he => ⟨he, hclosed⟩, h.2.imp id fun he => ⟨he, hclosed⟩⟩,
      fun h => ⟨h.lower.imp id And.left, h.upper.imp id And.left⟩⟩
  | false =>
    simp only [Bool.false_eq_true, if_false, Bool.and_eq_true, decide_eq_true_eq,
      scaledBinary_lt_scaledDecimal, scaledDecimal_lt_scaledBinary]
    have hopen : ¬ s.closed = true := by rw [hclosed]; exact Bool.false_ne_true
    exact ⟨fun h => within_of_lt h.1 h.2, fun h =>
      ⟨h.lower.resolve_right fun he => hopen he.2, h.upper.resolve_right fun he => hopen he.2⟩⟩

/-- A span around a positive value, whose upper end is less than one decimal place away. -/
structure Proper (s : Span) : Prop where
  low_pos : 0 < s.low
  low_lt : s.low < s.mid
  lt_high : s.mid < s.high
  high_lt : s.high < 10 * s.mid

theorem Proper.contains_value (hs : s.Proper) : s.Contains s.value := by
  have htwo : (0 : ℚ) < 2 ^ s.unit := by positivity
  have hlow : (s.low : ℚ) < s.mid := by exact_mod_cast hs.low_lt
  have hhigh : (s.mid : ℚ) < s.high := by exact_mod_cast hs.lt_high
  exact within_of_lt (mul_lt_mul_of_pos_right hlow htwo) (mul_lt_mul_of_pos_right hhigh htwo)

theorem Proper.pos_of_contains (hs : s.Proper) (h : s.Contains q) : 0 < q := by
  have hlow : (0 : ℚ) < s.low := by exact_mod_cast hs.low_pos
  have hend : (0 : ℚ) < s.low * 2 ^ s.unit := by positivity
  exact hend.trans_le h.lower_le

theorem Proper.lt_of_contains (hs : s.Proper) (h : s.Contains q) : q < 10 * s.value := by
  have htwo : (0 : ℚ) < 2 ^ s.unit := by positivity
  have hhigh : (s.high : ℚ) < 10 * s.mid := by exact_mod_cast hs.high_lt
  calc q ≤ s.high * 2 ^ s.unit := h.le_upper
    _ < 10 * s.mid * 2 ^ s.unit := mul_lt_mul_of_pos_right hhigh htwo
    _ = 10 * s.value := mul_assoc _ _ _

/-! ## One grid -/

theorem scaledDecimal_mul (c : ℕ) (e u : ℤ) : scaledDecimal c e u = c * scaledDecimal 1 e u := by
  unfold scaledDecimal
  ring

theorem scaledDecimal_one_pos (e u : ℤ) : 0 < scaledDecimal 1 e u := by
  unfold scaledDecimal tenTo twoTo
  simp only [Nat.pow_eq]
  positivity

theorem floor_le (s : Span) (e : ℤ) : (s.floor e : ℚ) * 10 ^ e ≤ s.value := by
  rw [value, ← not_lt, ← scaledBinary_lt_scaledDecimal, not_lt, scaledDecimal_mul]
  exact Nat.div_mul_le_self _ _

theorem lt_floor_add_one (s : Span) (e : ℤ) : s.value < ((s.floor e + 1 : ℕ) : ℚ) * 10 ^ e := by
  rw [value, ← scaledBinary_lt_scaledDecimal, scaledDecimal_mul, mul_comm]
  exact Nat.lt_mul_div_succ _ (scaledDecimal_one_pos e s.unit)

/-- The value itself is on the grid of its last binary place. -/
theorem floor_last (s : Span) : (s.floor (min 0 s.unit) : ℚ) * 10 ^ (min 0 s.unit) = s.value := by
  have hdvd : scaledDecimal 1 (min 0 s.unit) s.unit ∣ scaledBinary s.mid s.unit (min 0 s.unit) := by
    have hpos : (min 0 s.unit).toNat = 0 := by omega
    have hneg : (-min 0 s.unit).toNat = (-s.unit).toNat := by omega
    unfold scaledDecimal scaledBinary tenTo twoTo
    rw [hpos, hneg]
    simp only [Nat.pow_eq, pow_zero, one_mul]
    exact Dvd.dvd.mul_left (pow_dvd_pow_of_dvd (by decide) _) _
  have hexact : scaledDecimal (s.floor (min 0 s.unit)) (min 0 s.unit) s.unit =
      scaledBinary s.mid s.unit (min 0 s.unit) := by
    rw [scaledDecimal_mul]
    exact Nat.div_mul_cancel hdvd
  have hcast := congrArg (Nat.cast (R := ℚ)) hexact
  rw [scaledDecimal_eq, scaledBinary_eq] at hcast
  exact mul_right_cancel₀ (commonScale_pos _ _).ne' hcast

/-- The point taken on a grid is in the span. -/
theorem onGrid?_eq_some {e : ℤ} {c : ℕ} (h : s.onGrid? e = some c) : s.Contains (c * 10 ^ e) := by
  rw [← holds_iff]
  cases hlow : s.holds (s.floor e) e <;> cases hhigh : s.holds (s.floor e + 1) e <;>
    simp only [onGrid?, hlow, hhigh, reduceCtorEq, Option.some.injEq] at h
  · rwa [← h]
  · rwa [← h]
  · rw [← h]
    split_ifs
    · exact hlow
    · exact hhigh

/-- A grid is left without a point only if none of its points is in the span: with any point, one of
the two around the value is. -/
theorem onGrid?_eq_none (hs : s.Proper) {e : ℤ} (h : s.onGrid? e = none) (c : ℕ) :
    ¬ s.Contains (c * 10 ^ e) := by
  intro hc
  have hten : (0 : ℚ) ≤ 10 ^ e := by positivity
  rcases Nat.lt_or_ge (s.floor e) c with hlt | hge
  · have hstep : ((s.floor e + 1 : ℕ) : ℚ) * 10 ^ e ≤ c * 10 ^ e :=
      mul_le_mul_of_nonneg_right (by exact_mod_cast hlt) hten
    have hnext : s.Contains ((s.floor e + 1 : ℕ) * 10 ^ e) :=
      hs.contains_value.between hc (s.lt_floor_add_one e).le hstep
    rw [← holds_iff] at hnext
    cases hlow : s.holds (s.floor e) e <;> simp [onGrid?, hlow, hnext] at h
  · have hstep : (c : ℚ) * 10 ^ e ≤ s.floor e * 10 ^ e :=
      mul_le_mul_of_nonneg_right (by exact_mod_cast hge) hten
    have hfloor : s.Contains (s.floor e * 10 ^ e) :=
      hc.between hs.contains_value hstep (s.floor_le e)
    rw [← holds_iff] at hfloor
    cases hhigh : s.holds (s.floor e + 1) e <;> simp [onGrid?, hfloor, hhigh] at h

end Span

/-! ## The search -/

/-- The number that a decimal stands for. -/
def value (d : Decimal) : ℚ := d.coefficient * 10 ^ d.exponent

/-- The decimal is in the span, and no coarser grid has a point there. -/
structure Coarsest (s : Span) (d : Decimal) : Prop where
  contains : s.Contains d.value
  coarsest : ∀ (c : ℕ) (e : ℤ), s.Contains (c * 10 ^ e) → e ≤ d.exponent

namespace Span

variable {s : Span} {q : ℚ}

theorem Proper.coefficient_pos (hs : s.Proper) {d : Decimal} (h : s.Contains d.value) :
    0 < d.coefficient := by
  have hpos := hs.pos_of_contains h
  unfold Decimal.value at hpos
  rcases Nat.eq_zero_or_pos d.coefficient with hzero | hc
  · rw [hzero, Nat.cast_zero, zero_mul] at hpos
    exact absurd hpos (lt_irrefl 0)
  · exact hc

/-- What the search has found is in the span, and every grid from the first one down to it has been
tried in vain. -/
theorem search_spec (hs : s.Proper) (steps : ℕ) (e : ℤ)
    (hlast : s.Contains (s.floor (e - steps) * 10 ^ (e - steps))) :
    s.Contains (s.search steps e).value ∧
      ∀ e', (s.search steps e).exponent < e' → e' ≤ e → ∀ c : ℕ, ¬ s.Contains (c * 10 ^ e') := by
  -- the grid that the search ends on is the same for all its steps, so it stays in the hypothesis
  induction steps generalizing e with
  | zero =>
    rw [Nat.cast_zero, sub_zero] at hlast
    refine ⟨hlast, ?_⟩
    intro e' hlt hle
    exact absurd hle (not_le.mpr hlt)
  | succ steps ih =>
    unfold search
    cases hgrid : s.onGrid? e with
    | some c =>
      refine ⟨onGrid?_eq_some hgrid, ?_⟩
      intro e' hlt hle
      exact absurd hle (not_le.mpr hlt)
    | none =>
      have hnext : e - 1 - (steps : ℤ) = e - ((steps + 1 : ℕ) : ℤ) := by push_cast; ring
      obtain ⟨hin, htried⟩ := ih (e - 1) (by rw [hnext]; exact hlast)
      refine ⟨hin, ?_⟩
      intro e' hlt hle
      rcases Int.lt_or_eq_of_le hle with h | rfl
      · exact htried e' hlt (by omega)
      · exact onGrid?_eq_none hs hgrid

/-- The first grid lies above the value. -/
theorem value_lt_start (s : Span) : s.value < 10 ^ s.start := by
  have hfloor := s.lt_floor_add_one 0
  have hdigits : s.floor 0 < 10 ^ (Nat.toDigits 10 (s.floor 0)).length :=
    (Nat.length_toDigits_le_iff (by decide) Nat.length_toDigits_pos).mp le_rfl
  rw [zpow_zero, mul_one] at hfloor
  calc s.value < ((s.floor 0 + 1 : ℕ) : ℚ) := hfloor
    _ ≤ ((10 ^ (Nat.toDigits 10 (s.floor 0)).length : ℕ) : ℚ) := by exact_mod_cast hdigits
    _ = 10 ^ s.start := by rw [Nat.cast_pow, Nat.cast_ofNat, ← zpow_natCast]; rfl

theorem shortest_coarsest (hs : s.Proper) : Coarsest s s.shortest := by
  have hstart : 0 ≤ s.start := Int.natCast_nonneg _
  have hend : s.start - ((s.start - min 0 s.unit).toNat : ℤ) = min 0 s.unit := by omega
  obtain ⟨hin, htried⟩ := search_spec hs (s.start - min 0 s.unit).toNat s.start
    (by rw [hend, floor_last]; exact hs.contains_value)
  refine ⟨hin, ?_⟩
  intro c e hc
  by_contra hlt
  rcases le_or_gt e s.start with hle | habove
  · exact htried e (not_le.mp hlt) hle c hc
  · -- above the first grid even the point nearest to zero is too large
    have hcpos : (1 : ℚ) ≤ c := by exact_mod_cast hs.coefficient_pos (d := ⟨c, e⟩) hc
    have hten : (10 : ℚ) ^ (s.start + 1) ≤ 10 ^ e := zpow_le_zpow_right₀ (by norm_num) habove
    have hbig : 10 * s.value < c * 10 ^ e :=
      calc 10 * s.value < 10 * 10 ^ s.start := by linarith [s.value_lt_start]
        _ = 10 ^ (s.start + 1) := by rw [zpow_add_one₀ (by norm_num), mul_comm]
        _ ≤ 10 ^ e := hten
        _ ≤ c * 10 ^ e := le_mul_of_one_le_left (by positivity) hcpos
    exact absurd (hs.lt_of_contains hc) (not_lt.mpr hbig.le)

end Span

/-! ## Digits -/

theorem length_toDigits_eq_iff {c k : ℕ} (hc : 0 < c) :
    (Nat.toDigits 10 c).length = k + 1 ↔ 10 ^ k ≤ c ∧ c < 10 ^ (k + 1) := by
  have hpos : 0 < (Nat.toDigits 10 c).length := Nat.length_toDigits_pos
  have hupper := Nat.length_toDigits_le_iff (b := 10) (n := c) (k := k + 1) (by decide) (by omega)
  have hlower : k < (Nat.toDigits 10 c).length ↔ 10 ^ k ≤ c := by
    rcases Nat.eq_zero_or_pos k with rfl | hk
    · rw [pow_zero]
      exact ⟨fun _ => hc, fun _ => hpos⟩
    · rw [← not_le, Nat.length_toDigits_le_iff (by decide) hk, not_lt]
  rw [← hupper, ← hlower]
  omega

theorem length_digits_pos (d : Decimal) : 0 < d.digits.length := Nat.length_toDigits_pos

theorem coefficient_bounds {d : Decimal} (h : 0 < d.coefficient) :
    10 ^ (d.digits.length - 1) ≤ d.coefficient ∧ d.coefficient < 10 ^ d.digits.length := by
  have hlen : d.digits.length - 1 + 1 = d.digits.length := by
    have := d.length_digits_pos
    omega
  have hbounds := (length_toDigits_eq_iff h).mp hlen.symm
  rwa [hlen] at hbounds

/-- The leading digit stands at the largest power of ten below the decimal. -/
theorem ten_zpow_leading_le {d : Decimal} (h : 0 < d.coefficient) : 10 ^ d.leading ≤ d.value := by
  have hlen := d.length_digits_pos
  have hle : ((10 ^ (d.digits.length - 1) : ℕ) : ℚ) ≤ d.coefficient := by
    exact_mod_cast (coefficient_bounds h).1
  have hsub : (d.digits.length : ℤ) - 1 = ((d.digits.length - 1 : ℕ) : ℤ) := by omega
  have hten : (0 : ℚ) ≤ 10 ^ d.exponent := by positivity
  unfold leading value
  rw [hsub, zpow_add₀ (by norm_num), zpow_natCast]
  rw [Nat.cast_pow, Nat.cast_ofNat] at hle
  exact mul_le_mul_of_nonneg_right hle hten

theorem lt_ten_zpow_leading {d : Decimal} (h : 0 < d.coefficient) :
    d.value < 10 ^ (d.leading + 1) := by
  have hlt : (d.coefficient : ℚ) < ((10 ^ d.digits.length : ℕ) : ℚ) := by
    exact_mod_cast (coefficient_bounds h).2
  have hadd : d.leading + 1 = (d.digits.length : ℤ) + d.exponent := by
    unfold leading
    ring
  have hten : (0 : ℚ) < 10 ^ d.exponent := by positivity
  unfold value
  rw [hadd, zpow_add₀ (by norm_num), zpow_natCast]
  rw [Nat.cast_pow, Nat.cast_ofNat] at hlt
  exact mul_lt_mul_of_pos_right hlt hten

theorem exponent_le_of_value_eq {d d' : Decimal} (hd : ¬ 10 ∣ d.coefficient)
    (h : d.value = d'.value) : d'.exponent ≤ d.exponent := by
  by_contra hlt
  obtain ⟨k, hk⟩ := Int.le.dest (show d.exponent + 1 ≤ d'.exponent by omega)
  have hten : (10 : ℚ) ^ d.exponent ≠ 0 := by positivity
  unfold value at h
  rw [← hk, add_assoc, zpow_add₀ (by norm_num), ← mul_assoc, mul_right_comm] at h
  have hcoeff := mul_right_cancel₀ hten h
  have hcast : d.coefficient = d'.coefficient * 10 ^ (1 + k) := by
    rw [← Nat.cast_one, ← Nat.cast_add, zpow_natCast] at hcoeff
    exact_mod_cast hcoeff
  exact hd (hcast ▸ Dvd.dvd.mul_left (dvd_pow_self 10 (by omega)) _)

/-- A number has one decimal whose coefficient is no multiple of ten. -/
theorem eq_of_value_eq {d d' : Decimal} (hd : ¬ 10 ∣ d.coefficient) (hd' : ¬ 10 ∣ d'.coefficient)
    (h : d.value = d'.value) : d = d' := by
  have hexponent : d.exponent = d'.exponent :=
    le_antisymm (exponent_le_of_value_eq hd' h.symm) (exponent_le_of_value_eq hd h)
  have hten : (10 : ℚ) ^ d'.exponent ≠ 0 := by positivity
  unfold value at h
  rw [hexponent] at h
  have hcoefficient : d.coefficient = d'.coefficient := by exact_mod_cast mul_right_cancel₀ hten h
  obtain ⟨c, e⟩ := d
  obtain ⟨c', e'⟩ := d'
  obtain rfl : c = c' := hcoefficient
  obtain rfl : e = e' := hexponent
  rfl

namespace Coarsest

variable {s : Span} {d d' : Decimal}

/-- A last digit zero would put the decimal on a coarser grid. -/
theorem not_ten_dvd (h : Coarsest s d) : ¬ 10 ∣ d.coefficient := by
  rintro ⟨c, hc⟩
  have hin := h.contains
  unfold value at hin
  rw [hc, Nat.cast_mul, Nat.cast_ofNat, mul_comm (10 : ℚ), mul_assoc,
    ← zpow_one_add₀ (by norm_num)] at hin
  have hle := h.coarsest c _ hin
  omega

/-- A power of ten in the span is on a grid no coarser than that of the decimal. -/
theorem le_exponent_of_ten_zpow (h : Coarsest s d) {k : ℤ} (hk : s.Contains (10 ^ k)) :
    k ≤ d.exponent :=
  h.coarsest 1 k (by rwa [Nat.cast_one, one_mul])

/-- A decimal on the coarsest grid has no more digits than any other in the span. Where the two
have their leading digits at different places, a power of ten lies between them and is in the span
too, so that one digit is enough. -/
theorem length_digits_le (h : Coarsest s d) (hs : s.Proper) (hd' : s.Contains d'.value) :
    d.digits.length ≤ d'.digits.length := by
  have hpos := hs.coefficient_pos h.contains
  have hpos' := hs.coefficient_pos hd'
  have hlen := d.length_digits_pos
  have hlen' := d'.length_digits_pos
  have hexp := h.coarsest _ _ hd'
  have hlead : d.leading = (d.digits.length : ℤ) - 1 + d.exponent := rfl
  have hlead' : d'.leading = (d'.digits.length : ℤ) - 1 + d'.exponent := rfl
  rcases lt_trichotomy d.leading d'.leading with hlt | heq | hgt
  · have hbelow : d.value ≤ 10 ^ d'.leading :=
      (lt_ten_zpow_leading hpos).le.trans (zpow_le_zpow_right₀ (by norm_num) (by omega))
    have hin := h.contains.between hd' hbelow (ten_zpow_leading_le hpos')
    have hle := h.le_exponent_of_ten_zpow hin
    omega
  · omega
  · have habove : d'.value ≤ 10 ^ d.leading :=
      (lt_ten_zpow_leading hpos').le.trans (zpow_le_zpow_right₀ (by norm_num) (by omega))
    have hin := hd'.between h.contains habove (ten_zpow_leading_le hpos)
    have hle := h.le_exponent_of_ten_zpow hin
    omega

end Coarsest

/-! ## The span of a double -/

section SpanOf

variable {x : Double} {q : ℚ}

theorem four_mul_unit (x : Double) : 4 * (2 : ℚ) ^ (spanOf x).unit = Double.gap x.rank := by
  have hadd : x.exponent = (spanOf x).unit + 2 := by
    unfold spanOf
    ring
  rw [← Double.two_zpow_exponent, hadd, zpow_add₀ two_ne_zero]
  norm_num
  ring

theorem significand_pos (hne : x.rank ≠ 0) : 0 < x.significand := by
  rw [Double.significand_eq]
  unfold Double.significandAt
  rw [Double.twoTo_52]
  split_ifs <;> omega

theorem spanOf_high (x : Double) :
    ((spanOf x).high : ℚ) * 2 ^ (spanOf x).unit = Double.halfway x.rank := by
  have hunit := four_mul_unit x
  have hhigh : ((spanOf x).high : ℚ) = 4 * x.significand + 2 := by
    unfold spanOf
    push_cast
    rfl
  unfold Double.halfway
  rw [Double.level_succ, hhigh, ← hunit, Double.level, ← Double.significand_eq, ← hunit]
  ring

/-- The lower neighbour of a power of two is half as far away as the upper one. -/
theorem gap_pred (x : Double) : Double.gap (x.rank - 1) =
    if x.fraction = 0 ∧ 1 < x.biased then Double.gap x.rank / 2 else Double.gap x.rank := by
  rw [Double.fraction_eq, Double.biased_eq]
  split_ifs with hpower
  · obtain ⟨hfraction, hbiased⟩ := hpower
    have hdiv : x.rank / twoTo 52 = (x.rank - 1) / twoTo 52 + 1 := by
      rw [Double.twoTo_52] at *
      omega
    rw [Double.gap_of_div_succ (by omega) hdiv]
    ring
  · apply Double.gap_of_div_eq
    rw [Double.twoTo_52] at *
    omega

theorem cast_spanOf_low (hne : x.rank ≠ 0) : ((spanOf x).low : ℚ) =
    4 * (x.significand : ℚ) - if x.fraction = 0 ∧ 1 < x.biased then 1 else 2 := by
  have hpos := significand_pos hne
  unfold spanOf
  dsimp only
  split_ifs
  · rw [Nat.cast_sub (by omega), Nat.cast_mul, Nat.cast_ofNat, Nat.cast_one]
  · rw [Nat.cast_sub (by omega), Nat.cast_mul, Nat.cast_ofNat, Nat.cast_ofNat]

theorem spanOf_low (hne : x.rank ≠ 0) :
    ((spanOf x).low : ℚ) * 2 ^ (spanOf x).unit = Double.halfway (x.rank - 1) := by
  have hunit := four_mul_unit x
  have hsucc : x.rank - 1 + 1 = x.rank := by omega
  have hnext := Double.level_succ (x.rank - 1)
  have hlevel : Double.level x.rank = x.significand * Double.gap x.rank := by
    rw [Double.significand_eq, Double.level]
  have hgap := gap_pred x
  have hlow := cast_spanOf_low hne
  rw [hsucc] at hnext
  unfold Double.halfway
  rw [hsucc, hlow]
  split_ifs at hgap ⊢
  · linear_combination
      (x.significand - 1 / 4 : ℚ) * hunit - hlevel + (1 / 2 : ℚ) * hnext + (1 / 2 : ℚ) * hgap
  · linear_combination
      (x.significand - 1 / 2 : ℚ) * hunit - hlevel + (1 / 2 : ℚ) * hnext + (1 / 2 : ℚ) * hgap

/-- The span of a double holds the numbers that round to it. -/
theorem spanOf_contains (hne : x.rank ≠ 0) : (spanOf x).Contains q ↔ Double.Rounds x.rank q := by
  have hclosed : ((spanOf x).closed = true) = (x.rank % 2 = 0) := by
    unfold spanOf
    rw [← Double.significand_mod_two, beq_iff_eq]
  unfold Span.Contains Double.Rounds
  rw [spanOf_low hne, spanOf_high, hclosed]

theorem spanOf_proper (hne : x.rank ≠ 0) : (spanOf x).Proper := by
  have hpos := significand_pos hne
  unfold spanOf
  refine ⟨?_, ?_, ?_, ?_⟩ <;> dsimp only
  · split_ifs <;> omega
  · split_ifs <;> omega
  · omega
  · omega

end SpanOf

end Decimal

namespace Double

variable {x : Double}

theorem shortest_coarsest (hne : x.rank ≠ 0) : Decimal.Coarsest (Decimal.spanOf x) x.shortest :=
  Decimal.Span.shortest_coarsest (Decimal.spanOf_proper hne)

/-- The shortest decimal rounds to the double. -/
theorem shortest_rounds (hne : x.rank ≠ 0) : Rounds x.rank x.shortest.value :=
  (Decimal.spanOf_contains hne).mp (shortest_coarsest hne).contains

theorem shortest_coefficient_pos (hne : x.rank ≠ 0) : 0 < x.shortest.coefficient :=
  (Decimal.spanOf_proper hne).coefficient_pos (shortest_coarsest hne).contains

theorem shortest_not_ten_dvd (hne : x.rank ≠ 0) : ¬ 10 ∣ x.shortest.coefficient :=
  (shortest_coarsest hne).not_ten_dvd

/-- No decimal that rounds to the double has fewer digits. -/
theorem length_digits_shortest_le (hne : x.rank ≠ 0) {d : Decimal} (h : Rounds x.rank d.value) :
    x.shortest.digits.length ≤ d.digits.length :=
  (shortest_coarsest hne).length_digits_le (Decimal.spanOf_proper hne)
    ((Decimal.spanOf_contains hne).mpr h)

/-- The leading digit of the shortest decimal stands at the place of a power of ten or above it
exactly from the double on that this power rounds to. For that double itself, the power is a hit
that the search cannot pass. -/
theorem le_leading_shortest_iff (hne : x.rank ≠ 0) {n : ℕ} {k : ℤ} (hk : Rounds n (10 ^ k)) :
    k ≤ x.shortest.leading ↔ n ≤ x.rank := by
  have hpos := shortest_coefficient_pos hne
  have hrounds := shortest_rounds hne
  have hlead := Decimal.ten_zpow_leading_le hpos
  constructor
  · intro hle
    by_contra hlt
    have hbelow : x.shortest.value < 10 ^ k := hrounds.lt hk (not_le.mp hlt)
    have habove : (10 : ℚ) ^ k ≤ 10 ^ x.shortest.leading := zpow_le_zpow_right₀ (by norm_num) hle
    exact absurd (habove.trans hlead) (not_le.mpr hbelow)
  · intro hle
    rcases Nat.lt_or_eq_of_le hle with hlt | rfl
    · by_contra hleading
      have habove : (10 : ℚ) ^ k < x.shortest.value := hk.lt hrounds hlt
      have hbelow := Decimal.lt_ten_zpow_leading hpos
      have hten : (10 : ℚ) ^ (x.shortest.leading + 1) ≤ 10 ^ k :=
        zpow_le_zpow_right₀ (by norm_num) (by omega)
      exact absurd habove (not_lt.mpr (hbelow.le.trans hten))
    · have hin := (Decimal.spanOf_contains hne).mpr hk
      have hexp := (shortest_coarsest hne).le_exponent_of_ten_zpow hin
      have hlen := x.shortest.length_digits_pos
      unfold Decimal.leading
      omega

end Double

end StyleCompiler
