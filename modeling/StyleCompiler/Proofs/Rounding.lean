import Mathlib.Algebra.Order.Field.Power
import Mathlib.Algebra.Order.Ring.Rat
import Mathlib.Data.Rat.Cast.Order
import Mathlib.Order.Monotone.Basic
import Mathlib.Tactic.FieldSimp
import Mathlib.Tactic.Linarith
import Mathlib.Tactic.NormNum
import Mathlib.Tactic.Ring
import StyleCompiler.Double

/-!
# Rounding to the nearest double

Which rational numbers round to a double: those no farther from it than from any other finite one,
and halfway between two the one whose significand is even.

The bits of a double without its sign are its rank. Ranks number the magnitudes from zero upwards
without a gap, so the neighbours of a double are the ranks beside its own. With that, the condition
over all doubles becomes two comparisons.

* `level n`, `gap n`: the magnitude of rank `n`, and how far the next one is.
* `level_succ`: the next magnitude is one gap away, also across a power of two.
* `Within`: the numbers between two ends, which are in or out together.
* `Rounds n q`: `q` lies between the points halfway to the neighbours of rank `n`.
* `Rounds.lt`, `Rounds.rank_unique`: rounding keeps the order and gives one magnitude only.
* `RoundsTo q x`: no finite double is nearer to `q` than `x`, and ties go to even.
* `roundsTo_iff`: for a nonzero `x` that is `Rounds` at its rank.
-/

namespace StyleCompiler

/-! ## Intervals -/

/-- The number lies between two ends, which themselves are in or out together. -/
structure Within (low high : ℚ) (closed : Prop) (q : ℚ) : Prop where
  lower : low < q ∨ low = q ∧ closed
  upper : q < high ∨ q = high ∧ closed

section Within

variable {a b low high p q r : ℚ} {closed : Prop}

theorem le_trans_lt_or_tie (hab : a ≤ b) (h : b < q ∨ b = q ∧ closed) : a < q ∨ a = q ∧ closed := by
  rcases h with hlt | ⟨rfl, hclosed⟩
  · exact Or.inl (hab.trans_lt hlt)
  · exact hab.lt_or_eq.imp id fun heq => ⟨heq, hclosed⟩

theorem lt_or_tie_trans_le (h : q < a ∨ q = a ∧ closed) (hab : a ≤ b) : q < b ∨ q = b ∧ closed := by
  rcases h with hlt | ⟨rfl, hclosed⟩
  · exact Or.inl (hlt.trans_le hab)
  · exact hab.lt_or_eq.imp id fun heq => ⟨heq, hclosed⟩

theorem Within.lower_le (h : Within low high closed q) : low ≤ q :=
  h.lower.elim le_of_lt fun h => h.1.le

theorem Within.le_upper (h : Within low high closed q) : q ≤ high :=
  h.upper.elim le_of_lt fun h => h.1.le

theorem Within.between (hp : Within low high closed p) (hr : Within low high closed r)
    (hpq : p ≤ q) (hqr : q ≤ r) : Within low high closed q :=
  ⟨lt_or_tie_trans_le hp.lower hpq, le_trans_lt_or_tie hqr hr.upper⟩

theorem within_of_lt (hlow : low < q) (hhigh : q < high) : Within low high closed q :=
  ⟨Or.inl hlow, Or.inl hhigh⟩

end Within

namespace Double

/-! ## Magnitudes by rank -/

/-- The bits without the sign. -/
def rank (x : Double) : ℕ := x.bits.toNat % twoTo 63

/-- How far the magnitude after the one of rank `n` is. -/
def gap (n : ℕ) : ℚ := 2 ^ ((max (n / twoTo 52) 1 : ℕ) - 1075 : ℤ)

/-- The significand of the magnitude of rank `n`. -/
def significandAt (n : ℕ) : ℕ :=
  if n / twoTo 52 = 0 then n % twoTo 52 else twoTo 52 + n % twoTo 52

/-- The magnitude of rank `n`. -/
def level (n : ℕ) : ℚ := significandAt n * gap n

theorem gap_pos (n : ℕ) : 0 < gap n := by
  unfold gap
  positivity

theorem gap_of_div_eq {n m : ℕ} (h : max (n / twoTo 52) 1 = max (m / twoTo 52) 1) :
    gap n = gap m := by
  unfold gap
  rw [h]

/-- A gap doubles where the stored exponent goes up, except from the subnormal numbers. -/
theorem gap_of_div_succ {n m : ℕ} (hn : 1 ≤ n / twoTo 52)
    (h : m / twoTo 52 = n / twoTo 52 + 1) : gap m = 2 * gap n := by
  have hmax : ((max (m / twoTo 52) 1 : ℕ) - 1075 : ℤ) =
      ((max (n / twoTo 52) 1 : ℕ) - 1075 : ℤ) + 1 := by
    rw [Nat.max_eq_left hn, Nat.max_eq_left (by omega), h]
    push_cast
    ring
  unfold gap
  rw [hmax, zpow_add_one₀ two_ne_zero, mul_comm]

theorem level_zero : level 0 = 0 := by
  simp [level, significandAt, twoTo]

theorem twoTo_52 : twoTo 52 = 4503599627370496 := rfl

/-- The next magnitude is one gap away. -/
theorem level_succ (n : ℕ) : level (n + 1) = level n + gap n := by
  unfold level
  by_cases hcarry : n % twoTo 52 + 1 < twoTo 52
  · -- the stored exponent stays
    have hdiv : (n + 1) / twoTo 52 = n / twoTo 52 := by rw [twoTo_52] at *; omega
    have hmod : (n + 1) % twoTo 52 = n % twoTo 52 + 1 := by rw [twoTo_52] at *; omega
    have hgap : gap (n + 1) = gap n := gap_of_div_eq (by rw [hdiv])
    have hsig : significandAt (n + 1) = significandAt n + 1 := by
      unfold significandAt
      rw [hdiv, hmod]
      split_ifs <;> omega
    rw [hgap, hsig]
    push_cast
    ring
  · have hdiv : (n + 1) / twoTo 52 = n / twoTo 52 + 1 := by rw [twoTo_52] at *; omega
    have hmod : (n + 1) % twoTo 52 = 0 := by rw [twoTo_52] at *; omega
    have hlast : n % twoTo 52 = twoTo 52 - 1 := by rw [twoTo_52] at *; omega
    have hsig : significandAt (n + 1) = twoTo 52 := by
      unfold significandAt
      rw [hdiv, hmod, if_neg (Nat.succ_ne_zero _), Nat.add_zero]
    by_cases hsub : n / twoTo 52 = 0
    · -- the first normal number is no farther than the subnormal ones are from each other
      have hgap : gap (n + 1) = gap n := gap_of_div_eq (by rw [hdiv, hsub]; rfl)
      have hold : significandAt n = twoTo 52 - 1 := by
        unfold significandAt
        rw [if_pos hsub, hlast]
      rw [hgap, hsig, hold, twoTo_52]
      norm_num
      ring
    · have hgap : gap (n + 1) = 2 * gap n := gap_of_div_succ (Nat.one_le_iff_ne_zero.mpr hsub) hdiv
      have hold : significandAt n = 2 * twoTo 52 - 1 := by
        unfold significandAt
        rw [if_neg hsub, hlast]
        rfl
      rw [hgap, hsig, hold, twoTo_52]
      norm_num
      ring

theorem level_strictMono : StrictMono level := by
  apply strictMono_nat_of_lt_succ
  intro n
  rw [level_succ]
  linarith [gap_pos n]

theorem level_lt_succ (n : ℕ) : level n < level (n + 1) := level_strictMono (Nat.lt_succ_self n)

theorem level_nonneg (n : ℕ) : 0 ≤ level n := by
  rw [← level_zero]
  exact level_strictMono.monotone (Nat.zero_le n)

theorem significandAt_mod_two (n : ℕ) : significandAt n % 2 = n % 2 := by
  unfold significandAt
  rw [twoTo_52]
  split_ifs <;> omega

/-! ## Between the neighbours -/

/-- The point halfway between the magnitudes of rank `n` and `n + 1`. -/
def halfway (n : ℕ) : ℚ := (level n + level (n + 1)) / 2

theorem level_lt_halfway (n : ℕ) : level n < halfway n := by
  unfold halfway
  linarith [level_lt_succ n]

theorem halfway_lt_level (n : ℕ) : halfway n < level (n + 1) := by
  unfold halfway
  linarith [level_lt_succ n]

theorem halfway_strictMono : StrictMono halfway := by
  apply strictMono_nat_of_lt_succ
  intro n
  exact (halfway_lt_level n).trans (level_lt_halfway (n + 1))

/-- The number lies between the points halfway to the neighbours of the positive magnitude of rank
`n`. These points themselves belong to an even rank. -/
def Rounds (n : ℕ) (q : ℚ) : Prop := Within (halfway (n - 1)) (halfway n) (n % 2 = 0) q

namespace Rounds

variable {n m : ℕ} {p q : ℚ}

theorem pos (h : Rounds n q) : 0 < q :=
  calc 0 ≤ level (n - 1) := level_nonneg _
    _ < halfway (n - 1) := level_lt_halfway _
    _ ≤ q := h.lower_le

/-- The numbers of a lower rank are below those of a higher one: two ranks that share the point
between them are not both even. -/
theorem lt (hn : Rounds n p) (hm : Rounds m q) (hnm : n < m) : p < q := by
  rcases hn.upper with hp | ⟨hp, hneven⟩
  · have hchain : halfway n ≤ halfway (m - 1) := halfway_strictMono.monotone (by omega)
    exact (hp.trans_le hchain).trans_le hm.lower_le
  · rcases hm.lower with hq | ⟨hq, hmeven⟩
    · have hchain : halfway n ≤ halfway (m - 1) := halfway_strictMono.monotone (by omega)
      exact (hn.le_upper.trans hchain).trans_lt hq
    · have hchain : halfway n < halfway (m - 1) := halfway_strictMono (by omega)
      rwa [hp, ← hq]

theorem rank_unique (hn : Rounds n q) (hm : Rounds m q) : n = m := by
  rcases Nat.lt_trichotomy n m with h | h | h
  · exact absurd (hn.lt hm h) (lt_irrefl q)
  · exact h
  · exact absurd (hm.lt hn h) (lt_irrefl q)

/-- A magnitude rounds to itself. -/
theorem self (hn : n ≠ 0) : Rounds n (level n) := by
  obtain ⟨k, rfl⟩ := Nat.exists_eq_succ_of_ne_zero hn
  exact within_of_lt (halfway_lt_level k) (level_lt_halfway (k + 1))

end Rounds

/-! ## The value of a double -/

/-- The magnitude of a finite double. -/
def magnitude (x : Double) : ℚ := x.significand * 2 ^ x.exponent

/-- The value of a finite double. -/
def value (x : Double) : ℚ := if x.isNegative then -x.magnitude else x.magnitude

theorem rank_lt (x : Double) : x.rank < twoTo 63 := Nat.mod_lt _ (by decide)

theorem bits_toNat (x : Double) :
    x.bits.toNat = if x.isNegative then twoTo 63 + x.rank else x.rank := by
  have hlt : x.bits.toNat < 2 ^ 64 := x.bits.toNat_lt
  unfold isNegative rank
  simp only [decide_eq_true_eq, show twoTo 63 = 2 ^ 63 from rfl]
  split_ifs <;> omega

theorem biased_eq (x : Double) : x.biased = x.rank / twoTo 52 := by
  have hlt : x.bits.toNat < 2 ^ 64 := x.bits.toNat_lt
  unfold biased rank
  simp only [show twoTo 63 = 2 ^ 63 from rfl, show twoTo 52 = 2 ^ 52 from rfl,
    show twoTo 11 = 2 ^ 11 from rfl]
  omega

theorem fraction_eq (x : Double) : x.fraction = x.rank % twoTo 52 := by
  unfold fraction rank
  simp only [show twoTo 63 = 2 ^ 63 from rfl, show twoTo 52 = 2 ^ 52 from rfl]
  omega

theorem significand_eq (x : Double) : x.significand = significandAt x.rank := by
  unfold significand significandAt
  rw [biased_eq, fraction_eq]

theorem two_zpow_exponent (x : Double) : (2 : ℚ) ^ x.exponent = gap x.rank := by
  unfold exponent gap
  rw [biased_eq]

theorem magnitude_eq (x : Double) : x.magnitude = level x.rank := by
  unfold magnitude level
  rw [significand_eq, two_zpow_exponent]

theorem isZero_iff {x : Double} : x.isZero = true ↔ x.rank = 0 := by
  unfold isZero
  rw [biased_eq, fraction_eq, twoTo_52]
  simp only [Bool.and_eq_true, beq_iff_eq]
  omega

theorem rank_ne_zero {x : Double} (hne : x.isZero = false) : x.rank ≠ 0 := by
  intro hzero
  rw [isZero_iff.mpr hzero] at hne
  cases hne

theorem isFinite_iff {x : Double} : x.isFinite = true ↔ x.rank < infinityBits := by
  have hlt := rank_lt x
  unfold isFinite infinityBits
  rw [biased_eq]
  simp only [bne_iff_ne, ne_eq, show twoTo 63 = 2 ^ 63 from rfl,
    show twoTo 52 = 2 ^ 52 from rfl] at hlt ⊢
  omega

theorem abs_value (x : Double) : |x.value| = level x.rank := by
  unfold value
  rw [magnitude_eq]
  split_ifs
  · rw [abs_neg, abs_of_nonneg (level_nonneg _)]
  · exact abs_of_nonneg (level_nonneg _)

/-- Sign and rank determine a double. -/
theorem ext_rank {x y : Double} (hsign : x.isNegative = y.isNegative) (hrank : x.rank = y.rank) :
    x = y := by
  have hbits : x.bits = y.bits := by
    apply UInt64.toNat_inj.mp
    rw [bits_toNat, bits_toNat, hsign, hrank]
  cases x
  cases y
  exact congrArg Double.mk hbits

theorem ofMagnitude_toNat (negative : Bool) {n : ℕ} (hn : n < twoTo 63) :
    (ofMagnitude negative n).bits.toNat = if negative then twoTo 63 + n else n := by
  simp only [show twoTo 63 = 2 ^ 63 from rfl] at hn ⊢
  unfold ofMagnitude
  simp only [show twoTo 63 = 2 ^ 63 from rfl, UInt64.toNat_ofNat']
  split_ifs <;> omega

theorem rank_ofMagnitude (negative : Bool) {n : ℕ} (hn : n < twoTo 63) :
    (ofMagnitude negative n).rank = n := by
  unfold rank
  rw [ofMagnitude_toNat negative hn]
  split_ifs
  · rw [Nat.add_mod_left, Nat.mod_eq_of_lt hn]
  · exact Nat.mod_eq_of_lt hn

theorem isNegative_ofMagnitude (negative : Bool) {n : ℕ} (hn : n < twoTo 63) :
    (ofMagnitude negative n).isNegative = negative := by
  unfold isNegative
  rw [ofMagnitude_toNat negative hn]
  cases negative
  · simpa using hn
  · simp

theorem value_ofMagnitude (negative : Bool) {n : ℕ} (hn : n < twoTo 63) :
    (ofMagnitude negative n).value = if negative then -level n else level n := by
  unfold value
  rw [magnitude_eq, rank_ofMagnitude negative hn, isNegative_ofMagnitude negative hn]

/-! ## Rounding -/

/-- The number rounds to the finite double `x`: it is below the point from which on numbers round to
infinity, it is nearer to `x` than to any other finite value, and halfway between two the
significand of `x` is even. -/
structure RoundsTo (q : ℚ) (x : Double) : Prop where
  finite : x.isFinite = true
  bounded : |q| < 2 ^ 1024 - 2 ^ 970
  nearest : ∀ y : Double, y.isFinite = true → y.value ≠ x.value →
    |q - x.value| < |q - y.value| ∨ |q - x.value| = |q - y.value| ∧ x.significand % 2 = 0

variable {x y : Double} {q : ℚ}

theorem value_of_not_negative (h : x.isNegative = false) : x.value = level x.rank := by
  unfold value
  rw [h, magnitude_eq]
  rfl

/-- A value other than a positive magnitude is at most the magnitude below it or at least the one
above. -/
theorem value_le_or_ge {n : ℕ} (hne : y.value ≠ level (n + 1)) :
    y.value ≤ level n ∨ level (n + 2) ≤ y.value := by
  have habs := abs_value y
  rcases abs_cases y.value with ⟨hpos, -⟩ | ⟨hneg, hlt⟩
  · rw [hpos] at habs
    rw [habs] at hne ⊢
    rcases Nat.lt_or_ge n y.rank with h | h
    · have hrank : y.rank ≠ n + 1 := fun heq => hne (congrArg level heq)
      exact Or.inr (level_strictMono.monotone (by omega))
    · exact Or.inl (level_strictMono.monotone h)
  · exact Or.inl (hlt.le.trans (level_nonneg n))

theorem significand_mod_two (x : Double) : x.significand % 2 = x.rank % 2 := by
  rw [significand_eq, significandAt_mod_two]

theorem finite_of_rank {n : ℕ} (hn : n < infinityBits) :
    (ofMagnitude false n).isFinite = true ∧ (ofMagnitude false n).value = level n := by
  have hn' : n < twoTo 63 := hn.trans (by decide)
  exact ⟨isFinite_iff.mpr (by rwa [rank_ofMagnitude false hn']), value_ofMagnitude false hn'⟩

/-- Infinity takes the place of the magnitude after the largest finite one. -/
theorem level_infinityBits : level infinityBits = 2 ^ 1024 := by
  have hdiv : infinityBits / twoTo 52 = 2047 := rfl
  have hmod : infinityBits % twoTo 52 = 0 := rfl
  unfold level significandAt gap
  rw [hdiv, hmod]
  rw [if_neg (by decide), show ((max 2047 1 : ℕ) - 1075 : ℤ) = (972 : ℕ) from rfl, zpow_natCast,
    show twoTo 52 + 0 = 2 ^ 52 from rfl, Nat.cast_pow, Nat.cast_ofNat, ← pow_add]

/-- The first number that rounds to infinity. -/
theorem halfway_largest : halfway (infinityBits - 1) = 2 ^ 1024 - 2 ^ 970 := by
  have hgap : gap (infinityBits - 1) = 2 ^ 971 := by
    have hdiv : (infinityBits - 1) / twoTo 52 = 2046 := rfl
    unfold gap
    rw [hdiv, show ((max 2046 1 : ℕ) - 1075 : ℤ) = (971 : ℕ) from rfl, zpow_natCast]
  have hnext : level infinityBits = level (infinityBits - 1) + gap (infinityBits - 1) :=
    level_succ (infinityBits - 1)
  have hpow : (2 : ℚ) ^ 971 = 2 * 2 ^ 970 := pow_succ' 2 970
  have hhalf : halfway (infinityBits - 1) =
      (level (infinityBits - 1) + level infinityBits) / 2 := rfl
  rw [level_infinityBits] at hnext hhalf
  rw [hgap, hpow] at hnext
  generalize (2 : ℚ) ^ 1024 = top, (2 : ℚ) ^ 970 = unit at *
  linarith

section Nearer

variable {a b : ℚ} {even : Prop}

theorem abs_sub_upper_lt (hab : a < b) : |q - b| < |q - a| ↔ (a + b) / 2 < q := by
  rw [← sq_lt_sq]
  constructor <;> intro h <;> nlinarith

theorem abs_sub_lower_lt (hab : a < b) : |q - a| < |q - b| ↔ q < (a + b) / 2 := by
  rw [← sq_lt_sq]
  constructor <;> intro h <;> nlinarith

theorem abs_sub_eq_abs_sub (hab : a < b) : |q - a| = |q - b| ↔ q = (a + b) / 2 := by
  rw [eq_iff_le_not_lt, eq_iff_le_not_lt, ← not_lt, ← not_lt, abs_sub_lower_lt hab,
    abs_sub_upper_lt hab]

/-- Nearer to the upper of two numbers, or halfway, is above their middle, or on it. -/
theorem nearer_upper_iff (hab : a < b) :
    (|q - b| < |q - a| ∨ |q - b| = |q - a| ∧ even) ↔ (a + b) / 2 < q ∨ (a + b) / 2 = q ∧ even := by
  rw [abs_sub_upper_lt hab, eq_comm, abs_sub_eq_abs_sub hab, eq_comm]

/-- Nearer to the lower of two numbers, or halfway, is below their middle, or on it. -/
theorem nearer_lower_iff (hab : a < b) :
    (|q - a| < |q - b| ∨ |q - a| = |q - b| ∧ even) ↔ q < (a + b) / 2 ∨ q = (a + b) / 2 ∧ even := by
  rw [abs_sub_lower_lt hab, abs_sub_eq_abs_sub hab]

end Nearer

/-- Compared with its two neighbours alone, a positive double is the nearest on `Rounds`. -/
theorem RoundsTo.rounds (h : RoundsTo q x) (hne : x.rank ≠ 0) (hpos : x.isNegative = false) :
    Rounds x.rank q := by
  have hval : x.value = level x.rank := value_of_not_negative hpos
  have hrank : x.rank < infinityBits := isFinite_iff.mp h.finite
  obtain ⟨k, hk⟩ := Nat.exists_eq_succ_of_ne_zero hne
  refine ⟨?_, ?_⟩
  · obtain ⟨hfin, hk'⟩ := finite_of_rank (n := k) (by omega)
    have hlt : level k < x.value := by rw [hval, hk]; exact level_lt_succ k
    have hnear := h.nearest _ hfin (by rw [hk']; exact hlt.ne)
    rw [hk', nearer_upper_iff hlt, significand_mod_two, hval] at hnear
    rwa [hk, Nat.succ_sub_one, halfway, ← Nat.succ_eq_add_one, ← hk]
  · by_cases hlast : x.rank + 1 < infinityBits
    · obtain ⟨hfin, hnext⟩ := finite_of_rank hlast
      have hlt : x.value < level (x.rank + 1) := by rw [hval]; exact level_lt_succ _
      have hnear := h.nearest _ hfin (by rw [hnext]; exact hlt.ne')
      rwa [hnext, nearer_lower_iff hlt, significand_mod_two, hval] at hnear
    · -- the largest double has infinity for its upper neighbour
      have hmax : x.rank = infinityBits - 1 := by omega
      rw [hmax, halfway_largest]
      exact Or.inl ((le_abs_self q).trans_lt h.bounded)

/-- What is nearer to a positive double than to its two neighbours is nearer to it than to all. -/
theorem Rounds.roundsTo (h : Rounds x.rank q) (hfin : x.isFinite = true) (hne : x.rank ≠ 0)
    (hpos : x.isNegative = false) : RoundsTo q x := by
  have hval : x.value = level x.rank := value_of_not_negative hpos
  have hrank : x.rank < infinityBits := isFinite_iff.mp hfin
  obtain ⟨k, hk⟩ := Nat.exists_eq_succ_of_ne_zero hne
  refine ⟨hfin, ?_, ?_⟩
  · rw [abs_of_pos h.pos, ← halfway_largest]
    rcases h.upper with hlt | ⟨heq, heven⟩
    · exact hlt.trans_le (halfway_strictMono.monotone (by omega))
    · -- the largest rank is odd
      have hodd : (infinityBits - 1) % 2 = 1 := by decide
      rw [heq]
      exact halfway_strictMono (by omega)
  · intro y _ hy
    rw [significand_mod_two, hval]
    rw [hval, hk] at hy
    rcases value_le_or_ge hy with hbelow | habove
    · have hlt : y.value < level x.rank := by rw [hk]; exact hbelow.trans_lt (level_lt_succ k)
      rw [nearer_upper_iff hlt]
      refine le_trans_lt_or_tie ?_ h.lower
      rw [hk, Nat.succ_sub_one, halfway]
      linarith
    · have hlt : level x.rank < y.value := by rw [hk]; exact (level_lt_succ (k + 1)).trans_le habove
      rw [nearer_lower_iff hlt]
      refine lt_or_tie_trans_le h.upper ?_
      rw [hk, halfway]
      linarith

/-! ## Negative numbers -/

theorem rank_neg (x : Double) : x.neg.rank = x.rank := by
  unfold rank neg
  have hsign : (0x8000000000000000 : UInt64).toNat % 2 ^ 63 = 0 := by decide
  rw [UInt64.toNat_xor, show twoTo 63 = 2 ^ 63 from rfl, Nat.xor_mod_two_pow, hsign, Nat.xor_zero]

theorem isNegative_eq_testBit (x : Double) : x.isNegative = x.bits.toNat.testBit 63 := by
  have hlt : x.bits.toNat < 2 ^ 64 := x.bits.toNat_lt
  unfold isNegative
  rw [Nat.testBit_eq_decide_div_mod_eq, show twoTo 63 = 2 ^ 63 from rfl]
  exact decide_eq_decide.mpr (by omega)

theorem isNegative_neg (x : Double) : x.neg.isNegative = !x.isNegative := by
  rw [isNegative_eq_testBit, isNegative_eq_testBit]
  unfold neg
  rw [UInt64.toNat_xor, Nat.testBit_xor]
  have hbit : (0x8000000000000000 : UInt64).toNat.testBit 63 = true := by decide
  rw [hbit, Bool.xor_true]

theorem neg_twice (x : Double) : x.neg.neg = x :=
  ext_rank (by rw [isNegative_neg, isNegative_neg, Bool.not_not]) (by rw [rank_neg, rank_neg])

theorem value_neg (x : Double) : x.neg.value = -x.value := by
  unfold value
  rw [isNegative_neg, magnitude_eq, magnitude_eq, rank_neg]
  cases x.isNegative <;> simp

theorem isFinite_neg (x : Double) : x.neg.isFinite = x.isFinite := by
  rw [Bool.eq_iff_iff, isFinite_iff, isFinite_iff, rank_neg]

theorem RoundsTo.neg (h : RoundsTo q x) : RoundsTo (-q) x.neg := by
  have hflip : ∀ v : ℚ, |-q - v| = |q - -v| := fun v => by rw [← abs_neg]; congr 1; ring
  refine ⟨by rw [isFinite_neg]; exact h.finite, by rw [abs_neg]; exact h.bounded, ?_⟩
  intro y hy hne
  rw [value_neg] at hne ⊢
  have hnear := h.nearest y.neg (by rwa [isFinite_neg]) (by
    rw [value_neg]
    exact fun heq => hne (neg_eq_iff_eq_neg.mp heq))
  rw [value_neg] at hnear
  rwa [significand_mod_two, rank_neg, ← significand_mod_two, hflip, hflip, neg_neg]

/-- The number seen from the side of `x`: turned around if `x` is negative. -/
def along (x : Double) (q : ℚ) : ℚ := if x.isNegative then -q else q

/-- The numbers that round to a nonzero double. -/
theorem roundsTo_iff (hfin : x.isFinite = true) (hne : x.isZero = false) :
    RoundsTo q x ↔ Rounds x.rank (x.along q) := by
  have hrank := rank_ne_zero hne
  unfold along
  cases hsign : x.isNegative with
  | false => exact ⟨fun h => h.rounds hrank hsign, fun h => h.roundsTo hfin hrank hsign⟩
  | true =>
    have hsign' : x.neg.isNegative = false := by rw [isNegative_neg, hsign]; rfl
    have hneg : RoundsTo q x ↔ RoundsTo (-q) x.neg :=
      ⟨RoundsTo.neg, fun h => by simpa [neg_twice] using h.neg⟩
    rw [hneg, ← rank_neg x]
    rw [← rank_neg x] at hrank
    rw [← isFinite_neg] at hfin
    exact ⟨fun h => h.rounds hrank hsign', fun h => h.roundsTo hfin hrank hsign'⟩

/-- A number rounds to one double only, apart from the two zeros. -/
theorem RoundsTo.unique (hx : RoundsTo q x) (hy : RoundsTo q y) (hxne : x.isZero = false)
    (hyne : y.isZero = false) : x = y := by
  have hrx := (roundsTo_iff hx.finite hxne).mp hx
  have hry := (roundsTo_iff hy.finite hyne).mp hy
  have hpx := hrx.pos
  have hpy := hry.pos
  have hsign : x.isNegative = y.isNegative := by
    unfold along at hpx hpy
    cases hnx : x.isNegative <;> cases hny : y.isNegative <;> simp [hnx, hny] at hpx hpy ⊢ <;>
      linarith
  have halong : x.along q = y.along q := by unfold along; rw [hsign]
  rw [halong] at hrx
  exact ext_rank hsign (hrx.rank_unique hry)

/-- Zero rounds to no other number. -/
theorem RoundsTo.ne_zero (h : RoundsTo q x) (hne : x.isZero = false) : q ≠ 0 := by
  have hpos := ((roundsTo_iff h.finite hne).mp h).pos
  rintro rfl
  unfold along at hpos
  split_ifs at hpos <;> simp at hpos

end Double

end StyleCompiler
