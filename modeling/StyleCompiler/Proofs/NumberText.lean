import StyleCompiler.Proofs.Numeral

/-!
# Number text reads back

The text of a finite number other than zero is a decimal numeral that rounds to the number, with the
fewest significant digits that any such numeral has. It has an exponent exactly outside the range
from a millionth, as a double, to `10 ^ 21`. So no two numbers have the same text, apart from the
two zeros.

* `millionth`: the double nearest to `10 ^ (-6)`. It is a little smaller, and yet it is the first
  number that is written without an exponent.
* `isPositional_shortest_iff`: the range of the positional form, read off the double.
* `exists_numeral_text`: the numeral that a text is.
* `number_text_reads_back`: all of it.
-/

namespace StyleCompiler

namespace Double

variable {x y : Double}

/-- The double nearest to `10 ^ (-6)`. -/
def millionth : Double := ⟨0x3eb0c6f7a0b5ed8d⟩

/-- The double that is `10 ^ 21`. -/
def sextillion : Double := ⟨0x444b1ae4d6e2ef50⟩

/-! ## Where the positional form begins and ends -/

theorem rank_millionth : millionth.rank = 4517329193108106637 := rfl

/-- As a double, a millionth is a little less than `10 ^ (-6)`. -/
theorem level_millionth_lt : level millionth.rank < 10 ^ (-6 : ℤ) := by
  rw [rank_millionth]
  norm_num [level, significandAt, gap, twoTo]

theorem rounds_millionth : Rounds millionth.rank (10 ^ (-6 : ℤ)) := by
  rw [rank_millionth]
  refine within_of_lt ?_ ?_ <;> norm_num [halfway, level, significandAt, gap, twoTo]

theorem rank_sextillion : sextillion.rank = 4921056587992461136 := rfl

theorem level_sextillion : level sextillion.rank = 10 ^ 21 := by
  rw [rank_sextillion]
  norm_num [level, significandAt, gap, twoTo]

theorem rounds_sextillion : Rounds sextillion.rank (10 ^ (21 : ℤ)) := by
  have hself := Rounds.self (n := sextillion.rank) (by decide)
  rw [level_sextillion] at hself
  exact hself

/-- The range of the positional form. -/
theorem isPositional_shortest_iff (hne : x.rank ≠ 0) :
    x.shortest.isPositional = true ↔ millionth.value ≤ |x.value| ∧ |x.value| < 10 ^ 21 := by
  have hlow := le_leading_shortest_iff hne rounds_millionth
  have hhigh := le_leading_shortest_iff hne rounds_sextillion
  have hvalue : millionth.value = level millionth.rank := value_of_not_negative (by decide)
  unfold Decimal.isPositional
  rw [Bool.and_eq_true, decide_eq_true_eq, decide_eq_true_eq, ← not_le, hlow, hhigh, not_le,
    abs_value, hvalue, level_strictMono.le_iff_le, ← level_sextillion, level_strictMono.lt_iff_lt]

/-! ## The numeral of a text -/

theorem toList_text (hfin : x.isFinite = true) (hne : x.isZero = false) :
    x.text.toList = Numeral.signChars x.isNegative ++ x.shortest.text := by
  have hnan : x.isNaN = false := by
    have hbiased : (x.biased == 2047) = false := by simpa [isFinite] using hfin
    rw [isNaN, hbiased, Bool.false_and]
  unfold text
  rw [hne, hnan, hfin]
  cases x.isNegative <;> simp [Numeral.signChars]

/-- On the side of `x`, the number of a numeral with the sign of `x` is its magnitude. -/
theorem along_value {n : Numeral} (h : n.negative = x.isNegative) :
    x.along n.value = n.magnitude := by
  unfold along Numeral.value
  rw [h]
  split_ifs
  · rw [neg_neg]
  · rfl

/-- A numeral that rounds to a double has its sign. -/
theorem along_value_of_roundsTo {n : Numeral} (hne : x.isZero = false) (h : RoundsTo n.value x) :
    x.along n.value = n.magnitude := by
  have hpos := ((roundsTo_iff h.finite hne).mp h).pos
  have hmagnitude := n.magnitude_nonneg
  apply along_value
  unfold along Numeral.value at hpos
  cases hn : n.negative <;> cases hx : x.isNegative <;> simp [hn, hx] at hpos ⊢ <;> linarith

/-- The numeral that the text of a double is. -/
theorem exists_numeral_text (hfin : x.isFinite = true) (hne : x.isZero = false) :
    ∃ n : Numeral, x.text.toList = n.chars ∧ RoundsTo n.value x ∧
      (n.exponent = none ↔ millionth.value ≤ |x.value| ∧ |x.value| < 10 ^ 21) ∧
      ∀ m : Numeral, RoundsTo m.value x → n.significantDigits ≤ m.significantDigits := by
  have hrank := rank_ne_zero hne
  obtain ⟨n, hn⟩ := x.shortest.exists_numeral x.isNegative
  have hrounds : Rounds x.rank n.magnitude := by
    rw [hn.magnitude_eq]
    exact shortest_rounds hrank
  refine ⟨n, ?_, ?_, ?_, ?_⟩
  · rw [toList_text hfin hne, hn.chars_eq]
  · rw [roundsTo_iff hfin hne, along_value hn.negative_eq]
    exact hrounds
  · rw [← isPositional_shortest_iff hrank, hn.exponent_eq]
    cases x.shortest.isPositional <;> simp
  · intro m hm
    have hm' := (roundsTo_iff hfin hne).mp hm
    rw [along_value_of_roundsTo hne hm] at hm'
    -- the two decimals made of the significant digits, the one of `n` being the shortest itself
    obtain ⟨d, hd, hvalue, hlength⟩ := Numeral.exists_decimal hrounds.pos.ne'
    obtain ⟨d', -, hvalue', hlength'⟩ := Numeral.exists_decimal hm'.pos.ne'
    have hshortest : d = x.shortest :=
      Decimal.eq_of_value_eq hd (shortest_not_ten_dvd hrank) (hvalue.trans hn.magnitude_eq)
    rw [← hlength, ← hlength', hshortest]
    exact length_digits_shortest_le hrank (by rwa [hvalue'])

/-- The text of both zeros, as a numeral. -/
def zeroNumeral : Numeral where
  negative := false
  whole := ['0']
  fraction := []
  exponent := none
  whole_ne_nil := List.cons_ne_nil _ _
  isDigit_of_mem c hc := by
    rw [List.append_nil, List.mem_singleton] at hc
    rw [hc]
    rfl

theorem value_zeroNumeral : zeroNumeral.value = 0 := by
  have hdigits : Nat.ofDigitChars 10 zeroNumeral.digits 0 = 0 := rfl
  have hmagnitude : zeroNumeral.magnitude = 0 := by
    rw [Numeral.magnitude, hdigits, Nat.cast_zero, zero_mul]
  rw [Numeral.value, hmagnitude, neg_zero, ite_self]

/-- Only the zeros have the text of zero. -/
theorem text_ne_zero (hfin : x.isFinite = true) (hne : x.isZero = false) : x.text ≠ "0" := by
  intro htext
  obtain ⟨n, hchars, hrounds, -⟩ := exists_numeral_text hfin hne
  have hzero : n = zeroNumeral := by
    apply Numeral.chars_injective
    rw [← hchars, htext]
    rfl
  apply hrounds.ne_zero hne
  rw [hzero, value_zeroNumeral]

theorem text_eq_zero (hzero : x.isZero = true) : x.text = "0" := by
  unfold text
  rw [hzero]
  rfl

/-- Texts tell all other doubles apart. -/
theorem eq_of_text_eq (hx : x.isFinite = true) (hy : y.isFinite = true) (hxne : x.isZero = false)
    (hyne : y.isZero = false) (h : x.text = y.text) : x = y := by
  obtain ⟨n, hn, hnx, -⟩ := exists_numeral_text hx hxne
  obtain ⟨m, hm, hmy, -⟩ := exists_numeral_text hy hyne
  have hnm : n = m := Numeral.chars_injective (by rw [← hn, ← hm, h])
  rw [← hnm] at hmy
  exact hnx.unique hmy hxne hyne

end Double

open Double

/-- Every finite number other than zero is written as a numeral that rounds to it, without an
exponent exactly from the double next to `10 ^ (-6)` up to `10 ^ 21`, and with as few significant
digits as such a numeral can have. Two finite numbers of one text are the same or both zero. -/
theorem number_text_reads_back :
    RoundsTo (10 ^ (-6 : ℤ)) millionth ∧
    (∀ x : Double, x.isFinite = true → x.isZero = false →
      ∃ n : Numeral, x.text.toList = n.chars ∧ RoundsTo n.value x ∧
        (n.exponent = none ↔ millionth.value ≤ |x.value| ∧ |x.value| < 10 ^ 21) ∧
        ∀ m : Numeral, RoundsTo m.value x → n.significantDigits ≤ m.significantDigits) ∧
    (∀ x y : Double, x.isFinite = true → y.isFinite = true → x.text = y.text →
      x = y ∨ x.isZero = true ∧ y.isZero = true) := by
  refine ⟨?_, fun x hfin hne => exists_numeral_text hfin hne, ?_⟩
  · exact (roundsTo_iff (by decide) (by decide)).mpr rounds_millionth
  · intro x y hx hy h
    cases hxz : x.isZero with
    | true =>
      cases hyz : y.isZero with
      | true => exact Or.inr ⟨rfl, rfl⟩
      | false => exact absurd (h ▸ text_eq_zero hxz) (text_ne_zero hy hyz)
    | false =>
      cases hyz : y.isZero with
      | true => exact absurd (h.trans (text_eq_zero hyz)) (text_ne_zero hx hxz)
      | false => exact Or.inl (eq_of_text_eq hx hy hxz hyz h)

/-- The smallest positive double, and the two zeros, which share their text. -/
theorem number_text_reads_back_smallest :
    (⟨1⟩ : Double).isFinite = true ∧ (⟨1⟩ : Double).isZero = false ∧
    (⟨1⟩ : Double).text = "5e-324" ∧
    (∃ n : Numeral, (⟨1⟩ : Double).text.toList = n.chars ∧ RoundsTo n.value ⟨1⟩ ∧
      (n.exponent = none ↔
        millionth.value ≤ |(⟨1⟩ : Double).value| ∧ |(⟨1⟩ : Double).value| < 10 ^ 21) ∧
      ∀ m : Numeral, RoundsTo m.value ⟨1⟩ → n.significantDigits ≤ m.significantDigits) ∧
    zero.isFinite = true ∧ zero.neg.isFinite = true ∧ zero.text = zero.neg.text ∧
    (zero = zero.neg ∨ zero.isZero = true ∧ zero.neg.isZero = true) :=
  ⟨by decide, by decide, by decide +kernel, number_text_reads_back.2.1 ⟨1⟩ (by decide) (by decide),
    by decide, by decide, by decide +kernel,
    number_text_reads_back.2.2 zero zero.neg (by decide) (by decide) (by decide +kernel)⟩

/-- The double nearest to `10 ^ (-6)` is below it, and it is still written without an exponent. -/
theorem millionth_is_positional :
    millionth.isFinite = true ∧ millionth.isZero = false ∧ |millionth.value| < 10 ^ (-6 : ℤ) ∧
    millionth.text = "0.000001" ∧
    ¬ ∃ n : Numeral, millionth.text.toList = n.chars ∧ n.exponent ≠ none := by
  have hlt : |millionth.value| < 10 ^ (-6 : ℤ) := by
    rw [abs_value]
    exact level_millionth_lt
  refine ⟨by decide, by decide, hlt, by decide +kernel, ?_⟩
  rintro ⟨n, hchars, hexponent⟩
  obtain ⟨m, hm, -, hrange, -⟩ := exists_numeral_text (x := millionth) (by decide) (by decide)
  have hnm : n = m := Numeral.chars_injective (hchars.symm.trans hm)
  have hnone : m.exponent = none :=
    hrange.mpr ⟨le_abs_self _, hlt.trans (by norm_num)⟩
  exact hexponent (hnm ▸ hnone)

end StyleCompiler
