import Mathlib.Data.List.DropRight
import Mathlib.Data.List.TakeWhile
import StyleCompiler.Proofs.Shortest

/-!
# Decimal numerals

Decimal numerals as texts: a sign, digits before the point and after it, and perhaps an exponent.
Their characters determine them, each stands for one rational number, and it has as many significant
digits as the shortest way to write that number has.

* `Numeral`, `Numeral.chars`, `Numeral.value`, `Numeral.significantDigits`.
* `Numeral.chars_injective`: numerals with the same characters are the same.
* `Numeral.exists_decimal`: the number of a numeral as a decimal whose digits are the significant
  ones.
* `Decimal.exists_numeral`: the text of a decimal is a numeral for it.
-/

namespace StyleCompiler

/-- A decimal numeral. -/
@[ext]
structure Numeral where
  negative : Bool
  whole : List Char
  fraction : List Char
  exponent : Option ℤ
  whole_ne_nil : whole ≠ []
  isDigit_of_mem : ∀ c ∈ whole ++ fraction, c.isDigit = true

namespace Numeral

/-- A minus sign, or nothing. -/
def signChars (negative : Bool) : List Char := if negative then ['-'] else []

/-- The point with the digits after it, or nothing. -/
def pointChars (fraction : List Char) : List Char :=
  if fraction = [] then [] else '.' :: fraction

/-- The exponent with its sign, or nothing. -/
def exponentChars : Option ℤ → List Char
  | none => []
  | some k => 'e' :: (if 0 ≤ k then '+' else '-') :: Nat.toDigits 10 k.natAbs

/-- The characters of a numeral. -/
def chars (n : Numeral) : List Char :=
  signChars n.negative ++ (n.whole ++ (pointChars n.fraction ++ exponentChars n.exponent))

/-- All digits before the exponent. -/
def digits (n : Numeral) : List Char := n.whole ++ n.fraction

/-- The number without its sign. -/
def magnitude (n : Numeral) : ℚ :=
  Nat.ofDigitChars 10 n.digits 0 * 10 ^ (n.exponent.getD 0 - n.fraction.length)

/-- The number that a numeral stands for. -/
def value (n : Numeral) : ℚ := if n.negative then -n.magnitude else n.magnitude

/-- Is the digit a zero? -/
def isZeroChar (c : Char) : Bool := c == '0'

/-- The digits without the zeros on both sides. -/
def trimZeros (digits : List Char) : List Char :=
  (digits.dropWhile isZeroChar).rdropWhile isZeroChar

/-- How many digits there are from the first to the last that is not zero. -/
def significantDigits (n : Numeral) : ℕ := (trimZeros n.digits).length

/-! ## Characters determine the numeral -/

/-- The list does not go on with a digit. -/
def NoDigitHead (r : List Char) : Prop := ∀ c ∈ r.head?, c.isDigit = false

theorem append_inj_of_digits {a b r s : List Char} (ha : ∀ c ∈ a, c.isDigit = true)
    (hb : ∀ c ∈ b, c.isDigit = true) (hr : NoDigitHead r) (hs : NoDigitHead s)
    (h : a ++ r = b ++ s) : a = b ∧ r = s := by
  have hspan : ∀ {l t : List Char}, (∀ c ∈ l, c.isDigit = true) → NoDigitHead t →
      (l ++ t).takeWhile Char.isDigit = l := by
    intro l t hl ht
    rw [List.takeWhile_append_of_pos hl]
    cases t with
    | nil => rw [List.takeWhile_nil, List.append_nil]
    | cons c t => rw [List.takeWhile_cons_of_neg (by simp [ht c rfl]), List.append_nil]
  have hab : a = b := by rw [← hspan ha hr, h, hspan hb hs]
  subst hab
  exact ⟨rfl, List.append_cancel_left h⟩

theorem noDigitHead_exponentChars (k : Option ℤ) : NoDigitHead (exponentChars k) := by
  intro c hc
  cases k with
  | none => cases hc
  | some k =>
    obtain rfl : 'e' = c := Option.some.inj hc
    rfl

theorem noDigitHead_pointChars (fraction : List Char) (k : Option ℤ) :
    NoDigitHead (pointChars fraction ++ exponentChars k) := by
  unfold pointChars
  split_ifs
  · exact noDigitHead_exponentChars k
  · intro c hc
    obtain rfl : '.' = c := Option.some.inj hc
    rfl

theorem exponentChars_injective : Function.Injective exponentChars := by
  intro j k h
  cases j with
  | none => cases k with
    | none => rfl
    | some k => cases h
  | some j => cases k with
    | none => cases h
    | some k =>
      have htail := (List.cons.inj h).2
      obtain ⟨hsign, hdigits⟩ := List.cons.inj htail
      have habs : j.natAbs = k.natAbs := by
        rw [← Nat.ofDigitChars_ten_toDigits (n := j.natAbs), hdigits, Nat.ofDigitChars_ten_toDigits]
      have hiff : 0 ≤ j ↔ 0 ≤ k := by
        by_cases hj : 0 ≤ j <;> by_cases hk : 0 ≤ k <;> simp [hj, hk] at hsign ⊢
      congr 1
      omega

theorem exponentChars_ne_point (k : Option ℤ) (r : List Char) : exponentChars k ≠ '.' :: r := by
  cases k with
  | none => exact List.cons_ne_nil _ _ ∘ Eq.symm
  | some k =>
    intro h
    exact absurd (List.cons.inj h).1 (by decide)

theorem isDigit_of_mem_whole (n : Numeral) : ∀ c ∈ n.whole, c.isDigit = true := fun c hc =>
  n.isDigit_of_mem c (List.mem_append_left _ hc)

theorem isDigit_of_mem_fraction (n : Numeral) : ∀ c ∈ n.fraction, c.isDigit = true := fun c hc =>
  n.isDigit_of_mem c (List.mem_append_right _ hc)

theorem head?_chars (n : Numeral) : n.chars.head? = some '-' ↔ n.negative = true := by
  obtain ⟨c, ds, hwhole⟩ := List.exists_cons_of_ne_nil n.whole_ne_nil
  have hmem : c ∈ n.whole := by rw [hwhole]; exact List.mem_cons_self
  have hdigit : c.isDigit = true := n.isDigit_of_mem_whole c hmem
  cases hsign : n.negative with
  | true => simp [chars, signChars, hsign]
  | false =>
    simp only [chars, signChars, hsign, hwhole, Bool.false_eq_true, if_false, List.nil_append,
      List.cons_append, List.head?_cons, Option.some.injEq, iff_false]
    rintro rfl
    exact absurd hdigit (by decide)

theorem pointChars_append_inj {f g : List Char} {j k : Option ℤ} (hf : ∀ c ∈ f, c.isDigit = true)
    (hg : ∀ c ∈ g, c.isDigit = true)
    (h : pointChars f ++ exponentChars j = pointChars g ++ exponentChars k) : f = g ∧ j = k := by
  unfold pointChars at h
  split_ifs at h with hfnil hgnil hgnil
  · exact ⟨hfnil.trans hgnil.symm, exponentChars_injective h⟩
  · exact absurd h (exponentChars_ne_point j _)
  · exact absurd h.symm (exponentChars_ne_point k _)
  · obtain ⟨hdigits, hexponent⟩ := append_inj_of_digits hf hg (noDigitHead_exponentChars j)
      (noDigitHead_exponentChars k) (List.cons.inj h).2
    exact ⟨hdigits, exponentChars_injective hexponent⟩

theorem chars_injective : Function.Injective chars := by
  intro n m h
  have hsign : n.negative = m.negative := by
    rw [Bool.eq_iff_iff, ← head?_chars, ← head?_chars, h]
  unfold chars at h
  rw [hsign] at h
  obtain ⟨hwhole, htail⟩ := append_inj_of_digits n.isDigit_of_mem_whole m.isDigit_of_mem_whole
    (noDigitHead_pointChars _ _) (noDigitHead_pointChars _ _) (List.append_cancel_left h)
  obtain ⟨hfraction, hexponent⟩ :=
    pointChars_append_inj n.isDigit_of_mem_fraction m.isDigit_of_mem_fraction htail
  exact Numeral.ext hsign hwhole hfraction hexponent

/-! ## Significant digits -/

section Digits

variable {ds : List Char}

/-- Zeros in front change nothing, zeros behind multiply by powers of ten. -/
theorem ofDigitChars_zeros (j k : ℕ) (ds : List Char) :
    Nat.ofDigitChars 10 (List.replicate j '0' ++ ds ++ List.replicate k '0') 0 =
      10 ^ k * Nat.ofDigitChars 10 ds 0 := by
  rw [Nat.ofDigitChars_append, Nat.ofDigitChars_append, Nat.ofDigitChars_replicate_zero,
    Nat.ofDigitChars_replicate_zero, Nat.mul_zero]

theorem ofDigitChars_cons_eq (c : Char) (ds : List Char) :
    Nat.ofDigitChars 10 (c :: ds) 0 =
      10 ^ ds.length * (c.toNat - '0'.toNat) + Nat.ofDigitChars 10 ds 0 := by
  rw [Nat.ofDigitChars_cons, Nat.mul_zero, Nat.zero_add, Nat.ofDigitChars_eq_ofDigitChars_zero]

theorem ofDigitChars_lt (hds : ∀ c ∈ ds, c.isDigit = true) :
    Nat.ofDigitChars 10 ds 0 < 10 ^ ds.length := by
  induction ds with
  | nil => decide
  | cons c ds ih =>
    have hdigit := Char.isDigit_iff_toNat.mp (hds c List.mem_cons_self)
    have hrest := ih fun d hd => hds d (List.mem_cons_of_mem _ hd)
    have hnine : c.toNat - '0'.toNat ≤ 9 := Nat.sub_le_of_le_add hdigit.2
    rw [ofDigitChars_cons_eq, List.length_cons, pow_succ]
    calc 10 ^ ds.length * (c.toNat - '0'.toNat) + Nat.ofDigitChars 10 ds 0
        < 10 ^ ds.length * 9 + 10 ^ ds.length :=
          Nat.add_lt_add_of_le_of_lt (Nat.mul_le_mul_left _ hnine) hrest
      _ = 10 ^ ds.length * 10 := by ring

theorem le_ofDigitChars {c : Char} (hdigit : c.isDigit = true) (hc : c ≠ '0') :
    10 ^ ds.length ≤ Nat.ofDigitChars 10 (c :: ds) 0 := by
  have hrange := Char.isDigit_iff_toNat.mp hdigit
  have hne : c.toNat ≠ '0'.toNat := fun h => hc (Char.toNat_inj.mp h)
  have hpos : 1 ≤ c.toNat - '0'.toNat := by omega
  rw [ofDigitChars_cons_eq]
  exact (Nat.le_mul_of_pos_right _ hpos).trans (Nat.le_add_right _ _)

/-- Digits without a zero in front are as many as those of their number. -/
theorem length_toDigits_ofDigitChars {c : Char} (hds : ∀ d ∈ c :: ds, d.isDigit = true)
    (hc : c ≠ '0') :
    (Nat.toDigits 10 (Nat.ofDigitChars 10 (c :: ds) 0)).length = (c :: ds).length := by
  have hlower : 10 ^ ds.length ≤ Nat.ofDigitChars 10 (c :: ds) 0 :=
    le_ofDigitChars (hds c List.mem_cons_self) hc
  have hpos := (Nat.pow_pos (n := ds.length) (Nat.succ_pos 9)).trans_le hlower
  exact (Decimal.length_toDigits_eq_iff hpos).mpr ⟨hlower, ofDigitChars_lt hds⟩

/-- Digits without a zero behind are those of a number that is no multiple of ten. -/
theorem not_ten_dvd_ofDigitChars {c : Char} (hdigit : c.isDigit = true) (hc : c ≠ '0') :
    ¬ 10 ∣ Nat.ofDigitChars 10 (ds ++ [c]) 0 := by
  have hrange := Char.isDigit_iff_toNat.mp hdigit
  have hne : c.toNat ≠ '0'.toNat := fun h => hc (Char.toNat_inj.mp h)
  have hzero : '0'.toNat = 48 := rfl
  have hnine : '9'.toNat = 57 := rfl
  rw [Nat.ofDigitChars_append, Nat.ofDigitChars_cons, Nat.ofDigitChars_nil]
  omega

theorem isZeroChar_iff {c : Char} : isZeroChar c = true ↔ c = '0' := beq_iff_eq

theorem exists_eq_replicate (h : ∀ c ∈ ds, isZeroChar c = true) : ∃ k, ds = List.replicate k '0' :=
  ⟨ds.length, List.eq_replicate_of_mem fun c hc => isZeroChar_iff.mp (h c hc)⟩

theorem exists_trimZeros (ds : List Char) :
    ∃ j k, ds = List.replicate j '0' ++ trimZeros ds ++ List.replicate k '0' := by
  obtain ⟨j, hj⟩ : ∃ j, ds.takeWhile isZeroChar = List.replicate j '0' :=
    exists_eq_replicate fun _ => List.mem_takeWhile_imp
  obtain ⟨k, hk⟩ : ∃ k, (ds.dropWhile isZeroChar).rtakeWhile isZeroChar = List.replicate k '0' :=
    exists_eq_replicate fun _ => List.mem_rtakeWhile_imp
  refine ⟨j, k, ?_⟩
  rw [← hj, ← hk, trimZeros, List.append_assoc, List.rdropWhile_append_rtakeWhile,
    List.takeWhile_append_dropWhile]

theorem head_trimZeros {c : Char} {t : List Char} (h : trimZeros ds = c :: t) : c ≠ '0' := by
  obtain ⟨r, hr⟩ := List.rdropWhile_prefix isZeroChar (ds.dropWhile isZeroChar)
  have hhead := List.head?_dropWhile_not isZeroChar ds
  rw [← hr, ← trimZeros, h] at hhead
  exact ne_of_beq_false hhead

theorem last_trimZeros {c : Char} {t : List Char} (h : trimZeros ds = t ++ [c]) : c ≠ '0' := by
  have hne : trimZeros ds ≠ [] := by rw [h]; exact List.concat_ne_nil c t
  have hlast : ¬ isZeroChar ((trimZeros ds).getLast hne) = true :=
    List.rdropWhile_last_not isZeroChar (ds.dropWhile isZeroChar) hne
  have hc : (trimZeros ds).getLast hne = c := by simp [h]
  rw [hc] at hlast
  exact mt isZeroChar_iff.mpr hlast

/-- What the digits stand for, with only the significant ones kept. -/
theorem exists_trimmed (hds : ∀ c ∈ ds, c.isDigit = true) (hne : Nat.ofDigitChars 10 ds 0 ≠ 0) :
    ∃ c k, ¬ 10 ∣ c ∧ Nat.ofDigitChars 10 ds 0 = 10 ^ k * c ∧
      (Nat.toDigits 10 c).length = (trimZeros ds).length := by
  obtain ⟨j, k, htrim⟩ := exists_trimZeros ds
  have hvalue : Nat.ofDigitChars 10 ds 0 = 10 ^ k * Nat.ofDigitChars 10 (trimZeros ds) 0 := by
    conv_lhs => rw [htrim]
    exact ofDigitChars_zeros j k _
  have hdigits : ∀ c ∈ trimZeros ds, c.isDigit = true := by
    intro c hc
    apply hds
    rw [htrim]
    exact List.mem_append_left _ (List.mem_append_right _ hc)
  refine ⟨Nat.ofDigitChars 10 (trimZeros ds) 0, k, ?_, hvalue, ?_⟩
  · rcases List.eq_nil_or_concat (trimZeros ds) with hnil | ⟨t, c, hlast⟩
    · rw [hnil, Nat.ofDigitChars_nil, Nat.mul_zero] at hvalue
      exact absurd hvalue hne
    · rw [List.concat_eq_append] at hlast
      rw [hlast]
      refine not_ten_dvd_ofDigitChars (hdigits c ?_) (last_trimZeros hlast)
      rw [hlast]
      exact List.mem_concat_self
  · cases hhead : trimZeros ds with
    | nil =>
      rw [hhead, Nat.ofDigitChars_nil, Nat.mul_zero] at hvalue
      exact absurd hvalue hne
    | cons c t =>
      rw [hhead] at hdigits
      exact length_toDigits_ofDigitChars hdigits (head_trimZeros hhead)

end Digits

theorem magnitude_nonneg (n : Numeral) : 0 ≤ n.magnitude := by
  unfold magnitude
  positivity

/-- The number of a numeral as a decimal whose digits are the significant ones. -/
theorem exists_decimal {n : Numeral} (hne : n.magnitude ≠ 0) :
    ∃ d : Decimal, ¬ 10 ∣ d.coefficient ∧ d.value = n.magnitude ∧
      d.digits.length = n.significantDigits := by
  have hdigits : Nat.ofDigitChars 10 n.digits 0 ≠ 0 := by
    intro hzero
    apply hne
    rw [magnitude, hzero, Nat.cast_zero, zero_mul]
  obtain ⟨c, k, hc, hvalue, hlength⟩ := exists_trimmed n.isDigit_of_mem hdigits
  refine ⟨⟨c, n.exponent.getD 0 - n.fraction.length + k⟩, hc, ?_, hlength⟩
  unfold magnitude Decimal.value
  rw [digits, hvalue, zpow_add₀ (by norm_num), zpow_natCast, Nat.cast_mul, Nat.cast_pow,
    Nat.cast_ofNat]
  ring

end Numeral

/-! ## The text of a decimal -/

namespace Decimal

open Numeral

/-- The characters are a numeral of the given sign for the decimal, with an exponent or without. -/
structure IsNumeral (d : Decimal) (negative : Bool) (chars : List Char) (exponent : Option ℤ)
    (n : Numeral) : Prop where
  negative_eq : n.negative = negative
  exponent_eq : n.exponent = exponent
  chars_eq : n.chars = signChars negative ++ chars
  magnitude_eq : n.magnitude = d.value

theorem digits_ne_nil (d : Decimal) : d.digits ≠ [] := Nat.toDigits_ne_nil

/-- The digits of a decimal with zeros around them, cut anywhere by the point, are a numeral for it
when the exponent makes up for the cut. -/
theorem exists_of_layout (d : Decimal) (negative : Bool) (whole fraction : List Char)
    (exponent : Option ℤ) (j k : ℕ) (hne : whole ≠ [])
    (hlayout : whole ++ fraction = List.replicate j '0' ++ d.digits ++ List.replicate k '0')
    (hexponent : exponent.getD 0 - fraction.length = d.exponent - k) :
    ∃ n, d.IsNumeral negative (whole ++ (pointChars fraction ++ exponentChars exponent))
      exponent n := by
  have hdigit : ∀ c ∈ whole ++ fraction, c.isDigit = true := by
    intro c hc
    rw [hlayout, List.mem_append, List.mem_append] at hc
    rcases hc with (hzero | hdigits) | hzero
    · rw [List.eq_of_mem_replicate hzero]
      rfl
    · exact Nat.isDigit_of_mem_toDigits (by decide) (by decide) hdigits
    · rw [List.eq_of_mem_replicate hzero]
      rfl
  have hcoefficient : Nat.ofDigitChars 10 (whole ++ fraction) 0 = 10 ^ k * d.coefficient := by
    rw [hlayout, ofDigitChars_zeros, digits, Nat.ofDigitChars_ten_toDigits]
  refine ⟨⟨negative, whole, fraction, exponent, hne, hdigit⟩, rfl, rfl, rfl, ?_⟩
  unfold magnitude Numeral.digits value
  dsimp only
  rw [hcoefficient, hexponent, Nat.cast_mul, Nat.cast_pow, Nat.cast_ofNat, mul_right_comm,
    ← zpow_natCast, ← zpow_add₀ (by norm_num), add_sub_cancel, mul_comm]

theorem exists_positional (d : Decimal) (negative : Bool) :
    ∃ n, d.IsNumeral negative d.positional none n := by
  have hlen := d.length_digits_pos
  unfold positional
  by_cases hint : 0 ≤ d.exponent
  · rw [if_pos hint]
    have hne : d.digits ++ List.replicate d.exponent.toNat '0' ≠ [] :=
      List.append_ne_nil_of_left_ne_nil d.digits_ne_nil _
    have hnumeral := d.exists_of_layout negative
      (d.digits ++ List.replicate d.exponent.toNat '0') [] none 0 d.exponent.toNat hne (by simp)
      (by rw [Option.getD_none, List.length_nil]; omega)
    simpa [pointChars, exponentChars] using hnumeral
  · rw [if_neg hint]
    by_cases hinside : (-d.exponent).toNat < d.digits.length
    · -- the point stands among the digits
      rw [if_pos hinside]
      have hcut : d.digits.length - (-d.exponent).toNat < d.digits.length := by omega
      have hfraction : d.digits.drop (d.digits.length - (-d.exponent).toNat) ≠ [] :=
        List.ne_nil_of_length_pos (by rw [List.length_drop]; omega)
      have hnumeral := d.exists_of_layout negative
        (d.digits.take (d.digits.length - (-d.exponent).toNat))
        (d.digits.drop (d.digits.length - (-d.exponent).toNat)) none 0 0
        (List.ne_nil_of_length_pos (by rw [List.length_take]; omega))
        (by simp) (by rw [Option.getD_none, List.length_drop]; omega)
      simpa [pointChars, hfraction, exponentChars] using hnumeral
    · rw [if_neg hinside]
      have hnumeral := d.exists_of_layout negative ['0']
        (List.replicate ((-d.exponent).toNat - d.digits.length) '0' ++ d.digits) none
        ((-d.exponent).toNat - d.digits.length + 1) 0 (List.cons_ne_nil _ _)
        (by simp [List.replicate_succ])
        (by rw [Option.getD_none, List.length_append, List.length_replicate]; omega)
      simpa [pointChars, d.digits_ne_nil, exponentChars] using hnumeral

theorem exists_exponential (d : Decimal) (negative : Bool) :
    ∃ n, d.IsNumeral negative d.exponential (some d.leading) n := by
  obtain ⟨first, rest, hdigits⟩ := List.exists_cons_of_ne_nil d.digits_ne_nil
  have hlead : d.leading = rest.length + d.exponent := by
    unfold leading
    rw [hdigits, List.length_cons]
    push_cast
    ring
  have hnumeral := d.exists_of_layout negative [first] rest (some d.leading) 0 0
    (List.cons_ne_nil _ _) (by simp [hdigits]) (by simp [hlead])
  unfold exponential
  rw [hdigits]
  cases rest with
  | nil => simpa [pointChars, exponentChars] using hnumeral
  | cons second rest => simpa [pointChars, exponentChars] using hnumeral

/-- The text of a decimal is a numeral for it. -/
theorem exists_numeral (d : Decimal) (negative : Bool) :
    ∃ n, d.IsNumeral negative d.text (if d.isPositional then none else some d.leading) n := by
  unfold text
  split_ifs
  · exact d.exists_positional negative
  · exact d.exists_exponential negative

end Decimal

end StyleCompiler
