import Mathlib.Algebra.Order.Field.Power
import Mathlib.Tactic.FieldSimp
import Mathlib.Tactic.Linarith
import Mathlib.Tactic.Positivity
import Mathlib.Tactic.Ring
import TypeTrace.Decimal.Binary64

/-!
# Exact values of doubles

A finite double denotes a rational number, given by its fields as in the standard: the
fraction counts in units of `2 ^ -52`, a leading one stands before it unless the number is
subnormal, and the exponent is biased by 1023. In units of `2 ^ -1074` every value is an
integer, and in these units different fields have different values.

Main results:

* `magnitude_eq_units`: the value of a double in units of the smallest one;
* `units_lt_units`: the units increase with the bits below the sign;
* `sameValue_iff`: doubles are equal exactly if they denote the same number;
* `toInt?_eq_some_iff`: the integer that is read off a double is its value.
-/

namespace TypeTrace

/-- What a double denotes unless it is a NaN. -/
inductive Number where
  | finite (q : ℚ)
  | infinite (negative : Bool)
  deriving DecidableEq

namespace Binary64

/-! ## Values -/

/-- The absolute value of a finite double, subnormal or normal. -/
def magnitude (x : Binary64) : ℚ :=
  if x.exponentField = 0 then 2 ^ (-1022 : ℤ) * (x.fractionField / 2 ^ 52)
  else 2 ^ ((x.exponentField : ℤ) - 1023) * (1 + x.fractionField / 2 ^ 52)

/-- The value of a finite double. -/
def value (x : Binary64) : ℚ := if x.isNegative then -x.magnitude else x.magnitude

/-- The number that a double denotes; a NaN denotes none. -/
def number? (x : Binary64) : Option Number :=
  if x.isNaN then none
  else if x.isFinite then some (.finite x.value)
  else some (.infinite x.isNegative)

/-- The significand has a leading one unless the number is subnormal. -/
theorem significand_eq (x : Binary64) :
    x.significand = if x.exponentField = 0 then x.fractionField else 2 ^ 52 + x.fractionField :=
  rfl

/-- The absolute value from the significand and the scale, which subnormal and normal numbers
share. -/
theorem magnitude_eq_scale (x : Binary64) : x.magnitude = x.significand * 2 ^ x.scale := by
  rw [magnitude, significand_eq, scale]
  by_cases h : x.exponentField = 0
  · have hscale : (((max 0 1 : ℕ) : ℤ) - 1075) = -1022 - (52 : ℕ) := by norm_num
    rw [if_pos h, if_pos h, h, hscale, zpow_sub₀ two_ne_zero, zpow_natCast]
    ring
  · have hscale : (((max x.exponentField 1 : ℕ) : ℤ) - 1075) =
        (x.exponentField - 1023 : ℤ) - (52 : ℕ) := by omega
    rw [if_neg h, if_neg h, hscale, zpow_sub₀ two_ne_zero _ (52 : ℕ), zpow_natCast]
    push_cast
    field_simp
    norm_num

/-- An absolute value is not negative. -/
theorem magnitude_nonneg (x : Binary64) : 0 ≤ x.magnitude := by
  rw [magnitude_eq_scale]
  positivity

/-! ## Units -/

/-- The absolute value of a finite double in units of the smallest positive one. -/
def units (x : Binary64) : ℕ := x.significand * 2 ^ (max x.exponentField 1 - 1)

/-- The absolute value from the units, for subnormal and normal numbers alike. -/
theorem magnitude_eq_units (x : Binary64) : x.magnitude = x.units / 2 ^ 1074 := by
  have hscale : x.scale = ((max x.exponentField 1 - 1 : ℕ) : ℤ) - (1074 : ℕ) := by
    unfold scale
    omega
  rw [magnitude_eq_scale, hscale, zpow_sub₀ two_ne_zero, zpow_natCast, zpow_natCast, units,
    Nat.cast_mul, Nat.cast_pow, Nat.cast_two, mul_div_assoc]

/-- Absolute values are equal exactly if the units are. -/
theorem magnitude_inj {x y : Binary64} : x.magnitude = y.magnitude ↔ x.units = y.units := by
  rw [magnitude_eq_units, magnitude_eq_units, div_left_inj' (by positivity)]
  exact Nat.cast_inj

/-- The absolute value is zero exactly if the units are. -/
theorem magnitude_eq_zero_iff {x : Binary64} : x.magnitude = 0 ↔ x.units = 0 := by
  rw [magnitude_eq_units, div_eq_zero_iff, or_iff_left (by positivity)]
  exact Nat.cast_eq_zero

/-! ## Fields -/

/-- The fraction has 52 bits. -/
theorem fractionField_lt (x : Binary64) : x.fractionField < 2 ^ 52 :=
  Nat.mod_lt _ (Nat.two_pow_pos 52)

/-- The bits of a double below its sign. -/
def unsignedBits (x : Binary64) : ℕ := x.exponentField * 2 ^ 52 + x.fractionField

/-- The word of a double is its sign bit and the bits below it. -/
theorem bits_eq (x : Binary64) :
    x.bits.toNat = (if x.isNegative then 2 ^ 63 else 0) + x.unsignedBits := by
  have hlt := x.bits.toNat_lt
  have hfraction : x.fractionField = x.bits.toNat % 2 ^ 52 := rfl
  have hexponent : x.exponentField = x.bits.toNat / 2 ^ 52 % 2 ^ 11 := rfl
  have hsign : x.isNegative = decide (2 ^ 63 ≤ x.bits.toNat) := rfl
  rw [unsignedBits, hfraction, hexponent, hsign]
  simp only [decide_eq_true_eq]
  split <;> omega

/-- A double is known from its sign and the bits below it. -/
theorem eq_of_unsignedBits_eq {x y : Binary64} (hsign : x.isNegative = y.isNegative)
    (h : x.unsignedBits = y.unsignedBits) : x = y := by
  have hbits : x.bits.toNat = y.bits.toNat := by
    rw [bits_eq, bits_eq, hsign, h]
  exact congrArg mk (UInt64.toNat_inj.1 hbits)

/-- The units of a double lie below those of the next exponent. -/
theorem units_lt_pow (x : Binary64) : x.units < 2 ^ 52 * 2 ^ x.exponentField := by
  have hfraction := x.fractionField_lt
  rw [units, significand_eq]
  by_cases h : x.exponentField = 0
  · rw [if_pos h, h]
    simpa using hfraction
  · obtain ⟨e, he⟩ := Nat.exists_eq_succ_of_ne_zero h
    have hmax : max x.exponentField 1 - 1 = e := by omega
    have hpow : 2 ^ x.exponentField = 2 * 2 ^ e := by rw [he, Nat.pow_succ']
    rw [if_neg h, hmax, hpow, ← Nat.mul_assoc]
    exact Nat.mul_lt_mul_of_pos_right (by omega) (Nat.two_pow_pos e)

/-- The units of a normal double are at least those of a one with its exponent. -/
theorem pow_le_units {x : Binary64} (h : x.exponentField ≠ 0) :
    2 ^ 52 * 2 ^ (x.exponentField - 1) ≤ x.units := by
  have hmax : max x.exponentField 1 - 1 = x.exponentField - 1 := by omega
  rw [units, significand_eq, if_neg h, hmax]
  exact Nat.mul_le_mul_right _ (Nat.le_add_right _ _)

/-- Units increase with the bits below the sign. -/
theorem units_lt_units {x y : Binary64} (h : x.unsignedBits < y.unsignedBits) :
    x.units < y.units := by
  have hx := x.fractionField_lt
  have hy := y.fractionField_lt
  unfold unsignedBits at h
  by_cases heq : x.exponentField = y.exponentField
  · rw [units, units, significand_eq, significand_eq, heq]
    refine Nat.mul_lt_mul_of_pos_right ?_ (Nat.two_pow_pos _)
    split <;> omega
  · have hexponent : x.exponentField ≤ y.exponentField - 1 := by omega
    calc x.units < 2 ^ 52 * 2 ^ x.exponentField := x.units_lt_pow
      _ ≤ 2 ^ 52 * 2 ^ (y.exponentField - 1) :=
          Nat.mul_le_mul_left _ (Nat.pow_le_pow_right (by decide) hexponent)
      _ ≤ y.units := pow_le_units (by omega)

/-- Units are equal exactly if the bits below the sign are. -/
theorem units_inj {x y : Binary64} : x.units = y.units ↔ x.unsignedBits = y.unsignedBits := by
  constructor
  · intro h
    by_contra hne
    rcases Nat.lt_or_gt_of_ne hne with hlt | hlt
    · exact absurd h (units_lt_units hlt).ne
    · exact absurd h (units_lt_units hlt).ne'
  · intro h
    have := x.fractionField_lt
    have := y.fractionField_lt
    unfold unsignedBits at h
    have hexponent : x.exponentField = y.exponentField := by omega
    have hfraction : x.fractionField = y.fractionField := by omega
    rw [units, units, significand_eq, significand_eq, hexponent, hfraction]

/-- The smallest units are those of the two zeros. -/
theorem units_eq_zero_iff {x : Binary64} : x.units = 0 ↔ x.isZero = true := by
  rw [isZero, Bool.and_eq_true, beq_iff_eq, beq_iff_eq, units, Nat.mul_eq_zero,
    or_iff_left (Nat.two_pow_pos _).ne', significand_eq]
  split <;> omega

/-! ## Equality -/

/-- The two zeros have the absolute value zero. -/
theorem magnitude_eq_zero_of_isZero {x : Binary64} (h : x.isZero = true) : x.magnitude = 0 :=
  magnitude_eq_zero_iff.2 (units_eq_zero_iff.2 h)

/-- Both zeros denote zero, whatever their sign. -/
theorem value_eq_zero_of_isZero {x : Binary64} (h : x.isZero = true) : x.value = 0 := by
  rw [value, magnitude_eq_zero_of_isZero h, neg_zero, ite_self]

/-- Values of one sign are equal only for the same double, values of different signs only for
the two zeros. -/
theorem value_inj {x y : Binary64} :
    x.value = y.value ↔ x = y ∨ x.isZero = true ∧ y.isZero = true := by
  constructor
  · intro h
    by_cases hsign : x.isNegative = y.isNegative
    · have hmagnitude : x.magnitude = y.magnitude := by
        unfold value at h
        rw [hsign] at h
        split at h
        · exact neg_injective h
        · exact h
      exact .inl (eq_of_unsignedBits_eq hsign (units_inj.1 (magnitude_inj.1 hmagnitude)))
    · have hx := x.magnitude_nonneg
      have hy := y.magnitude_nonneg
      have hzero : x.magnitude = 0 ∧ y.magnitude = 0 := by
        unfold value at h
        cases hxs : x.isNegative <;> cases hys : y.isNegative <;> simp [hxs, hys] at h hsign <;>
          constructor <;> linarith
      exact .inr ⟨units_eq_zero_iff.1 (magnitude_eq_zero_iff.1 hzero.1),
        units_eq_zero_iff.1 (magnitude_eq_zero_iff.1 hzero.2)⟩
  · rintro (rfl | ⟨hx, hy⟩)
    · rfl
    · rw [value_eq_zero_of_isZero hx, value_eq_zero_of_isZero hy]

/-- A double is finite unless its exponent has all bits set. -/
theorem isFinite_iff {x : Binary64} : x.isFinite = true ↔ x.exponentField ≠ 2047 := bne_iff_ne

/-- A NaN has all bits of the exponent set and some of the fraction. -/
theorem isNaN_iff {x : Binary64} :
    x.isNaN = true ↔ x.exponentField = 2047 ∧ x.fractionField ≠ 0 := by
  rw [isNaN, Bool.and_eq_true, beq_iff_eq, bne_iff_ne]

/-- Only a NaN denotes no number. -/
theorem number?_eq_none_iff {x : Binary64} : x.number? = none ↔ x.isNaN = true := by
  unfold number?
  split <;> rename_i hnan
  · simp [hnan]
  · split <;> simp [hnan]

/-- The finite doubles denote their values. -/
theorem number?_eq_finite_iff {x : Binary64} {q : ℚ} :
    x.number? = some (.finite q) ↔ x.isFinite = true ∧ x.value = q := by
  unfold number?
  split <;> rename_i hnan
  · have hinfinite : ¬x.isFinite = true := fun h => isFinite_iff.1 h (isNaN_iff.1 hnan).1
    simp [hinfinite]
  · split <;> rename_i hfinite <;> simp [hfinite]

/-- An infinity has all bits of the exponent set and none of the fraction. -/
theorem number?_eq_infinite_iff {x : Binary64} {negative : Bool} :
    x.number? = some (.infinite negative) ↔
      (x.exponentField = 2047 ∧ x.fractionField = 0) ∧ x.isNegative = negative := by
  unfold number?
  split <;> rename_i hnan
  · have hfraction := (isNaN_iff.1 hnan).2
    simp [hfraction]
  · split <;> rename_i hfinite
    · have hexponent := isFinite_iff.1 hfinite
      simp [hexponent]
    · rw [isFinite_iff, not_not] at hfinite
      rw [isNaN_iff, not_and_not_right] at hnan
      simp [hfinite, hnan hfinite]

/-- Both zeros denote the same number. -/
theorem number?_of_isZero {x : Binary64} (h : x.isZero = true) : x.number? = some (.finite 0) := by
  refine number?_eq_finite_iff.2 ⟨isFinite_iff.2 ?_, value_eq_zero_of_isZero h⟩
  rw [isZero, Bool.and_eq_true, beq_iff_eq] at h
  omega

/-- Two doubles are equal exactly if they denote the same number. -/
theorem sameValue_iff {x y : Binary64} :
    x.sameValue y = true ↔ ∃ n, x.number? = some n ∧ y.number? = some n := by
  have hsame : x.sameValue y = true ↔ x.number? ≠ none ∧ y.number? ≠ none ∧
      (x = y ∨ x.isZero = true ∧ y.isZero = true) := by
    simp [sameValue, number?_eq_none_iff, and_assoc]
  rw [hsame]
  constructor
  · rintro ⟨hx, -, rfl | ⟨hzero, hzero'⟩⟩
    · rcases Option.ne_none_iff_exists'.1 hx with ⟨n, hn⟩
      exact ⟨n, hn, hn⟩
    · exact ⟨_, number?_of_isZero hzero, number?_of_isZero hzero'⟩
  · rintro ⟨n, hx, hy⟩
    refine ⟨by simp [hx], by simp [hy], ?_⟩
    cases n with
    | finite q =>
        exact value_inj.1 ((number?_eq_finite_iff.1 hx).2.trans (number?_eq_finite_iff.1 hy).2.symm)
    | infinite negative =>
        rcases number?_eq_infinite_iff.1 hx with ⟨⟨hexponent, hfraction⟩, hsign⟩
        rcases number?_eq_infinite_iff.1 hy with ⟨⟨hexponent', hfraction'⟩, hsign'⟩
        refine .inl (eq_of_unsignedBits_eq (hsign.trans hsign'.symm) ?_)
        rw [unsignedBits, unsignedBits, hexponent, hfraction, hexponent', hfraction']

/-! ## Integers -/

/-- The natural number that is read off a double is its absolute value, if that is one. -/
theorem magnitude?_eq_some_iff {x : Binary64} {n : ℕ} :
    x.magnitude? = some n ↔ x.magnitude = n := by
  rw [magnitude_eq_scale]
  unfold magnitude?
  cases x.scale with
  | ofNat k =>
      have hpow : Nat.pow 2 k = 2 ^ k := rfl
      rw [Option.some.injEq, hpow, Int.ofNat_eq_natCast, zpow_natCast]
      norm_cast
  | negSucc k =>
      have hpow : Nat.pow 2 (k + 1) = 2 ^ (k + 1) := rfl
      have hpos : 0 < 2 ^ (k + 1) := Nat.two_pow_pos _
      have hdivides : x.significand * (2 : ℚ) ^ Int.negSucc k = n ↔
          x.significand = n * 2 ^ (k + 1) := by
        rw [zpow_negSucc, mul_inv_eq_iff_eq_mul₀ (by positivity)]
        norm_cast
      dsimp only
      rw [hpow, hdivides, Option.ite_none_right_eq_some, Option.some.injEq]
      constructor
      · rintro ⟨hmod, rfl⟩
        exact (Nat.div_mul_cancel (Nat.dvd_of_mod_eq_zero hmod)).symm
      · intro h
        rw [h]
        exact ⟨Nat.mul_mod_left _ _, Nat.mul_div_cancel _ hpos⟩

/-- An absolute value that is an integer is a natural number. -/
theorem exists_magnitude_eq_natCast {x : Binary64} {j : ℤ} (h : x.magnitude = j) :
    ∃ n : ℕ, x.magnitude = n ∧ j = n := by
  have hnonneg := x.magnitude_nonneg
  rw [h, Int.cast_nonneg_iff] at hnonneg
  rcases Int.eq_ofNat_of_zero_le hnonneg with ⟨n, rfl⟩
  exact ⟨n, by rw [h, Int.cast_natCast], rfl⟩

/-- The integer that is read off a double from its sign and its absolute value. -/
theorem toInt?_eq (x : Binary64) :
    x.toInt? = if x.isFinite then
      x.magnitude?.map fun n : ℕ => if x.isNegative then -(n : ℤ) else n else none := by
  unfold toInt?
  cases x.magnitude? <;> rfl

/-- The integer that is read off a double is its value, if that is an integer. -/
theorem toInt?_eq_some_iff {x : Binary64} {i : ℤ} :
    x.toInt? = some i ↔ x.isFinite = true ∧ x.value = i := by
  rw [toInt?_eq, Option.ite_none_right_eq_some]
  refine and_congr_right fun _ => ?_
  rw [Option.map_eq_some_iff]
  simp only [magnitude?_eq_some_iff, value]
  constructor
  · rintro ⟨n, hn, rfl⟩
    rw [hn]
    split <;> push_cast <;> rfl
  · intro h
    by_cases hsign : x.isNegative = true
    · rw [if_pos hsign, neg_eq_iff_eq_neg, ← Int.cast_neg] at h
      rcases exists_magnitude_eq_natCast h with ⟨n, hn, hi⟩
      exact ⟨n, hn, by rw [if_pos hsign, ← hi, neg_neg]⟩
    · rw [if_neg hsign] at h
      rcases exists_magnitude_eq_natCast h with ⟨n, hn, hi⟩
      exact ⟨n, hn, by rw [if_neg hsign, ← hi]⟩

end Binary64

end TypeTrace
