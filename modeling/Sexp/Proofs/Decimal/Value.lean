import Mathlib.Data.Rat.Lemmas
import Mathlib.Tactic.NormNum
import Mathlib.Tactic.Ring
import Sexp.Decimal.Basic
import Sexp.Decimal.Layout
import Sexp.Proofs.Binary64.Rounding

/-!
# The values of decimals

A decimal denotes a rational number, and its nearest magnitude depends on that number
alone.  The number is the one that its digits denote with the point in its place, and
so the positional layout, read as a numeral, denotes the same number again.
-/

namespace Sexp

-- The powers of natural numbers in the definitions are the core ones.
attribute [local instance (2000)] instPowNat

/-- Zeros at the end of an integer move into the exponent of ten. -/
theorem mul_pow_mul_zpow (digits shift : ℕ) (exponent : ℤ) :
    ((digits * 10 ^ shift : ℕ) : ℚ) * (10 : ℚ) ^ exponent =
      digits * (10 : ℚ) ^ (exponent + shift) := by
  rw [zpow_add₀ (by norm_num), zpow_natCast]
  push_cast
  ring

namespace Text

theorem takeWhile_eq_replicate_zero (text : Text) :
    text.takeWhile (· == '0') = List.replicate (text.takeWhile (· == '0')).length '0' := by
  rw [List.eq_replicate_iff]
  exact ⟨rfl, fun c hc => eq_of_beq (List.all_eq_true.1 List.all_takeWhile c hc)⟩

/-- A text without the zeros at its end, and then these zeros. -/
theorem exists_eq_append_zeros (text : Text) :
    ∃ zeros, text = (text.reverse.dropWhile (· == '0')).reverse ++ List.replicate zeros '0' := by
  refine ⟨(text.reverse.takeWhile (· == '0')).length, ?_⟩
  calc
    text = text.reverse.reverse := (List.reverse_reverse text).symm
    _ = (text.reverse.takeWhile (· == '0') ++ text.reverse.dropWhile (· == '0')).reverse := by
      rw [List.takeWhile_append_dropWhile]
    _ = _ := by rw [List.reverse_append, takeWhile_eq_replicate_zero, List.reverse_replicate,
      List.length_replicate]

/-- A text without the zeros at its end does not end in a zero. -/
theorem getLast?_dropWhile_reverse_ne (text : Text) :
    (text.reverse.dropWhile (· == '0')).reverse.getLast? ≠ some '0' := by
  have hhead := List.head?_dropWhile_not (· == '0') text.reverse
  intro hlast
  rw [List.getLast?_reverse] at hlast
  rw [hlast] at hhead
  exact absurd hhead (by decide)

end Text

namespace Decimal

/-- The rational number that a decimal denotes. -/
def value (d : Decimal) : ℚ := d.coefficient * (10 : ℚ) ^ d.exponent

theorem value_eq_div (d : Decimal) :
    d.value = ((d.coefficient * 10 ^ d.exponent.toNat : ℕ) : ℚ) /
      ((10 ^ (-d.exponent).toNat : ℕ) : ℚ) := by
  have hexponent : d.exponent = (d.exponent.toNat : ℤ) - ((-d.exponent).toNat : ℤ) := by omega
  rw [value, hexponent, zpow_sub₀ (by norm_num), zpow_natCast, zpow_natCast]
  simp only [Nat.cast_mul, Nat.cast_pow, Nat.cast_ofNat]
  rw [← hexponent, mul_div_assoc]

/-- Decimals of one value have the same nearest magnitude. -/
theorem toMagnitude?_eq_of_value_eq {d d' : Decimal} (hvalue : d.value = d'.value) :
    d.toMagnitude? = d'.toMagnitude? := by
  have hden : 0 < 10 ^ (-d.exponent).toNat := Nat.pow_pos (by decide)
  have hden' : 0 < 10 ^ (-d'.exponent).toNat := Nat.pow_pos (by decide)
  refine Magnitude.round?_eq_of_cross hden hden' ?_
  rw [value_eq_div, value_eq_div,
    div_eq_div_iff (by exact_mod_cast hden.ne') (by exact_mod_cast hden'.ne')] at hvalue
  exact_mod_cast hvalue

/-- The digits of a decimal are those of its coefficient up to zeros at the end. -/
theorem toDigits_eq_digits_append (d : Decimal) :
    ∃ zeros, Nat.toDigits 10 d.coefficient = d.digits ++ List.replicate zeros '0' :=
  Text.exists_eq_append_zeros (Nat.toDigits 10 d.coefficient)

/-- The value of a decimal from its digits and the place of its point. -/
theorem value_eq_digits (d : Decimal) :
    d.value = (Nat.ofDigitChars 10 d.digits 0 : ℚ) *
      (10 : ℚ) ^ (d.point - (d.digits.length : ℤ)) := by
  obtain ⟨zeros, hdigits⟩ := toDigits_eq_digits_append d
  have hcoefficient : d.coefficient = Nat.ofDigitChars 10 d.digits 0 * 10 ^ zeros := by
    rw [Nat.mul_comm, ← Nat.ofDigitChars_replicate_zero, ← Nat.ofDigitChars_append, ← hdigits,
      Nat.ofDigitChars_ten_toDigits]
  have hpoint : d.exponent + zeros = d.point - (d.digits.length : ℤ) := by
    simp only [point, hdigits, List.length_append, List.length_replicate]
    omega
  rw [value, hcoefficient, mul_pow_mul_zpow, hpoint]

theorem ofDigitChars_orZero_append (whole fraction : Text) :
    Nat.ofDigitChars 10 (orZero whole ++ fraction) 0 =
      Nat.ofDigitChars 10 (whole ++ fraction) 0 := by
  cases whole with
  | nil => rfl
  | cons c whole => rfl

end Decimal

namespace Numeral

theorem value_toDecimal (numeral : Numeral) :
    numeral.toDecimal.value =
      (Nat.ofDigitChars 10 (numeral.whole ++ numeral.fraction) 0 : ℚ) *
        (10 : ℚ) ^ (-(numeral.fraction.length : ℤ)) := rfl

theorem value_toDecimal_orZero_whole (negative : Bool) (whole fraction : Text) :
    (Numeral.mk negative (Decimal.orZero whole) fraction).toDecimal.value =
      (Numeral.mk negative whole fraction).toDecimal.value := by
  rw [value_toDecimal, value_toDecimal, Decimal.ofDigitChars_orZero_append]

theorem value_toDecimal_orZero_fraction (negative : Bool) (whole fraction : Text) :
    (Numeral.mk negative whole (Decimal.orZero fraction)).toDecimal.value =
      (Numeral.mk negative whole fraction).toDecimal.value := by
  cases fraction with
  | nil =>
      have hzero : Nat.ofDigitChars 10 (whole ++ ['0']) 0 =
          10 * Nat.ofDigitChars 10 (whole ++ []) 0 := by
        rw [List.append_nil, Nat.ofDigitChars_append]
        simp [Nat.ofDigitChars_cons]
      simp only [value_toDecimal, Decimal.orZero, List.isEmpty_nil, if_true, hzero]
      norm_num
      ring
  | cons c fraction => rfl

end Numeral

namespace Decimal

/-- Around the point of the positional layout stand the digits of the decimal, after
zeros that begin a small fraction or before zeros that fill a large whole number. -/
theorem whole_append_fraction (d : Decimal) :
    (d.digits.rightpad d.point.toNat '0').take d.point.toNat ++
        (List.replicate (-d.point).toNat '0' ++ d.digits.drop d.point.toNat) =
      List.replicate (-d.point).toNat '0' ++
        (d.digits ++ List.replicate (d.point.toNat - d.digits.length) '0') := by
  rcases le_total d.point 0 with hpoint | hpoint
  · have hwhole : d.point.toNat = 0 := by omega
    simp [hwhole]
  · have hzeros : (-d.point).toNat = 0 := by omega
    simp only [hzeros, List.replicate_zero, List.nil_append, List.rightpad]
    rcases le_total d.point.toNat d.digits.length with hshort | hlong
    · simp [Nat.sub_eq_zero_of_le hshort]
    · have hlength : (d.digits ++
          List.replicate (d.point.toNat - d.digits.length) '0').length = d.point.toNat := by
        simp only [List.length_append, List.length_replicate]
        omega
      rw [List.take_of_length_le hlength.le, List.drop_eq_nil_of_le hlong, List.append_nil]

/-- The positional layout, read as a numeral, denotes the value of the decimal. -/
theorem value_positional (negative : Bool) (d : Decimal) :
    (Numeral.mk negative d.wholeDigits d.fractionDigits).toDecimal.value = d.value := by
  rw [wholeDigits, fractionDigits, Numeral.value_toDecimal_orZero_whole,
    Numeral.value_toDecimal_orZero_fraction, Numeral.value_toDecimal, value_eq_digits]
  have hdigits : Nat.ofDigitChars 10 (List.replicate (-d.point).toNat '0' ++
        (d.digits ++ List.replicate (d.point.toNat - d.digits.length) '0')) 0 =
      Nat.ofDigitChars 10 d.digits 0 * 10 ^ (d.point.toNat - d.digits.length) := by
    rw [Nat.ofDigitChars_append, Nat.ofDigitChars_replicate_zero, Nat.mul_zero,
      Nat.ofDigitChars_append, Nat.ofDigitChars_replicate_zero, Nat.mul_comm]
  have hlength : (List.replicate (-d.point).toNat '0' ++ d.digits.drop d.point.toNat).length =
      (-d.point).toNat + (d.digits.length - d.point.toNat) := by
    simp
  have hexponent : -(((-d.point).toNat + (d.digits.length - d.point.toNat) : ℕ) : ℤ) +
      ((d.point.toNat - d.digits.length : ℕ) : ℤ) = d.point - (d.digits.length : ℤ) := by
    omega
  rw [whole_append_fraction, hdigits, hlength, mul_pow_mul_zpow, hexponent]

end Decimal

end Sexp
