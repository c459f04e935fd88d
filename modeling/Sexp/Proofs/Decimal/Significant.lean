import Mathlib.Algebra.Order.Field.Power
import Mathlib.Algebra.Order.Field.Rat
import Mathlib.Tactic.Positivity
import Sexp.Proofs.Decimal.ReadBack

/-!
# Significant digits

The significant digits of a text of digits are those from the first to the last one that is
not zero.  How many there are depends only on the number that the text denotes, and not on
the place of the decimal point: a number has so many significant digits or fewer when it is
an integer below that power of ten, times a power of ten.
-/

namespace Sexp

-- The powers of natural numbers in the definitions are the core ones.
attribute [local instance (2000)] instPowNat

/-- A number of so many significant digits: an integer with no more digits than these, times a power
of ten. -/
def HasDigits (x : ℚ) (count : ℕ) : Prop :=
  ∃ (digits : ℕ) (exponent : ℤ), digits < 10 ^ count ∧ x = digits * (10 : ℚ) ^ exponent

theorem HasDigits.mono {x : ℚ} {count count' : ℕ} (hdigits : HasDigits x count)
    (hle : count ≤ count') : HasDigits x count' := by
  obtain ⟨digits, exponent, hlt, hx⟩ := hdigits
  exact ⟨digits, exponent, Nat.lt_of_lt_of_le hlt (Nat.pow_le_pow_right (by decide) hle), hx⟩

theorem HasDigits.eq_zero {x : ℚ} (hdigits : HasDigits x 0) : x = 0 := by
  obtain ⟨digits, exponent, hlt, rfl⟩ := hdigits
  rw [Nat.lt_one_iff.1 hlt, Nat.cast_zero, zero_mul]

theorem HasDigits.zero (count : ℕ) : HasDigits 0 count :=
  ⟨0, 0, Nat.pow_pos (by decide), by simp⟩

/-- A power of ten has one significant digit, so the integer past all that have so many digits is no
exception. -/
theorem hasDigits_of_le {digits count : ℕ} (hle : digits ≤ 10 ^ count) (hcount : 0 < count)
    (exponent : ℤ) : HasDigits (digits * (10 : ℚ) ^ exponent) count := by
  rcases Nat.lt_or_eq_of_le hle with hlt | rfl
  · exact ⟨digits, exponent, hlt, rfl⟩
  · refine ⟨1, exponent + count, Nat.one_lt_pow hcount.ne' (by decide), ?_⟩
    rw [← mul_pow_mul_zpow, Nat.one_mul]

/-- A number of so many digits that is not below a power of ten is an integer times the power of ten
of the last of these digits. -/
theorem HasDigits.exists_eq_mul {x : ℚ} {count : ℕ} (hdigits : HasDigits x count) {exponent : ℤ}
    (hle : (10 : ℚ) ^ exponent ≤ x) :
    ∃ coefficient : ℕ, x = coefficient * (10 : ℚ) ^ (exponent + 1 - count) := by
  obtain ⟨digits, last, hlt, rfl⟩ := hdigits
  have hpow : (10 : ℚ) ^ exponent < (10 : ℚ) ^ (count + last) := by
    refine lt_of_le_of_lt hle ?_
    rw [zpow_add₀ (by norm_num), zpow_natCast]
    exact mul_lt_mul_of_pos_right (by exact_mod_cast hlt) (by positivity)
  have hlast : exponent < count + last := (zpow_lt_zpow_iff_right₀ (by norm_num)).1 hpow
  obtain ⟨shift, hshift⟩ := Int.le.dest (show exponent + 1 - count ≤ last by omega)
  exact ⟨digits * 10 ^ shift, by rw [mul_pow_mul_zpow, hshift]⟩

theorem mul_zpow_eq_mul_zpow_add_iff (number digits shift : ℕ) (exponent : ℤ) :
    (number : ℚ) * (10 : ℚ) ^ exponent = digits * (10 : ℚ) ^ (exponent + shift) ↔
      number = digits * 10 ^ shift := by
  rw [← mul_pow_mul_zpow, mul_left_inj' (zpow_ne_zero _ (by norm_num)), Nat.cast_inj]

/-- An integer that is no multiple of ten is the smallest one that is a given number up to a power
of ten. -/
theorem le_of_mul_zpow_eq {number digits : ℕ} {exponent exponent' : ℤ} (hten : ¬10 ∣ number)
    (heq : (number : ℚ) * (10 : ℚ) ^ exponent = digits * (10 : ℚ) ^ exponent') :
    number ≤ digits := by
  rcases le_or_gt exponent' exponent with hle | hlt
  · obtain ⟨shift, rfl⟩ := Int.le.dest hle
    rw [(mul_zpow_eq_mul_zpow_add_iff digits number shift exponent').1 heq.symm]
    exact Nat.le_mul_of_pos_right _ (Nat.pow_pos (by decide))
  · obtain ⟨shift, rfl⟩ := Int.lt.dest hlt
    have hnumber := (mul_zpow_eq_mul_zpow_add_iff number digits (shift + 1) exponent).1 heq
    exact absurd ⟨digits * 10 ^ shift, by rw [hnumber]; ring⟩ hten

namespace Text

/-- The digits of a text from the first to the last one that is not zero. -/
def significant (digits : Text) : Text :=
  ((digits.dropWhile (· == '0')).reverse.dropWhile (· == '0')).reverse

/-- The significant digits of a text stand between zeros. -/
theorem exists_eq_zeros_append (text : Text) :
    ∃ before after,
      text = List.replicate before '0' ++ (text.significant ++ List.replicate after '0') := by
  obtain ⟨after, hafter⟩ := exists_eq_append_zeros (text.dropWhile (· == '0'))
  refine ⟨(text.takeWhile (· == '0')).length, after, ?_⟩
  rw [significant, ← hafter, ← takeWhile_eq_replicate_zero, List.takeWhile_append_dropWhile]

theorem ne_zero_of_significant_eq_cons {text rest : Text} {digit : Char}
    (hcons : text.significant = digit :: rest) : digit ≠ '0' := by
  obtain ⟨after, hafter⟩ := exists_eq_append_zeros (text.dropWhile (· == '0'))
  rw [← significant, hcons] at hafter
  have hhead := List.head?_dropWhile_not (· == '0') text
  rw [hafter] at hhead
  simpa using hhead

theorem ne_zero_of_significant_eq_append {text beginning : Text} {digit : Char}
    (happend : text.significant = beginning ++ [digit]) : digit ≠ '0' := by
  have hlast := getLast?_dropWhile_reverse_ne (text.dropWhile (· == '0'))
  rw [← significant, happend, List.getLast?_concat] at hlast
  exact fun hzero => hlast (congrArg some hzero)

/-- Digits denote a number that has no more of them. -/
theorem ofDigitChars_lt {digits : Text} (hdigits : digits.IsDigits) (init : ℕ) :
    Nat.ofDigitChars 10 digits init < 10 ^ digits.length * (init + 1) := by
  induction digits generalizing init with
  | nil => simp
  | cons digit rest ih =>
      obtain ⟨hlow, hhigh⟩ : 48 ≤ digit.toNat ∧ digit.toNat ≤ 57 :=
        Char.isDigit_iff_toNat.1 (hdigits digit List.mem_cons_self)
      have hrest := ih (fun c hc => hdigits c (List.mem_cons_of_mem _ hc))
        (10 * init + (digit.toNat - '0'.toNat))
      rw [Nat.ofDigitChars_cons, List.length_cons, Nat.pow_succ, Nat.mul_assoc]
      refine Nat.lt_of_lt_of_le hrest (Nat.mul_le_mul_left _ ?_)
      have hzero : '0'.toNat = 48 := rfl
      omega

/-- The number that a digit stands for, unless it is zero. -/
theorem toNat_sub_of_isDigit {digit : Char} (hdigit : digit.isDigit = true) (hne : digit ≠ '0') :
    1 ≤ digit.toNat - '0'.toNat ∧ digit.toNat - '0'.toNat ≤ 9 := by
  obtain ⟨hlow, hhigh⟩ : 48 ≤ digit.toNat ∧ digit.toNat ≤ 57 := Char.isDigit_iff_toNat.1 hdigit
  have hzero : '0'.toNat = 48 := rfl
  have hcode : digit.toNat ≠ 48 := fun hcode => hne (Char.toNat_inj.1 (hcode.trans hzero.symm))
  omega

theorem le_ofDigitChars_significant {text : Text} (hdigits : text.significant.IsDigits)
    (hne : text.significant ≠ []) :
    10 ^ (text.significant.length - 1) ≤ Nat.ofDigitChars 10 text.significant 0 := by
  obtain ⟨digit, rest, hcons⟩ := List.exists_cons_of_ne_nil hne
  have hfirst := ne_zero_of_significant_eq_cons hcons
  rw [hcons] at hdigits ⊢
  have hdigit := (toNat_sub_of_isDigit (hdigits digit List.mem_cons_self) hfirst).1
  rw [Nat.ofDigitChars_cons, Nat.ofDigitChars_eq_ofDigitChars_zero, List.length_cons,
    Nat.add_sub_cancel, Nat.mul_zero, Nat.zero_add]
  exact Nat.le_add_right_of_le (Nat.le_mul_of_pos_right _ hdigit)

theorem not_ten_dvd_ofDigitChars_significant {text : Text} (hdigits : text.significant.IsDigits)
    (hne : text.significant ≠ []) : ¬10 ∣ Nat.ofDigitChars 10 text.significant 0 := by
  obtain ⟨beginning, digit, happend⟩ : ∃ beginning digit, text.significant = beginning ++ [digit] :=
    ⟨_, _, (List.dropLast_append_getLast hne).symm⟩
  have hlast := ne_zero_of_significant_eq_append happend
  rw [happend] at hdigits ⊢
  have hdigit := toNat_sub_of_isDigit (hdigits digit (by simp)) hlast
  rw [Nat.ofDigitChars_append, Nat.ofDigitChars_cons, Nat.ofDigitChars_nil]
  omega

theorem isDigits_significant {text : Text} (hdigits : text.IsDigits) :
    text.significant.IsDigits := by
  obtain ⟨before, after, htext⟩ := exists_eq_zeros_append text
  rw [htext] at hdigits
  exact (isDigits_append.1 (isDigits_append.1 hdigits).2).1

/-- The zeros around the significant digits only change the power of ten. -/
theorem exists_ofDigitChars_eq (text : Text) :
    ∃ zeros, Nat.ofDigitChars 10 text 0 = Nat.ofDigitChars 10 text.significant 0 * 10 ^ zeros := by
  obtain ⟨before, after, htext⟩ := exists_eq_zeros_append text
  refine ⟨after, ?_⟩
  conv_lhs => rw [htext]
  rw [Nat.ofDigitChars_append, Nat.ofDigitChars_replicate_zero, Nat.mul_zero,
    Nat.ofDigitChars_append, Nat.ofDigitChars_replicate_zero, Nat.mul_comm]

/-- Digits denote, with a power of ten, a number of as many significant digits as they are. -/
theorem hasDigits_iff {text : Text} (hdigits : text.IsDigits) (exponent : ℤ) (count : ℕ) :
    HasDigits (Nat.ofDigitChars 10 text 0 * (10 : ℚ) ^ exponent) count ↔
      text.significant.length ≤ count := by
  obtain ⟨zeros, htext⟩ := exists_ofDigitChars_eq text
  have hsignificant := isDigits_significant hdigits
  rw [htext, mul_pow_mul_zpow]
  constructor
  · rintro ⟨digits, exponent', hlt, hx⟩
    by_cases hne : text.significant = []
    · simp [hne]
    · have hlow := le_ofDigitChars_significant hsignificant hne
      have hten := not_ten_dvd_ofDigitChars_significant hsignificant hne
      have hfew : 10 ^ (text.significant.length - 1) < 10 ^ count :=
        Nat.lt_of_le_of_lt (Nat.le_trans hlow (le_of_mul_zpow_eq hten hx)) hlt
      have hlength := (Nat.pow_lt_pow_iff_right (by decide)).1 hfew
      omega
  · intro hle
    have hlt := ofDigitChars_lt hsignificant 0
    rw [Nat.zero_add, Nat.mul_one] at hlt
    exact ⟨_, _, Nat.lt_of_lt_of_le hlt (Nat.pow_le_pow_right (by decide) hle), rfl⟩

end Text

end Sexp
