import Mathlib.Tactic.FieldSimp
import Sexp.Proofs.Binary64.Nearest
import Sexp.Proofs.Decimal.Numeral
import Sexp.Proofs.Decimal.Value

/-!
# The spelling of numerals

A text spells at most one numeral, and the text is a numeral exactly when it does so.  A
numeral denotes a rational number, and the floating point number of a numeral is nearest to
it, with the sign of the numeral.  A numeral is too large for a floating point number from
the middle between the largest one and `2 ^ 1024` on.
-/

namespace Sexp

-- The powers of natural numbers in the definitions are the core ones.
attribute [local instance (2000)] instPowNat

namespace Numeral

/-- The texts of a sign: a minus sign, or else a plus sign or nothing. -/
def signTexts (negative : Bool) : List Text := if negative then [['-']] else [[], ['+']]

/-- A text spells a numeral when it is a sign, the digits before the point, and then a point and
the digits after it, or no point if there are none.  There is a digit on one of the two sides. -/
def IsSpelled (numeral : Numeral) (text : Text) : Prop :=
  ∃ sign ∈ signTexts numeral.negative, ∃ unsigned, text = sign ++ unsigned ∧
    numeral.whole.IsDigits ∧ numeral.fraction.IsDigits ∧
      (numeral.whole ≠ [] ∨ numeral.fraction ≠ []) ∧
      (unsigned = numeral.whole ∧ numeral.fraction = [] ∨
        unsigned = numeral.whole ++ '.' :: numeral.fraction)

/-- The rational number that a numeral is the text of. -/
def value (numeral : Numeral) : ℚ :=
  signed numeral.negative (Nat.ofDigitChars 10 numeral.whole 0 +
    Nat.ofDigitChars 10 numeral.fraction 0 / 10 ^ numeral.fraction.length)

theorem value_eq_signed (numeral : Numeral) :
    numeral.value = signed numeral.negative numeral.toDecimal.value := by
  have hdigits : Nat.ofDigitChars 10 (numeral.whole ++ numeral.fraction) 0 =
      10 ^ numeral.fraction.length * Nat.ofDigitChars 10 numeral.whole 0 +
        Nat.ofDigitChars 10 numeral.fraction 0 := by
    rw [Nat.ofDigitChars_append, Nat.ofDigitChars_eq_ofDigitChars_zero]
  rw [value, value_toDecimal, hdigits, zpow_neg, zpow_natCast]
  congr 1
  push_cast
  field_simp

theorem exists_sign_splitSign (text : Text) :
    ∃ sign ∈ signTexts (splitSign text).1, text = sign ++ (splitSign text).2 := by
  unfold splitSign
  split
  · exact ⟨['+'], by simp [signTexts], rfl⟩
  · exact ⟨['-'], by simp [signTexts], rfl⟩
  · exact ⟨[], by simp [signTexts], rfl⟩

/-- No sign stands at the beginning of digits with a point. -/
theorem head?_ne_of_splitPoint? {text whole fraction : Text}
    (hsplit : splitPoint? text = some (whole, fraction)) {c : Char} (hdigit : c.isDigit = false)
    (hpoint : c ≠ '.') : text.head? ≠ some c := by
  obtain ⟨hwhole, -, hne, htext⟩ := splitPoint?_sound hsplit
  intro hhead
  cases whole with
  | nil =>
      rcases htext with ⟨rfl, rfl⟩ | rfl
      · simp at hhead
      · exact hpoint (Option.some.inj hhead).symm
  | cons digit rest =>
      have hc : digit = c := by
        rcases htext with ⟨rfl, -⟩ | rfl <;> exact Option.some.inj hhead
      exact ne_of_isDigit (hwhole digit List.mem_cons_self) hdigit hc

theorem splitSign_append {negative : Bool} {sign unsigned : Text}
    (hsign : sign ∈ signTexts negative) (hplus : unsigned.head? ≠ some '+')
    (hminus : unsigned.head? ≠ some '-') :
    splitSign (sign ++ unsigned) = (negative, unsigned) := by
  cases negative with
  | true =>
      obtain rfl : sign = ['-'] := by simpa [signTexts] using hsign
      rfl
  | false =>
      have hsign : sign = [] ∨ sign = ['+'] := by simpa [signTexts] using hsign
      rcases hsign with rfl | rfl
      · rw [List.nil_append]
        unfold splitSign
        split
        · exact absurd rfl hplus
        · exact absurd rfl hminus
        · rfl
      · rfl

/-- A text is a numeral exactly when it spells the numeral. -/
theorem ofText?_eq_some_iff (text : Text) (numeral : Numeral) :
    ofText? text = some numeral ↔ numeral.IsSpelled text := by
  simp only [ofText?, Option.map_eq_some_iff, Prod.exists]
  constructor
  · rintro ⟨whole, fraction, hsplit, rfl⟩
    obtain ⟨sign, hsign, htext⟩ := exists_sign_splitSign text
    exact ⟨sign, hsign, _, htext, (splitPoint?_eq_some_iff _ _ _).1 hsplit⟩
  · rintro ⟨sign, hsign, unsigned, rfl, hunsigned⟩
    have hsplit := (splitPoint?_eq_some_iff _ _ _).2 hunsigned
    have hplus := head?_ne_of_splitPoint? hsplit (c := '+') rfl (by decide)
    have hminus := head?_ne_of_splitPoint? hsplit (c := '-') rfl (by decide)
    rw [splitSign_append hsign hplus hminus]
    exact ⟨_, _, hsplit, rfl⟩

/-- A numeral has a minus sign exactly when its text begins with one. -/
theorem IsSpelled.negative_iff {numeral : Numeral} {text : Text}
    (hspelled : numeral.IsSpelled text) : numeral.negative = true ↔ text.head? = some '-' := by
  obtain ⟨sign, hsign, unsigned, rfl, hunsigned⟩ := hspelled
  have hsplit := (splitPoint?_eq_some_iff _ _ _).2 hunsigned
  have hminus := head?_ne_of_splitPoint? hsplit (c := '-') rfl (by decide)
  cases hnegative : numeral.negative with
  | true =>
      rw [hnegative] at hsign
      obtain rfl : sign = ['-'] := by simpa [signTexts] using hsign
      simp
  | false =>
      rw [hnegative] at hsign
      have hsign : sign = [] ∨ sign = ['+'] := by simpa [signTexts] using hsign
      rcases hsign with rfl | rfl
      · simpa using hminus
      · simp

end Numeral

namespace Decimal

theorem value_nonneg (d : Decimal) : 0 ≤ d.value :=
  mul_nonneg (Nat.cast_nonneg _) (zpow_nonneg (by norm_num) _)

/-- The magnitude of a decimal is the rounding of its value. -/
theorem isRounding_of_toMagnitude? {d : Decimal} {m : Magnitude} (hread : d.toMagnitude? = some m) :
    IsRounding m.units (d.value * unitsPerOne) := by
  rw [value_eq_div]
  exact Magnitude.isRounding_of_round? (Nat.pow_pos (by decide)) hread

theorem toMagnitude?_eq_none_iff (d : Decimal) :
    d.toMagnitude? = none ↔ 2 ^ 1024 - 2 ^ 970 ≤ d.value := by
  rw [value_eq_div]
  exact Magnitude.round?_eq_none_iff _ (Nat.pow_pos (by decide))

end Decimal

namespace Numeral

theorem toBinary64?_eq_some_iff (numeral : Numeral) (x : Binary64) :
    numeral.toBinary64? = some x ↔
      ∃ m, numeral.toDecimal.toMagnitude? = some m ∧ .finite numeral.negative m = x :=
  Option.map_eq_some_iff

/-- The number of a numeral is nearest to what the numeral denotes, and has its sign. -/
theorem isNearest_of_toBinary64? {numeral : Numeral} {x : Binary64}
    (hnumber : numeral.toBinary64? = some x) :
    x.IsNearest numeral.value ∧ x.toBits.msb = numeral.negative := by
  obtain ⟨m, hread, rfl⟩ := (toBinary64?_eq_some_iff numeral x).1 hnumber
  rw [value_eq_signed]
  exact ⟨Binary64.isNearest_of_isRounding _ (Decimal.value_nonneg _)
    (Decimal.isRounding_of_toMagnitude? hread), Binary64.msb_assemble _ _ _⟩

theorem toBinary64?_eq_none_iff (numeral : Numeral) :
    numeral.toBinary64? = none ↔ 2 ^ 1024 - 2 ^ 970 ≤ |numeral.value| := by
  rw [value_eq_signed, abs_signed, abs_of_nonneg (Decimal.value_nonneg _),
    ← Decimal.toMagnitude?_eq_none_iff, toBinary64?, Option.map_eq_none_iff]

end Numeral

end Sexp
