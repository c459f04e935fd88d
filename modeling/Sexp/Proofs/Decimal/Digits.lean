import Sexp.Proofs.Decimal.ReadBack

/-!
# The characters and digits of numbers

The text of a finite number holds digits, signs, a point and the letter of an exponent, and
nothing else.  So it can be told from what stands before and after it by its characters.

A number is written without superfluous zeros before it: its digits begin with a zero only
if they are a single zero.  This holds of natural numbers and of the digits before the
point in both layouts of a decimal that is not zero.

A number that is not whole is written with digits after the decimal point, and the last of
them is not zero.  The digits of a decimal do not end in a zero, so the question is only
whether one of them stands after the point.  If none did, the decimal would be a natural
number, and the magnitude nearest to a natural number is whole.
-/

namespace Sexp

-- The powers of natural numbers in the definitions are the core ones.
attribute [local instance (2000)] instPowNat

/-! ## Characters -/

/-- A digit, a sign, a point, or the letter of an exponent. -/
def isNumberChar (c : Char) : Bool := c.isDigit || ['+', '-', '.', 'e'].contains c

/-- A text that only has characters of numbers. -/
def Text.IsNumeric (text : Text) : Prop := ∀ c ∈ text, isNumberChar c = true

namespace Text

theorem isNumeric_append {text text' : Text} :
    IsNumeric (text ++ text') ↔ text.IsNumeric ∧ text'.IsNumeric :=
  List.forall_mem_append

theorem isNumeric_cons {c : Char} {text : Text} :
    IsNumeric (c :: text) ↔ isNumberChar c = true ∧ text.IsNumeric :=
  List.forall_mem_cons

theorem IsDigits.isNumeric {text : Text} (hdigits : text.IsDigits) : text.IsNumeric := by
  intro c hc
  rw [isNumberChar, hdigits c hc, Bool.true_or]

theorem isNumeric_withSign (negative : Bool) {text : Text} (hnumeric : text.IsNumeric) :
    IsNumeric (withSign negative text) := by
  cases negative with
  | false => exact hnumeric
  | true => exact isNumeric_cons.2 ⟨rfl, hnumeric⟩

end Text

theorem isNumeric_integerText (n : Int) : (integerText n).IsNumeric := by
  rw [integerText_eq_withSign]
  exact Text.isNumeric_withSign _ (Text.isDigits_toDigits _).isNumeric

namespace Decimal

theorem isNumeric_positional (d : Decimal) : d.positional.IsNumeric := by
  rw [positional, Text.isNumeric_append, Text.isNumeric_cons]
  exact ⟨(isDigits_wholeDigits d).isNumeric, rfl, (isDigits_fractionDigits d).isNumeric⟩

theorem isNumeric_exponentText (e : Int) : (exponentText e).IsNumeric := by
  rw [exponentText, List.leftpad, Text.isNumeric_cons, Text.isNumeric_append]
  refine ⟨by split <;> rfl, ?_, ?_⟩
  · exact (isDigits_replicate_zero _).isNumeric
  · exact (Text.isDigits_toDigits _).isNumeric

theorem isNumeric_scientific (d : Decimal) : d.scientific.IsNumeric := by
  have htake : Text.IsDigits (d.digits.take 1) := fun c hc =>
    isDigits_digits d c (List.mem_of_mem_take hc)
  have hdrop : Text.IsDigits (d.digits.drop 1) := fun c hc =>
    isDigits_digits d c (List.mem_of_mem_drop hc)
  rw [scientific, List.append_assoc, Text.isNumeric_append, Text.isNumeric_append,
    Text.isNumeric_cons]
  refine ⟨htake.isNumeric, ?_, rfl, isNumeric_exponentText d.leadingExponent⟩
  split
  · exact List.forall_mem_nil _
  · exact Text.isNumeric_cons.2 ⟨rfl, hdrop.isNumeric⟩

theorem isNumeric_compact (d : Decimal) : d.compact.IsNumeric := by
  unfold compact
  split
  · exact isNumeric_positional d
  · exact isNumeric_scientific d

end Decimal

/-- A finite number is written with characters of numbers only, if its layout is. -/
theorem NumberStyle.isNumeric_write (style : NumberStyle)
    (hlayout : ∀ d, (style.layout d).IsNumeric) {x : Binary64} (hfinite : x.isFinite = true) :
    (style.write x).IsNumeric := by
  cases hint : x.toInt? with
  | some n =>
      rw [style.write_of_toInt? hint]
      exact isNumeric_integerText n
  | none =>
      rw [style.write_of_toInt?_eq_none hint]
      cases x with
      | finite negative m => exact Text.isNumeric_withSign negative (hlayout m.shortest)
      | infinity _ => contradiction
      | nan => contradiction

/-! ## First digits -/

/-- Digits of a natural number without superfluous zeros before it. -/
def Text.IsUnpadded (text : Text) : Prop :=
  text.IsDigits ∧ (text = ['0'] ∨ ∃ digit rest, text = digit :: rest ∧ digit ≠ '0')

theorem Text.IsUnpadded.ne_nil {text : Text} (hunpadded : text.IsUnpadded) : text ≠ [] := by
  rcases hunpadded.2 with rfl | ⟨digit, rest, rfl, -⟩ <;> simp

theorem exists_toDigits_eq_cons {n : Nat} (hn : n ≠ 0) :
    ∃ digit rest, Nat.toDigits 10 n = digit :: rest ∧ digit ≠ '0' := by
  induction n using Nat.strong_induction_on with
  | _ n ih =>
      by_cases hsmall : n < 10
      · refine ⟨n.digitChar, [], Nat.toDigits_of_lt_base hsmall, ?_⟩
        rw [ne_eq, Nat.digitChar_eq_zero]
        exact hn
      · -- The last digit is put after the digits of a tenth, which begin the number.
        obtain ⟨digit, rest, hdigits, hdigit⟩ := ih (n / 10) (by omega) (by omega)
        refine ⟨digit, rest ++ [(n % 10).digitChar], ?_, hdigit⟩
        rw [Nat.toDigits_of_base_le (by decide) (by omega), hdigits, List.cons_append]

theorem Text.isUnpadded_toDigits (n : Nat) : Text.IsUnpadded (Nat.toDigits 10 n) := by
  refine ⟨Text.isDigits_toDigits n, ?_⟩
  by_cases hn : n = 0
  · exact .inl (by rw [hn, Nat.toDigits_zero])
  · exact .inr (exists_toDigits_eq_cons hn)

namespace Decimal

/-- The digits of a decimal that is not zero begin with a digit that is not zero. -/
theorem exists_digits_eq_cons {d : Decimal} (hd : d.coefficient ≠ 0) :
    ∃ digit rest, d.digits = digit :: rest ∧ digit ≠ '0' := by
  obtain ⟨zeros, happend⟩ := toDigits_eq_digits_append d
  obtain ⟨digit, rest, hcons, hdigit⟩ := exists_toDigits_eq_cons hd
  rw [hcons] at happend
  cases hdigits : d.digits with
  | nil =>
      rw [hdigits, List.nil_append] at happend
      have hzero : digit ∈ List.replicate zeros '0' := happend ▸ List.mem_cons_self
      exact absurd (List.eq_of_mem_replicate hzero) hdigit
  | cons first others =>
      rw [hdigits, List.cons_append] at happend
      exact ⟨first, others, rfl, (List.cons.inj happend).1 ▸ hdigit⟩

theorem isUnpadded_wholeDigits {d : Decimal} (hd : d.coefficient ≠ 0) :
    d.wholeDigits.IsUnpadded := by
  refine ⟨isDigits_wholeDigits d, ?_⟩
  obtain ⟨digit, rest, hdigits, hdigit⟩ := exists_digits_eq_cons hd
  unfold wholeDigits
  cases d.point.toNat with
  | zero => exact .inl rfl
  | succ places =>
      refine .inr ⟨digit, (rest ++
        List.replicate (places + 1 - d.digits.length) '0').take places, ?_, hdigit⟩
      rw [List.rightpad, hdigits, List.cons_append, List.take_succ_cons]
      rfl

theorem isUnpadded_take_one_digits {d : Decimal} (hd : d.coefficient ≠ 0) :
    Text.IsUnpadded (d.digits.take 1) := by
  obtain ⟨digit, rest, hdigits, hdigit⟩ := exists_digits_eq_cons hd
  refine ⟨fun c hc => isDigits_digits d c (List.mem_of_mem_take hc), .inr ⟨digit, [], ?_, hdigit⟩⟩
  rw [hdigits, List.take_succ_cons, List.take_zero]

end Decimal

/-- The shortest decimal of a magnitude is zero only if the magnitude is. -/
theorem Magnitude.coefficient_shortest_ne_zero {m : Magnitude} (hm : m.units ≠ 0) :
    m.shortest.coefficient ≠ 0 := by
  intro hzero
  have hshortest := toMagnitude?_shortest m
  have hnone : m.shortest.toMagnitude? = some Magnitude.zero := by
    rw [Decimal.toMagnitude?, hzero, Nat.zero_mul]
    exact round?_eq_some_of_exact .zero (Nat.pow_pos (by decide)) (by simp [zero])
  rw [hnone] at hshortest
  exact hm (Option.some.inj hshortest ▸ rfl)

/-! ## Digits after the point -/

/-- The distance between neighbouring magnitudes goes into one, or one goes into it. -/
theorem gap_dvd_or_dvd_gap (units : ℕ) : gap units ∣ unitsPerOne ∨ unitsPerOne ∣ gap units := by
  have hpowers : ∀ a b : ℕ, 2 ^ a ∣ 2 ^ b ∨ 2 ^ b ∣ 2 ^ a := fun a b =>
    (le_total a b).imp (Nat.pow_dvd_pow 2) (Nat.pow_dvd_pow 2)
  unfold gap unitsPerOne
  exact hpowers (units.log2 - 52) 1074

/-- A natural number is rounded to a whole number: either it lies on the grid itself, or the
grid is so coarse that all of its points are whole. -/
theorem unitsPerOne_dvd_roundToGrid (n : ℕ) : unitsPerOne ∣ roundToGrid (n * unitsPerOne) 1 := by
  rcases gap_dvd_or_dvd_gap (n * unitsPerOne) with hfine | hcoarse
  · have hself := roundToGrid_mul_of_gap_dvd (hfine.mul_left n) Nat.one_pos
    rw [Nat.mul_one] at hself
    rw [hself]
    exact Nat.dvd_mul_left unitsPerOne n
  · rw [roundToGrid, Nat.div_one]
    exact hcoarse.mul_left _

namespace Magnitude

/-- The magnitude nearest to a natural number is whole. -/
theorem isWhole_of_round?_one {n : ℕ} {m : Magnitude} (hround : round? n 1 = some m) :
    m.isWhole = true := by
  have hunits : m.units = roundToGrid (n * unitsPerOne) 1 := by
    rw [round?] at hround
    split at hround
    · exact congrArg units (Option.some.inj hround).symm
    · contradiction
  rw [isWhole, hunits, Nat.mod_eq_zero_of_dvd (unitsPerOne_dvd_roundToGrid n)]
  rfl

end Magnitude

namespace Decimal

/-- A decimal none of whose digits stands after the point is read as a whole number. -/
theorem isWhole_of_length_digits_le {d : Decimal} {m : Magnitude}
    (hread : d.toMagnitude? = some m) (hpoint : (d.digits.length : ℤ) ≤ d.point) :
    m.isWhole = true := by
  obtain ⟨zeros, hzeros⟩ := Int.le.dest hpoint
  have hexponent : d.point - (d.digits.length : ℤ) = 0 + zeros := by omega
  have hvalue : d.value =
      (Decimal.mk (Nat.ofDigitChars 10 d.digits 0 * 10 ^ zeros) 0).value := by
    rw [value_eq_digits, hexponent, ← mul_pow_mul_zpow, value]
  rw [toMagnitude?_eq_of_value_eq hvalue] at hread
  exact Magnitude.isWhole_of_round?_one hread

/-- The digits of a decimal do not end in a zero. -/
theorem getLast?_digits_ne_zero (d : Decimal) : d.digits.getLast? ≠ some '0' :=
  Text.getLast?_dropWhile_reverse_ne (Nat.toDigits 10 d.coefficient)

/-- If there are digits after the point, then the last of them is not zero. -/
theorem getLast?_fractionDigits_ne_zero {d : Decimal} (hpoint : d.point.toNat < d.digits.length) :
    d.fractionDigits.getLast? ≠ some '0' := by
  have hlast : (d.digits.drop d.point.toNat).getLast? = d.digits.getLast? := by
    rw [List.getLast?_drop, if_neg (Nat.not_le_of_lt hpoint)]
  have hne : d.digits.drop d.point.toNat ≠ [] := by
    rw [ne_eq, List.drop_eq_nil_iff]
    omega
  have hfraction : d.fractionDigits =
      List.replicate (-d.point).toNat '0' ++ d.digits.drop d.point.toNat := by
    rw [fractionDigits, orZero, if_neg (by simp [hne])]
  rw [hfraction, List.getLast?_append, Option.or_of_isSome (List.getLast?_isSome.2 hne), hlast]
  exact getLast?_digits_ne_zero d

end Decimal

namespace Magnitude

theorem units_ne_zero {m : Magnitude} (hwhole : m.isWhole = false) : m.units ≠ 0 := by
  intro hzero
  rw [isWhole_of_units_eq_zero hzero] at hwhole
  contradiction

/-- The shortest decimal of a magnitude that is not whole has digits after the point, of which
the last is not zero. -/
theorem getLast?_fractionDigits_shortest {m : Magnitude} (hwhole : m.isWhole = false) :
    m.shortest.fractionDigits.getLast? ≠ some '0' := by
  apply Decimal.getLast?_fractionDigits_ne_zero
  by_contra hpoint
  obtain ⟨digit, rest, hdigits, -⟩ :=
    Decimal.exists_digits_eq_cons (coefficient_shortest_ne_zero (units_ne_zero hwhole))
  have hlength : 1 ≤ m.shortest.digits.length := by
    rw [hdigits, List.length_cons]
    omega
  have hread := Decimal.isWhole_of_length_digits_le (toMagnitude?_shortest m) (by omega)
  rw [hwhole] at hread
  contradiction

end Magnitude

end Sexp
