import Sexp.Decimal.Layout
import Sexp.Proofs.Binary64.Whole
import Sexp.Proofs.Decimal.Numeral
import Sexp.Proofs.Decimal.Value

/-!
# Numbers read back

The shortest decimal of a magnitude reads back as that magnitude, since the search
only stops at such a decimal and ends on a grid on which the magnitude lies itself.
A whole number reads back from its integer text, since it is rounded to itself.  So
every finite number is read back from its source text, up to the sign of zero.
-/

namespace Sexp

-- The powers of natural numbers in the definitions are the core ones.
attribute [local instance (2000)] instPowNat

namespace Magnitude

theorem toMagnitude?_of_exact (m : Magnitude) {steps k : ℕ}
    (hexact : steps * unitsPerOne = m.units * 10 ^ k) :
    Decimal.toMagnitude? ⟨steps, -k⟩ = some m := by
  have hnum : (-k : ℤ).toNat = 0 := by omega
  have hden : (-(-k) : ℤ).toNat = k := by omega
  rw [Decimal.toMagnitude?, hnum, hden, Nat.pow_zero, Nat.mul_one]
  exact round?_eq_some_of_exact m (Nat.pow_pos (by decide)) hexact

theorem mul_five_pow_mul_two_pow (n k : ℕ) : n * 5 ^ k * 2 ^ k = n * 10 ^ k := by
  rw [Nat.mul_assoc, ← Nat.mul_pow]

/-- On the finest grid a magnitude is a decimal exactly. -/
theorem toMagnitude?_finest (m : Magnitude) :
    Decimal.toMagnitude? ⟨m.decimalSteps, -1074⟩ = some m := by
  refine toMagnitude?_of_exact m (k := 1074) ?_
  unfold decimalSteps unitsPerOne
  exact mul_five_pow_mul_two_pow m.units 1074

theorem isNearest_iff (m : Magnitude) (d : Decimal) :
    m.isNearest d = true ↔ d.toMagnitude? = some m := by
  rw [isNearest, beq_iff_eq]

/-- The shortest decimal of a magnitude reads back as that magnitude. -/
theorem toMagnitude?_shortest (m : Magnitude) : m.shortest.toMagnitude? = some m := by
  unfold shortest
  split
  · next hm => exact toMagnitude?_of_exact m (k := 0) (by rw [hm, Nat.zero_mul, Nat.zero_mul])
  · cases hfound : m.places.findSome? m.nearestAt? with
    | none =>
        rw [Option.getD_none]
        exact toMagnitude?_finest m
    | some d =>
        obtain ⟨place, -, hplace⟩ := List.exists_of_findSome?_eq_some hfound
        rw [Option.getD_some]
        exact (isNearest_iff m d).1 (List.find?_some hplace)

end Magnitude

namespace Decimal

theorem isDigits_digits (d : Decimal) : d.digits.IsDigits := by
  obtain ⟨zeros, hdigits⟩ := toDigits_eq_digits_append d
  have hall := Text.isDigits_toDigits d.coefficient
  rw [hdigits] at hall
  exact (Text.isDigits_append.1 hall).1

theorem isDigits_replicate_zero (n : ℕ) : Text.IsDigits (List.replicate n '0') := by
  intro c hc
  rw [List.eq_of_mem_replicate hc]
  rfl

theorem isDigits_orZero {text : Text} (hdigits : text.IsDigits) : (orZero text).IsDigits := by
  unfold orZero
  split
  · exact isDigits_replicate_zero 1
  · exact hdigits

theorem orZero_ne_nil (text : Text) : orZero text ≠ [] := by
  cases text <;> simp [orZero]

theorem isDigits_wholeDigits (d : Decimal) : d.wholeDigits.IsDigits := by
  refine isDigits_orZero fun c hc => ?_
  rcases List.mem_append.1 (List.mem_of_mem_take hc) with hc | hc
  · exact isDigits_digits d c hc
  · exact isDigits_replicate_zero _ c hc

theorem isDigits_fractionDigits (d : Decimal) : d.fractionDigits.IsDigits := by
  refine isDigits_orZero (Text.isDigits_append.2 ⟨isDigits_replicate_zero _, fun c hc => ?_⟩)
  exact isDigits_digits d c (List.mem_of_mem_drop hc)

/-- The positional layout is a numeral that is rounded like the decimal. -/
theorem toNumber?_withSign_positional (negative : Bool) (d : Decimal) :
    (withSign negative d.positional).toNumber? =
      d.toMagnitude?.map (Binary64.finite negative) := by
  have hnumeral := Numeral.ofText?_withSign_point negative (isDigits_wholeDigits d)
    (orZero_ne_nil _) (isDigits_fractionDigits d)
  rw [Text.toNumber?, positional, hnumeral, Option.bind_some, Numeral.toBinary64?,
    toMagnitude?_eq_of_value_eq (value_positional negative d)]

end Decimal

theorem integerText_eq_withSign (n : ℤ) :
    integerText n = withSign (n < 0) (Nat.toDigits 10 n.natAbs) := by
  cases n with
  | ofNat n => simp [integerText, withSign]
  | negSucc n => simp [integerText, withSign, Int.negSucc_lt_zero]

theorem toNumber?_integerText (n : ℤ) : (integerText n).toNumber? = Binary64.ofInt? n := by
  have hnumeral := Numeral.ofText?_withSign_whole (n < 0) (Text.isDigits_toDigits n.natAbs)
    Nat.toDigits_ne_nil
  have hvalue : (Numeral.mk (n < 0) (Nat.toDigits 10 n.natAbs) []).toDecimal = ⟨n.natAbs, 0⟩ := by
    simp [Numeral.toDecimal, Nat.ofDigitChars_ten_toDigits]
  rw [Text.toNumber?, integerText_eq_withSign, hnumeral, Option.bind_some, Numeral.toBinary64?,
    hvalue]
  simp [Decimal.toMagnitude?, Binary64.ofInt?]

/-- In every style the two zeros have one text. -/
theorem NumberStyle.write_dropZeroSign (style : NumberStyle) (x : Binary64) :
    style.write x.dropZeroSign = style.write x := by
  cases hwhole : x.toInt? with
  | some n =>
      rw [style.write_of_toInt? hwhole,
        style.write_of_toInt? ((Binary64.toInt?_dropZeroSign x).trans hwhole)]
  | none =>
      cases x with
      | finite negative m =>
          rw [Binary64.dropZeroSign_of_units_ne_zero negative
            (Binary64.units_ne_zero_of_toInt?_eq_none hwhole)]
      | infinity negative => rfl
      | nan => rfl

namespace Binary64

/-- Every finite number is read back from its source text, up to the sign of zero. -/
theorem toNumber?_write {x : Binary64} (hfinite : x.isFinite = true) :
    (sourceNumbers.write x).toNumber? = some x.dropZeroSign := by
  cases hwhole : x.toInt? with
  | some n =>
      rw [NumberStyle.write_of_toInt? sourceNumbers hwhole, toNumber?_integerText,
        ofInt?_of_toInt? hwhole]
  | none =>
      cases x with
      | finite negative m =>
          have hm := units_ne_zero_of_toInt?_eq_none hwhole
          rw [NumberStyle.write_of_toInt?_eq_none sourceNumbers hwhole,
            dropZeroSign_of_units_ne_zero negative hm]
          change (withSign negative m.shortest.positional).toNumber? = _
          rw [Decimal.toNumber?_withSign_positional, Magnitude.toMagnitude?_shortest,
            Option.map_some]
      | infinity negative => contradiction
      | nan => contradiction

end Binary64

end Sexp
