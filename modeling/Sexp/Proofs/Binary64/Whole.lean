import Sexp.Proofs.Binary64.Rounding

/-!
# The sign of zero and whole numbers

Equality in arithmetic is equality of numbers up to the sign of zero, for numbers
other than NaN.  Dropping the sign of zero chooses one number of each class.

A magnitude that is whole is its whole part exactly, and so it is the magnitude
nearest to that natural number.  With the sign this makes every whole number the
number nearest to its integer, except that no integer has the sign of negative zero.
-/

namespace Sexp

/-! ## The sign of zero -/

namespace Binary64

/-- The number with the sign of zero dropped: negative zero becomes positive zero, and
every other number stays as it is, bit for bit. -/
def dropZeroSign : Binary64 → Binary64
  | finite negative m => finite (negative && m.units != 0) m
  | infinity negative => infinity negative
  | nan => nan

@[simp] theorem dropZeroSign_dropZeroSign (x : Binary64) :
    x.dropZeroSign.dropZeroSign = x.dropZeroSign := by
  cases x <;> simp [dropZeroSign]

@[simp] theorem isFinite_dropZeroSign (x : Binary64) :
    x.dropZeroSign.isFinite = x.isFinite := by
  cases x <;> rfl

theorem dropZeroSign_of_units_ne_zero (negative : Bool) {m : Magnitude} (hm : m.units ≠ 0) :
    (finite negative m).dropZeroSign = finite negative m := by
  simp [dropZeroSign, hm]

@[simp] theorem dropZeroSign_eq_nan_iff (x : Binary64) : x.dropZeroSign = nan ↔ x = nan := by
  cases x <;> simp [dropZeroSign]

/-- Two numbers are equal in arithmetic when they are no NaN and are the same number up
to the sign of zero. -/
theorem equal_iff (x y : Binary64) :
    x.equal y = true ↔ x ≠ nan ∧ x.dropZeroSign = y.dropZeroSign := by
  cases x with
  | finite negative m =>
      cases y with
      | finite negative' m' =>
          by_cases hm : m = m'
          · subst hm
            by_cases hzero : m.units = 0
            · simp [equal, dropZeroSign, hzero]
            · have hsign : (m.units != 0) = true := by simpa using hzero
              simp [equal, dropZeroSign, hzero, hsign]
          · simp [equal, dropZeroSign, hm]
      | infinity negative' => simp [equal, dropZeroSign]
      | nan => simp [equal, dropZeroSign]
  | infinity negative => cases y <;> simp [equal, dropZeroSign]
  | nan => simp [equal_nan_left]

end Binary64

/-! ## Whole numbers -/

namespace Magnitude

theorem wholePart_mul_unitsPerOne {m : Magnitude} (hwhole : m.isWhole = true) :
    m.wholePart * unitsPerOne = m.units :=
  Nat.div_mul_cancel (Nat.dvd_of_mod_eq_zero (eq_of_beq hwhole))

theorem wholePart_eq_zero_iff {m : Magnitude} (hwhole : m.isWhole = true) :
    m.wholePart = 0 ↔ m.units = 0 := by
  rw [← wholePart_mul_unitsPerOne hwhole, Nat.mul_eq_zero]
  constructor
  · intro hpart
    exact .inl hpart
  · rintro (hpart | hone)
    · exact hpart
    · exact absurd hone (Nat.ne_of_gt unitsPerOne_pos)

theorem isWhole_of_units_eq_zero {m : Magnitude} (hzero : m.units = 0) :
    m.isWhole = true := by
  simp [isWhole, hzero]

/-- A whole magnitude is the magnitude nearest to its whole part. -/
theorem round?_wholePart {m : Magnitude} (hwhole : m.isWhole = true) :
    round? m.wholePart 1 = some m := by
  apply round?_eq_some_of_exact m Nat.one_pos
  rw [wholePart_mul_unitsPerOne hwhole, Nat.mul_one]

end Magnitude

namespace Binary64

theorem toInt?_eq_some_iff (x : Binary64) (n : Int) :
    x.toInt? = some n ↔ ∃ negative m, x = finite negative m ∧ m.isWhole = true ∧
      n = if negative then -(m.wholePart : Int) else m.wholePart := by
  constructor
  · intro hint
    cases x with
    | finite negative m =>
        cases hwhole : m.isWhole with
        | true =>
            simp only [toInt?, hwhole, if_true] at hint
            exact ⟨negative, m, rfl, hwhole, (Option.some.inj hint).symm⟩
        | false => simp [toInt?, hwhole] at hint
    | infinity negative => contradiction
    | nan => contradiction
  · rintro ⟨negative, m, rfl, hwhole, rfl⟩
    simp [toInt?, hwhole]

/-- A number that is not whole is not zero. -/
theorem units_ne_zero_of_toInt?_eq_none {negative : Bool} {m : Magnitude}
    (hint : (finite negative m).toInt? = none) : m.units ≠ 0 := by
  intro hzero
  simp [toInt?, Magnitude.isWhole_of_units_eq_zero hzero] at hint

theorem toInt?_dropZeroSign (x : Binary64) : x.dropZeroSign.toInt? = x.toInt? := by
  cases x with
  | finite negative m =>
      by_cases hm : m.units = 0
      · have hwhole := Magnitude.isWhole_of_units_eq_zero hm
        have hpart := (Magnitude.wholePart_eq_zero_iff hwhole).2 hm
        simp [dropZeroSign, toInt?, hm, hwhole, hpart]
      · rw [dropZeroSign_of_units_ne_zero negative hm]
  | infinity negative => rfl
  | nan => rfl

/-- A whole number is the number nearest to its integer, up to the sign of zero. -/
theorem ofInt?_of_toInt? {x : Binary64} {n : Int} (hint : x.toInt? = some n) :
    ofInt? n = some x.dropZeroSign := by
  obtain ⟨negative, m, rfl, hwhole, hn⟩ := (toInt?_eq_some_iff x n).1 hint
  have hsize : n.natAbs = m.wholePart := by
    split at hn <;> omega
  -- The integer is negative when the number has a minus sign and is not zero.
  have hsign : decide (n < 0) = (negative && m.units != 0) := by
    have hzero := Magnitude.wholePart_eq_zero_iff hwhole
    cases negative with
    | true =>
        simp only [if_true] at hn
        by_cases hunits : m.units = 0
        · simp [hunits, hn, hzero.2 hunits]
        · have hpart : m.wholePart ≠ 0 := fun hpart => hunits (hzero.1 hpart)
          have hnegative : n < 0 := by omega
          simp [hunits, hnegative]
    | false =>
        simp only [Bool.false_eq_true, if_false] at hn
        have hnonnegative : ¬n < 0 := by omega
        simp [hnonnegative]
  rw [ofInt?, hsize, Magnitude.round?_wholePart hwhole, Option.map_some, hsign, dropZeroSign]

end Binary64

end Sexp
