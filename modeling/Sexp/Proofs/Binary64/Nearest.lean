import Sexp.Binary64.Bits
import Sexp.Proofs.Binary64.Rounding
import Sexp.Proofs.Binary64.Whole

/-!
# The nearest number

A finite number is a rational number, and rounding finds the one that is nearest to a
rational number, with the even significand of two that are equally near.  This holds from
the numbers that are rounded to zero to those that are rounded to the largest number, and
the sign is that of the rational number or, at zero, either one.  The numbers that have no
rounding are those from the middle between the largest number and `2 ^ 1024` on.
-/

namespace Sexp

-- The powers of natural numbers in the definitions are the core ones.
attribute [local instance (2000)] instPowNat

/-- A size with the sign that is given: `true` stands for a minus. -/
def signed (negative : Bool) (size : ℚ) : ℚ := if negative then -size else size

@[simp] theorem signed_zero (negative : Bool) : signed negative 0 = 0 := by
  cases negative <;> simp [signed]

theorem signed_inj (negative : Bool) {size size' : ℚ} :
    signed negative size = signed negative size' ↔ size = size' := by
  cases negative with
  | false => exact Iff.rfl
  | true => exact neg_inj

theorem abs_signed_sub (negative : Bool) (size size' : ℚ) :
    |signed negative size - signed negative size'| = |size - size'| := by
  cases negative with
  | false => rfl
  | true =>
      show |-size - -size'| = |size - size'|
      rw [neg_sub_neg, abs_sub_comm]

theorem abs_signed (negative : Bool) (size : ℚ) : |signed negative size| = |size| := by
  cases negative with
  | false => rfl
  | true => exact abs_neg size

/-- With different signs two sizes are as far apart as their sum says. -/
theorem abs_signed_not_sub (negative : Bool) {size size' : ℚ} (hsize : 0 ≤ size)
    (hsize' : 0 ≤ size') : |signed (!negative) size - signed negative size'| = size + size' := by
  cases negative with
  | false =>
      show |-size - size'| = size + size'
      rw [abs_of_nonpos (by linarith)]
      ring
  | true =>
      show |size - -size'| = size + size'
      rw [abs_of_nonneg (by linarith)]
      ring

namespace Magnitude

/-- The rational number that a magnitude is. -/
def value (m : Magnitude) : ℚ := m.units / unitsPerOne

theorem unitsPerOne_cast_pos : (0 : ℚ) < unitsPerOne := by exact_mod_cast unitsPerOne_pos

theorem value_nonneg (m : Magnitude) : 0 ≤ m.value :=
  div_nonneg (Nat.cast_nonneg _) unitsPerOne_cast_pos.le

theorem value_of_units_eq_zero {m : Magnitude} (hm : m.units = 0) : m.value = 0 := by
  rw [value, hm, Nat.cast_zero, zero_div]

theorem value_zero : zero.value = 0 := value_of_units_eq_zero rfl

theorem value_mul_unitsPerOne (m : Magnitude) : m.value * unitsPerOne = m.units :=
  div_mul_cancel₀ _ unitsPerOne_cast_pos.ne'

theorem units_inj {m m' : Magnitude} : m.units = m'.units ↔ m = m' := by
  cases m
  cases m'
  simp

theorem value_lt_value {m m' : Magnitude} (hlt : m.units < m'.units) : m.value < m'.value :=
  div_lt_div_of_pos_right (Nat.cast_lt.2 hlt) unitsPerOne_cast_pos

/-- Distances from a magnitude, counted in units. -/
theorem abs_units_sub (m : Magnitude) (q : ℚ) :
    |(m.units : ℚ) - q * unitsPerOne| = |m.value - q| * unitsPerOne := by
  rw [← value_mul_unitsPerOne, ← sub_mul, abs_mul, abs_of_pos unitsPerOne_cast_pos]

/-- The rounding of a size is the magnitude nearest to it, and the even one of two. -/
theorem nearest_of_isRounding {m : Magnitude} {q : ℚ}
    (hround : IsRounding m.units (q * unitsPerOne)) (m' : Magnitude) :
    |m.value - q| ≤ |m'.value - q| ∧
      (m' ≠ m → |m'.value - q| = |m.value - q| → Even (m.units / gap m.units)) := by
  have hpos := unitsPerOne_cast_pos
  constructor
  · have hle := hround.nearest m'.units m'.gap_dvd_units
    rwa [abs_units_sub, abs_units_sub, mul_le_mul_iff_left₀ hpos] at hle
  · intro hne htie
    refine hround.even_of_tie m'.units m'.gap_dvd_units (mt units_inj.1 hne) ?_
    rw [abs_units_sub, abs_units_sub, htie]

theorem isRounding_of_round? {num den : ℕ} (hden : 0 < den) {m : Magnitude}
    (hround : round? num den = some m) :
    IsRounding m.units ((num : ℚ) / den * unitsPerOne) := by
  have hgrid := isRounding_roundToGrid (num * unitsPerOne) hden
  rw [round?] at hround
  split at hround
  · obtain rfl := Option.some.inj hround
    rwa [Nat.cast_mul, mul_div_right_comm] at hgrid
  · contradiction

/-- The sizes past the largest magnitude begin in the middle between it and `2 ^ 1024`. -/
theorem round?_eq_none_iff (num : ℕ) {den : ℕ} (hden : 0 < den) :
    round? num den = none ↔ 2 ^ 1024 - 2 ^ 970 ≤ (num : ℚ) / den := by
  have hgrid := (isRounding_roundToGrid (num * unitsPerOne) hden).le_iff 2045
  rw [← unitLimit_eq_mul (show 53 + 2045 = 2098 from rfl), Nat.cast_mul,
    mul_div_right_comm] at hgrid
  have hone : (unitsPerOne : ℚ) = 2 ^ 1074 := by
    have hcast : ∀ e : ℕ, ((2 ^ e : ℕ) : ℚ) = 2 ^ e := fun e => by push_cast; rfl
    unfold unitsPerOne
    exact hcast 1074
  have hlimit : ((2 ^ 54 - 1) * 2 ^ 2045 : ℚ) = 2 * ((2 ^ 1024 - 2 ^ 970) * unitsPerOne) := by
    rw [hone, sub_mul, sub_mul, ← pow_add, ← pow_add, ← pow_add, one_mul, mul_sub, ← pow_succ',
      ← pow_succ']
  have hscale : (2 ^ 54 - 1) * 2 ^ 2045 ≤ 2 * ((num : ℚ) / den * unitsPerOne) ↔
      2 ^ 1024 - 2 ^ 970 ≤ (num : ℚ) / den := by
    rw [hlimit, mul_le_mul_iff_right₀ two_pos, mul_le_mul_iff_left₀ unitsPerOne_cast_pos]
  rw [← hscale, ← hgrid, round?]
  split
  · next hlt => simpa using hlt
  · next hle => simpa using hle

end Magnitude

namespace Binary64

/-- The rational number that a finite number is.  The others are none, and `0` stands in for it. -/
def value : Binary64 → ℚ
  | finite negative m => signed negative m.value
  | _ => 0

/-- How many gaps of its own size a finite number is away from zero. -/
def significand : Binary64 → ℕ
  | finite _ m => m.units / gap m.units
  | _ => 0

/-- A finite number is nearest to a rational number when no other one is nearer, and when its
significand is even if one of another value is equally near. -/
structure IsNearest (x : Binary64) (q : ℚ) : Prop where
  isFinite : x.isFinite = true
  nearest : ∀ y : Binary64, y.isFinite = true → |x.value - q| ≤ |y.value - q|
  even_of_tie : ∀ y : Binary64, y.isFinite = true → y.value ≠ x.value →
    |y.value - q| = |x.value - q| → Even x.significand

/-- The nearest magnitude with the sign of a number is nearest to the number. -/
theorem isNearest_of_isRounding (negative : Bool) {m : Magnitude} {size : ℚ} (hsize : 0 ≤ size)
    (hround : IsRounding m.units (size * unitsPerOne)) :
    (finite negative m).IsNearest (signed negative size) := by
  have hself : |(finite negative m).value - signed negative size| = |m.value - size| :=
    abs_signed_sub negative m.value size
  have hm := m.value_nonneg
  -- A number of the other sign is not nearer than the one of the same magnitude and this sign.
  have hother : ∀ (negative' : Bool) (m' : Magnitude),
      |m'.value - size| ≤ |(finite negative' m').value - signed negative size| := by
    intro negative' m'
    rcases Bool.eq_or_eq_not negative' negative with rfl | rfl
    · exact (abs_signed_sub _ _ _).ge
    · have hm' := m'.value_nonneg
      refine le_of_le_of_eq ?_ (abs_signed_not_sub negative hm' hsize).symm
      exact abs_le.2 ⟨by linarith, by linarith⟩
  refine ⟨rfl, fun y hy => ?_, fun y hy hne htie => ?_⟩
  · cases y with
    | finite negative' m' =>
        rw [hself]
        exact (Magnitude.nearest_of_isRounding hround m').1.trans (hother negative' m')
    | infinity _ => contradiction
    | nan => contradiction
  · cases y with
    | finite negative' m' =>
        rw [hself] at htie
        obtain ⟨hle, heven⟩ := Magnitude.nearest_of_isRounding hround m'
        have hsame : |m'.value - size| = |m.value - size| :=
          le_antisymm ((hother negative' m').trans_eq htie) hle
        by_cases hm' : m' = m
        · -- Then the two differ in their signs, but the magnitude is not farther away than zero.
          subst hm'
          have hsigns : negative' = !negative := by
            rcases Bool.eq_or_eq_not negative' negative with rfl | hsigns
            · exact absurd rfl hne
            · exact hsigns
          subst hsigns
          have hapart : m'.value + size = |m'.value - size| :=
            (abs_signed_not_sub negative hm hsize).symm.trans htie
          have hzero : |m'.value - size| ≤ |Magnitude.zero.value - size| :=
            (Magnitude.nearest_of_isRounding hround .zero).1
          rw [Magnitude.value_zero, zero_sub, abs_neg, abs_of_nonneg hsize] at hzero
          have hvalue : m'.value = 0 := by linarith
          refine absurd ?_ hne
          rw [value, value, hvalue, signed_zero, signed_zero]
        · exact heven hm' hsame
    | infinity _ => contradiction
    | nan => contradiction

/-- How far a number is from another one can be seen with the sign on the other side. -/
theorem abs_finite_sub (negative : Bool) (m : Magnitude) (q : ℚ) :
    |(finite negative m).value - q| = |m.value - signed negative q| := by
  cases negative with
  | false => rfl
  | true =>
      show |-m.value - q| = |m.value - -q|
      rw [← neg_add', abs_neg, sub_neg_eq_add]

/-- No two numbers with the same sign are both nearest. -/
theorem not_isNearest_of_lt {negative : Bool} {m m' : Magnitude} {q : ℚ}
    (hlt : m.units < m'.units) (hm : (finite negative m).IsNearest q) :
    ¬(finite negative m').IsNearest q := by
  intro hm'
  have hvalue := Magnitude.value_lt_value hlt
  have hne : (finite negative m').value ≠ (finite negative m).value :=
    mt (signed_inj negative).1 hvalue.ne'
  have htie := le_antisymm (hm'.nearest (finite negative m) rfl) (hm.nearest _ rfl)
  -- Both significands are even, so there is a number between the two, and it is nearer.
  obtain ⟨units, hgap, hleft, hright⟩ := exists_between_of_even m.gap_dvd_units
    m'.gap_dvd_units hlt (hm.even_of_tie _ rfl hne htie)
    (hm'.even_of_tie _ rfl hne.symm htie.symm)
  let middle : Magnitude := ⟨units, hgap, hright.trans m'.units_lt⟩
  have hnear := hm.nearest (finite negative middle) rfl
  have hnear' := hm'.nearest (finite negative middle) rfl
  rw [abs_finite_sub, abs_finite_sub] at hnear hnear'
  have hleft : m.value < middle.value := Magnitude.value_lt_value hleft
  have hright : middle.value < m'.value := Magnitude.value_lt_value hright
  linarith [two_mul_le_add_of_abs_le hleft hnear, add_le_two_mul_of_abs_le hright hnear']

theorem IsNearest.unique {negative : Bool} {m m' : Magnitude} {q : ℚ}
    (hm : (finite negative m).IsNearest q) (hm' : (finite negative m').IsNearest q) : m = m' := by
  rcases lt_trichotomy m.units m'.units with hlt | heq | hgt
  · exact absurd hm' (not_isNearest_of_lt hlt hm)
  · exact Magnitude.units_inj.1 heq
  · exact absurd hm (not_isNearest_of_lt hgt hm')

theorem signed_natAbs (n : ℤ) : signed (n < 0) n.natAbs = n := by
  rcases lt_or_ge n 0 with hneg | hnonneg
  · have habs : (n.natAbs : ℤ) = -n := Int.ofNat_natAbs_of_nonpos hneg.le
    rw [signed, if_pos (decide_eq_true hneg), ← Int.cast_natCast, habs, Int.cast_neg, neg_neg]
  · have habs : (n.natAbs : ℤ) = n := Int.natAbs_of_nonneg hnonneg
    rw [signed, if_neg (by simpa using hnonneg), ← Int.cast_natCast, habs]

theorem value_eq_of_toInt? {x : Binary64} {n : ℤ} (hint : x.toInt? = some n) : x.value = n := by
  obtain ⟨negative, m, rfl, hwhole, rfl⟩ := (toInt?_eq_some_iff x n).1 hint
  have hunits : (m.units : ℚ) = m.wholePart * unitsPerOne := by
    exact_mod_cast (Magnitude.wholePart_mul_unitsPerOne hwhole).symm
  have hvalue : m.value = m.wholePart := by
    rw [Magnitude.value, hunits, mul_div_cancel_right₀ _ Magnitude.unitsPerOne_cast_pos.ne']
  rw [value, hvalue, signed]
  cases negative
  · rfl
  · exact (Int.cast_neg _).symm

/-- A finite number that is an integer is converted to that integer. -/
theorem toInt?_eq_some_iff_value_eq {x : Binary64} (hfinite : x.isFinite = true) (n : ℤ) :
    x.toInt? = some n ↔ x.value = n := by
  refine ⟨value_eq_of_toInt?, fun hvalue => ?_⟩
  cases x with
  | finite negative m =>
      have hsize : m.value = n.natAbs := by
        rw [← abs_of_nonneg m.value_nonneg, ← abs_signed negative, ← value, hvalue,
          Nat.cast_natAbs, Int.cast_abs]
      have hunits : m.units = n.natAbs * unitsPerOne := by
        have hcast := m.value_mul_unitsPerOne
        rw [hsize] at hcast
        exact_mod_cast hcast.symm
      have hwhole : m.isWhole = true := by
        rw [Magnitude.isWhole, hunits, Nat.mul_mod_left]
        rfl
      have hint := (toInt?_eq_some_iff (finite negative m) _).2 ⟨negative, m, rfl, hwhole, rfl⟩
      rw [hint]
      exact congrArg some (by exact_mod_cast (value_eq_of_toInt? hint).symm.trans hvalue)
  | infinity _ => contradiction
  | nan => contradiction

/-- The number that an integer is converted to is nearest to the integer. -/
theorem isNearest_of_ofInt? {n : ℤ} {x : Binary64} (hint : ofInt? n = some x) :
    x.IsNearest n := by
  obtain ⟨m, hround, rfl⟩ := Option.map_eq_some_iff.1 hint
  have hunits := Magnitude.isRounding_of_round? Nat.one_pos hround
  rw [Nat.cast_one, div_one] at hunits
  have hnearest := isNearest_of_isRounding (n < 0) (Nat.cast_nonneg _) hunits
  rwa [signed_natAbs] at hnearest

theorem ofInt?_eq_none_iff (n : ℤ) : ofInt? n = none ↔ 2 ^ 1024 - 2 ^ 970 ≤ |(n : ℚ)| := by
  have hround := Magnitude.round?_eq_none_iff n.natAbs Nat.one_pos
  rw [ofInt?, Option.map_eq_none_iff, hround, Nat.cast_one, div_one, ← signed_natAbs n, abs_signed,
    abs_of_nonneg (Nat.cast_nonneg _)]

/-- The first of the sixty-four bits is the sign. -/
theorem msb_assemble (negative : Bool) (exponent fraction : ℕ) :
    (assemble negative exponent fraction).msb = negative := by
  have hfields : (BitVec.ofBool negative ++ BitVec.ofNat 11 exponent ++
      BitVec.ofNat 52 fraction).msb = negative := by
    rw [BitVec.msb_append, BitVec.msb_append]
    cases negative <;> rfl
  exact hfields

end Binary64

end Sexp
