/-!
# 64-bit floating point numbers

The size of a finite 64-bit floating point number is counted in units of
`2 ^ (-1074)`, the smallest size above zero.  A number of units is a magnitude
when at most its 53 leading bits are in use, that is, when it is a multiple of
the gap between neighbouring magnitudes of its size, and when it is below
`2 ^ 2098` units, which is `2 ^ 1024`.

Every rational number below the limit has a nearest magnitude.  `Magnitude.round?`
finds it, takes the one with the even significand of two that are equally near,
and gives nothing when the nearest value on the unlimited grid is at the limit.

A number is finite, with a sign and a magnitude, or infinite, or not a number.
Zero has two signs.  `Binary64.equal` is the equality of arithmetic, in which the
two zeros are equal and NaN is equal to nothing; it differs from the equality of
the type in these two points only.
-/

namespace Sexp

-- The powers here are those of natural numbers.
attribute [local instance (2000)] instPowNat

/-! ## Rounding a quotient -/

/-- The integer nearest to `num / den`, and the even one of two nearest. -/
def roundQuotient (num den : Nat) : Nat :=
  if 2 * (num % den) < den then num / den
  else if den < 2 * (num % den) then num / den + 1
  else num / den + (num / den) % 2

theorem div_le_roundQuotient (num den : Nat) : num / den ≤ roundQuotient num den := by
  unfold roundQuotient
  split
  · exact Nat.le_refl _
  · split <;> omega

theorem roundQuotient_le_div_add_one (num den : Nat) :
    roundQuotient num den ≤ num / den + 1 := by
  unfold roundQuotient
  split
  · omega
  · split <;> omega

/-- A quotient that is an integer is its own rounding. -/
theorem roundQuotient_mul (k : Nat) {den : Nat} (hden : 0 < den) :
    roundQuotient (k * den) den = k := by
  simp [roundQuotient, Nat.mul_mod_left, Nat.mul_div_cancel k hden, hden]

example : roundQuotient 5 2 = 2 ∧ roundQuotient 7 2 = 4 := by decide

/-! ## Magnitudes -/

/-- The distance between neighbouring magnitudes near a number of units. -/
def gap (units : Nat) : Nat := 2 ^ (units.log2 - 52)

def unitsPerOne : Nat := 2 ^ (1074 : Nat)

/-- The number of units that is too large for a magnitude. -/
def unitLimit : Nat := 2 ^ (2098 : Nat)

theorem gap_pos (units : Nat) : 0 < gap units := Nat.two_pow_pos _

theorem unitsPerOne_pos : 0 < unitsPerOne := by
  unfold unitsPerOne
  exact Nat.two_pow_pos 1074

theorem unitLimit_pos : 0 < unitLimit := by
  unfold unitLimit
  exact Nat.two_pow_pos 2098

/-- The limit as a product of two powers of two. -/
theorem unitLimit_eq_mul {a b : Nat} (h : a + b = 2098) : unitLimit = 2 ^ a * 2 ^ b := by
  unfold unitLimit
  rw [← h, Nat.pow_add]

/-- At most `2 ^ 53` steps of a power of two end on the grid. -/
theorem gap_dvd_mul_two_pow {k : Nat} (hk : k ≤ 2 ^ (53 : Nat)) (e : Nat) :
    gap (k * 2 ^ e) ∣ k * 2 ^ e := by
  rcases Nat.eq_zero_or_pos k with rfl | hpos
  · simp
  have hne : k * 2 ^ e ≠ 0 := Nat.mul_ne_zero (by omega) (Nat.ne_of_gt (Nat.two_pow_pos e))
  rcases Nat.lt_or_eq_of_le hk with hlt | rfl
  · have hlog : (k * 2 ^ e).log2 < 53 + e := by
      rw [Nat.log2_lt hne, Nat.pow_add]
      exact Nat.mul_lt_mul_of_pos_right hlt (Nat.two_pow_pos e)
    exact Nat.dvd_trans (Nat.pow_dvd_pow 2 (by omega)) (Nat.dvd_mul_left _ _)
  · rw [← Nat.pow_add]
    simp only [gap, Nat.log2_two_pow]
    exact Nat.pow_dvd_pow 2 (by omega)

/-- A number of units holds fewer than `2 ^ 53` of its gaps. -/
theorem div_gap_lt (units : Nat) : units / gap units < 2 ^ (53 : Nat) := by
  refine Nat.div_lt_of_lt_mul (Nat.lt_of_lt_of_le Nat.lt_log2_self ?_)
  rw [gap, ← Nat.pow_add]
  exact Nat.pow_le_pow_right (by decide) (by omega)

/-- The grid point nearest to `num / den` units, and the one with the even
significand of two nearest. -/
def roundToGrid (num den : Nat) : Nat :=
  roundQuotient num (den * gap (num / den)) * gap (num / den)

theorem gap_dvd_roundToGrid (num den : Nat) :
    gap (roundToGrid num den) ∣ roundToGrid num den := by
  refine gap_dvd_mul_two_pow ?_ _
  have hround := roundQuotient_le_div_add_one num (den * gap (num / den))
  have hquot := div_gap_lt (num / den)
  rw [Nat.div_div_eq_div_mul] at hquot
  omega

/-- The size of a finite number, in units of `2 ^ (-1074)`. -/
structure Magnitude where
  units : Nat
  gap_dvd_units : gap units ∣ units
  units_lt : units < unitLimit
  deriving DecidableEq

namespace Magnitude

def zero : Magnitude := ⟨0, Nat.dvd_zero _, unitLimit_pos⟩

/-- The magnitude nearest to `num / den`, unless that is past the largest one. -/
def round? (num den : Nat) : Option Magnitude :=
  let units := roundToGrid (num * unitsPerOne) den
  if h : units < unitLimit then some ⟨units, gap_dvd_roundToGrid _ _, h⟩ else none

def isWhole (m : Magnitude) : Bool := m.units % unitsPerOne == 0

def wholePart (m : Magnitude) : Nat := m.units / unitsPerOne

end Magnitude

/-! ## Numbers -/

/-- A 64-bit floating point number.  NaN carries no payload. -/
inductive Binary64
  | finite (negative : Bool) (magnitude : Magnitude)
  | infinity (negative : Bool)
  | nan
  deriving DecidableEq

namespace Binary64

def isFinite : Binary64 → Bool
  | finite _ _ => true
  | _ => false

/-- Equality in arithmetic. -/
def equal : Binary64 → Binary64 → Bool
  | finite negative m, finite negative' m' =>
      m == m' && (negative == negative' || m.units == 0)
  | infinity negative, infinity negative' => negative == negative'
  | _, _ => false

/-- The exact value of a finite number that is whole; either zero is `0`. -/
def toInt? : Binary64 → Option Int
  | finite negative m =>
      if m.isWhole then
        some (if negative then -(m.wholePart : Int) else m.wholePart)
      else
        none
  | _ => none

/-- The number nearest to an integer, unless that is past the largest one. -/
def ofInt? (n : Int) : Option Binary64 :=
  (Magnitude.round? n.natAbs 1).map (finite (n < 0))

theorem equal_nan_left (x : Binary64) : equal nan x = false := rfl

end Binary64

end Sexp
