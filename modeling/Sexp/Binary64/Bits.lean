import Sexp.Binary64.Basic

/-!
# The 64-bit interchange format

A number is stored as a sign bit, eleven exponent bits and fifty-two fraction
bits.  The exponent field `0` holds the fraction itself in units; a field `e`
up to `2046` holds the fraction with a leading one, shifted left `e - 1` places;
the field `2047` holds the infinities, with no fraction, and NaN.
-/

namespace Sexp

-- The powers here are those of natural numbers.
attribute [local instance (2000)] instPowNat

namespace Magnitude

/-- The units that the exponent and fraction fields of a finite number denote. -/
def unitsOfFields (exponent fraction : Nat) : Nat :=
  if exponent = 0 then fraction else (2 ^ (52 : Nat) + fraction) * 2 ^ (exponent - 1)

theorem gap_dvd_unitsOfFields {exponent fraction : Nat} (hfraction : fraction < 2 ^ (52 : Nat)) :
    gap (unitsOfFields exponent fraction) ∣ unitsOfFields exponent fraction := by
  unfold unitsOfFields
  split
  · simpa using gap_dvd_mul_two_pow (show fraction ≤ 2 ^ (53 : Nat) by omega) 0
  · exact gap_dvd_mul_two_pow (by omega) _

/-- Fewer than `2 ^ 53` steps of at most the widest gap stay below the limit. -/
theorem mul_two_pow_lt_unitLimit {k e : Nat} (hk : k < 2 ^ (53 : Nat)) (he : e ≤ 2045) :
    k * 2 ^ e < unitLimit := by
  have hlimit : unitLimit = 2 ^ (53 : Nat) * 2 ^ (2045 - e) * 2 ^ e := by
    rw [unitLimit_eq_mul (show 53 + (2045 - e) + e = 2098 by omega), Nat.pow_add]
  rw [hlimit]
  refine Nat.mul_lt_mul_of_pos_right (Nat.lt_of_lt_of_le hk ?_) (Nat.two_pow_pos e)
  exact Nat.le_mul_of_pos_right _ (Nat.two_pow_pos _)

theorem unitsOfFields_lt {exponent fraction : Nat} (hexponent : exponent < 2047)
    (hfraction : fraction < 2 ^ (52 : Nat)) : unitsOfFields exponent fraction < unitLimit := by
  unfold unitsOfFields
  split
  · simpa using mul_two_pow_lt_unitLimit (show fraction < 2 ^ (53 : Nat) by omega) (Nat.zero_le _)
  · exact mul_two_pow_lt_unitLimit (by omega) (by omega)

/-- The exponent field of a magnitude. -/
def exponentField (m : Magnitude) : Nat :=
  if m.units < 2 ^ (52 : Nat) then 0 else m.units.log2 - 51

end Magnitude

namespace Binary64

/-- The number stored in sixty-four bits. -/
def ofBits (bits : BitVec 64) : Binary64 :=
  let negative := bits.msb
  let exponent := (bits.extractLsb' 52 11).toNat
  let fraction := bits.extractLsb' 0 52
  if hexponent : exponent < 2047 then
    finite negative ⟨Magnitude.unitsOfFields exponent fraction.toNat,
      Magnitude.gap_dvd_unitsOfFields fraction.isLt,
      Magnitude.unitsOfFields_lt hexponent fraction.isLt⟩
  else if fraction = 0 then infinity negative
  else nan

/-- Sixty-four bits from a sign, an exponent and a fraction, of which only the
bits of the field are kept. -/
def assemble (negative : Bool) (exponent fraction : Nat) : BitVec 64 :=
  BitVec.ofBool negative ++ BitVec.ofNat 11 exponent ++ BitVec.ofNat 52 fraction

/-- The sixty-four bits of a number. -/
def toBits : Binary64 → BitVec 64
  | finite negative m => assemble negative m.exponentField (m.units / gap m.units)
  | infinity negative => assemble negative 2047 0
  | nan => assemble false 2047 (2 ^ (51 : Nat))

end Binary64

end Sexp
