import Mathlib.Algebra.Order.Field.Basic
import Mathlib.Algebra.Order.Field.Rat
import Mathlib.Algebra.Ring.Parity
import Mathlib.Tactic.Linarith
import Mathlib.Tactic.NormNum
import Mathlib.Tactic.Ring
import Sexp.Binary64.Basic

/-!
# Rounding

Rounding depends on the number that a fraction denotes and not on its numerator and
denominator: a common factor can be cancelled, and fractions that are equal by cross
multiplication have the same nearest magnitude.  A fraction that denotes a magnitude
exactly is rounded to that magnitude.

A quotient lies between two neighbouring integers and is rounded to the one that is not
farther away, and in the middle to the even one.  So no integer is nearer to it than the
one that it is rounded to.

Between a number and the two grid points around it there is no other point of the grid,
although the steps of the grid change from binade to binade.  So rounding to the grid finds
the nearest point, and of two that are equally near the one with the even significand.
Rounding is monotone, and a number is rounded past the last point of a binade exactly from
the middle between that point and the next one on.
-/

namespace Sexp

-- The powers of natural numbers in the definitions are the core ones.
attribute [local instance (2000)] instPowNat

/-! ## Fractions of one value -/

/-- A common factor of numerator and denominator does not change the nearest integer. -/
theorem roundQuotient_mul_right (num den : Nat) {k : Nat} (hk : 0 < k) :
    roundQuotient (num * k) (den * k) = roundQuotient num den := by
  have hquot : num * k / (den * k) = num / den := Nat.mul_div_mul_right num den hk
  have hrem : 2 * (num * k % (den * k)) = 2 * (num % den) * k := by
    rw [Nat.mul_mod_mul_right, Nat.mul_assoc]
  have hlow : 2 * (num % den) * k < den * k ↔ 2 * (num % den) < den :=
    Nat.mul_lt_mul_right hk
  have hhigh : den * k < 2 * (num % den) * k ↔ den < 2 * (num % den) :=
    Nat.mul_lt_mul_right hk
  simp only [roundQuotient, hquot, hrem, hlow, hhigh]

theorem roundToGrid_mul_right (num den : Nat) {k : Nat} (hk : 0 < k) :
    roundToGrid (num * k) (den * k) = roundToGrid num den := by
  have hquot : num * k / (den * k) = num / den := Nat.mul_div_mul_right num den hk
  have hstep : den * k * gap (num / den) = den * gap (num / den) * k := Nat.mul_right_comm ..
  rw [roundToGrid, hquot, hstep, roundQuotient_mul_right num _ hk, roundToGrid]

/-- A grid point is its own nearest grid point. -/
theorem roundToGrid_mul_of_gap_dvd {units den : Nat} (hgap : gap units ∣ units)
    (hden : 0 < den) : roundToGrid (units * den) den = units := by
  obtain ⟨k, hk⟩ := hgap
  have hpos : 0 < den * gap units := Nat.mul_pos hden (gap_pos units)
  have hnum : units * den = k * (den * gap units) := by
    rw [Nat.mul_comm den, ← Nat.mul_assoc, Nat.mul_comm k, ← hk]
  rw [roundToGrid, Nat.mul_div_cancel units hden, hnum, roundQuotient_mul k hpos,
    Nat.mul_comm, ← hk]

namespace Magnitude

theorem round?_mul_right (num den : Nat) {k : Nat} (hk : 0 < k) :
    round? (num * k) (den * k) = round? num den := by
  have hnum : num * k * unitsPerOne = num * unitsPerOne * k := Nat.mul_right_comm ..
  simp only [round?, hnum, roundToGrid_mul_right _ _ hk]

/-- Fractions of one value have the same nearest magnitude. -/
theorem round?_eq_of_cross {num den num' den' : Nat} (hden : 0 < den) (hden' : 0 < den')
    (hcross : num * den' = num' * den) : round? num den = round? num' den' := by
  rw [← round?_mul_right num den hden', hcross, Nat.mul_comm den den',
    round?_mul_right num' den' hden]

/-- A fraction of the exact size of a magnitude is rounded to that magnitude. -/
theorem round?_eq_some_of_exact (m : Magnitude) {num den : Nat} (hden : 0 < den)
    (hexact : num * unitsPerOne = m.units * den) : round? num den = some m := by
  have hgrid := roundToGrid_mul_of_gap_dvd m.gap_dvd_units hden
  simp only [round?, hexact, hgrid, m.units_lt, dite_true]

end Magnitude

/-! ## The nearest integer -/

section Quotient

variable (num : ℕ) {den : ℕ}

theorem div_eq_div_add_mod (hden : 0 < den) :
    (num : ℚ) / den = ↑(num / den) + ↑(num % den) / den := by
  have hpos : (den : ℚ) ≠ 0 := by exact_mod_cast hden.ne'
  rw [div_eq_iff hpos, add_mul, div_mul_cancel₀ _ hpos]
  exact_mod_cast (Nat.div_add_mod' num den).symm

theorem div_le_div_cast (hden : 0 < den) : (↑(num / den) : ℚ) ≤ num / den := by
  rw [div_eq_div_add_mod num hden]
  exact le_add_of_nonneg_right (div_nonneg (Nat.cast_nonneg _) (Nat.cast_nonneg _))

theorem div_cast_lt_div_add_one (hden : 0 < den) : (num : ℚ) / den < ↑(num / den) + 1 := by
  have hpos : (0 : ℚ) < den := by exact_mod_cast hden
  rw [div_eq_div_add_mod num hden, add_lt_add_iff_left, div_lt_one hpos]
  exact_mod_cast Nat.mod_lt num hden

/-- A quotient is rounded to one of its two neighbours, which is not farther away than the other. -/
theorem roundQuotient_cases (hden : 0 < den) :
    roundQuotient num den = num / den ∧
        (num : ℚ) / den - ↑(num / den) ≤ ↑(num / den) + 1 - num / den ∨
      roundQuotient num den = num / den + 1 ∧
        ↑(num / den) + 1 - (num : ℚ) / den ≤ num / den - ↑(num / den) := by
  have hpos : (0 : ℚ) < den := by exact_mod_cast hden
  have hlow : 2 * (num % den) ≤ den → 2 * ((↑(num % den) : ℚ) / den) ≤ 1 := by
    rw [mul_div_assoc', div_le_one hpos]
    exact_mod_cast id
  have hhigh : den ≤ 2 * (num % den) → 1 ≤ 2 * ((↑(num % den) : ℚ) / den) := by
    rw [mul_div_assoc', one_le_div hpos]
    exact_mod_cast id
  rw [div_eq_div_add_mod num hden]
  unfold roundQuotient
  split
  · exact .inl ⟨rfl, by linarith [hlow (by omega)]⟩
  · split
    · exact .inr ⟨rfl, by linarith [hhigh (by omega)]⟩
    · rcases Nat.mod_two_eq_zero_or_one (num / den) with heven | hodd
      · exact .inl ⟨by rw [heven, Nat.add_zero], by linarith [hlow (by omega)]⟩
      · exact .inr ⟨by rw [hodd], by linarith [hhigh (by omega)]⟩

/-- In the middle of two integers a quotient is rounded to the even one. -/
theorem even_roundQuotient (hden : 0 < den)
    (htie : (num : ℚ) / den - ↑(num / den) = ↑(num / den) + 1 - num / den) :
    Even (roundQuotient num den) := by
  have hpos : (den : ℚ) ≠ 0 := by exact_mod_cast hden.ne'
  have hhalf : 2 * ((↑(num % den) : ℚ) / den) = 1 := by
    linarith [div_eq_div_add_mod num hden]
  rw [mul_div_assoc', div_eq_one_iff_eq hpos] at hhalf
  have hmod : 2 * (num % den) = den := by exact_mod_cast hhalf
  rw [roundQuotient, if_neg (by omega), if_neg (by omega), Nat.even_iff]
  omega

/-- No integer is nearer to a quotient than the one that it is rounded to. -/
theorem abs_roundQuotient_sub_le (hden : 0 < den) (k : ℕ) :
    |(roundQuotient num den : ℚ) - num / den| ≤ |(k : ℚ) - num / den| := by
  have hlow := div_le_div_cast num hden
  have hhigh := div_cast_lt_div_add_one num hden
  have hleft := neg_abs_le ((k : ℚ) - num / den)
  have hright := le_abs_self ((k : ℚ) - num / den)
  have hsides : (k : ℚ) ≤ ↑(num / den) ∨ (↑(num / den) : ℚ) + 1 ≤ k := by
    exact_mod_cast Nat.lt_or_ge (num / den) k |>.symm
  rcases roundQuotient_cases num hden with ⟨hround, hnear⟩ | ⟨hround, hnear⟩
  · rw [hround, abs_of_nonpos (by linarith)]
    rcases hsides with hle | hle <;> linarith
  · rw [hround, Nat.cast_add_one, abs_of_nonneg (by linarith)]
    rcases hsides with hle | hle <;> linarith

end Quotient

/-! ## The nearest point of the grid -/

theorem gap_dvd_gap {units units' : Nat} (hlog : units.log2 ≤ units'.log2) :
    gap units ∣ gap units' :=
  Nat.pow_dvd_pow 2 (by omega)

/-- Between the grid point that is reached by whole steps below a number of units and the next
one there is no other grid point. -/
theorem le_or_le_of_gap_dvd (units : Nat) {other : Nat} (hother : gap other ∣ other) :
    other ≤ units / gap units * gap units ∨ (units / gap units + 1) * gap units ≤ other := by
  by_cases hlog : units.log2 ≤ other.log2
  · -- The grid is not finer out there, so the other point is a step of this grid too.
    obtain ⟨steps, rfl⟩ := Nat.dvd_trans (gap_dvd_gap hlog) hother
    rw [Nat.mul_comm (gap units)]
    rcases Nat.lt_or_ge (units / gap units) steps with hlt | hle
    · exact .inr (Nat.mul_le_mul_right _ hlt)
    · exact .inl (Nat.mul_le_mul_right _ hle)
  · -- The first point of the binade is a step of the grid and lies between the two.
    have hunits : units ≠ 0 := by
      rintro rfl
      simp at hlog
    obtain ⟨steps, hfirst⟩ : gap units ∣ 2 ^ units.log2 := Nat.pow_dvd_pow 2 (Nat.sub_le _ _)
    have hother : other < 2 ^ units.log2 :=
      Nat.lt_of_lt_of_le Nat.lt_log2_self (Nat.pow_le_pow_right (by decide) (by omega))
    have hsteps : steps ≤ units / gap units := by
      rw [Nat.le_div_iff_mul_le (gap_pos units), Nat.mul_comm, ← hfirst]
      exact Nat.log2_self_le hunits
    refine .inl (Nat.le_trans (Nat.le_of_lt hother) ?_)
    rw [hfirst, Nat.mul_comm]
    exact Nat.mul_le_mul_right _ hsteps

/-- Farther steps keep their width up to the end of the binade. -/
theorem gap_steps_mul_gap {units steps : Nat} (hle : units / gap units ≤ steps)
    (hlt : steps < 2 ^ (53 : Nat)) : gap (steps * gap units) = gap units := by
  by_cases hlog : units.log2 ≤ 52
  · have hgap : gap units = 1 := by
      rw [gap, Nat.sub_eq_zero_of_le hlog, Nat.pow_zero]
    have hsteps : steps.log2 < 53 := by
      rcases Nat.eq_zero_or_pos steps with rfl | hpos
      · decide
      · exact (Nat.log2_lt (Nat.ne_of_gt hpos)).2 hlt
    rw [hgap, Nat.mul_one, gap, Nat.sub_eq_zero_of_le (Nat.le_of_lt_succ hsteps), Nat.pow_zero]
  · have hfirst : 2 ^ (52 : Nat) ≤ steps := by
      refine Nat.le_trans ?_ hle
      rw [Nat.le_div_iff_mul_le (gap_pos units), gap, ← Nat.pow_add]
      have hself := Nat.log2_self_le (show units ≠ 0 by rintro rfl; simp at hlog)
      rwa [show 52 + (units.log2 - 52) = units.log2 by omega]
    have hpos := gap_pos units
    have hsteps : (steps * gap units).log2 = 52 + (units.log2 - 52) := by
      rw [Nat.log2_eq_iff (Nat.mul_ne_zero (by omega) (Nat.ne_of_gt hpos)), gap, Nat.pow_add,
        show 52 + (units.log2 - 52) + 1 = 53 + (units.log2 - 52) by omega, Nat.pow_add 2 53]
      exact ⟨Nat.mul_le_mul_right _ hfirst, Nat.mul_lt_mul_of_pos_right hlt (Nat.two_pow_pos _)⟩
    rw [gap, hsteps, gap, Nat.add_sub_cancel_left]

/-- An even number of steps leads to a point with an even significand, also at the end of the
binade, where the steps become twice as wide. -/
theorem even_significand (units : Nat) {steps : Nat} (hle : units / gap units ≤ steps)
    (hsteps : steps ≤ 2 ^ (53 : Nat)) (heven : Even steps) :
    Even (steps * gap units / gap (steps * gap units)) := by
  rcases Nat.lt_or_eq_of_le hsteps with hlt | rfl
  · rw [gap_steps_mul_gap hle hlt, Nat.mul_div_cancel _ (gap_pos units)]
    exact heven
  · have hgap : gap (2 ^ (53 : Nat) * gap units) = 2 * gap units := by
      rw [gap, gap, ← Nat.pow_add, Nat.log2_two_pow, ← Nat.pow_succ']
      congr 1
      omega
    rw [hgap, show 2 ^ (53 : Nat) = 2 ^ (52 : Nat) * 2 by decide, Nat.mul_assoc,
      Nat.mul_div_cancel _ (Nat.mul_pos Nat.two_pos (gap_pos units))]
    exact ⟨2 ^ (51 : Nat), by decide⟩

/-- The significands of neighbouring grid points are not both even. -/
theorem exists_between_of_even {units units' : ℕ} (hgap : gap units ∣ units)
    (hgap' : gap units' ∣ units') (hlt : units < units') (heven : Even (units / gap units))
    (heven' : Even (units' / gap units')) :
    ∃ middle, gap middle ∣ middle ∧ units < middle ∧ middle < units' := by
  have hself : units / gap units * gap units = units := Nat.div_mul_cancel hgap
  have hfew : units / gap units + 1 ≤ 2 ^ (53 : ℕ) := div_gap_lt units
  have hnext : (units / gap units + 1) * gap units ≤ units' := by
    refine (le_or_le_of_gap_dvd units hgap').resolve_left ?_
    rw [hself]
    exact hlt.not_ge
  refine ⟨(units / gap units + 1) * gap units, gap_dvd_mul_two_pow hfew _, ?_, ?_⟩
  · rw [Nat.add_mul, Nat.one_mul, hself]
    exact Nat.lt_add_of_pos_right (gap_pos units)
  · refine Nat.lt_of_le_of_ne hnext fun heq => ?_
    rw [← heq] at heven'
    rcases Nat.lt_or_eq_of_le hfew with hlt | hend
    · -- In one binade the significands of neighbours are consecutive.
      rw [gap_steps_mul_gap (Nat.le_succ _) hlt, Nat.mul_div_cancel _ (gap_pos units)] at heven'
      exact Nat.even_add_one.1 heven' heven
    · -- The last significand of a binade is odd.
      have hlast : Even (units / gap units + 1) := hend ▸ ⟨2 ^ (52 : ℕ), by decide⟩
      exact Nat.even_add_one.1 hlast heven

/-- A grid point is the rounding of a rational number of units when no other one is nearer, and
when its significand is even if another one is equally near. -/
structure IsRounding (units : ℕ) (x : ℚ) : Prop where
  gap_dvd : gap units ∣ units
  nearest : ∀ other, gap other ∣ other → |(units : ℚ) - x| ≤ |(other : ℚ) - x|
  even_of_tie : ∀ other, gap other ∣ other → other ≠ units →
    |(other : ℚ) - x| = |(units : ℚ) - x| → Even (units / gap units)

/-- Of the two neighbours of a number the nearer one is its rounding, and the one with the even
significand if they are equally near. -/
theorem isRounding_of_sides (lower upper : ℕ) {units : ℕ} {x : ℚ} (hlower : (lower : ℚ) ≤ x)
    (hupper : x ≤ upper) (hsides : ∀ other, gap other ∣ other → other ≤ lower ∨ upper ≤ other)
    (hgap : gap units ∣ units)
    (hunits : units = lower ∧ x - lower ≤ upper - x ∨ units = upper ∧ upper - x ≤ x - lower)
    (heven : x - lower = upper - x → Even (units / gap units)) : IsRounding units x := by
  have hbelow : |(lower : ℚ) - x| = x - lower := by rw [abs_of_nonpos (by linarith), neg_sub]
  have habove : |(upper : ℚ) - x| = upper - x := abs_of_nonneg (by linarith)
  -- No other point is nearer, and one that is equally near can only be the other neighbour.
  have hother : ∀ other, gap other ∣ other → other ≠ units →
      |(units : ℚ) - x| ≤ |(other : ℚ) - x| ∧
        (|(other : ℚ) - x| = |(units : ℚ) - x| → x - lower = upper - x) := by
    intro other hother hne
    have hleft := neg_abs_le ((other : ℚ) - x)
    have hright := le_abs_self ((other : ℚ) - x)
    rcases hunits with ⟨rfl, hnear⟩ | ⟨rfl, hnear⟩
    · rw [hbelow]
      rcases hsides other hother with hle | hle
      · have hlt : (other : ℚ) < units := by exact_mod_cast Nat.lt_of_le_of_ne hle hne
        exact ⟨by linarith, fun heq => by linarith⟩
      · have hle : (upper : ℚ) ≤ other := by exact_mod_cast hle
        exact ⟨by linarith, fun heq => by linarith⟩
    · rw [habove]
      rcases hsides other hother with hle | hle
      · have hle : (other : ℚ) ≤ lower := by exact_mod_cast hle
        exact ⟨by linarith, fun heq => by linarith⟩
      · have hlt : (units : ℚ) < other := by exact_mod_cast Nat.lt_of_le_of_ne hle (Ne.symm hne)
        exact ⟨by linarith, fun heq => by linarith⟩
  refine ⟨hgap, fun other hgrid => ?_, fun other hgrid hne htie => ?_⟩
  · rcases eq_or_ne other units with rfl | hne
    · exact le_rfl
    · exact (hother other hgrid hne).1
  · exact heven ((hother other hgrid hne).2 htie)

/-- Rounding to the grid gives the rounding of the quotient. -/
theorem isRounding_roundToGrid (num : ℕ) {den : ℕ} (hden : 0 < den) :
    IsRounding (roundToGrid num den) ((num : ℚ) / den) := by
  have hstep := gap_pos (num / den)
  have hsteps := Nat.mul_pos hden hstep
  have hpos : (0 : ℚ) < gap (num / den) := by exact_mod_cast hstep
  have hquot : num / den / gap (num / den) = num / (den * gap (num / den)) :=
    Nat.div_div_eq_div_mul ..
  -- Counted in steps of the grid, this is the rounding of a quotient to an integer.
  have hx : (num : ℚ) / den = num / (den * gap (num / den) : ℕ) * gap (num / den) := by
    rw [Nat.cast_mul, div_mul_eq_div_div, div_mul_cancel₀ _ hpos.ne']
  have hbelow (k : ℕ) : (num : ℚ) / den - ↑(k * gap (num / den)) =
      (num / (den * gap (num / den) : ℕ) - k) * gap (num / den) := by
    rw [hx, Nat.cast_mul k, sub_mul]
  have habove (k : ℕ) : ↑((k + 1) * gap (num / den)) - (num : ℚ) / den =
      (k + 1 - num / (den * gap (num / den) : ℕ)) * gap (num / den) := by
    rw [hx, Nat.cast_mul (k + 1), Nat.cast_add_one, sub_mul]
  refine isRounding_of_sides (num / (den * gap (num / den)) * gap (num / den))
    ((num / (den * gap (num / den)) + 1) * gap (num / den)) ?_ ?_ ?_
    (gap_dvd_roundToGrid num den) ?_ ?_
  · rw [← sub_nonneg, hbelow]
    exact mul_nonneg (sub_nonneg.2 (div_le_div_cast num hsteps)) hpos.le
  · rw [← sub_nonneg, habove]
    exact mul_nonneg (sub_nonneg.2 (div_cast_lt_div_add_one num hsteps).le) hpos.le
  · rw [← hquot]
    exact fun other => le_or_le_of_gap_dvd (num / den)
  · rw [hbelow, habove, mul_le_mul_iff_left₀ hpos, mul_le_mul_iff_left₀ hpos]
    exact (roundQuotient_cases num hsteps).imp (And.imp_left (congrArg (· * gap (num / den))))
      (And.imp_left (congrArg (· * gap (num / den))))
  · rw [hbelow, habove, mul_left_inj' hpos.ne']
    intro htie
    refine even_significand (num / den) ?_ ?_ (even_roundQuotient num hsteps htie)
    · exact hquot ▸ div_le_roundQuotient num (den * gap (num / den))
    · have hfew : num / (den * gap (num / den)) < 2 ^ (53 : ℕ) := hquot ▸ div_gap_lt (num / den)
      exact Nat.le_trans (roundQuotient_le_div_add_one num _) hfew

/-- A number that is not farther from the larger of two others is not below their middle. -/
theorem add_le_two_mul_of_abs_le {a b x : ℚ} (hlt : a < b) (hnear : |b - x| ≤ |a - x|) :
    a + b ≤ 2 * x := by
  rcases abs_cases (b - x) with ⟨hb, _⟩ | ⟨hb, _⟩ <;>
    rcases abs_cases (a - x) with ⟨ha, _⟩ | ⟨ha, _⟩ <;> linarith

theorem two_mul_le_add_of_abs_le {a b x : ℚ} (hlt : a < b) (hnear : |a - x| ≤ |b - x|) :
    2 * x ≤ a + b := by
  rcases abs_cases (b - x) with ⟨hb, _⟩ | ⟨hb, _⟩ <;>
    rcases abs_cases (a - x) with ⟨ha, _⟩ | ⟨ha, _⟩ <;> linarith

/-- Rounding is monotone. -/
theorem IsRounding.le_of_lt {units units' : ℕ} {x y : ℚ} (hunits : IsRounding units x)
    (hunits' : IsRounding units' y) (hlt : x < y) : units ≤ units' := by
  by_contra hle
  have hgt : (units' : ℚ) < units := by exact_mod_cast Nat.lt_of_not_le hle
  -- The first number would not lie below the middle of the two points, nor the second above it.
  have hlow := add_le_two_mul_of_abs_le hgt (hunits.nearest units' hunits'.gap_dvd)
  have hhigh := two_mul_le_add_of_abs_le hgt (hunits'.nearest units hunits.gap_dvd)
  linarith

/-- The last point of a binade has the gap of that binade. -/
theorem gap_last (e : ℕ) : gap ((2 ^ (53 : ℕ) - 1) * 2 ^ e) = 2 ^ e := by
  have hgap : gap (2 ^ (52 + e)) = 2 ^ e := by
    rw [gap, Nat.log2_two_pow, Nat.add_sub_cancel_left]
  have hfirst : 2 ^ (52 + e) / gap (2 ^ (52 + e)) ≤ 2 ^ (53 : ℕ) - 1 := by
    rw [hgap, Nat.pow_add, Nat.mul_div_cancel _ (Nat.two_pow_pos e)]
    decide
  have hlast := gap_steps_mul_gap hfirst (by decide)
  rwa [hgap] at hlast

theorem le_last_or_le {units : ℕ} (hgap : gap units ∣ units) (e : ℕ) :
    units ≤ (2 ^ (53 : ℕ) - 1) * 2 ^ e ∨ 2 ^ (53 : ℕ) * 2 ^ e ≤ units := by
  have hsides := le_or_le_of_gap_dvd ((2 ^ (53 : ℕ) - 1) * 2 ^ e) hgap
  rwa [gap_last, Nat.mul_div_cancel _ (Nat.two_pow_pos e)] at hsides

/-- A number is rounded past the last point of a binade from the middle between that point and
the next one on, because the significand of the last point is odd. -/
theorem IsRounding.le_iff {units : ℕ} {x : ℚ} (hunits : IsRounding units x) (e : ℕ) :
    2 ^ (53 : ℕ) * 2 ^ e ≤ units ↔ (2 ^ 54 - 1) * 2 ^ e ≤ 2 * x := by
  have hnext : gap (2 ^ (53 : ℕ) * 2 ^ e) ∣ 2 ^ (53 : ℕ) * 2 ^ e :=
    gap_dvd_mul_two_pow (Nat.le_refl _) e
  have hlast : gap ((2 ^ (53 : ℕ) - 1) * 2 ^ e) ∣ (2 ^ (53 : ℕ) - 1) * 2 ^ e :=
    gap_dvd_mul_two_pow (by decide) e
  have hlt : (2 ^ (53 : ℕ) - 1) * 2 ^ e < 2 ^ (53 : ℕ) * 2 ^ e :=
    Nat.mul_lt_mul_of_pos_right (by decide) (Nat.two_pow_pos e)
  have hodd : ¬Even ((2 ^ (53 : ℕ) - 1) * 2 ^ e / gap ((2 ^ (53 : ℕ) - 1) * 2 ^ e)) := by
    rw [gap_last, Nat.mul_div_cancel _ (Nat.two_pow_pos e)]
    decide
  have hsides := le_last_or_le hunits.gap_dvd e
  have hmiddle : ((2 ^ 54 - 1) * 2 ^ e : ℚ) =
      ↑((2 ^ (53 : ℕ) - 1) * 2 ^ e : ℕ) + ↑(2 ^ (53 : ℕ) * 2 ^ e : ℕ) := by
    push_cast
    ring
  rw [hmiddle]
  generalize (2 ^ (53 : ℕ) - 1) * 2 ^ e = last at *
  generalize 2 ^ (53 : ℕ) * 2 ^ e = next at *
  constructor
  · intro hle
    have hgt : (last : ℚ) < units := by exact_mod_cast Nat.lt_of_lt_of_le hlt hle
    have hle : (next : ℚ) ≤ units := by exact_mod_cast hle
    linarith [add_le_two_mul_of_abs_le hgt (hunits.nearest last hlast)]
  · intro hle
    by_contra hless
    have hbelow : (units : ℚ) ≤ last := by exact_mod_cast hsides.resolve_right hless
    have hgt : (units : ℚ) < next := by exact_mod_cast Nat.lt_of_not_le hless
    have hhigh := two_mul_le_add_of_abs_le hgt (hunits.nearest next hnext)
    -- The number is in the middle, and its rounding is the last point.
    have hunits_eq : units = last := by exact_mod_cast (show (units : ℚ) = last by linarith)
    subst hunits_eq
    have htie : |(next : ℚ) - x| = |(units : ℚ) - x| := by
      rw [show (next : ℚ) - x = -(units - x) by linarith, abs_neg]
    exact hodd (hunits.even_of_tie next hnext hlt.ne' htie)

end Sexp
