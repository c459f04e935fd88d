import Mathlib.Algebra.Order.Group.Pointwise.Interval
import Sexp.Proofs.Decimal.Significant
import Sexp.Proofs.Decimal.Spelling

/-!
# The shortest decimal

The decimals that read back as a magnitude form an interval around it.  So on a decimal grid
only the two neighbours of the magnitude have to be tried, and the one that is found is
nearest to the magnitude of all points of the grid that read back.  No coarser grid has such
a point.  Therefore no decimal that reads back has fewer significant digits than the one
that is found, and none with as many is nearer to the magnitude.
-/

namespace Sexp

-- The powers of natural numbers in the definitions are the core ones.
attribute [local instance (2000)] instPowNat

namespace Decimal

theorem units_le_of_value_le {d d' : Decimal} {m m' : Magnitude} (hread : d.toMagnitude? = some m)
    (hread' : d'.toMagnitude? = some m') (hle : d.value ≤ d'.value) : m.units ≤ m'.units := by
  rcases hle.lt_or_eq with hlt | heq
  · exact (isRounding_of_toMagnitude? hread).le_of_lt (isRounding_of_toMagnitude? hread')
      (mul_lt_mul_of_pos_right hlt Magnitude.unitsPerOne_cast_pos)
  · rw [toMagnitude?_eq_of_value_eq heq, hread'] at hread
    rw [Option.some.inj hread]

/-- What lies between two decimals of one magnitude has that magnitude. -/
theorem toMagnitude?_of_between {low d high : Decimal} {m : Magnitude}
    (hlow : low.toMagnitude? = some m) (hhigh : high.toMagnitude? = some m)
    (hle : low.value ≤ d.value) (hle' : d.value ≤ high.value) : d.toMagnitude? = some m := by
  cases hread : d.toMagnitude? with
  | none =>
      have hnone := (toMagnitude?_eq_none_iff high).2
        (((toMagnitude?_eq_none_iff d).1 hread).trans hle')
      exact nomatch hnone.symm.trans hhigh
  | some m' =>
      have hunits : m'.units = m.units := Nat.le_antisymm
        (units_le_of_value_le hread hhigh hle') (units_le_of_value_le hlow hread hle)
      rw [Magnitude.units_inj.1 hunits]

theorem value_ne_zero_of_toMagnitude? {d : Decimal} {m : Magnitude}
    (hread : d.toMagnitude? = some m) (hm : m.units ≠ 0) : d.value ≠ 0 := by
  intro hvalue
  have hzero := (isRounding_of_toMagnitude? hread).nearest 0 (Nat.dvd_zero _)
  rw [hvalue, zero_mul, Nat.cast_zero, sub_zero, sub_zero, abs_zero] at hzero
  exact hm (by exact_mod_cast abs_nonpos_iff.1 hzero)

end Decimal

namespace Magnitude

/-- A magnitude is a decimal itself, on the finest grid of the search. -/
theorem value_decimalSteps (m : Magnitude) :
    (Decimal.mk m.decimalSteps (-1074)).value = m.value := by
  have hsteps : ∀ n k : ℕ, ((n * 5 ^ k : ℕ) : ℚ) * (10 : ℚ) ^ (-(k : ℤ)) = n / (2 ^ k : ℕ) := by
    intro n k
    have hten : ((n * 5 ^ k : ℕ) : ℚ) * (2 ^ k : ℕ) = n * (10 : ℚ) ^ k := by
      exact_mod_cast mul_five_pow_mul_two_pow n k
    have htwo : ((2 ^ k : ℕ) : ℚ) ≠ 0 := by exact_mod_cast (Nat.two_pow_pos k).ne'
    rw [zpow_neg, zpow_natCast, ← div_eq_mul_inv, div_eq_div_iff (by positivity) htwo, hten]
  unfold decimalSteps value unitsPerOne
  exact hsteps m.units 1074

variable {m : Magnitude}

/-- The decimals that read back as a magnitude are an interval around it. -/
theorem toMagnitude?_of_value_le {d d' : Decimal} (hread : d.toMagnitude? = some m)
    (hle : d.value ≤ d'.value) (hle' : d'.value ≤ m.value) : d'.toMagnitude? = some m :=
  Decimal.toMagnitude?_of_between hread (toMagnitude?_finest m) hle
    (hle'.trans_eq (value_decimalSteps m).symm)

theorem toMagnitude?_of_le_value {d d' : Decimal} (hread : d.toMagnitude? = some m)
    (hle : m.value ≤ d'.value) (hle' : d'.value ≤ d.value) : d'.toMagnitude? = some m :=
  Decimal.toMagnitude?_of_between (toMagnitude?_finest m) hread
    ((value_decimalSteps m).trans_le hle) hle'

/-- A point of the decimal grid of a place. -/
def gridPoint (place coefficient : ℕ) : Decimal := ⟨coefficient, (place : ℤ) - 1074⟩

theorem value_gridPoint (place coefficient : ℕ) :
    (gridPoint place coefficient).value = coefficient * (10 : ℚ) ^ ((place : ℤ) - 1074) := rfl

theorem gridPoint_value_le {place coefficient coefficient' : ℕ} (hle : coefficient ≤ coefficient') :
    (gridPoint place coefficient).value ≤ (gridPoint place coefficient').value := by
  rw [value_gridPoint, value_gridPoint]
  exact mul_le_mul_of_nonneg_right (by exact_mod_cast hle) (by positivity)

theorem value_eq_mul_step (m : Magnitude) (place : ℕ) :
    m.value = (m.decimalSteps : ℚ) / (10 ^ place : ℕ) * (10 : ℚ) ^ ((place : ℤ) - 1074) := by
  have hstep : ((10 ^ place : ℕ) : ℚ) = (10 : ℚ) ^ (place : ℤ) := by
    rw [zpow_natCast]
    norm_cast
  rw [← value_decimalSteps, Decimal.value, hstep, zpow_sub₀ (by norm_num),
    div_mul_div_cancel₀ (zpow_ne_zero _ (by norm_num)), zpow_neg, div_eq_mul_inv]

/-- Distances from a magnitude, counted in steps of a decimal grid. -/
theorem abs_gridPoint_sub (m : Magnitude) (place coefficient : ℕ) :
    |(gridPoint place coefficient).value - m.value| =
      |(coefficient : ℚ) - (m.decimalSteps : ℚ) / (10 ^ place : ℕ)| *
        (10 : ℚ) ^ ((place : ℤ) - 1074) := by
  have hstep : (0 : ℚ) < (10 : ℚ) ^ ((place : ℤ) - 1074) := by positivity
  rw [value_gridPoint, value_eq_mul_step m place, ← sub_mul, abs_mul, abs_of_pos hstep]

theorem gridPoint_div_le (m : Magnitude) (place : ℕ) :
    (gridPoint place (m.decimalSteps / 10 ^ place)).value ≤ m.value := by
  rw [value_gridPoint, value_eq_mul_step m place]
  exact mul_le_mul_of_nonneg_right (div_le_div_cast _ (Nat.pow_pos (by decide))) (by positivity)

theorem le_gridPoint_div_add_one (m : Magnitude) (place : ℕ) :
    m.value ≤ (gridPoint place (m.decimalSteps / 10 ^ place + 1)).value := by
  rw [value_gridPoint, value_eq_mul_step m place, Nat.cast_add_one]
  exact mul_le_mul_of_nonneg_right (div_cast_lt_div_add_one _ (Nat.pow_pos (by decide))).le
    (by positivity)

/-- If a point of a grid reads back as a magnitude, so does the neighbour of the magnitude that is
on the same side. -/
theorem neighbour_of_gridPoint {place coefficient : ℕ}
    (hread : (gridPoint place coefficient).toMagnitude? = some m) :
    coefficient ≤ m.decimalSteps / 10 ^ place ∧
        (gridPoint place (m.decimalSteps / 10 ^ place)).toMagnitude? = some m ∨
      m.decimalSteps / 10 ^ place + 1 ≤ coefficient ∧
        (gridPoint place (m.decimalSteps / 10 ^ place + 1)).toMagnitude? = some m := by
  rcases Nat.lt_or_ge (m.decimalSteps / 10 ^ place) coefficient with hlt | hle
  · exact .inr ⟨hlt, toMagnitude?_of_le_value hread (le_gridPoint_div_add_one m place)
      (gridPoint_value_le hlt)⟩
  · exact .inl ⟨hle, toMagnitude?_of_value_le hread (gridPoint_value_le hle)
      (gridPoint_div_le m place)⟩

/-- The neighbours that are tried on a grid: first the nearest point, and then the one on the other
side of the magnitude. -/
theorem neighbours_eq (m : Magnitude) (place : ℕ) :
    ∃ nearer farther, m.neighbours place = [gridPoint place nearer, gridPoint place farther] ∧
      nearer = roundQuotient m.decimalSteps (10 ^ place) ∧
      (nearer = m.decimalSteps / 10 ^ place ∧ farther = m.decimalSteps / 10 ^ place + 1 ∨
        nearer = m.decimalSteps / 10 ^ place + 1 ∧ farther = m.decimalSteps / 10 ^ place) := by
  refine ⟨_, _, rfl, rfl, ?_⟩
  rcases roundQuotient_cases m.decimalSteps (Nat.pow_pos (by decide) : 0 < 10 ^ place) with
    ⟨hround, -⟩ | ⟨hround, -⟩
  · exact .inl ⟨hround, by rw [hround]; omega⟩
  · exact .inr ⟨hround, by rw [hround]; omega⟩

/-- A point of the grid of a place that reads back as a magnitude, and none of those is nearer to
the magnitude. -/
structure IsBestAt (m : Magnitude) (place : ℕ) (d : Decimal) : Prop where
  onGrid : ∃ coefficient ≤ m.decimalSteps / 10 ^ place + 1, d = gridPoint place coefficient
  reads : d.toMagnitude? = some m
  nearest : ∀ coefficient, (gridPoint place coefficient).toMagnitude? = some m →
    |d.value - m.value| ≤ |(gridPoint place coefficient).value - m.value|

theorem abs_gridPoint_roundQuotient_sub_le (m : Magnitude) (place coefficient : ℕ) :
    |(gridPoint place (roundQuotient m.decimalSteps (10 ^ place))).value - m.value| ≤
      |(gridPoint place coefficient).value - m.value| := by
  rw [abs_gridPoint_sub, abs_gridPoint_sub]
  exact mul_le_mul_of_nonneg_right
    (abs_roundQuotient_sub_le _ (Nat.pow_pos (by decide)) coefficient) (by positivity)

/-- The point that is found on a grid is the best one. -/
theorem isBestAt_of_nearestAt?_eq_some {place : ℕ} {d : Decimal}
    (hfound : m.nearestAt? place = some d) : m.IsBestAt place d := by
  obtain ⟨nearer, farther, hneighbours, hround, hsides⟩ := neighbours_eq m place
  have hread : d.toMagnitude? = some m := (isNearest_iff m d).1 (List.find?_some hfound)
  rw [nearestAt?, hneighbours] at hfound
  by_cases hnearer : (gridPoint place nearer).toMagnitude? = some m
  · rw [List.find?_cons_of_pos ((isNearest_iff m _).2 hnearer)] at hfound
    obtain rfl := Option.some.inj hfound
    exact ⟨⟨nearer, by omega, rfl⟩, hread,
      fun coefficient _ => hround ▸ abs_gridPoint_roundQuotient_sub_le m place coefficient⟩
  · -- Then no point on that side reads back, and on the other side this one is the nearest.
    rw [List.find?_cons_of_neg (mt (isNearest_iff m _).1 hnearer)] at hfound
    obtain rfl := List.mem_singleton.1 (List.mem_of_find?_eq_some hfound)
    refine ⟨⟨farther, by omega, rfl⟩, hread, fun coefficient hcoefficient => ?_⟩
    apply Set.abs_sub_left_of_mem_uIcc
    rcases neighbour_of_gridPoint hcoefficient with ⟨hle, hbelow⟩ | ⟨hle, habove⟩
    · obtain ⟨-, rfl⟩ := hsides.resolve_left fun h => hnearer (h.1 ▸ hbelow)
      exact Set.mem_uIcc_of_ge (gridPoint_value_le hle) (gridPoint_div_le m place)
    · obtain ⟨-, rfl⟩ := hsides.resolve_right fun h => hnearer (h.1 ▸ habove)
      exact Set.mem_uIcc_of_le (le_gridPoint_div_add_one m place) (gridPoint_value_le hle)

/-- Where nothing is found on a grid, no point of the grid reads back. -/
theorem not_read_of_nearestAt?_eq_none {place : ℕ} (hnone : m.nearestAt? place = none)
    (coefficient : ℕ) : (gridPoint place coefficient).toMagnitude? ≠ some m := by
  obtain ⟨nearer, farther, hneighbours, -, hsides⟩ := neighbours_eq m place
  rw [nearestAt?, hneighbours, List.find?_eq_none] at hnone
  have hnearer : (gridPoint place nearer).toMagnitude? ≠ some m := fun hread =>
    hnone _ (by simp) ((isNearest_iff m _).2 hread)
  have hfarther : (gridPoint place farther).toMagnitude? ≠ some m := fun hread =>
    hnone _ (by simp) ((isNearest_iff m _).2 hread)
  intro hread
  rcases neighbour_of_gridPoint hread with ⟨-, hbelow⟩ | ⟨-, habove⟩
  · rcases hsides with ⟨rfl, -⟩ | ⟨-, rfl⟩
    · exact hnearer hbelow
    · exact hfarther hbelow
  · rcases hsides with ⟨-, rfl⟩ | ⟨rfl, -⟩
    · exact hfarther habove
    · exact hnearer habove

/-- The place of the first digit of a magnitude. -/
def topPlace (m : Magnitude) : ℕ := (Nat.toDigits 10 m.decimalSteps).length - 1

theorem decimalSteps_lt (m : Magnitude) : m.decimalSteps < 10 ^ (m.topPlace + 1) := by
  have hpos : 0 < (Nat.toDigits 10 m.decimalSteps).length :=
    List.length_pos_of_ne_nil Nat.toDigits_ne_nil
  refine (Nat.length_toDigits_le_iff (by decide) (Nat.succ_pos _)).1 ?_
  rw [topPlace]
  omega

theorem decimalSteps_ne_zero (hm : m.units ≠ 0) : m.decimalSteps ≠ 0 := by
  have hpow : ∀ k : ℕ, 5 ^ k ≠ 0 := fun k => (Nat.pow_pos (by decide)).ne'
  exact Nat.mul_ne_zero hm (hpow 1074)

theorem pow_topPlace_le (hm : m.units ≠ 0) : 10 ^ m.topPlace ≤ m.decimalSteps := by
  by_contra hlt
  have hlt := Nat.lt_of_not_le hlt
  rcases Nat.eq_zero_or_pos m.topPlace with htop | htop
  · rw [htop, Nat.pow_zero] at hlt
    exact decimalSteps_ne_zero hm (Nat.lt_one_iff.1 hlt)
  · have hlength := (Nat.length_toDigits_le_iff (by decide) htop).2 hlt
    rw [topPlace] at hlength htop
    omega

theorem mem_places_iff {place : ℕ} : place ∈ m.places ↔ 1 ≤ place ∧ place ≤ m.topPlace := by
  rw [places, List.mem_reverse, List.mem_range'_1, topPlace]
  omega

/-- The grids are gone through from the coarsest on. -/
theorem pairwise_places (m : Magnitude) : m.places.Pairwise (· > ·) := by
  rw [places, List.pairwise_reverse]
  exact List.pairwise_lt_range' 1

/-- The search ends at the best point of the coarsest grid of which a point reads back. -/
theorem exists_isBestAt_shortest (hm : m.units ≠ 0) :
    ∃ place ≤ m.topPlace, m.IsBestAt place m.shortest ∧
      ∀ coarser, place < coarser → coarser ≤ m.topPlace →
        ∀ coefficient, (gridPoint coarser coefficient).toMagnitude? ≠ some m := by
  rw [shortest, if_neg hm]
  cases hfound : m.places.findSome? m.nearestAt? with
  | none =>
      have hself : (gridPoint 0 m.decimalSteps).value = m.value := value_decimalSteps m
      refine ⟨0, Nat.zero_le _, ⟨⟨m.decimalSteps, ?_, rfl⟩, toMagnitude?_finest m, ?_⟩, ?_⟩
      · rw [Nat.pow_zero, Nat.div_one]
        exact Nat.le_succ _
      · intro coefficient _
        rw [Option.getD_none, value_decimalSteps, sub_self, abs_zero]
        exact abs_nonneg _
      · intro coarser hlt hle
        exact not_read_of_nearestAt?_eq_none
          (List.findSome?_eq_none_iff.1 hfound coarser (mem_places_iff.2 ⟨hlt, hle⟩))
  | some d =>
      obtain ⟨before, place, after, hplaces, hplace, hbefore⟩ :=
        List.findSome?_eq_some_iff.1 hfound
      have hmem : place ∈ m.places := by rw [hplaces]; simp
      refine ⟨place, (mem_places_iff.1 hmem).2, isBestAt_of_nearestAt?_eq_some hplace, ?_⟩
      intro coarser hlt hle
      have hcoarser := mem_places_iff.2 ⟨Nat.one_le_of_lt hlt, hle⟩
      have hsorted := pairwise_places m
      rw [hplaces, List.pairwise_append, List.pairwise_cons] at hsorted
      rw [hplaces, List.mem_append, List.mem_cons] at hcoarser
      rcases hcoarser with hcoarser | rfl | hcoarser
      · exact not_read_of_nearestAt?_eq_none (hbefore coarser hcoarser)
      · exact absurd hlt (Nat.lt_irrefl _)
      · exact absurd (hsorted.2.1.1 coarser hcoarser) hlt.not_gt

theorem value_gridPoint_one (place : ℕ) :
    (gridPoint place 1).value = (10 : ℚ) ^ ((place : ℤ) - 1074) := by
  rw [value_gridPoint, Nat.cast_one, one_mul]

theorem gridPoint_topPlace_one_le (hm : m.units ≠ 0) :
    (gridPoint m.topPlace 1).value ≤ m.value := by
  refine (gridPoint_value_le ?_).trans (gridPoint_div_le m m.topPlace)
  exact (Nat.one_le_div_iff (Nat.pow_pos (by decide))).2 (pow_topPlace_le hm)

/-- The points of a coarse grid are points of a finer one. -/
theorem exists_gridPoint_of_le {place coarser : ℕ} (hle : place ≤ coarser) (coefficient : ℕ) :
    ∃ coefficient',
      (gridPoint coarser coefficient).value = (gridPoint place coefficient').value := by
  obtain ⟨shift, rfl⟩ := Nat.exists_eq_add_of_le hle
  refine ⟨coefficient * 10 ^ shift, ?_⟩
  rw [value_gridPoint, value_gridPoint, mul_pow_mul_zpow,
    show ((place + shift : ℕ) : ℤ) - 1074 = (place : ℤ) - 1074 + shift by omega]

/-- Digits that begin at a place or to the left of it end on the grid of their last place. -/
theorem exists_gridPoint_of_hasDigits {d : Decimal} {top count : ℕ}
    (hdigits : HasDigits d.value count) (hcount : count ≤ top + 1)
    (hle : (gridPoint top 1).value ≤ d.value) :
    ∃ coefficient, d.value = (gridPoint (top + 1 - count) coefficient).value := by
  rw [value_gridPoint_one] at hle
  obtain ⟨coefficient, hvalue⟩ := hdigits.exists_eq_mul hle
  refine ⟨coefficient, ?_⟩
  rw [hvalue, value_gridPoint,
    show ((top + 1 - count : ℕ) : ℤ) - 1074 = (top : ℤ) - 1074 + 1 - count by omega]

theorem IsBestAt.hasDigits {place : ℕ} {d : Decimal} (hbest : m.IsBestAt place d)
    (hplace : place ≤ m.topPlace) : HasDigits d.value (m.topPlace + 1 - place) := by
  obtain ⟨coefficient, hcoefficient, rfl⟩ := hbest.onGrid
  have hsteps : m.decimalSteps / 10 ^ place < 10 ^ (m.topPlace + 1 - place) := by
    rw [Nat.div_lt_iff_lt_mul (Nat.pow_pos (by decide)), ← Nat.pow_add,
      Nat.sub_add_cancel (by omega)]
    exact decimalSteps_lt m
  rw [value_gridPoint]
  exact hasDigits_of_le (by omega) (by omega) _

theorem IsBestAt.abs_sub_le {place coefficient : ℕ} {d d' : Decimal} (hbest : m.IsBestAt place d)
    (hread : d'.toMagnitude? = some m) (hvalue : d'.value = (gridPoint place coefficient).value) :
    |d.value - m.value| ≤ |d'.value - m.value| := by
  rw [Decimal.toMagnitude?_eq_of_value_eq hvalue] at hread
  rw [hvalue]
  exact hbest.nearest coefficient hread

theorem value_shortest_of_units_eq_zero (hm : m.units = 0) : m.shortest.value = 0 := by
  rw [shortest, if_pos hm, Decimal.value, Nat.cast_zero, zero_mul]

/-- No decimal that reads back has fewer significant digits than the shortest one. -/
theorem hasDigits_shortest {d : Decimal} (hread : d.toMagnitude? = some m) {count : ℕ}
    (hdigits : HasDigits d.value count) : HasDigits m.shortest.value count := by
  by_cases hm : m.units = 0
  · rw [value_shortest_of_units_eq_zero hm]
    exact HasDigits.zero count
  obtain ⟨place, hplace, hbest, hcoarser⟩ := exists_isBestAt_shortest hm
  refine (hbest.hasDigits hplace).mono (Nat.le_of_not_lt fun hfew => ?_)
  have hcount : count ≠ 0 := by
    rintro rfl
    exact Decimal.value_ne_zero_of_toMagnitude? hread hm hdigits.eq_zero
  rcases lt_or_ge d.value (gridPoint m.topPlace 1).value with hlt | hle
  · -- The decimal is below a power of ten that is not above the magnitude.
    exact hcoarser m.topPlace (by omega) (Nat.le_refl _) 1
      (toMagnitude?_of_value_le hread hlt.le (gridPoint_topPlace_one_le hm))
  · obtain ⟨coefficient, hvalue⟩ := exists_gridPoint_of_hasDigits hdigits (by omega) hle
    refine hcoarser (m.topPlace + 1 - count) (by omega) (by omega) coefficient ?_
    rw [← Decimal.toMagnitude?_eq_of_value_eq hvalue, hread]

/-- No decimal that reads back and has as few significant digits is nearer than the shortest one. -/
theorem abs_shortest_sub_le {d : Decimal} (hread : d.toMagnitude? = some m)
    (hfew : ∀ count, HasDigits m.shortest.value count → HasDigits d.value count) :
    |m.shortest.value - m.value| ≤ |d.value - m.value| := by
  by_cases hm : m.units = 0
  · rw [value_shortest_of_units_eq_zero hm, value_of_units_eq_zero hm, sub_self, abs_zero]
    exact abs_nonneg _
  obtain ⟨place, hplace, hbest, -⟩ := exists_isBestAt_shortest hm
  have hone := gridPoint_topPlace_one_le hm
  rcases lt_or_ge d.value (gridPoint m.topPlace 1).value with hlt | hle
  · -- The power of ten between the decimal and the magnitude is on the grid, too.
    obtain ⟨coefficient, hvalue⟩ := exists_gridPoint_of_le hplace 1
    calc
      |m.shortest.value - m.value| ≤ |(gridPoint m.topPlace 1).value - m.value| :=
        hbest.abs_sub_le (toMagnitude?_of_value_le hread hlt.le hone) hvalue
      _ ≤ |d.value - m.value| := Set.abs_sub_left_of_mem_uIcc (Set.mem_uIcc_of_ge hlt.le hone)
  · have hdigits := hfew _ (hbest.hasDigits hplace)
    obtain ⟨coefficient, hvalue⟩ := exists_gridPoint_of_hasDigits hdigits (by omega) hle
    rw [show m.topPlace + 1 - (m.topPlace + 1 - place) = place by omega] at hvalue
    exact hbest.abs_sub_le hread hvalue

end Magnitude

end Sexp
