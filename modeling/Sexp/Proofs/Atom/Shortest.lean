import Sexp.Proofs.Atom.Numbers
import Sexp.Proofs.Decimal.Shortest

/-!
# The source text of a fraction

The source text of a number that is not whole is a numeral that is classified as the number
again.  It has as few significant digits as any such numeral, and no other one with as few is
nearer to the number.
-/

namespace Sexp

namespace Numeral

/-- The digits of a numeral from the first to the last one that is not zero, without the point. -/
def significantDigits (numeral : Numeral) : Text := (numeral.whole ++ numeral.fraction).significant

theorem hasDigits_iff {numeral : Numeral} {text : Text} (hspelled : numeral.IsSpelled text)
    (count : ℕ) :
    HasDigits numeral.toDecimal.value count ↔ numeral.significantDigits.length ≤ count := by
  obtain ⟨-, -, -, -, hwhole, hfraction, -⟩ := hspelled
  rw [value_toDecimal]
  exact Text.hasDigits_iff (Text.isDigits_append.2 ⟨hwhole, hfraction⟩) _ count

/-- How far a numeral is from a number of the same sign. -/
theorem abs_value_sub (numeral : Numeral) (m : Magnitude) :
    |numeral.value - (Binary64.finite numeral.negative m).value| =
      |numeral.toDecimal.value - m.value| := by
  rw [value_eq_signed, Binary64.value, abs_signed_sub]

/-- The numeral that the positional layout of a decimal spells. -/
def ofDecimal (negative : Bool) (d : Decimal) : Numeral :=
  ⟨negative, d.wholeDigits, d.fractionDigits⟩

theorem isSpelled_ofDecimal (negative : Bool) (d : Decimal) :
    (ofDecimal negative d).IsSpelled (withSign negative d.positional) :=
  (ofText?_eq_some_iff _ _).1 (ofText?_withSign_point negative (Decimal.isDigits_wholeDigits d)
    (Decimal.orZero_ne_nil _) (Decimal.isDigits_fractionDigits d))

theorem hasDigits_ofDecimal_iff (negative : Bool) (d : Decimal) (count : ℕ) :
    HasDigits d.value count ↔ (ofDecimal negative d).significantDigits.length ≤ count := by
  rw [← hasDigits_iff (isSpelled_ofDecimal negative d), ofDecimal, Decimal.value_positional]

variable {other : Numeral} {token : Text} {m : Magnitude}

/-- No numeral that is read as a magnitude has fewer significant digits than the shortest decimal of
the magnitude. -/
theorem length_significantDigits_shortest_le (negative : Bool) (hspelled : other.IsSpelled token)
    (hread : other.toDecimal.toMagnitude? = some m) :
    (ofDecimal negative m.shortest).significantDigits.length ≤
      other.significantDigits.length := by
  rw [← hasDigits_ofDecimal_iff]
  exact Magnitude.hasDigits_shortest hread ((hasDigits_iff hspelled _).2 (Nat.le_refl _))

/-- No numeral that is read as a magnitude and has as few significant digits is nearer to it. -/
theorem abs_ofDecimal_shortest_sub_le (hspelled : other.IsSpelled token)
    (hread : other.toDecimal.toMagnitude? = some m)
    (hlength : other.significantDigits.length =
      (ofDecimal other.negative m.shortest).significantDigits.length) :
    |(ofDecimal other.negative m.shortest).value - (Binary64.finite other.negative m).value| ≤
      |other.value - (Binary64.finite other.negative m).value| := by
  have hself : |(ofDecimal other.negative m.shortest).value -
      (Binary64.finite other.negative m).value| = |m.shortest.value - m.value| := by
    rw [← Decimal.value_positional other.negative m.shortest]
    exact abs_value_sub _ m
  rw [hself, abs_value_sub other]
  refine Magnitude.abs_shortest_sub_le hread fun count hcount => ?_
  rw [hasDigits_ofDecimal_iff other.negative, ← hlength] at hcount
  exact (hasDigits_iff hspelled count).2 hcount

end Numeral

namespace Atom

/-- A numeral that is classified as a number is rounded to it. -/
theorem toBinary64?_of_ofToken {token : Text} {numeral : Numeral}
    (hspelled : numeral.IsSpelled token) {x : Binary64} (hatom : ofToken token = number x) :
    numeral.toBinary64? = some x := by
  rw [ofToken_of_ofText? ((Numeral.ofText?_eq_some_iff token numeral).2 hspelled)] at hatom
  cases hnumber : numeral.toBinary64? with
  | none =>
      rw [hnumber] at hatom
      contradiction
  | some y =>
      rw [hnumber] at hatom
      rw [number.inj hatom]

/-- A finite number that is no integer is written as a numeral that is classified as the number.
Every numeral that is classified as the number has at least as many significant digits, and one that
has just as many is not nearer to the number. -/
theorem exists_shortest_source {x : Binary64} (hfinite : x.isFinite = true)
    (hfraction : ∀ n : ℤ, x.value ≠ n) :
    ∃ (text : Text) (numeral : Numeral), Node.source (.atom (number x)) = .ok text ∧
      numeral.IsSpelled text ∧ ofToken text = number x ∧
      ∀ (token : Text) (other : Numeral), other.IsSpelled token → ofToken token = number x →
        numeral.significantDigits.length ≤ other.significantDigits.length ∧
          (other.significantDigits.length = numeral.significantDigits.length →
            |numeral.value - x.value| ≤ |other.value - x.value|) := by
  have hint : x.toInt? = none := by
    cases hint : x.toInt? with
    | none => rfl
    | some n => exact absurd (Binary64.value_eq_of_toInt? hint) (hfraction n)
  cases x with
  | finite negative m =>
      have hsource : Node.source (.atom (number (.finite negative m))) =
          .ok (withSign negative m.shortest.positional) :=
        congrArg Except.ok (sourceNumbers.write_of_toInt?_eq_none hint)
      refine ⟨_, Numeral.ofDecimal negative m.shortest, hsource,
        Numeral.isSpelled_ofDecimal negative m.shortest, ?_, ?_⟩
      · apply ofToken_of_toNumber?
        rw [Decimal.toNumber?_withSign_positional, Magnitude.toMagnitude?_shortest,
          Option.map_some]
      · intro token other hother hatom
        obtain ⟨m', hread, hsame⟩ :=
          (Numeral.toBinary64?_eq_some_iff _ _).1 (toBinary64?_of_ofToken hother hatom)
        obtain ⟨rfl, rfl⟩ := Binary64.finite.inj hsame
        exact ⟨Numeral.length_significantDigits_shortest_le other.negative hother hread,
          Numeral.abs_ofDecimal_shortest_sub_le hother hread⟩
  | infinity _ => contradiction
  | nan => contradiction

/-- Below a power of two the numbers are denser than above it: of sixteen digits the nearest decimal
to `2 ^ (-44)` ends in a one, but it is read as a smaller number. -/
theorem exists_shortest_source_power_of_two :
    let x := Binary64.ofBits 0x3D30000000000000#64
    let numeral : Numeral := ⟨false, "0".toList, "00000000000005684341886080802".toList⟩
    x.isFinite = true ∧ (∀ n : ℤ, x.value ≠ n) ∧
      Node.source (.atom (number x)) = .ok "0.00000000000005684341886080802".toList ∧
      ∀ (token : Text) (other : Numeral), other.IsSpelled token → ofToken token = number x →
        16 ≤ other.significantDigits.length ∧
          (other.significantDigits.length = 16 →
            |numeral.value - x.value| ≤ |other.value - x.value|) := by
  intro x numeral
  have hfinite : x.isFinite = true := by decide +kernel
  have hfraction : ∀ n : ℤ, x.value ≠ n := by
    intro n hvalue
    have hnone : x.toInt? = none := by decide +kernel
    exact nomatch hnone.symm.trans ((Binary64.toInt?_eq_some_iff_value_eq hfinite n).2 hvalue)
  have hwrite : sourceNumbers.write x = "0.00000000000005684341886080802".toList := by
    decide +kernel
  have hlength : numeral.significantDigits.length = 16 := by decide +kernel
  obtain ⟨text, numeral', hsource, hspelled, -, hshortest⟩ :=
    exists_shortest_source hfinite hfraction
  obtain rfl : sourceNumbers.write x = text := Except.ok.inj hsource
  rw [hwrite, ← Numeral.ofText?_eq_some_iff] at hspelled
  obtain rfl : numeral = numeral' :=
    Option.some.inj (Eq.trans (by decide +kernel) hspelled)
  rw [hlength] at hshortest
  exact ⟨hfinite, hfraction, congrArg Except.ok hwrite, hshortest⟩

end Atom

end Sexp
