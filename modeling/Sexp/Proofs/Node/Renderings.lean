import Sexp.Node.Display
import Sexp.Proofs.Atom.Shortest
import Sexp.Proofs.Decimal.Digits
import Sexp.Proofs.Node.Json

/-!
# The three texts of a number

A finite number is written into source text, into JSON and into descriptions.  The three
texts denote one rational number.  For a whole number they are the same text, which spells
the exact integer.  For any other number JSON and descriptions have the same text, which may
have an exponent, and the source text is positional and has no zero to spare at either end.
-/

namespace Sexp

/-- A text spells an integer: its digits without superfluous zeros, after a minus sign if the
integer is below zero. -/
def Text.SpellsInteger (text : Text) (n : ℤ) : Prop :=
  ∃ digits : Text, text = withSign (n < 0) digits ∧ digits.IsUnpadded ∧
    Nat.ofDigitChars 10 digits 0 = n.natAbs

/-- A text is positional: after a minus sign, if there is one, stand digits without superfluous
zeros, a point, and one digit or more of which the last is not zero. -/
def Text.IsPositional (text : Text) : Prop :=
  ∃ (negative : Bool) (whole fraction : Text),
    text = withSign negative (whole ++ '.' :: fraction) ∧ whole.IsUnpadded ∧
      fraction.IsDigits ∧ fraction ≠ [] ∧ fraction.getLast? ≠ some '0'

theorem spellsInteger_integerText (n : ℤ) : (integerText n).SpellsInteger n :=
  ⟨Nat.toDigits 10 n.natAbs, integerText_eq_withSign n, Text.isUnpadded_toDigits n.natAbs,
    Nat.ofDigitChars_ten_toDigits⟩

theorem Magnitude.isPositional_shortest (negative : Bool) {m : Magnitude}
    (hwhole : m.isWhole = false) : (withSign negative m.shortest.positional).IsPositional :=
  ⟨negative, _, _, rfl,
    Decimal.isUnpadded_wholeDigits (coefficient_shortest_ne_zero (units_ne_zero hwhole)),
    Decimal.isDigits_fractionDigits _, Decimal.orZero_ne_nil _,
    getLast?_fractionDigits_shortest hwhole⟩

/-- The rational number that a JSON number is the text of. -/
def JsonNumber.value (number : JsonNumber) : ℚ :=
  signed number.negative number.toDecimal.value

/-- As source text and as JSON an integer's text denotes the same number. -/
theorem exists_parts_integerText (n : ℤ) :
    ∃ (numeral : Numeral) (number : JsonNumber), numeral.IsSpelled (integerText n) ∧
      JsonNumber.ofText? (integerText n) = some number ∧ numeral.value = number.value := by
  refine ⟨⟨n < 0, Nat.toDigits 10 n.natAbs, []⟩, _, ?_, JsonNumber.ofText?_integerText n, ?_⟩
  · rw [← Numeral.ofText?_eq_some_iff, integerText_eq_withSign]
    exact Numeral.ofText?_withSign_whole _ (Text.isDigits_toDigits _) Nat.toDigits_ne_nil
  · rw [Numeral.value_eq_signed]
    rfl

/-- The positional and the compact layout of a decimal denote the same number. -/
theorem Decimal.exists_parts (negative : Bool) {d : Decimal} (hd : d.coefficient ≠ 0) :
    ∃ (numeral : Numeral) (number : JsonNumber),
      numeral.IsSpelled (withSign negative d.positional) ∧
        JsonNumber.ofText? (withSign negative d.compact) = some number ∧
          numeral.value = number.value := by
  obtain ⟨number, hnumber, rfl, hvalue⟩ :=
    JsonNumber.exists_ofText?_withSign_compact negative hd
  refine ⟨_, number, Numeral.isSpelled_ofDecimal number.negative d, hnumber, ?_⟩
  rw [Numeral.value_eq_signed, JsonNumber.value, hvalue, Numeral.ofDecimal, value_positional]

namespace Binary64

/-- A finite number that is not whole has a magnitude that is not whole. -/
theorem exists_of_toInt?_eq_none {x : Binary64} (hfinite : x.isFinite = true)
    (hint : x.toInt? = none) : ∃ negative m, x = finite negative m ∧ m.isWhole = false := by
  cases x with
  | finite negative m =>
      refine ⟨negative, m, rfl, Bool.eq_false_iff.2 fun hwhole => ?_⟩
      simp [toInt?, hwhole] at hint
  | infinity _ => contradiction
  | nan => contradiction

/-- Descriptions and JSON differ only in the names of the numbers that are not finite. -/
theorem write_displayNumbers {x : Binary64} (hfinite : x.isFinite = true) :
    displayNumbers.write x = jsonNumbers.write x := by
  cases x with
  | finite negative m => rfl
  | infinity _ => contradiction
  | nan => contradiction

end Binary64

namespace Node

theorem jsonText_number (x : Binary64) :
    (atom (.number x)).jsonText = .ok (jsonNumbers.write x) := by
  have hvalue : (atom (.number x)).toJson = .ok (.number x) := rfl
  rw [jsonText_of_toJson hvalue, Json.compact]

theorem describe?_number {x : Binary64} (hfinite : x.isFinite = true) :
    (atom (.number x)).describe? =
      some ("Literal(".toList ++ jsonNumbers.write x ++ [')']) := by
  rw [describe?]
  exact congrArg (fun text => some ("Literal(".toList ++ text ++ [')']))
    (Binary64.write_displayNumbers hfinite)

/-- The source text of a finite number is a numeral and denotes the same rational number as the
text that JSON and descriptions have of it.  If the number is an integer, the two texts are
the same and spell the integer; if it is none, the source text is positional. -/
theorem renderings_of_number {x : Binary64} (hfinite : x.isFinite = true) :
    ∃ (source shown : Text) (numeral : Numeral) (number : JsonNumber),
      (atom (.number x)).source = .ok source ∧ (atom (.number x)).jsonText = .ok shown ∧
      (atom (.number x)).describe? = some ("Literal(".toList ++ shown ++ [')']) ∧
      numeral.IsSpelled source ∧ JsonNumber.ofText? shown = some number ∧
      numeral.value = number.value ∧
      (∀ n : ℤ, x.value = n → source = shown ∧ source.SpellsInteger n) ∧
      ((∀ n : ℤ, x.value ≠ n) → source.IsPositional) := by
  cases hint : x.toInt? with
  | some n =>
      have hsource := sourceNumbers.write_of_toInt? hint
      have hshown := jsonNumbers.write_of_toInt? hint
      obtain ⟨numeral, number, hnumeral, hnumber, hvalue⟩ := exists_parts_integerText n
      refine ⟨sourceNumbers.write x, jsonNumbers.write x, numeral, number, rfl,
        jsonText_number x, describe?_number hfinite, ?_, ?_, hvalue, fun n' hn' => ?_,
        fun hne => ?_⟩
      · rwa [hsource]
      · rwa [hshown]
      · obtain rfl : n = n' :=
          Option.some.inj
            (hint.symm.trans ((Binary64.toInt?_eq_some_iff_value_eq hfinite n').2 hn'))
        rw [hsource, hshown]
        exact ⟨rfl, spellsInteger_integerText n⟩
      · exact absurd (Binary64.value_eq_of_toInt? hint) (hne n)
  | none =>
      have hsource := sourceNumbers.write_of_toInt?_eq_none hint
      have hshown := jsonNumbers.write_of_toInt?_eq_none hint
      obtain ⟨negative, m, rfl, hwhole⟩ := Binary64.exists_of_toInt?_eq_none hfinite hint
      obtain ⟨numeral, number, hnumeral, hnumber, hvalue⟩ := Decimal.exists_parts negative
        (Magnitude.coefficient_shortest_ne_zero (Magnitude.units_ne_zero hwhole))
      refine ⟨sourceNumbers.write (.finite negative m), jsonNumbers.write (.finite negative m),
        numeral, number, rfl, jsonText_number _, describe?_number hfinite, ?_, ?_, hvalue,
        fun n hn => ?_, fun _ => ?_⟩
      · rwa [hsource]
      · rwa [hshown]
      · rw [(Binary64.toInt?_eq_some_iff_value_eq hfinite n).2 hn] at hint
        contradiction
      · rw [hsource]
        exact Magnitude.isPositional_shortest negative hwhole

/-- A small fraction has an exponent in JSON and in descriptions, but none in source text, and
negative zero is the integer zero in all three. -/
theorem renderings_of_number_small :
    let x := Binary64.ofBits 0xBEEF75104D551D69#64
    let zero := Binary64.finite true .zero
    x.isFinite = true ∧ (atom (.number x)).source = .ok "-0.000015".toList ∧
      (atom (.number x)).jsonText = .ok "-1.5e-05".toList ∧
      (atom (.number x)).describe? = some "Literal(-1.5e-05)".toList ∧
      Text.IsPositional "-0.000015".toList ∧
      (∃ (numeral : Numeral) (number : JsonNumber), numeral.IsSpelled "-0.000015".toList ∧
        JsonNumber.ofText? "-1.5e-05".toList = some number ∧ numeral.value = number.value) ∧
      zero.isFinite = true ∧ ∃ text : Text, (atom (.number zero)).source = .ok text ∧
        (atom (.number zero)).jsonText = .ok text ∧ text.SpellsInteger 0 := by
  intro x zero
  have hfinite : x.isFinite = true := by decide +kernel
  have hfraction : ∀ n : ℤ, x.value ≠ n := by
    intro n hvalue
    have hnone : x.toInt? = none := by decide +kernel
    exact nomatch hnone.symm.trans ((Binary64.toInt?_eq_some_iff_value_eq hfinite n).2 hvalue)
  have hsource : sourceNumbers.write x = "-0.000015".toList := by decide +kernel
  have hshown : jsonNumbers.write x = "-1.5e-05".toList := by decide +kernel
  obtain ⟨source, shown, numeral, number, hs, hj, hdescribe, hnumeral, hnumber, hvalue, -,
    hpositional⟩ := renderings_of_number hfinite
  obtain rfl : sourceNumbers.write x = source := Except.ok.inj hs
  rw [jsonText_number] at hj
  obtain rfl : jsonNumbers.write x = shown := Except.ok.inj hj
  rw [hsource] at hnumeral hpositional
  rw [hshown] at hnumber hdescribe
  have hzero : zero.value = (0 : ℤ) := Binary64.value_eq_of_toInt? (by decide +kernel)
  obtain ⟨text, shown, -, -, htext, hshown', -, -, -, -, hinteger, -⟩ :=
    renderings_of_number (x := zero) rfl
  obtain ⟨rfl, hspells⟩ := hinteger 0 hzero
  exact ⟨hfinite, congrArg Except.ok hsource, (jsonText_number x).trans (congrArg _ hshown),
    hdescribe, hpositional hfraction, ⟨numeral, number, hnumeral, hnumber, hvalue⟩, rfl, text,
    htext, hshown', hspells⟩

end Node

end Sexp
