import Sexp.Atom.Payload
import Sexp.Proofs.Atom.RoundTrip
import Sexp.Proofs.Decimal.Spelling

/-!
# Tokens and integers as numbers

A token that spells a numeral is classified as the number literal that is nearest to what the
numeral denotes, or as an identifier if the numeral is too large for a number.  An integer as a
payload of a literal is refused exactly when its digits, as a token, are classified as an
identifier; otherwise both ways lead to the same number.
-/

namespace Sexp

namespace Atom

theorem ofToken_of_ofText? {token : Text} {numeral : Numeral}
    (hnumeral : Numeral.ofText? token = some numeral) :
    ofToken token = numeral.toBinary64?.elim (identifier token) number := by
  rw [ofToken, Text.unquoted?_eq_none_of_ofText? hnumeral, Text.toNumber?, hnumeral,
    Option.bind_some]
  cases numeral.toBinary64? <;> rfl

/-- A token that spells a numeral below the middle between the largest number and `2 ^ 1024` is
the number nearest to the numeral, with the even significand of two that are equally near, and
its sign bit is set exactly if the token begins with a minus sign.  From that middle on the token
is an identifier. -/
theorem ofToken_of_isSpelled {token : Text} {numeral : Numeral}
    (hspelled : numeral.IsSpelled token) :
    (|numeral.value| < 2 ^ 1024 - 2 ^ 970 →
      ∃ x : Binary64, ofToken token = number x ∧ x.IsNearest numeral.value ∧
        (x.toBits.msb = true ↔ token.head? = some '-')) ∧
      (2 ^ 1024 - 2 ^ 970 ≤ |numeral.value| → ofToken token = identifier token) := by
  have hatom := ofToken_of_ofText? ((Numeral.ofText?_eq_some_iff token numeral).2 hspelled)
  have hlarge := Numeral.toBinary64?_eq_none_iff numeral
  constructor
  · intro hlt
    obtain ⟨x, hx⟩ := Option.ne_none_iff_exists'.1 (mt hlarge.1 hlt.not_ge)
    obtain ⟨hnearest, hsign⟩ := Numeral.isNearest_of_toBinary64? hx
    refine ⟨x, ?_, hnearest, ?_⟩
    · rw [hatom, hx, Option.elim_some]
    · rw [hsign]
      exact hspelled.negative_iff
  · intro hle
    rw [hatom, hlarge.2 hle, Option.elim_none]

/-- The odd number is in the middle between two numbers with different significands. -/
theorem ofToken_of_isSpelled_middle :
    let numeral : Numeral := ⟨true, "9007199254740993".toList, []⟩
    numeral.IsSpelled "-9007199254740993.".toList ∧ numeral.value = -9007199254740993 ∧
      ∃ x : Binary64, ofToken "-9007199254740993.".toList = number x ∧
        x.IsNearest (-9007199254740993) ∧ x.toBits.msb = true := by
  intro numeral
  have hspelled : numeral.IsSpelled "-9007199254740993.".toList :=
    (Numeral.ofText?_eq_some_iff _ _).1 (by decide +kernel)
  have hdigits : Nat.ofDigitChars 10 "9007199254740993".toList 0 = 9007199254740993 := by
    decide +kernel
  have hvalue : numeral.value = -9007199254740993 := by
    unfold numeral Numeral.value
    rw [hdigits]
    norm_num [signed]
  have hsmall : |numeral.value| < 2 ^ 1024 - 2 ^ 970 := by
    have hpower : (2 : ℚ) ^ 1024 - 2 ^ 970 = (2 ^ 54 - 1) * 2 ^ 970 := by
      rw [sub_mul, ← pow_add, one_mul]
    rw [hvalue, hpower, abs_neg, abs_of_nonneg (by norm_num)]
    calc
      (9007199254740993 : ℚ) < 2 ^ 54 - 1 := by norm_num
      _ ≤ (2 ^ 54 - 1) * 2 ^ 970 :=
        le_mul_of_one_le_right (by norm_num) (one_le_pow₀ (by norm_num))
  obtain ⟨x, hatom, hnearest, hsign⟩ := (ofToken_of_isSpelled hspelled).1 hsmall
  exact ⟨hspelled, hvalue, x, hatom, hvalue ▸ hnearest, hsign.2 rfl⟩

theorem ofToken_integerText (n : ℤ) :
    ofToken (integerText n) = (Binary64.ofInt? n).elim (identifier (integerText n)) number := by
  have hnumeral := Numeral.ofText?_withSign_whole (n < 0) (Text.isDigits_toDigits n.natAbs)
    Nat.toDigits_ne_nil
  rw [← integerText_eq_withSign] at hnumeral
  have hnumber := toNumber?_integerText n
  rw [Text.toNumber?, hnumeral, Option.bind_some] at hnumber
  rw [ofToken_of_ofText? hnumeral, hnumber]

/-- An integer as the payload of a literal is refused exactly if its digits are classified as an
identifier, that is, from the middle between the largest number and `2 ^ 1024` on.  Below, the
literal and the atom of the digits are the same number, the one nearest to the integer. -/
theorem ofPayload_integer_iff_ofToken (n : ℤ) :
    (ofPayload .literal (.integer n) = .error .integerTooLarge ↔
        2 ^ 1024 - 2 ^ 970 ≤ |(n : ℚ)|) ∧
      (ofToken (integerText n) = identifier (integerText n) ↔ 2 ^ 1024 - 2 ^ 970 ≤ |(n : ℚ)|) ∧
      (|(n : ℚ)| < 2 ^ 1024 - 2 ^ 970 →
        ∃ x : Binary64, ofPayload .literal (.integer n) = .ok (number x) ∧
          ofToken (integerText n) = number x ∧ x.IsNearest n) := by
  have hnone := Binary64.ofInt?_eq_none_iff n
  rw [ofToken_integerText, ofPayload]
  cases hint : Binary64.ofInt? n with
  | none =>
      have hlarge := hnone.1 hint
      exact ⟨iff_of_true rfl hlarge, iff_of_true rfl hlarge, fun hlt => absurd hlt hlarge.not_gt⟩
  | some x =>
      have hsmall := mt hnone.2 (by rw [hint]; exact Option.some_ne_none x)
      exact ⟨iff_of_false nofun hsmall, iff_of_false nofun hsmall,
        fun _ => ⟨x, rfl, rfl, Binary64.isNearest_of_ofInt? hint⟩⟩

end Atom

end Sexp
