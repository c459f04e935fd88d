import Sexp.Proofs.Decimal.Digits
import Sexp.Proofs.Json.Decode

/-!
# Numbers written as JSON and decoded

Both layouts of a decimal have the parts of a JSON number, and these denote the value of
the decimal.  So the decoder takes the text of a finite number for that number, up to the
sign of zero, whether it is an integer, a fraction or has an exponent.
-/

namespace Sexp

namespace JsonNumber

/-- A text that does not go on with a digit. -/
def IsPastDigits (text : Text) : Prop := ∀ c ∈ text.head?, c.isDigit = false

theorem isPastDigits_nil : IsPastDigits [] := by
  simp [IsPastDigits]

theorem isPastDigits_cons {c : Char} (hc : c.isDigit = false) (rest : Text) :
    IsPastDigits (c :: rest) := by
  simpa [IsPastDigits] using hc

theorem digits?_append {digits rest : Text} (hdigits : digits.IsDigits) (hne : digits ≠ [])
    (hrest : IsPastDigits rest) : digits? (digits ++ rest) = some (digits, rest) := by
  obtain ⟨htake, hdrop⟩ := Text.takeWhile_dropWhile_append hdigits hrest
  obtain ⟨digit, others, rfl⟩ := List.exists_cons_of_ne_nil hne
  rw [digits?, htake, hdrop]

theorem whole?_append {whole rest : Text} (hwhole : whole.IsUnpadded)
    (hrest : IsPastDigits rest) : whole? (whole ++ rest) = some (whole, rest) := by
  rcases hwhole.2 with rfl | ⟨digit, others, rfl, hdigit⟩
  · rfl
  · rw [← digits?_append hwhole.1 hwhole.ne_nil hrest, List.cons_append]
    simp [whole?, hdigit]

theorem minus_withSign (negative : Bool) {digit : Char} (hdigit : digit.isDigit = true)
    (rest : Text) : minus (withSign negative (digit :: rest)) = (negative, digit :: rest) := by
  cases negative with
  | true => rfl
  | false =>
      have hminus := ne_of_isDigit hdigit (d := '-') rfl
      simp [withSign, minus, hminus]

/-- A sign and digits before the point are separated from what follows them. -/
theorem ofText?_withSign_append (negative : Bool) {whole rest fraction after : Text}
    {exponent : Int} (hwhole : whole.IsUnpadded) (hrest : IsPastDigits rest)
    (hfraction : fraction? rest = some (fraction, after))
    (hexponent : exponent? after = some exponent) :
    ofText? (withSign negative (whole ++ rest)) =
      some ⟨negative, whole, fraction, exponent⟩ := by
  have hsplit := whole?_append hwhole hrest
  obtain ⟨digit, others, rfl⟩ := List.exists_cons_of_ne_nil hwhole.ne_nil
  rw [List.cons_append] at hsplit ⊢
  rw [ofText?, minus_withSign negative (hwhole.1 digit List.mem_cons_self)]
  simp [hsplit, hfraction, hexponent]

theorem natural?_of_isDigits {digits : Text} (hdigits : digits.IsDigits) (hne : digits ≠ []) :
    natural? digits = some (Nat.ofDigitChars 10 digits 0) := by
  have hsplit := digits?_append hdigits hne isPastDigits_nil
  rw [List.append_nil] at hsplit
  simp [natural?, hsplit]

theorem natural?_leftpad_toDigits (width n : Nat) :
    natural? ((Nat.toDigits 10 n).leftpad width '0') = some n := by
  have hdigits : Text.IsDigits ((Nat.toDigits 10 n).leftpad width '0') :=
    Text.isDigits_append.2 ⟨Decimal.isDigits_replicate_zero _, Text.isDigits_toDigits n⟩
  rw [natural?_of_isDigits hdigits (by simp [List.leftpad]), List.leftpad,
    Nat.ofDigitChars_append, Nat.ofDigitChars_replicate_zero, Nat.mul_zero,
    Nat.ofDigitChars_ten_toDigits]

theorem exponent?_exponentText (e : Int) :
    exponent? ('e' :: Decimal.exponentText e) = some e := by
  have hnatural := natural?_leftpad_toDigits 2 e.natAbs
  by_cases hsign : e < 0
  · rw [Decimal.exponentText, if_pos hsign]
    show (natural? ((Nat.toDigits 10 e.natAbs).leftpad 2 '0')).map (fun n : Nat => -(n : Int)) =
      some e
    rw [hnatural, Option.map_some, Option.some.injEq]
    omega
  · rw [Decimal.exponentText, if_neg hsign]
    show (natural? ((Nat.toDigits 10 e.natAbs).leftpad 2 '0')).map Int.ofNat = some e
    rw [hnatural, Option.map_some, Option.some.injEq]
    show (e.natAbs : Int) = e
    omega

theorem ofText?_withSign_positional (negative : Bool) {d : Decimal} (hd : d.coefficient ≠ 0) :
    ofText? (withSign negative d.positional) =
      some ⟨negative, d.wholeDigits, d.fractionDigits, 0⟩ := by
  have hfraction := digits?_append (Decimal.isDigits_fractionDigits d)
    (Decimal.orZero_ne_nil _) isPastDigits_nil
  rw [List.append_nil] at hfraction
  exact ofText?_withSign_append negative (Decimal.isUnpadded_wholeDigits hd)
    (isPastDigits_cons rfl _) hfraction rfl

theorem ofText?_withSign_scientific (negative : Bool) {d : Decimal} (hd : d.coefficient ≠ 0) :
    ofText? (withSign negative d.scientific) =
      some ⟨negative, d.digits.take 1, d.digits.drop 1, d.leadingExponent⟩ := by
  have hexponent := exponent?_exponentText d.leadingExponent
  have hwhole := Decimal.isUnpadded_take_one_digits hd
  simp only [Decimal.scientific, List.append_assoc]
  cases hfraction : d.digits.drop 1 with
  | nil =>
      exact ofText?_withSign_append negative hwhole (isPastDigits_cons rfl _) rfl hexponent
  | cons digit rest =>
      have hdigits : Text.IsDigits (digit :: rest) := fun c hc =>
        Decimal.isDigits_digits d c (List.mem_of_mem_drop (hfraction ▸ hc))
      have hsplit := digits?_append hdigits (List.cons_ne_nil digit rest)
        (isPastDigits_cons (c := 'e') rfl (Decimal.exponentText d.leadingExponent))
      exact ofText?_withSign_append negative hwhole (isPastDigits_cons rfl _) hsplit hexponent

/-- Both layouts have parts of the value of the decimal. -/
theorem exists_ofText?_withSign_compact (negative : Bool) {d : Decimal}
    (hd : d.coefficient ≠ 0) :
    ∃ number, ofText? (withSign negative d.compact) = some number ∧
      number.negative = negative ∧ number.toDecimal.value = d.value := by
  unfold Decimal.compact
  split
  · refine ⟨_, ofText?_withSign_positional negative hd, rfl, ?_⟩
    rw [← Decimal.value_positional negative d, Numeral.value_toDecimal, toDecimal, Decimal.value,
      zero_sub]
  · refine ⟨_, ofText?_withSign_scientific negative hd, rfl, ?_⟩
    obtain ⟨digit, rest, hdigits, -⟩ := Decimal.exists_digits_eq_cons hd
    have hexponent : d.leadingExponent - ((d.digits.drop 1).length : Int) =
        d.point - (d.digits.length : Int) := by
      rw [Decimal.leadingExponent, List.length_drop, hdigits, List.length_cons]
      omega
    rw [Decimal.value_eq_digits d, toDecimal, Decimal.value, List.take_append_drop, hexponent]

theorem toBinary64_of_toMagnitude? {number : JsonNumber} {m : Magnitude}
    (hmagnitude : number.toDecimal.toMagnitude? = some m) :
    number.toBinary64 = .finite number.negative m := by
  rw [toBinary64, hmagnitude, Option.elim_some]

/-- The text of an integer has its digits as the only part beside the sign. -/
theorem ofText?_integerText (n : Int) :
    ofText? (integerText n) = some ⟨n < 0, Nat.toDigits 10 n.natAbs, [], 0⟩ := by
  have htext : ofText? (withSign (n < 0) (Nat.toDigits 10 n.natAbs ++ [])) =
      some ⟨n < 0, Nat.toDigits 10 n.natAbs, [], 0⟩ :=
    ofText?_withSign_append _ (Text.isUnpadded_toDigits n.natAbs) isPastDigits_nil rfl rfl
  rwa [List.append_nil, ← integerText_eq_withSign] at htext

/-- The integer text of a whole number is read as that number, up to the sign of zero. -/
theorem exists_ofText?_integerText {x : Binary64} {n : Int} (hint : x.toInt? = some n) :
    ∃ number, ofText? (integerText n) = some number ∧ number.toBinary64 = x.dropZeroSign := by
  refine ⟨_, ofText?_integerText n, ?_⟩
  obtain ⟨m, hround, hx⟩ := Option.map_eq_some_iff.1 (Binary64.ofInt?_of_toInt? hint)
  rw [← hx]
  apply toBinary64_of_toMagnitude?
  simpa [toDecimal, Decimal.toMagnitude?, Nat.ofDigitChars_ten_toDigits] using hround

/-- The text of a finite number is read as that number, up to the sign of zero. -/
theorem exists_ofText?_write {x : Binary64} (hfinite : x.isFinite = true) :
    ∃ number, ofText? (jsonNumbers.write x) = some number ∧
      number.toBinary64 = x.dropZeroSign := by
  cases hwhole : x.toInt? with
  | some n =>
      rw [NumberStyle.write_of_toInt? jsonNumbers hwhole]
      exact exists_ofText?_integerText hwhole
  | none =>
      cases x with
      | finite negative m =>
          have hm := Binary64.units_ne_zero_of_toInt?_eq_none hwhole
          obtain ⟨number, htext, rfl, hvalue⟩ := exists_ofText?_withSign_compact negative
            (Magnitude.coefficient_shortest_ne_zero hm)
          rw [NumberStyle.write_of_toInt?_eq_none jsonNumbers hwhole,
            Binary64.dropZeroSign_of_units_ne_zero number.negative hm]
          refine ⟨number, htext, toBinary64_of_toMagnitude? ?_⟩
          rw [Decimal.toMagnitude?_eq_of_value_eq hvalue, Magnitude.toMagnitude?_shortest]
      | infinity negative => contradiction
      | nan => contradiction

end JsonNumber

namespace JsonValue

/-- A text that the decoder takes for one word. -/
def IsWord (word : Text) : Prop := word ≠ [] ∧ ∀ c ∈ word, isWordChar c = true

theorem isWordChar_of_isNumberChar {c : Char} (hnumber : isNumberChar c = true) :
    isWordChar c = true := by
  rw [isNumberChar, Bool.or_eq_true] at hnumber
  rcases hnumber with hdigit | hmark
  · have hdigits : ∀ n ≤ 57, 48 ≤ n → isWordChar (Char.ofNat n) = true := by decide
    obtain ⟨hlow, hhigh⟩ : 48 ≤ c.toNat ∧ c.toNat ≤ 57 := Char.isDigit_iff_toNat.1 hdigit
    simpa using hdigits c.toNat hhigh hlow
  · have hmarks : ∀ d ∈ ['+', '-', '.', 'e'], isWordChar d = true := by simp [isWordChar, isSpace]
    exact hmarks c (List.contains_iff_mem.1 hmark)

/-- The text of every number is one word. -/
theorem isWord_write (x : Binary64) : IsWord (jsonNumbers.write x) := by
  cases hfinite : x.isFinite with
  | true =>
      have hnumeric := jsonNumbers.isNumeric_write Decimal.isNumeric_compact hfinite
      refine ⟨fun hnil => ?_, fun c hc => isWordChar_of_isNumberChar (hnumeric c hc)⟩
      obtain ⟨number, htext, -⟩ := JsonNumber.exists_ofText?_write hfinite
      rw [hnil] at htext
      exact nomatch htext
  | false =>
      cases x with
      | finite negative m => contradiction
      | infinity negative => cases negative <;> exact ⟨by decide, List.all_eq_true.1 (by decide)⟩
      | nan => exact ⟨by decide, List.all_eq_true.1 (by decide)⟩

theorem ofWord?_of_ofText? (style : JsonNotation) {word : Text} {parts : JsonNumber}
    (hparts : JsonNumber.ofText? word = some parts) :
    ofWord? style word = some (number parts.toBinary64) := by
  have hne : ∀ bare : Text, JsonNumber.ofText? bare = none → word ≠ bare := by
    rintro bare hnone rfl
    rw [hparts] at hnone
    contradiction
  rw [ofWord?, if_neg (hne _ rfl), if_neg (hne _ rfl), if_neg (hne _ rfl),
    if_neg fun h => hne _ rfl h.2, if_neg fun h => hne _ rfl h.2, if_neg fun h => hne _ rfl h.2,
    hparts, Option.map_some]

/-- Every number is decoded from its text in a notation that has a form for it. -/
theorem ofWord?_write {style : JsonNotation} {x : Binary64}
    (hstyle : style = .extended ∨ x.isFinite = true) :
    ofWord? style (jsonNumbers.write x) = some (number x.dropZeroSign) := by
  cases hfinite : x.isFinite with
  | true =>
      obtain ⟨parts, hparts, hnumber⟩ := JsonNumber.exists_ofText?_write hfinite
      rw [ofWord?_of_ofText? style hparts, hnumber]
  | false =>
      obtain rfl : style = .extended := by simpa [hfinite] using hstyle
      cases x with
      | finite negative m => contradiction
      | infinity negative => cases negative <;> rfl
      | nan => rfl

end JsonValue

end Sexp
