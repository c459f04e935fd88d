import Sexp.Node.Json
import Sexp.Proofs.Json.Decode

/-!
# Strings written as JSON and decoded

Every character of a string is written in a form that the decoder reads as this one
character, and the mark that closes the string is never among them.  So a string in its
written form is decoded as itself, code point for code point, whatever follows it.
-/

namespace Sexp

namespace JsonValue

theorem units?_letter {letter c : Char} (hletter : letter ≠ 'u')
    (hescape : escapes.lookup letter = some c) (rest : Text) :
    units? ('\\' :: letter :: rest) = (units? rest).map (before c.toNat) := by
  simp [units?, hletter, hescape]

theorem units?_code {c : Char} (hcontrol : c.toNat < 0x20) (rest : Text) :
    units? ('\\' :: 'u' :: hexDigits 4 c.toNat ++ rest) =
      (units? rest).map (before c.toNat) := by
  have hhex := hexNumber?_hexDigits 4 c.toNat
  rw [Nat.mod_eq_of_lt (by omega)] at hhex
  simp only [hexDigits, List.nil_append, List.cons_append] at hhex ⊢
  rw [units?, hhex, Option.bind_some]

theorem units?_self {c : Char} (hcontrol : ¬c.toNat < 0x20)
    (hmark : ¬(c = '\x22' ∨ c = '\\')) (rest : Text) :
    units? (c :: rest) = (units? rest).map (before c.toNat) := by
  obtain ⟨hquote, hbackslash⟩ := not_or.1 hmark
  simp [units?, hcontrol, hbackslash]

/-- Each form in which a character is written is read as the code point of it. -/
theorem units?_escapedChar (c : Char) (rest : Text) :
    units? (Json.escapedChar c ++ rest) = (units? rest).map (before c.toNat) := by
  by_cases hmark : c = '\x22' ∨ c = '\\'
  · have hescape : escapes.lookup c = some c := by
      rcases hmark with rfl | rfl <;> rfl
    have hletter : c ≠ 'u' := by
      rcases hmark with rfl | rfl <;> decide
    rw [Json.escapedChar, if_pos hmark]
    exact units?_letter hletter hescape rest
  · rw [Json.escapedChar, if_neg hmark]
    split
    · next hc => exact hc ▸ units?_letter (by decide) rfl rest
    split
    · next hc => exact hc ▸ units?_letter (by decide) rfl rest
    split
    · next hc => exact hc ▸ units?_letter (by decide) rfl rest
    split
    · next hc => exact hc ▸ units?_letter (by decide) rfl rest
    split
    · next hc => exact hc ▸ units?_letter (by decide) rfl rest
    split
    · next hcontrol => exact units?_code hcontrol rest
    · next hcontrol => exact units?_self hcontrol hmark rest

theorem units?_flatMap_escapedChar (text rest : Text) :
    units? (text.flatMap Json.escapedChar ++ '\x22' :: rest) =
      some (text.map Char.toNat, rest) := by
  induction text with
  | nil => rfl
  | cons c text ih =>
      rw [List.flatMap_cons, List.append_assoc, units?_escapedChar, ih]
      rfl

/-- No character is a surrogate. -/
theorem isSurrogate_toNat (c : Char) :
    isLowSurrogate c.toNat = false ∧ isHighSurrogate c.toNat = false := by
  have hvalid : c.toNat < 0xD800 ∨ 0xDFFF < c.toNat ∧ c.toNat < 0x110000 := c.valid
  simp only [isLowSurrogate, isHighSurrogate, Bool.and_eq_false_iff, decide_eq_false_iff_not]
  omega

theorem ofUnits?_map_toNat (text : Text) : ofUnits? (text.map Char.toNat) = some text := by
  induction text with
  | nil => rfl
  | cons c text ih =>
      obtain ⟨hlow, hhigh⟩ := isSurrogate_toNat c
      rw [List.map_cons, ofUnits?.eq_def]
      simp [hlow, hhigh, ih]

/-- A string in its written form is decoded as itself. -/
theorem string?_flatMap_escapedChar (text rest : Text) :
    string? (text.flatMap Json.escapedChar ++ '\x22' :: rest) = some (text, rest) := by
  rw [string?, units?_flatMap_escapedChar]
  simp [ofUnits?_map_toNat]

end JsonValue

end Sexp
