import Sexp.Decimal.Layout
import Sexp.Proofs.Token.Words
import Sexp.Token.Basic

/-!
# The language of numerals

The separation of a numeral into its parts succeeds exactly on digits around at most
one point.  Texts that are written as a sign, digits and a point are separated into
just these parts, and a numeral is always a word that is not in quotation marks.
-/

namespace Sexp

/-- A text of decimal digits only. -/
def Text.IsDigits (text : Text) : Prop := ∀ c ∈ text, c.isDigit = true

theorem Text.isDigits_append {text text' : Text} :
    IsDigits (text ++ text') ↔ text.IsDigits ∧ text'.IsDigits :=
  List.forall_mem_append

theorem Text.isDigits_toDigits (n : Nat) : Text.IsDigits (Nat.toDigits 10 n) :=
  fun _ hc => Nat.isDigit_of_mem_toDigits (by decide) (by decide) hc

theorem ne_of_isDigit {c d : Char} (hc : c.isDigit = true) (hd : d.isDigit = false) : c ≠ d := by
  rintro rfl
  rw [hc] at hd
  contradiction

theorem isPlain_of_isDigit {c : Char} (hc : c.isDigit = true) :
    isParenthesis c = false ∧ isBlank c = false := by
  constructor
  · have hopen := ne_of_isDigit hc (d := '(') rfl
    have hclose := ne_of_isDigit hc (d := ')') rfl
    simp [isParenthesis, hopen, hclose]
  · have houtside : ∀ range ∈ blankRanges, range.last < 48 ∨ 57 < range.first := by decide
    obtain ⟨hlow, hhigh⟩ : 48 ≤ c.toNat ∧ c.toNat ≤ 57 := Char.isDigit_iff_toNat.1 hc
    rw [isBlank, Bool.eq_false_iff, ne_eq, inRanges_iff]
    rintro ⟨range, hrange, hfirst, hlast⟩
    have := houtside range hrange
    omega

theorem Text.IsDigits.isPlain {text : Text} (hdigits : text.IsDigits) : text.IsPlain :=
  fun c hc => isPlain_of_isDigit (hdigits c hc)

namespace Numeral

theorem splitDigits_point {whole : Text} (hwhole : whole.IsDigits) (fraction : Text) :
    (whole ++ '.' :: fraction).takeWhile Char.isDigit = whole ∧
      (whole ++ '.' :: fraction).dropWhile Char.isDigit = '.' :: fraction := by
  rw [List.takeWhile_append_of_pos hwhole, List.dropWhile_append_of_pos hwhole]
  constructor
  · simp [show ('.').isDigit = false from rfl]
  · rfl

theorem splitPoint?_whole {whole : Text} (hwhole : whole.IsDigits) (hne : whole ≠ []) :
    splitPoint? whole = some (whole, []) := by
  have htake : whole.takeWhile Char.isDigit = whole := by
    rw [← List.append_nil whole, List.takeWhile_append_of_pos hwhole, List.takeWhile_nil]
  have hdrop : whole.dropWhile Char.isDigit = [] := by
    rw [← List.append_nil whole, List.dropWhile_append_of_pos hwhole, List.dropWhile_nil]
  have hempty : whole.isEmpty = false := by simpa using hne
  simp [splitPoint?, htake, hdrop, hempty]

theorem splitPoint?_point {whole fraction : Text} (hwhole : whole.IsDigits)
    (hfraction : fraction.IsDigits) (hne : whole ≠ [] ∨ fraction ≠ []) :
    splitPoint? (whole ++ '.' :: fraction) = some (whole, fraction) := by
  obtain ⟨htake, hdrop⟩ := splitDigits_point hwhole fraction
  have hall : fraction.all Char.isDigit = true := List.all_eq_true.2 hfraction
  have hsome : (whole.isEmpty && fraction.isEmpty) = false := by
    rcases hne with hne | hne <;> simp [hne]
  simp [splitPoint?, htake, hdrop, hall, hsome]

/-- What the separation gives is digits only, and the text is put together from it. -/
theorem splitPoint?_sound {text whole fraction : Text}
    (hsplit : splitPoint? text = some (whole, fraction)) :
    whole.IsDigits ∧ fraction.IsDigits ∧ (whole ≠ [] ∨ fraction ≠ []) ∧
      (text = whole ∧ fraction = [] ∨ text = whole ++ '.' :: fraction) := by
  have htext : text.takeWhile Char.isDigit ++ text.dropWhile Char.isDigit = text :=
    List.takeWhile_append_dropWhile
  have hwhole : Text.IsDigits (text.takeWhile Char.isDigit) :=
    List.all_eq_true.1 List.all_takeWhile
  unfold splitPoint? at hsplit
  -- Either the digits reach the end of the text, or a point must follow them.
  cases hrest : text.dropWhile Char.isDigit with
  | nil =>
      rw [hrest, List.append_nil] at htext
      simp only [hrest, htext] at hsplit hwhole
      split at hsplit
      · contradiction
      · next hne =>
        obtain ⟨rfl, rfl⟩ := Prod.mk.inj (Option.some.inj hsplit)
        exact ⟨hwhole, by simp [Text.IsDigits], .inl (by simpa using hne), .inl ⟨rfl, rfl⟩⟩
  | cons c rest =>
      by_cases hpoint : c = '.'
      · subst hpoint
        rw [hrest] at htext
        simp only [hrest] at hsplit
        split at hsplit
        · next hfraction =>
          obtain ⟨rfl, rfl⟩ := Prod.mk.inj (Option.some.inj hsplit)
          simp only [Bool.and_eq_true, List.all_eq_true, Bool.not_eq_true',
            Bool.and_eq_false_iff] at hfraction
          refine ⟨hwhole, hfraction.1, ?_, .inr htext.symm⟩
          simpa using hfraction.2
        · contradiction
      · simp only [hrest] at hsplit
        split at hsplit
        · next heq => simp at heq
        · next heq => exact absurd (List.cons.inj heq).1 hpoint
        · contradiction

/-- A text is separated at the point exactly when digits stand around it, or when it
consists of digits and has no point. -/
theorem splitPoint?_eq_some_iff (text whole fraction : Text) :
    splitPoint? text = some (whole, fraction) ↔
      whole.IsDigits ∧ fraction.IsDigits ∧ (whole ≠ [] ∨ fraction ≠ []) ∧
        (text = whole ∧ fraction = [] ∨ text = whole ++ '.' :: fraction) := by
  constructor
  · exact splitPoint?_sound
  · rintro ⟨hwhole, hfraction, hne, ⟨rfl, rfl⟩ | rfl⟩
    · exact splitPoint?_whole hwhole (by simpa using hne)
    · exact splitPoint?_point hwhole hfraction hne

/-- A sign before a text that begins with a digit is separated from it. -/
theorem splitSign_withSign (negative : Bool) {digit : Char} (hdigit : digit.isDigit = true)
    (rest : Text) :
    splitSign (withSign negative (digit :: rest)) = (negative, digit :: rest) := by
  cases negative with
  | true => rfl
  | false =>
      have hplus := ne_of_isDigit hdigit (d := '+') rfl
      have hminus := ne_of_isDigit hdigit (d := '-') rfl
      simp only [withSign, Bool.false_eq_true, if_false]
      unfold splitSign
      split
      · next heq => exact absurd (List.cons.inj heq).1 hplus
      · next heq => exact absurd (List.cons.inj heq).1 hminus
      · rfl

/-- Digits after an optional minus sign are a numeral without a fraction. -/
theorem ofText?_withSign_whole (negative : Bool) {whole : Text} (hdigits : whole.IsDigits)
    (hne : whole ≠ []) : ofText? (withSign negative whole) = some ⟨negative, whole, []⟩ := by
  obtain ⟨digit, rest, rfl⟩ := List.exists_cons_of_ne_nil hne
  have hsplit := splitPoint?_whole hdigits hne
  rw [ofText?, splitSign_withSign negative (hdigits digit List.mem_cons_self) rest]
  simp only [hsplit, Option.map_some]

theorem ofText?_withSign_point (negative : Bool) {whole fraction : Text}
    (hwhole : whole.IsDigits) (hne : whole ≠ []) (hfraction : fraction.IsDigits) :
    ofText? (withSign negative (whole ++ '.' :: fraction)) =
      some ⟨negative, whole, fraction⟩ := by
  have hsplit := splitPoint?_point hwhole hfraction (.inl hne)
  obtain ⟨digit, rest, rfl⟩ := List.exists_cons_of_ne_nil hne
  rw [List.cons_append] at hsplit ⊢
  rw [ofText?, splitSign_withSign negative (hwhole digit List.mem_cons_self)]
  simp only [hsplit, Option.map_some]

theorem splitSign_cases (text : Text) :
    (splitSign text).2 = text ∨ text = '+' :: (splitSign text).2 ∨
      text = '-' :: (splitSign text).2 := by
  unfold splitSign
  split
  · exact .inr (.inl rfl)
  · exact .inr (.inr rfl)
  · exact .inl rfl

theorem isWord_of_splitPoint? {text whole fraction : Text}
    (hsplit : splitPoint? text = some (whole, fraction)) : text.IsWord := by
  obtain ⟨hwhole, hfraction, hne, htext⟩ := splitPoint?_sound hsplit
  rcases htext with ⟨rfl, rfl⟩ | rfl
  · exact ⟨by simpa using hne, hwhole.isPlain⟩
  · refine ⟨by simp, Text.isPlain_append.2 ⟨hwhole.isPlain, ?_⟩⟩
    exact Text.isPlain_cons.2 ⟨by decide, hfraction.isPlain⟩

theorem isWord_of_ofText? {text : Text} {numeral : Numeral}
    (hnumeral : ofText? text = some numeral) : text.IsWord := by
  obtain ⟨⟨whole, fraction⟩, hsplit, -⟩ := Option.map_eq_some_iff.1 hnumeral
  have hunsigned : Text.IsWord (splitSign text).2 := isWord_of_splitPoint? hsplit
  rcases splitSign_cases text with htext | htext | htext
  · rwa [htext] at hunsigned
  · rw [htext]
    exact ⟨by simp, Text.isPlain_cons.2 ⟨by decide, hunsigned.2⟩⟩
  · rw [htext]
    exact ⟨by simp, Text.isPlain_cons.2 ⟨by decide, hunsigned.2⟩⟩

theorem ofText?_doubleQuote (rest : Text) : ofText? ('\x22' :: rest) = none := rfl

end Numeral

/-- A text between double quotes is no numeral. -/
theorem Text.unquoted?_eq_none_of_ofText? {text : Text} {numeral : Numeral}
    (hnumeral : Numeral.ofText? text = some numeral) : text.unquoted? = none := by
  cases text with
  | nil => rfl
  | cons first rest =>
      have hfirst : first ≠ '\x22' := by
        rintro rfl
        rw [Numeral.ofText?_doubleQuote] at hnumeral
        contradiction
      simp [unquoted?, hfirst]

end Sexp
