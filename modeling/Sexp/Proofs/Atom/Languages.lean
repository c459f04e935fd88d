import Sexp.Proofs.Atom.RoundTrip
import Sexp.Proofs.Decimal.Spelling

/-!
# The languages of tokens

A text is classified by its spelling alone: as a string if it stands between two double
quotes, otherwise as a number if it spells a numeral that is correctly rounded to a finite
number, and otherwise as an identifier.  A string and an identifier have one spelling each.
-/

namespace Sexp

namespace Numeral

/-- The correct rounding of a numeral: the nearest number with the sign of the numeral, or the
infinity of that sign from the middle between the largest number and `2 ^ 1024` on. -/
inductive IsRoundedTo (numeral : Numeral) : Binary64 → Prop
  | finite {m : Magnitude} (hsmall : |numeral.value| < 2 ^ 1024 - 2 ^ 970)
      (hnearest : (Binary64.finite numeral.negative m).IsNearest numeral.value) :
      numeral.IsRoundedTo (.finite numeral.negative m)
  | infinity (hlarge : 2 ^ 1024 - 2 ^ 970 ≤ |numeral.value|) :
      numeral.IsRoundedTo (.infinity numeral.negative)

/-- The number of a numeral is the correct rounding of it, where that is finite. -/
theorem toBinary64?_eq_some_iff_isRoundedTo (numeral : Numeral) (x : Binary64) :
    numeral.toBinary64? = some x ↔ x.isFinite = true ∧ numeral.IsRoundedTo x := by
  have hlarge := toBinary64?_eq_none_iff numeral
  constructor
  · intro hnumber
    have hsmall := lt_of_not_ge (mt hlarge.2 (by simp [hnumber]))
    have hnearest := (isNearest_of_toBinary64? hnumber).1
    obtain ⟨m, -, rfl⟩ := (toBinary64?_eq_some_iff numeral x).1 hnumber
    exact ⟨rfl, .finite hsmall hnearest⟩
  · rintro ⟨hfinite, hrounded⟩
    cases hrounded with
    | finite hsmall hnearest =>
        obtain ⟨y, hy⟩ := Option.ne_none_iff_exists'.1 (mt hlarge.1 hsmall.not_ge)
        have hynearest := (isNearest_of_toBinary64? hy).1
        obtain ⟨m', -, rfl⟩ := (toBinary64?_eq_some_iff numeral y).1 hy
        rw [hy, hynearest.unique hnearest]
    | infinity _ => contradiction

end Numeral

namespace Text

/-- A text between two double quotes. -/
def IsQuoted (token : Text) : Prop := ∃ text, token = '\x22' :: text ++ ['\x22']

/-- A text denotes a finite number when it spells a numeral that is correctly rounded to it. -/
def Denotes (token : Text) (x : Binary64) : Prop :=
  x.isFinite = true ∧ ∃ numeral : Numeral, numeral.IsSpelled token ∧ numeral.IsRoundedTo x

theorem toNumber?_eq_some_iff (token : Text) (x : Binary64) :
    token.toNumber? = some x ↔ token.Denotes x := by
  simp only [toNumber?, Option.bind_eq_some_iff, Numeral.ofText?_eq_some_iff,
    Numeral.toBinary64?_eq_some_iff_isRoundedTo, Denotes]
  constructor
  · rintro ⟨numeral, hspelled, hfinite, hrounded⟩
    exact ⟨hfinite, numeral, hspelled, hrounded⟩
  · rintro ⟨hfinite, numeral, hspelled, hrounded⟩
    exact ⟨numeral, hspelled, hfinite, hrounded⟩

theorem unquoted?_eq_none_iff (token : Text) : token.unquoted? = none ↔ ¬token.IsQuoted := by
  simp only [Option.eq_none_iff_forall_ne_some, ne_eq, unquoted?_eq_some_iff, IsQuoted, not_exists]

theorem toNumber?_eq_none_iff (token : Text) :
    token.toNumber? = none ↔ ∀ x, ¬token.Denotes x := by
  simp only [Option.eq_none_iff_forall_ne_some, ne_eq, toNumber?_eq_some_iff]

end Text

namespace Atom

theorem ofToken_eq_string_iff (token text : Text) :
    ofToken token = string text ↔ token = '\x22' :: text ++ ['\x22'] := by
  rw [← Text.unquoted?_eq_some_iff, ofToken]
  split
  · next hquoted => simp [hquoted]
  · next hquoted _ => simp [hquoted]
  · next hquoted _ => simp [hquoted]

theorem ofToken_eq_number_iff (token : Text) (x : Binary64) :
    ofToken token = number x ↔ ¬token.IsQuoted ∧ token.Denotes x := by
  rw [← Text.unquoted?_eq_none_iff, ← Text.toNumber?_eq_some_iff, ofToken]
  split
  · next hquoted => simp [hquoted]
  · next hquoted hnumber => simp [hquoted, hnumber]
  · next hquoted hnumber => simp [hquoted, hnumber]

theorem ofToken_eq_identifier_iff (token name : Text) :
    ofToken token = identifier name ↔
      name = token ∧ ¬token.IsQuoted ∧ ∀ x, ¬token.Denotes x := by
  rw [← Text.unquoted?_eq_none_iff, ← Text.toNumber?_eq_none_iff, ofToken]
  split
  · next hquoted => simp [hquoted]
  · next hquoted hnumber => simp [hquoted, hnumber]
  · next hquoted hnumber => simp [hquoted, hnumber, eq_comm]

/-- Different texts are classified alike only if they denote one number. -/
theorem ofToken_eq_ofToken_iff (token other : Text) :
    ofToken token = ofToken other ↔
      token = other ∨ ∃ x, ofToken token = number x ∧ ofToken other = number x := by
  constructor
  · intro hsame
    cases hatom : ofToken token with
    | identifier name =>
        obtain ⟨rfl, -⟩ := (ofToken_eq_identifier_iff token name).1 hatom
        exact .inl ((ofToken_eq_identifier_iff other name).1 (hsame ▸ hatom)).1
    | string text =>
        have htoken := (ofToken_eq_string_iff token text).1 hatom
        exact .inl (htoken.trans ((ofToken_eq_string_iff other text).1 (hsame ▸ hatom)).symm)
    | number x => exact .inr ⟨x, rfl, hsame ▸ hatom⟩
  · rintro (rfl | ⟨x, htoken, hother⟩)
    · rfl
    · rw [htoken, hother]

/-- A text is classified as a string exactly if it is that string between two double quotes;
otherwise as a number exactly if it spells a numeral whose correct rounding is that number and is
finite; and otherwise as the identifier that is the text itself.  Of two different texts that are
classified alike both denote the same number. -/
theorem ofToken_eq_iff (token : Text) :
    (∀ text, ofToken token = string text ↔ token = '\x22' :: text ++ ['\x22']) ∧
      (∀ x, ofToken token = number x ↔ ¬token.IsQuoted ∧ token.Denotes x) ∧
      (∀ name, ofToken token = identifier name ↔
        name = token ∧ ¬token.IsQuoted ∧ ∀ x, ¬token.Denotes x) ∧
      ∀ other, ofToken token = ofToken other ↔
        token = other ∨ ∃ x, ofToken token = number x ∧ ofToken other = number x :=
  ⟨ofToken_eq_string_iff token, ofToken_eq_number_iff token, ofToken_eq_identifier_iff token,
    ofToken_eq_ofToken_iff token⟩

example :
    ofToken ['\x22'] = identifier ['\x22'] ∧ ofToken ['\x22', '\x22'] = string [] ∧
      (ofToken "-5.".toList).isNumber = true ∧ ofToken "1e5".toList = identifier "1e5".toList := by
  decide +kernel

end Atom

end Sexp
