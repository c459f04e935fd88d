import Sexp.Decimal.Basic

/-!
# Layouts of decimals

The digits of a decimal are written in two ways.  The positional layout has a
decimal point with at least one digit on either side.  The scientific layout has
one digit before the point, no point when there is no further digit, and an
exponent with a sign and at least two digits.  The compact layout takes whichever
suits the size: positional from `10 ^ (-4)` and below `10 ^ 16`.

The styles of number text differ in the layout of a finite number and in the names
of the values that are not finite.  Apart from that they agree: a whole number is
written as an integer with all its digits, either zero as `0`, and any other
finite number with the digits of its shortest decimal.
-/

namespace Sexp

/-- The decimal digits of an integer, after a minus sign if it is negative. -/
def integerText : Int → Text
  | .ofNat n => Nat.toDigits 10 n
  | .negSucc n => '-' :: Nat.toDigits 10 (n + 1)

/-- A text after a minus sign, if there is one. -/
def withSign (negative : Bool) (text : Text) : Text :=
  if negative then '-' :: text else text

namespace Decimal

/-- A zero in place of no digits at all. -/
def orZero (digits : Text) : Text :=
  if digits.isEmpty then ['0'] else digits

/-- The digits before the decimal point. -/
def wholeDigits (d : Decimal) : Text :=
  orZero ((d.digits.rightpad d.point.toNat '0').take d.point.toNat)

/-- The digits after the decimal point. -/
def fractionDigits (d : Decimal) : Text :=
  orZero (List.replicate (-d.point).toNat '0' ++ d.digits.drop d.point.toNat)

/-- A decimal without an exponent. -/
def positional (d : Decimal) : Text :=
  d.wholeDigits ++ '.' :: d.fractionDigits

/-- The power of ten of the first digit. -/
def leadingExponent (d : Decimal) : Int := d.point - 1

/-- An exponent of ten with its sign and at least two digits. -/
def exponentText (e : Int) : Text :=
  (if e < 0 then '-' else '+') :: (Nat.toDigits 10 e.natAbs).leftpad 2 '0'

/-- A decimal with one digit before the point and an exponent. -/
def scientific (d : Decimal) : Text :=
  let fraction := d.digits.drop 1
  d.digits.take 1 ++ (if fraction.isEmpty then [] else '.' :: fraction) ++
    'e' :: exponentText d.leadingExponent

/-- A decimal in the layout that suits its size. -/
def compact (d : Decimal) : Text :=
  if -4 ≤ d.leadingExponent ∧ d.leadingExponent < 16 then d.positional else d.scientific

example : compact ⟨1, -4⟩ = "0.0001".toList ∧ compact ⟨1, -5⟩ = "1e-05".toList := by
  decide +kernel

end Decimal

/-! ## Styles of number text -/

structure NumberStyle where
  layout : Decimal → Text
  infinity : Text
  nan : Text

namespace NumberStyle

/-- A number by the digits of its shortest decimal, whether it is whole or not. -/
def decimal (style : NumberStyle) : Binary64 → Text
  | .finite negative m => withSign negative (style.layout m.shortest)
  | .infinity negative => withSign negative style.infinity
  | .nan => style.nan

/-- A number, as an integer if it is whole. -/
def write (style : NumberStyle) (x : Binary64) : Text :=
  match x.toInt? with
  | some n => integerText n
  | none => style.decimal x

theorem write_of_toInt? (style : NumberStyle) {x : Binary64} {n : Int}
    (h : x.toInt? = some n) : style.write x = integerText n := by
  simp [write, h]

theorem write_of_toInt?_eq_none (style : NumberStyle) {x : Binary64}
    (h : x.toInt? = none) : style.write x = style.decimal x := by
  simp [write, h]

end NumberStyle

/-- Numbers in source text: never with an exponent, so that the reader takes every
finite one for a number. -/
def sourceNumbers : NumberStyle :=
  ⟨Decimal.positional, "Infinity".toList, "NaN".toList⟩

def jsonNumbers : NumberStyle :=
  ⟨Decimal.compact, "Infinity".toList, "NaN".toList⟩

/-- Numbers in the descriptions of atoms and nodes. -/
def displayNumbers : NumberStyle :=
  ⟨Decimal.compact, "inf".toList, "nan".toList⟩

end Sexp
