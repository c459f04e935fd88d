import Sexp.Binary64.Basic
import Sexp.Text.Basic

/-!
# Decimals

A decimal is an integer coefficient times a power of ten.  Its value is rounded
to the nearest floating point magnitude in one exact step, so that neither the
length of the coefficient nor the size of the exponent costs precision.

A numeral is an optional sign, then digits with an optional decimal point: at
least one digit before the point, or a point and at least one digit after it.
Only the ten ASCII digits count, and there is no exponent.

The shortest decimal of a magnitude has the fewest digits of all decimals whose
nearest magnitude it is, and is the nearest to it of those.  The search goes
through the decimal grids from the coarsest to the finest.  If a point of a grid
reads back as the magnitude, so does one of its two neighbours on that grid, so
these two are tried, the nearer one first and the even one first at a tie.  Some
grid is fine enough: a magnitude is a whole number of steps of `10 ^ (-1074)`.
-/

namespace Sexp

-- The powers here are those of natural numbers.
attribute [local instance (2000)] instPowNat

/-- The number `coefficient * 10 ^ exponent`. -/
structure Decimal where
  coefficient : Nat
  exponent : Int
  deriving DecidableEq

namespace Decimal

/-- The magnitude nearest to a decimal, unless that is past the largest one. -/
def toMagnitude? (d : Decimal) : Option Magnitude :=
  Magnitude.round? (d.coefficient * 10 ^ d.exponent.toNat) (10 ^ (-d.exponent).toNat)

/-- The decimal digits of the coefficient, without the zeros at their end. -/
def digits (d : Decimal) : Text :=
  ((Nat.toDigits 10 d.coefficient).reverse.dropWhile (· == '0')).reverse

/-- How many digits of the coefficient stand before the decimal point; where it
is negative, that many zeros follow the point before the first digit. -/
def point (d : Decimal) : Int :=
  (Nat.toDigits 10 d.coefficient).length + d.exponent

end Decimal

/-! ## Numerals -/

/-- The parts of a numeral: whether it has a minus sign, and its digits before and
after the decimal point. -/
structure Numeral where
  negative : Bool
  whole : Text
  fraction : Text
  deriving DecidableEq

namespace Numeral

/-- Separates a leading sign from the rest of a text; `true` stands for a minus. -/
def splitSign : Text → Bool × Text
  | '+' :: rest => (false, rest)
  | '-' :: rest => (true, rest)
  | text => (false, text)

/-- Separates the digits before and after the decimal point. -/
def splitPoint? (text : Text) : Option (Text × Text) :=
  let whole := text.takeWhile Char.isDigit
  match text.dropWhile Char.isDigit with
  | [] => if whole.isEmpty then none else some (whole, [])
  | '.' :: fraction =>
      if fraction.all Char.isDigit && !(whole.isEmpty && fraction.isEmpty) then
        some (whole, fraction)
      else
        none
  | _ => none

/-- The parts of a text that is a numeral as a whole. -/
def ofText? (text : Text) : Option Numeral :=
  let (negative, unsigned) := splitSign text
  (splitPoint? unsigned).map fun (whole, fraction) => ⟨negative, whole, fraction⟩

/-- The size of a numeral. -/
def toDecimal (numeral : Numeral) : Decimal where
  coefficient := Nat.ofDigitChars 10 (numeral.whole ++ numeral.fraction) 0
  exponent := -numeral.fraction.length

/-- The floating point number nearest to a numeral, with the sign of the numeral
even at zero, unless it is past the largest number. -/
def toBinary64? (numeral : Numeral) : Option Binary64 :=
  numeral.toDecimal.toMagnitude?.map (Binary64.finite numeral.negative)

example : ofText? "-.5".toList = some ⟨true, [], ['5']⟩ ∧ ofText? ['.'] = none := by
  decide +kernel

end Numeral

/-! ## Shortest decimals -/

namespace Magnitude

/-- The size in steps of `10 ^ (-1074)`, the finest decimal grid. -/
def decimalSteps (m : Magnitude) : Nat := m.units * 5 ^ (1074 : Nat)

/-- Whether a magnitude is the nearest one to a decimal. -/
def isNearest (m : Magnitude) (d : Decimal) : Bool := d.toMagnitude? == some m

/-- The neighbours of a magnitude on the grid of `10 ^ (place - 1074)`, the nearer
one first. -/
def neighbours (m : Magnitude) (place : Nat) : List Decimal :=
  let nearer := roundQuotient m.decimalSteps (10 ^ place)
  let farther := 2 * (m.decimalSteps / 10 ^ place) + 1 - nearer
  [⟨nearer, (place : Int) - 1074⟩, ⟨farther, (place : Int) - 1074⟩]

/-- The places of the grids from the coarsest that can hold a magnitude to the finest
but one, on which it need not lie itself. -/
def places (m : Magnitude) : List Nat :=
  (List.range' 1 ((Nat.toDigits 10 m.decimalSteps).length - 1)).reverse

/-- The first neighbour that reads back on the grid of a place. -/
def nearestAt? (m : Magnitude) (place : Nat) : Option Decimal :=
  (m.neighbours place).find? m.isNearest

/-- The shortest decimal that reads back as a magnitude: the first that is found from
the coarsest grid on, or else the magnitude itself on the finest grid. -/
def shortest (m : Magnitude) : Decimal :=
  if m.units = 0 then ⟨0, 0⟩
  else (m.places.findSome? m.nearestAt?).getD ⟨m.decimalSteps, -1074⟩

-- The nearest magnitude to a tenth is written with one digit.
example : (round? 1 10).map shortest = some ⟨1, -1⟩ := by decide +kernel

end Magnitude

end Sexp
