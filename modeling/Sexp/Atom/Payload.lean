import Sexp.Decimal.Layout
import Sexp.Node.Basic
import Sexp.Text.Quoted

/-!
# Atoms from values of the host

A host program builds an atom from a kind and a payload, both of which can be any
of its values.  The kind is checked before the payload, and a truth value is
refused as a payload before the kind is looked at further.  An identifier takes a
text; a literal takes a text, a floating point number, or an integer that is
rounded to one.
-/

namespace Sexp

inductive AtomKind
  | identifier
  | literal
  deriving DecidableEq

/-- A value of the host program.  A value that is no text, number or truth value comes
with the name of its type and with the text that the host shows it by, which can be
left out where nothing shows it. -/
inductive HostValue
  | text (value : Text)
  | integer (value : Int)
  | float (value : Binary64)
  | boolean (value : Bool)
  | other (typeName : Text) (shown : Text := [])
  deriving DecidableEq

namespace HostValue

def typeName : HostValue → Text
  | text _ => "str".toList
  | integer _ => "int".toList
  | float _ => "float".toList
  | boolean _ => "bool".toList
  | other name _ => name

/-- A value as an error message shows it. -/
def describe : HostValue → Text
  | text value => value.quoted
  | integer value => integerText value
  | float value => displayNumbers.decimal value
  | boolean value => if value then "True".toList else "False".toList
  | other _ shown => shown

end HostValue

/-- The reasons for which no atom is built. -/
inductive AtomError
  | badKind (kind : HostValue)
  | booleanPayload
  | badIdentifier (typeName : Text)
  | badLiteral (typeName : Text)
  | integerTooLarge
  deriving DecidableEq

def AtomError.message : AtomError → Text
  | badKind kind => "bad atom kind: ".toList ++ kind.describe
  | booleanPayload => "bool is not an atom payload".toList
  | badIdentifier typeName => "identifier payload must be str, got ".toList ++ typeName
  | badLiteral typeName => "literal payload must be float or str, got ".toList ++ typeName
  | integerTooLarge => "int too large to convert to float".toList

namespace Atom

/-- The atom of a kind with a given payload. -/
def ofPayload : AtomKind → HostValue → Except AtomError Atom
  | _, .boolean _ => .error .booleanPayload
  | .identifier, .text name => .ok (identifier name)
  | .identifier, payload => .error (.badIdentifier payload.typeName)
  | .literal, .text text => .ok (string text)
  | .literal, .float x => .ok (number x)
  | .literal, .integer n => (Binary64.ofInt? n).elim (.error .integerTooLarge) (.ok ∘ number)
  | .literal, .other typeName _ => .error (.badLiteral typeName)

/-- The atom of a kind that is given by name or is some value that is no kind. -/
def ofKindAndPayload : AtomKind ⊕ HostValue → HostValue → Except AtomError Atom
  | .inl kind, payload => ofPayload kind payload
  | .inr kind, _ => .error (.badKind kind)

end Atom

end Sexp
