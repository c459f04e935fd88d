import Sexp.Decimal.Layout
import Sexp.Node.Basic
import Sexp.Text.Quoted

/-!
# Nodes as JSON

The part of JSON that trees need: arrays, strings and numbers, and their compact
text.  In a string the double quote, the backslash and the characters below the
space are escaped, and nothing else.  The numbers that are not finite are written
as the words `NaN`, `Infinity` and `-Infinity`.

A list becomes an array, an identifier or a string becomes a string, and a number
stays a number, so that identifiers and strings of one text fall together.  The
first value that is not a node, from left to right, is an error.
-/

namespace Sexp

/-! ## JSON values -/

/-- A JSON value without objects, truth values and null. -/
inductive Json
  | array (items : List Json)
  | string (text : Text)
  | number (value : Binary64)

namespace Json

/-- One character of a string. -/
def escapedChar (c : Char) : Text :=
  if c = '\x22' ∨ c = '\\' then ['\\', c]
  else if c = '\x08' then ['\\', 'b']
  else if c = '\x0C' then ['\\', 'f']
  else if c = '\n' then ['\\', 'n']
  else if c = '\r' then ['\\', 'r']
  else if c = '\t' then ['\\', 't']
  else if c.toNat < 0x20 then '\\' :: 'u' :: hexDigits 4 c.toNat
  else [c]

/-- A text as a JSON string. -/
def stringText (text : Text) : Text :=
  '\x22' :: text.flatMap escapedChar ++ ['\x22']

mutual

/-- The compact text of a value. -/
def compact : Json → Text
  | array items => '[' :: List.intercalate [','] (compactAll items) ++ [']']
  | string text => stringText text
  | number x => jsonNumbers.write x

def compactAll : List Json → List Text
  | [] => []
  | value :: rest => compact value :: compactAll rest

end

end Json

/-! ## The value of a node -/

def Atom.toJson : Atom → Json
  | identifier name => .string name
  | string text => .string text
  | number x => .number x

namespace Node

mutual

/-- The JSON value of a node. -/
def toJson : Node → Except NotNode Json
  | atom value => .ok value.toJson
  | list items => do
      let values ← toJsonAll items
      return .array values
  | foreign name => .error ⟨name⟩

def toJsonAll : List Node → Except NotNode (List Json)
  | [] => .ok []
  | node :: rest => do
      let value ← toJson node
      let values ← toJsonAll rest
      return value :: values

end

/-- The compact JSON text of a node. -/
def jsonText (node : Node) : Except NotNode Text := do
  let value ← node.toJson
  return value.compact

end Node

end Sexp
