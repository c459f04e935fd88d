import Sexp.Decimal.Layout
import Sexp.Node.Basic
import Sexp.Text.Quoted

/-!
# Descriptions of nodes

A description tells the kinds of atoms apart: the name of an identifier stands as
it is, and a string in quotation marks.  A list is its elements in brackets.  A
tree that holds a value that is not a node has no description.
-/

namespace Sexp

/-- Texts in brackets with a comma and a space between neighbours. -/
def bracketed (texts : List Text) : Text :=
  '[' :: List.intercalate [',', ' '] texts ++ [']']

def Atom.describe : Atom → Text
  | identifier name => "Identifier(".toList ++ name ++ [')']
  | string text => "Literal(".toList ++ text.quoted ++ [')']
  | number x => "Literal(".toList ++ displayNumbers.write x ++ [')']

namespace Node

mutual

/-- The description of a node. -/
def describe? : Node → Option Text
  | atom value => some value.describe
  | list items => (describeAll? items).map bracketed
  | foreign _ => none

def describeAll? : List Node → Option (List Text)
  | [] => some []
  | node :: rest => do
      let text ← describe? node
      let texts ← describeAll? rest
      return text :: texts

end

end Node

end Sexp
