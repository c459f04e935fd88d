import Sexp.Decimal.Layout
import Sexp.Node.Basic

/-!
# Source text of nodes

A node is written as text for the reader.  An identifier is its name, a string
stands between double quotes as it is, a number is written positionally, and a
list is its elements in parentheses with one space between neighbours.  The first
value that is not a node, from left to right, is an error.
-/

namespace Sexp

def Atom.source : Atom → Text
  | identifier name => name
  | string text => '\x22' :: text ++ ['\x22']
  | number x => sourceNumbers.write x

/-- Texts with one space between neighbours. -/
def spaced (texts : List Text) : Text := List.intercalate [' '] texts

namespace Node

mutual

/-- The source text of a node. -/
def source : Node → Except NotNode Text
  | atom value => .ok value.source
  | list items => do
      let texts ← sources items
      return '(' :: spaced texts ++ [')']
  | foreign name => .error ⟨name⟩

def sources : List Node → Except NotNode (List Text)
  | [] => .ok []
  | node :: rest => do
      let text ← source node
      let texts ← sources rest
      return text :: texts

end

end Node

end Sexp
