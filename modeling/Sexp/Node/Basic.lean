import Sexp.Binary64.Basic
import Sexp.Text.Basic

/-!
# Atoms and nodes

An atom is an identifier or a literal, and a literal is a string or a number.
An identifier and a string of the same text are different atoms.  Two number
literals are equal when their numbers are equal in arithmetic.

A node is an atom or a list of nodes.  A host program can put other values of its
own among the nodes; such a value is kept with the name of its type, which is all
that can be said about it.
-/

namespace Sexp

/-! ## Atoms -/

/-- A leaf of a tree. -/
inductive Atom
  | identifier (name : Text)
  | string (text : Text)
  | number (value : Binary64)
  deriving DecidableEq

namespace Atom

def isIdentifier : Atom → Bool
  | identifier _ => true
  | _ => false

def isString : Atom → Bool
  | string _ => true
  | _ => false

def isNumber : Atom → Bool
  | number _ => true
  | _ => false

def isLiteral (a : Atom) : Bool := a.isString || a.isNumber

/-- Equality of kind and content, with numbers compared in arithmetic. -/
def equal : Atom → Atom → Bool
  | identifier name, identifier name' => name == name'
  | string text, string text' => text == text'
  | number x, number y => x.equal y
  | _, _ => false

end Atom

/-! ## Nodes -/

/-- A tree of atoms. -/
inductive Node
  | atom (value : Atom)
  | list (items : List Node)
  | foreign (typeName : Text)

namespace Node

def isAtom : Node → Bool
  | atom _ => true
  | _ => false

def isList : Node → Bool
  | list _ => true
  | _ => false

def typeName : Node → Text
  | atom _ => "Atom".toList
  | list _ => "list".toList
  | foreign name => name

mutual

/-- Equality of structure and of the atoms at the leaves. -/
def equal : Node → Node → Bool
  | atom a, atom b => a.equal b
  | list items, list items' => equalAll items items'
  | foreign name, foreign name' => name == name'
  | _, _ => false

def equalAll : List Node → List Node → Bool
  | [], [] => true
  | node :: rest, node' :: rest' => equal node node' && equalAll rest rest'
  | _, _ => false

end

end Node

/-- A value that is not a node stands where a node is needed. -/
structure NotNode where
  typeName : Text
  deriving DecidableEq

def NotNode.message (failure : NotNode) : Text :=
  "not an LL node: ".toList ++ failure.typeName

end Sexp
