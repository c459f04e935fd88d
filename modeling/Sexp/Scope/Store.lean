import Sexp.Node.Basic
import Sexp.Node.Display
import Sexp.Scope.Bindings

/-!
# Contexts

A context has bindings of its own and perhaps a parent, whose bindings it inherits
where it has none of its own.  A store holds all contexts that were ever made and
numbers them from zero in the order of their making.  A parent is older than its
children, so the way from a context to its ancestors is followed by recursion on
the store, and always ends.
-/

namespace Sexp

/-- A set of bindings inside another one. -/
structure Context where
  bindings : Bindings
  parent : Option Nat
  deriving DecidableEq

/-- The contexts that were made, the newest first. -/
structure Store where
  newestFirst : List Context
  deriving DecidableEq

namespace Store

def empty : Store := ⟨[]⟩

/-- How many contexts there are, which is the number of the next one. -/
def size (store : Store) : Nat := store.newestFirst.length

/-- The context with a number, in a list of contexts with the newest first. -/
def contextIn : List Context → Nat → Option Context
  | [], _ => none
  | newest :: older, number =>
      if number = older.length then some newest else contextIn older number

def context? (store : Store) (number : Nat) : Option Context :=
  contextIn store.newestFirst number

/-- The numbers of a context and its ancestors, in a list of contexts with the
newest first. -/
def lineageIn : List Context → Nat → List Nat
  | [], _ => []
  | newest :: older, number =>
      if number = older.length then
        match newest.parent with
        | none => [number]
        | some parent => number :: lineageIn older parent
      else
        lineageIn older number

/-- The numbers of a context and its ancestors, itself first and the root last. -/
def lineage (store : Store) (number : Nat) : List Nat :=
  lineageIn store.newestFirst number

def create (store : Store) (bindings : Bindings) (parent : Option Nat) : Store :=
  ⟨⟨bindings, parent⟩ :: store.newestFirst⟩

/-- Gives other bindings to the context with a number, in a list of contexts with the newest
first. -/
def rebindIn (bindings : Bindings) : List Context → Nat → List Context
  | [], _ => []
  | newest :: older, number =>
      if number = older.length then ⟨bindings, newest.parent⟩ :: older
      else newest :: rebindIn bindings older number

def rebind (store : Store) (number : Nat) (bindings : Bindings) : Store :=
  ⟨rebindIn bindings store.newestFirst number⟩

/-- The bindings that a context has itself. -/
def bindings (store : Store) (number : Nat) : Bindings :=
  (store.context? number).elim .empty Context.bindings

/-- Binds a name in the context with a number. -/
def define (store : Store) (number : Nat) (name : Text) (value : Atom) : Store :=
  store.rebind number ((store.bindings number).insert name value)

def parent? (store : Store) (number : Nat) : Option Nat :=
  (store.context? number).bind Context.parent

/-- What a name is bound to in a context itself. -/
def getOwn? (store : Store) (number : Nat) (name : Text) : Option Atom :=
  (store.bindings number).get? name

/-- What a name is bound to in the nearest context, from a context outward, that
binds it. -/
def get? (store : Store) (number : Nat) (name : Text) : Option Atom :=
  (store.lineage number).findSome? (store.getOwn? · name)

def contains (store : Store) (number : Nat) (name : Text) : Bool :=
  (store.get? number name).isSome

def depth (store : Store) (number : Nat) : Nat := (store.lineage number).length - 1

/-- An identifier is replaced by the atom that it is bound to; any other node, and
an identifier without binding, stands for itself. -/
def resolve (store : Store) (number : Nat) : Node → Except NotNode Node
  | .atom (.identifier name) =>
      .ok (.atom ((store.get? number name).getD (.identifier name)))
  | .foreign typeName => .error ⟨typeName⟩
  | node => .ok node

/-- The names that a context binds itself, and its depth. -/
def describe (store : Store) (number : Nat) : Text :=
  "Context(".toList ++ bracketed ((store.bindings number).names.map Text.quoted) ++
    ", depth=".toList ++ Nat.toDigits 10 (store.depth number) ++ [')']

@[simp] theorem size_create (store : Store) (bindings : Bindings) (parent : Option Nat) :
    (store.create bindings parent).size = store.size + 1 := rfl

theorem length_rebindIn (bindings : Bindings) (contexts : List Context) (number : Nat) :
    (rebindIn bindings contexts number).length = contexts.length := by
  induction contexts with
  | nil => rfl
  | cons newest older ih =>
      unfold rebindIn
      split <;> simp [ih]

@[simp] theorem size_rebind (store : Store) (number : Nat) (bindings : Bindings) :
    (store.rebind number bindings).size = store.size :=
  length_rebindIn bindings store.newestFirst number

@[simp] theorem size_define (store : Store) (number : Nat) (name : Text) (value : Atom) :
    (store.define number name value).size = store.size :=
  size_rebind store number _

end Store

end Sexp
