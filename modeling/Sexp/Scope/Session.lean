import Sexp.Reader.Basic
import Sexp.Scope.Store

/-!
# Sessions

A session is a sequence of steps on a store.  A step makes a context, binds a
name, or asks a question; it is answered or refused.  Names are bound one after the
other, so a step can be refused when it has already bound some; it says in either
case which store it leaves, and the next step goes on with that one.
-/

namespace Sexp

/-- The bindings that a new context is to begin with, in the order in which they
are made. -/
abbrev Scope := List (Text × Node)

/-- What is offered as the parent of a new context. -/
inductive ParentArgument
  | none
  | context (number : Nat)
  | value (node : Node)

inductive Step
  | new (scope : Scope) (parent : ParentArgument)
  | child (context : Nat) (scope : Scope)
  | define (context : Nat) (name : Text) (value : Node)
  | defineToken (context : Nat) (name token : Text)
  | get (context : Nat) (name : Text)
  | lookup (context : Nat) (name : Text)
  | contains (context : Nat) (name : Text)
  | resolve (context : Nat) (node : Node)
  | resolveSource (context : Nat) (source : Text) (mode : Mode)
  | depth (context : Nat)
  | parent (context : Nat)
  | describe (context : Nat)
  | scope (context : Nat)

inductive Answer
  | nothing
  | number (value : Nat)
  | truth (value : Bool)
  | text (value : Text)
  | atom (value : Atom)
  | node (value : Node)
  | nodes (values : List Node)
  | bindings (entries : List (Text × Atom))

/-- The reasons for which a step is refused. -/
inductive Refusal
  | badParent (typeName : Text)
  | notAtom (typeName : Text)
  | notNode (failure : NotNode)
  | unbound (name : Text)
  | illFormed (failure : ReadError)
  | noContext (number : Nat)

def Refusal.message : Refusal → Text
  | badParent typeName => "parent must be a Context, got ".toList ++ typeName
  | notAtom typeName => "scope values must be atoms, got ".toList ++ typeName
  | notNode failure => failure.message
  | unbound name => "unbound identifier: ".toList ++ name
  | illFormed failure => failure.message
  | noContext number => "no context with number ".toList ++ Nat.toDigits 10 number

/-- The atom to bind a name to. -/
def Node.bindable : Node → Except Refusal Atom
  | .atom value => .ok value
  | node => .error (.notAtom node.typeName)

namespace Bindings

/-- Binds a name to a node, if that is an atom.  The bindings afterwards stand beside the
outcome. -/
def define (b : Bindings) (name : Text) (node : Node) : Bindings × Except Refusal Unit :=
  match node.bindable with
  | .ok value => (b.insert name value, .ok ())
  | .error refusal => (b, .error refusal)

/-- Binds the names of a scope one after the other.  The first value that is not an atom
is refused, and by then the names before it are bound. -/
def fill (b : Bindings) : Scope → Bindings × Except Refusal Unit
  | [] => (b, .ok ())
  | (name, node) :: rest =>
      match b.define name node with
      | (filled, .ok ()) => filled.fill rest
      | (filled, .error refusal) => (filled, .error refusal)

end Bindings

namespace Store

/-- Refuses the number of a context that was never made. -/
def checkContext (store : Store) (number : Nat) : Except Refusal Unit :=
  if number < store.size then .ok () else .error (.noContext number)

/-- The parent of a new context, if what is offered can be one. -/
def checkParent (store : Store) : ParentArgument → Except Refusal (Option Nat)
  | .none => .ok none
  | .context number => do
      store.checkContext number
      return some number
  | .value node => .error (.badParent node.typeName)

/-- Makes a context with the names of a scope.  The names are bound in the new context
before the store has it, and what was bound in it is lost with it if a later one is
refused. -/
def performNew (store : Store) (scope : Scope) (offered : ParentArgument) :
    Store × Except Refusal Answer :=
  match store.checkParent offered with
  | .error refusal => (store, .error refusal)
  | .ok parent =>
      match Bindings.empty.fill scope with
      | (_, .error refusal) => (store, .error refusal)
      | (bindings, .ok ()) => (store.create bindings parent, .ok (.number store.size))

/-- Binds a name in a context.  The context has afterwards the bindings that this leaves,
whether the name was bound or refused. -/
def performDefine (store : Store) (number : Nat) (name : Text) (node : Node) :
    Store × Except Refusal Answer :=
  match store.checkContext number with
  | .error refusal => (store, .error refusal)
  | .ok () =>
      let (bindings, outcome) := (store.bindings number).define name node
      (store.rebind number bindings, outcome.map fun _ => .nothing)

/-- Answers a question about an existing context. -/
def ask (store : Store) (number : Nat) (answer : Except Refusal Answer) :
    Store × Except Refusal Answer :=
  (store, do
    store.checkContext number
    answer)

/-- The atom that a name is bound to as seen from a context. -/
def lookup (store : Store) (number : Nat) (name : Text) : Except Refusal Atom :=
  match store.get? number name with
  | some value => .ok value
  | none => .error (.unbound name)

/-- The trees of a source text, each resolved in a context. -/
def resolveSource (store : Store) (number : Nat) (source : Text) (mode : Mode) :
    Except Refusal (List Node) := do
  let nodes ← (readSource mode source).mapError .illFormed
  (nodes.mapM (store.resolve number)).mapError .notNode

/-- The store after a step, and its answer or the reason of its refusal. -/
def perform (store : Store) : Step → Store × Except Refusal Answer
  | .new scope parent => store.performNew scope parent
  | .child number scope => store.performNew scope (.context number)
  | .define number name node => store.performDefine number name node
  | .defineToken number name token =>
      store.performDefine number name (.atom (Atom.ofToken token))
  | .get number name => store.ask number (.ok ((store.get? number name).elim .nothing .atom))
  | .lookup number name => store.ask number ((store.lookup number name).map .atom)
  | .contains number name => store.ask number (.ok (.truth (store.contains number name)))
  | .resolve number node =>
      store.ask number (((store.resolve number node).mapError .notNode).map .node)
  | .resolveSource number source mode =>
      store.ask number ((store.resolveSource number source mode).map .nodes)
  | .depth number => store.ask number (.ok (.number (store.depth number)))
  | .parent number => store.ask number (.ok ((store.parent? number).elim .nothing .number))
  | .describe number => store.ask number (.ok (.text (store.describe number)))
  | .scope number => store.ask number (.ok (.bindings (store.bindings number).entries))

/-- Performs steps one after the other. -/
def run (store : Store) : List Step → Store × List (Except Refusal Answer)
  | [] => (store, [])
  | step :: rest =>
      let (next, outcome) := store.perform step
      let (last, outcomes) := run next rest
      (last, outcome :: outcomes)

end Store

/-- The outcomes of the steps of a session. -/
def session (steps : List Step) : List (Except Refusal Answer) :=
  (Store.empty.run steps).2

end Sexp
