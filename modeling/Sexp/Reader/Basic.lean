import Sexp.Node.Basic
import Sexp.Token.Basic

/-!
# Reading

A tree laid out flat is a sequence of events: an atom stands for itself, and a
list for an opening, the events of its elements, and a closing.  A token is an
event too, so that reading is finding the trees with a given layout.

The reader builds a sequence of trees from a sequence of events.  Its state is the
list that is being read together with the unfinished lists around it; the
outermost of them is the sequence of trees itself, and is never closed.  A closing
that has no opening stops the reader: in strict mode that is an error, in lenient
mode the trees read so far are the result and the rest is dropped.  A list that is
still open at the end is an error in either mode.
-/

namespace Sexp

/-! ## Events -/

/-- A step on the way through a tree. -/
inductive Event
  | opening
  | closing
  | atom (value : Atom)
  | foreign (typeName : Text)
  deriving DecidableEq

/-- The event of a token: only the two tokens that consist of one parenthesis are
not atoms. -/
def Event.ofToken (token : Text) : Event :=
  if token = ['('] then opening
  else if token = [')'] then closing
  else atom (Atom.ofToken token)

namespace Node

mutual

/-- The events of a node. -/
def events : Node → List Event
  | atom value => [.atom value]
  | list items => .opening :: eventsAll items ++ [.closing]
  | foreign name => [.foreign name]

def eventsAll : List Node → List Event
  | [] => []
  | node :: rest => events node ++ eventsAll rest

end

@[simp] theorem eventsAll_append (nodes nodes' : List Node) :
    eventsAll (nodes ++ nodes') = eventsAll nodes ++ eventsAll nodes' := by
  induction nodes with
  | nil => rfl
  | cons node rest ih => simp [eventsAll, ih]

end Node

/-! ## The reader -/

/-- What to do about a closing parenthesis that was never opened. -/
inductive Mode
  | lenient
  | strict
  deriving DecidableEq

/-- The ways in which a source text is not well formed. -/
inductive ReadError
  | unexpectedClose
  | unterminated
  deriving DecidableEq

def ReadError.message : ReadError → Text
  | unexpectedClose => "unexpected )".toList
  | unterminated => "unterminated (: unexpected end of input, expected \x27)\x27".toList

/-- The lists that are being read: the elements of the innermost one, and of each
list around it, with the last element first and the outermost list last. -/
structure OpenLists where
  innermost : List Node
  outer : List (List Node)

namespace OpenLists

def empty : OpenLists := ⟨[], []⟩

def depth (state : OpenLists) : Nat := state.outer.length

/-- Appends a finished node to the innermost list. -/
def push (state : OpenLists) (node : Node) : OpenLists :=
  ⟨node :: state.innermost, state.outer⟩

/-- Takes in one event; there is no next state when a closing has no opening. -/
def step (state : OpenLists) : Event → Option OpenLists
  | .opening => some ⟨[], state.innermost :: state.outer⟩
  | .closing =>
      match state.outer with
      | [] => none
      | enclosing :: outer => some ⟨.list state.innermost.reverse :: enclosing, outer⟩
  | .atom value => some (state.push (.atom value))
  | .foreign typeName => some (state.push (.foreign typeName))

/-- The trees that have been read, if no parenthesis is open. -/
def finish (state : OpenLists) : Except ReadError (List Node) :=
  match state.outer with
  | [] => .ok state.innermost.reverse
  | _ :: _ => .error .unterminated

/-- Takes in events up to the end or to the first closing without an opening. -/
def read (mode : Mode) (state : OpenLists) : List Event → Except ReadError (List Node)
  | [] => state.finish
  | event :: rest =>
      match state.step event, mode with
      | some next, _ => read mode next rest
      | none, .strict => .error .unexpectedClose
      | none, .lenient => state.finish

/-- Only a closing at the outermost level has no next state. -/
theorem step_eq_none_iff (state : OpenLists) (event : Event) :
    state.step event = none ↔ event = .closing ∧ state.outer = [] := by
  cases event <;> simp [step]
  split <;> simp_all

end OpenLists

/-- The trees with the given events. -/
def readEvents (mode : Mode) (events : List Event) : Except ReadError (List Node) :=
  OpenLists.empty.read mode events

/-- The trees that a sequence of tokens spells. -/
def readTokens (mode : Mode) (tokens : List Text) : Except ReadError (List Node) :=
  readEvents mode (tokens.map Event.ofToken)

/-- The trees that a source text spells. -/
def readSource (mode : Mode) (source : Text) : Except ReadError (List Node) :=
  readTokens mode source.tokens

end Sexp
