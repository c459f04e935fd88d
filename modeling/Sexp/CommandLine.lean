import Sexp.Node.Display
import Sexp.Node.Json
import Sexp.Reader.Basic

/-!
# The command line

Each expression on the command line is shown with its tokens and its trees.  The
first one that is not well formed ends the run; what was printed before stays.
The argument `--strict` selects the strict mode, wherever it stands.
-/

namespace Sexp.CommandLine

/-- What a run leaves behind: its exit status and the texts that it prints. -/
structure Outcome where
  exit : Nat
  stdout : Text
  stderr : Text
  deriving DecidableEq

namespace Outcome

def success : Outcome := ⟨0, [], []⟩

/-- Puts a text before everything that is printed to the standard output. -/
def prepend (text : Text) (outcome : Outcome) : Outcome :=
  { outcome with stdout := text ++ outcome.stdout }

end Outcome

/-- The argument that selects the strict mode. -/
def strictFlag : Text := "--strict".toList

/-- What is printed when no expression is given. -/
def usage : Text := "Usage: python -m ll [--strict] <expr> [<expr> ...]".toList

def line (text : Text) : Text := text ++ ['\n']

/-- The lines that show an expression and its tokens. -/
def heading (source : Text) : Text :=
  line "=====".toList ++ line source ++
    line (bracketed (source.tokens.map Json.stringText))

/-- The trees of an expression as JSON, or the wording of what is wrong with it. -/
def trees (mode : Mode) (source : Text) : Except Text Text := do
  let nodes ← (readSource mode source).mapError ReadError.message
  (Node.list nodes).jsonText.mapError NotNode.message

/-- Shows expressions up to the first that is not well formed. -/
def showAll (mode : Mode) : List Text → Outcome
  | [] => .success
  | source :: rest =>
      match trees mode source with
      | .ok text => (showAll mode rest).prepend (heading source ++ line text)
      | .error message => ⟨1, heading source, line ("error: ".toList ++ message)⟩

/-- The mode that the arguments select. -/
def modeOf (arguments : List Text) : Mode :=
  if strictFlag ∈ arguments then .strict else .lenient

/-- The expressions among the arguments. -/
def expressionsOf (arguments : List Text) : List Text :=
  arguments.filter (· ≠ strictFlag)

def run (arguments : List Text) : Outcome :=
  match expressionsOf arguments with
  | [] => ⟨1, [], line usage⟩
  | expressions => showAll (modeOf arguments) expressions

end Sexp.CommandLine
