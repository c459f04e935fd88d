import Sexp.Decimal.Basic
import Sexp.Node.Basic

/-!
# Tokens

Source text is cut into tokens by its characters alone.  A parenthesis is a token
of its own, wherever it stands; any other token is a longest run of characters
that are neither parentheses nor blanks.  Quotation marks do not protect the
characters between them.

A token that begins and ends with a double quote is a string literal, if these
are two marks.  Otherwise a numeral whose nearest floating point number is finite
is a number literal, and every other token is an identifier.
-/

namespace Sexp

def isParenthesis (c : Char) : Bool := c == '(' || c == ')'

/-- A text with a space on either side of every occurrence of a character. -/
def Text.padded (mark : Char) (text : Text) : Text :=
  text.flatMap fun c => if c == mark then [' ', c, ' '] else [c]

/-- A text with its opening parentheses set apart, and then its closing ones. -/
def Text.setApart (source : Text) : Text := (source.padded '(').padded ')'

/-- The longest runs of characters that are not blank. -/
def Text.words (text : Text) : List Text :=
  (text.splitOnP isBlank).filter (!·.isEmpty)

/-- The tokens of a source text. -/
def Text.tokens (source : Text) : List Text := source.setApart.words

/-- The text between a first and a last double quote. -/
def Text.unquoted? : Text → Option Text
  | [] => none
  | first :: rest =>
      if first = '\x22' ∧ rest.getLast? = some '\x22' then some rest.dropLast else none

/-- The number that a numeral denotes, if it is not too large. -/
def Text.toNumber? (text : Text) : Option Binary64 :=
  (Numeral.ofText? text).bind Numeral.toBinary64?

/-- The atom that a token stands for. -/
def Atom.ofToken (token : Text) : Atom :=
  match token.unquoted?, token.toNumber? with
  | some text, _ => .string text
  | none, some x => .number x
  | none, none => .identifier token

end Sexp
