import Sexp.Text.Basic
import Sexp.Text.Quoted
import Sexp.Binary64.Bits
import Sexp.Decimal.Basic
import Sexp.Decimal.Layout
import Sexp.Atom.Payload
import Sexp.Reader.Basic
import Sexp.Node.Source
import Sexp.Node.Json
import Sexp.Node.Display
import Sexp.Scope.Session
import Sexp.CommandLine
import Sexp.Main
import Sexp.Proofs.Reader.Layout
import Sexp.Proofs.Token.Spacing
import Sexp.Proofs.Atom.RoundTrip
import Sexp.Proofs.Atom.Languages
import Sexp.Proofs.Node.Leaves
import Sexp.Proofs.Node.RoundTrip
import Sexp.Proofs.Node.Canonical
import Sexp.Proofs.Reader.Outcome
import Sexp.Proofs.Reader.Completion
import Sexp.Proofs.Reader.Concatenation
import Sexp.Proofs.Reader.Descent
import Sexp.Proofs.Node.Json
import Sexp.Proofs.Scope.Substitution
import Sexp.Proofs.Scope.Traceless
import Sexp.Proofs.Scope.Visibility
import Sexp.Proofs.CommandLine.Strictness
import Sexp.Proofs.Atom.Shortest
import Sexp.Proofs.Node.Renderings
import Sexp.Proofs.Node.Display
import Sexp.Proofs.Scope.Bindings
import Sexp.Proofs.Scope.Independence
import Sexp.Proofs.Scope.Construction
import Sexp.Proofs.Scope.Dictionary
import Sexp.Proofs.Node.Equality
import Sexp.Proofs.Node.Foreign
import Sexp.Proofs.Scope.Display
import Sexp.Proofs.Reader.Stack
