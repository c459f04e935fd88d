import Sexp.CommandLine

/-!
# The program

Runs the command line on the arguments of the process.
-/

open Sexp in
/-- Prints what the command line prints, and exits as it exits. -/
def main (arguments : List String) : IO UInt32 := do
  let outcome := CommandLine.run (arguments.map String.toList)
  (← IO.getStdout).putStr (String.ofList outcome.stdout)
  (← IO.getStderr).putStr (String.ofList outcome.stderr)
  return UInt32.ofNat outcome.exit
