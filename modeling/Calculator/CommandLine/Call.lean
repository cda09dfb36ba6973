import Calculator.CommandLine.Session

/-!
# Program calls

A program call as a function: from the arguments, the environment and the bytes of standard input
to the exit code and what is printed.  A command that has an answer prints it on a line; one that
has none reports why on the error stream and fails.
-/

namespace Calculator.CommandLine

/-- The outcome of a command with a result, which `print` lays out. -/
def outcomeOf {α : Type} (print : α → Option String) : Except Fault α → Outcome
  | .ok result =>
    match print result with
    | some text => .success (text ++ "\n")
    | none => .brokenOff
  | .error fault => .failure (faultLine fault)

/-- The outcome of a command. -/
def perform (s : Settings) (stdin : List UInt8) : Command → Outcome
  | .eval expression => outcomeOf s.meaning (analyze expression)
  | .sample expression low high count =>
    outcomeOf (fun f => s.table (f.sample low high count)) (Formula.ofText expression)
  | .quadratic expression => outcomeOf s.quadratic (Quadratic.ofText expression)
  | .repl => session s (cutLines stdin)

/-- The outcome of a program call. -/
def call (e : Environment) (arguments : List String) (stdin : List UInt8) : Outcome :=
  match readInvocation e arguments with
  | some invocation => perform invocation.settings stdin invocation.command
  | none => .usageError

end Calculator.CommandLine
