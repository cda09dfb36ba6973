import Calculator.Fault
import Calculator.Token

/-!
# Conversion to operands before operators

An expression names an operator between its operands.  To be evaluated on a stack it is converted
to the order in which every operator and every function comes after its operands: `2 + 3 * 4`
becomes `2 3 4 * +`.  In that order neither parentheses nor separators are needed, and each
function says how many arguments it was called with.

The conversion reads the tokens once.  An operand goes straight to the output.  Operators,
functions and opening parentheses wait on a stack until it is known where their operands end: an
operator is let out by a weaker one after it, a separator or a closing parenthesis lets out
everything down to the innermost opening parenthesis, and a function follows its closing
parenthesis.

Beside that stack runs a second one, the frames, with an entry for every parenthesis that is open.
It says whether the parenthesis belongs to a call, and then how many arguments have been begun in
it.  Any sequence of tokens is converted, whether or not it is arranged as an expression: only
parentheses that do not pair up and separators outside of a call are refused.
-/

namespace Calculator

/-- What an open parenthesis belongs to: nothing but itself, or a call of which so many arguments
have been begun. -/
inductive Frame
  | group
  | call (arguments : Nat)
  deriving DecidableEq, Repr

/-- A conversion under way: the output so far, its last token first; the tokens that wait, the
latest first; and the frames of the open parentheses, the innermost first. -/
structure Conversion where
  output : List Token
  waiting : List Token
  frames : List Frame
  deriving DecidableEq, Repr

namespace Conversion

/-- Before the first token. -/
def start : Conversion := ⟨[], [], []⟩

/-- Lets out the latest of the waiting tokens, as many of them as satisfy a condition. -/
def release (s : Conversion) (p : Token → Bool) : Conversion :=
  { s with
    output := (s.waiting.takeWhile p).reverse ++ s.output
    waiting := s.waiting.dropWhile p }

/-- Lets out everything down to the innermost open parenthesis. -/
def releaseToParen (s : Conversion) : Conversion :=
  s.release fun t => !t.isOpenParen

/-- Sends a token to the output. -/
def emit (s : Conversion) (t : Token) : Conversion :=
  { s with output := t :: s.output }

/-- Makes a token wait. -/
def hold (s : Conversion) (t : Token) : Conversion :=
  { s with waiting := t :: s.waiting }

/-- An operator waits, after those that take the operand before it have been let out. -/
def onOperator (s : Conversion) (t : Token) (symbol : String) : Conversion :=
  if symbol = "!" then s.hold t
  else (s.release fun top => top.isOperator && takesOperand top.text symbol).hold t

/-- A parenthesis opens a call if a function waits directly before it. -/
def onOpenParen (s : Conversion) (t : Token) : Conversion :=
  let frame := if s.waiting.head?.any Token.isFunction then .call 1 else .group
  { s with waiting := t :: s.waiting, frames := frame :: s.frames }

/-- A separator ends one argument of the innermost call and begins the next. -/
def onSeparator (s : Conversion) : Except Fault Conversion :=
  let s := s.releaseToParen
  match s.frames with
  | .call arguments :: frames =>
    if s.waiting.isEmpty then .error (.grammar .separatorOutsideCall)
    else .ok { s with frames := .call (arguments + 1) :: frames }
  | _ => .error (.grammar .separatorOutsideCall)

/-- The argument count that a closed parenthesis gives to its function. -/
def argumentCount : Option Frame → Nat
  | some (.call arguments) => arguments
  | _ => 1

/-- Lets out the function that waits directly before a parenthesis that has been closed, if there is
one. -/
def releaseFunction (s : Conversion) (frame : Option Frame) : Conversion :=
  match s.waiting with
  | top :: waiting =>
    if top.isFunction then
      { s with output := top.withArity (argumentCount frame) :: s.output, waiting }
    else s
  | [] => s

/-- A closing parenthesis ends the innermost open one, and with it a call. -/
def onCloseParen (s : Conversion) : Except Fault Conversion :=
  let s := s.releaseToParen
  match s.waiting with
  | [] => .error (.grammar .unmatchedClose)
  | _ :: waiting =>
    .ok (releaseFunction { s with waiting, frames := s.frames.tail } s.frames.head?)

/-- Reads one token. -/
def read (s : Conversion) (t : Token) : Except Fault Conversion :=
  match t.lexeme with
  | .number _ | .constant _ | .unknown => .ok (s.emit t)
  | .function _ => .ok (s.hold t)
  | .operator symbol => .ok (s.onOperator t symbol)
  | .openParen => .ok (s.onOpenParen t)
  | .separator => s.onSeparator
  | .closeParen => s.onCloseParen

/-- Reads tokens up to the first that is refused. -/
def readAll (s : Conversion) : List Token → Except Fault Conversion
  | [] => .ok s
  | t :: rest => do (← s.read t).readAll rest

/-- The output in order and after it all that waits, the latest first; no parenthesis may be open.
-/
def finish (s : Conversion) : Except Fault (List Token) :=
  if s.waiting.any Token.isOpenParen then .error (.grammar .unmatchedOpen)
  else .ok (s.output.reverse ++ s.waiting)

end Conversion

/-- The tokens in the order of evaluation, each function with its argument count. -/
def convert (tokens : List Token) : Except Fault (List Token) := do
  (← Conversion.start.readAll tokens).finish

end Calculator
