import Calculator.Builtin
import Calculator.Token

/-!
# The stack machine

Tokens in the order of evaluation are run on a stack of floats.  A number or a constant is pushed;
a factorial works on the top of the stack, every other operator on the two values on top, and a
function on as many as its argument count says, the last argument being on top.  A run that ends
with exactly one value has that value.

The machine takes any tokens.  What it cannot run is a fault, and the first fault ends the run.
-/

namespace Calculator

/-- The values on the stack, the top first. -/
abbrev Stack := List Float

namespace Machine

/-- The value of a numeral. -/
def numberValue (text : String) : Except Fault Float :=
  match Decimal.read text with
  | .ok x => .ok x
  | .error reason => .error (.evaluation (.badNumber text reason))

/-- The value of a constant. -/
def constantValue (name : String) : Except Fault Float :=
  if name = "pi" then .ok 3.141592653589793
  else if name = "e" then .ok 2.718281828459045
  else .error (.evaluation (.unknownConstant name))

/-- An operator between two values. -/
def applyOperator (symbol : String) (l r : Float) : Except Fault Float :=
  match Operator.ofSymbol? symbol with
  | some .add => .ok (l + r)
  | some .sub => .ok (l - r)
  | some .mul => .ok (l * r)
  | some .div => if r == 0.0 then .error (.evaluation (.divisionByZero l r)) else .ok (l / r)
  | some .pow => .ok (l.pow r)
  | some .factorial | none => .error (.evaluation (.unknownOperator symbol))

/-- An operator token on the stack. -/
def runOperator (symbol : String) (stack : Stack) : Except Fault Stack :=
  if symbol = "!" then
    match stack with
    | [] => .error (.evaluation (.missingOperand symbol))
    | n :: rest => (factorial n).map (· :: rest)
  else
    match stack with
    | r :: l :: rest => (applyOperator symbol l r).map (· :: rest)
    | _ => .error (.evaluation (.needsTwoOperands symbol))

/-- A function token on the stack.  An unknown function is refused before its arguments are
counted. -/
def runFunction (name : String) (arity : Nat) (stack : Stack) : Except Fault Stack :=
  match Builtin.ofName? name with
  | none => .error (.evaluation (.unknownFunction name))
  | some f =>
    if stack.length < arity then
      .error (.evaluation (.tooFewArguments name arity stack.length))
    else (f.apply (stack.take arity).reverse).map (· :: stack.drop arity)

/-- Runs one token. -/
def step (stack : Stack) (t : Token) : Except Fault Stack :=
  match t.lexeme with
  | .number text => (numberValue text).map (· :: stack)
  | .constant name => (constantValue name).map (· :: stack)
  | .operator symbol => runOperator symbol stack
  | .function name => runFunction name t.arity stack
  | .openParen | .closeParen | .separator | .unknown =>
    .error (.evaluation (.notEvaluable t.text))

/-- Runs tokens up to the first fault. -/
def steps (stack : Stack) : List Token → Except Fault Stack
  | [] => .ok stack
  | t :: rest => do steps (← step stack t) rest

/-- The value that a run has left on the stack. -/
def answer : Stack → Except Fault Float
  | [x] => .ok x
  | [] => .error (.evaluation .noValue)
  | stack => .error (.evaluation (.surplusValues stack.length))

end Machine

/-- The value of tokens in the order of evaluation. -/
def run (tokens : List Token) : Except Fault Float := do
  Machine.answer (← Machine.steps [] tokens)

end Calculator
