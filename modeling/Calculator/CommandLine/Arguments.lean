import Calculator.Decimal.Reading

/-!
# Arguments

What the arguments and the environment of a program call ask for.  A call is options, the name of a
command, and the command's own arguments, among which options may stand in any place:

* `eval EXPRESSION` evaluates, `sample EXPRESSION` tabulates, `quadratic EXPRESSION` reads
  coefficients, and `repl`, the command that is meant when none is named, answers line by line;
* `--precision` and `--format` belong to every command and may also stand before its name;
  `--from`, `--to` and `--samples` belong to `sample`.

An option is given its value after an equals sign or as the next argument, and no option is given
twice in one place.  An expression may well begin with a hyphen.  So an argument with a hyphen that
is no option is the expression as long as there is none, and is refused after that; for the same
reason it can be the value of an option only while an expression is missing, or if it is a plain
negative number.  After the argument `--` there are no options.

Precision, format and count of samples may be set in the environment too.  What is given beside the
command counts before what is given in front of it, and that before the environment.  A setting in
the environment has to be well formed wherever it is looked up, which is in front of the command
and again beside it, each time the option is not given in that place.

A call that breaks these rules is a usage error, and all usage errors are alike: `readInvocation`
then answers nothing.
-/

namespace Calculator.CommandLine

/-- The two ways to print a result. -/
inductive Format
  | text
  | json
  deriving DecidableEq, Repr

/-- How results are printed: the digits after the point in a text, and the format. -/
structure Settings where
  precision : Nat
  format : Format
  deriving DecidableEq, Repr

/-- What a call asks for. -/
inductive Command
  | eval (expression : String)
  | sample (expression : String) (low high : Float) (count : Nat)
  | quadratic (expression : String)
  | repl
  deriving DecidableEq

/-- A call that obeys the rules. -/
structure Invocation where
  settings : Settings
  command : Command
  deriving DecidableEq

/-- The settings of the environment, as far as there are any. -/
structure Environment where
  precision : Option String
  format : Option String
  samples : Option String
  deriving DecidableEq, Repr

/-! ## Options -/

/-- The options, by their names. -/
inductive Key
  | precision
  | format
  | low
  | high
  | samples
  deriving DecidableEq, Repr

/-- The option of a name. -/
def Key.ofName? (name : String) : Option Key :=
  if name = "precision" then some .precision
  else if name = "format" then some .format
  else if name = "from" then some .low
  else if name = "to" then some .high
  else if name = "samples" then some .samples
  else none

/-- The names of the commands. -/
inductive CommandName
  | eval
  | sample
  | quadratic
  | repl
  deriving DecidableEq, Repr

/-- The command of a name. -/
def CommandName.ofName? (name : String) : Option CommandName :=
  if name = "eval" then some .eval
  else if name = "sample" then some .sample
  else if name = "quadratic" then some .quadratic
  else if name = "repl" then some .repl
  else none

/-- Where an argument stands: in front of the command, or beside it. -/
abbrev Place := Option CommandName

/-- Whether an option can be given in a place. -/
def Place.knows (place : Place) : Key → Bool
  | .precision | .format => true
  | .low | .high | .samples => place == some .sample

/-- Whether an expression is expected in a place. -/
def Place.wantsExpression : Place → Bool
  | some .eval | some .sample | some .quadratic => true
  | some .repl | none => false

/-- What has been given in one place. -/
structure Given where
  options : List (Key × String)
  expression : Option String
  deriving DecidableEq, Repr

/-- Nothing. -/
def Given.nothing : Given := ⟨[], none⟩

/-- The value that an option has been given. -/
def Given.value? (g : Given) (key : Key) : Option String :=
  (g.options.find? fun entry => entry.1 == key).map Prod.snd

/-- One more option, which must not have been given before. -/
def Given.set (g : Given) (key : Key) (value : String) : Option Given :=
  if (g.value? key).isSome then none
  else some { g with options := (key, value) :: g.options }

/-- Whether an argument can still be the expression. -/
def Given.awaitsExpression (g : Given) (place : Place) : Bool :=
  place.wantsExpression && g.expression.isNone

/-- The expression, which is given once and only where one is expected. -/
def Given.setExpression (g : Given) (place : Place) (expression : String) : Option Given :=
  if g.awaitsExpression place then some { g with expression := some expression } else none

/-! ## Reading one place -/

/-- An argument of the form `--name` or `--name=value`, taken apart. -/
def splitOption? (argument : String) : Option (String × Option String) :=
  match argument.toList with
  | '-' :: '-' :: rest =>
    let name := String.ofList (rest.takeWhile (· != '='))
    match rest.dropWhile (· != '=') with
    | [] => some (name, none)
    | _ :: value => some (name, some (String.ofList value))
  | _ => none

/-- Digits with at most one point among them, not in front, and then if one likes `e` and at least
one more digit. -/
def isPlainNumber (cs : List Char) : Bool :=
  let (whole, rest) := Decimal.splitDigits cs
  let (_, rest) := if whole.isEmpty then ([], rest) else Decimal.splitFraction rest
  match rest with
  | [] => true
  | 'e' :: power => !whole.isEmpty && !power.isEmpty && power.all Char.isDigit
  | _ => false

/-- Whether an argument can be the value of the option before it, in a place where an expression is
still missing or is not. -/
def canBeValue (awaitsExpression : Bool) (argument : String) : Bool :=
  match argument.toList with
  | '-' :: '-' :: _ => false
  | '-' :: c :: cs => awaitsExpression || isPlainNumber (c :: cs)
  | _ => true

/-- The option that an argument names in a place, with the value attached to it. -/
def option? (place : Place) (argument : String) : Option (Key × Option String) := do
  let (name, value) ← splitOption? argument
  let key ← Key.ofName? name
  if place.knows key then some (key, value) else none

/-- The arguments after `--`, none of which is an option. -/
def readOperands (place : Place) (g : Given) : List String → Option Given
  | [] => some g
  | argument :: rest => do readOperands place (← g.setExpression place argument) rest

/-- The arguments beside a command, or those in front of it up to its name, and what follows them.
-/
def readPlace (place : Place) (g : Given) : List String → Option (Given × List String)
  | [] => some (g, [])
  | argument :: rest =>
    if place.isNone && (CommandName.ofName? argument).isSome then some (g, argument :: rest)
    else if argument = "--" then (readOperands place g rest).map fun g => (g, [])
    else
      match option? place argument, rest with
      | some (key, some value), rest => do readPlace place (← g.set key value) rest
      | some (key, none), value :: rest =>
        if canBeValue (g.awaitsExpression place) value then do
          readPlace place (← g.set key value) rest
        else none
      | some (_, none), [] => none
      | none, rest => do readPlace place (← g.setExpression place argument) rest

/-! ## Values -/

/-- A count is below this number. -/
def countBound : Nat := Nat.pow 2 64

/-- A count: digits after an optional plus sign. -/
def readCount (text : String) : Option Nat :=
  let ds :=
    match text.toList with
    | '+' :: ds => ds
    | ds => ds
  if ds.isEmpty || !ds.all Char.isDigit then none
  else
    let n := Decimal.value ds
    if n < countBound then some n else none

/-- The format of a name. -/
def readFormat (text : String) : Option Format :=
  if text = "text" then some .text
  else if text = "json" then some .json
  else none

/-- A number, in any form that is a numeral. -/
def readFloat (text : String) : Option Float :=
  (Decimal.read text).toOption

/-- The value of an option, or a default where the option is not set. -/
def valueOr {α : Type} (read : String → Option α) (given : Option String) (default : α) :
    Option α :=
  match given with
  | some text => read text
  | none => some default

/-- The value of an option that can stand in front of the command and beside it, and can be set in
the environment. -/
def lookUp {α : Type} (read : String → Option α) (front beside environment : Option String)
    (default : α) : Option α := do
  let inFront ← valueOr read (front.or environment) default
  let value ← valueOr read (beside.or environment) default
  return if beside.isSome then value else inFront

/-- How results are printed, after what was given in front of the command and beside it. -/
def readSettings (e : Environment) (front beside : Given) : Option Settings := do
  return ⟨← lookUp readCount (front.value? .precision) (beside.value? .precision) e.precision 6,
    ← lookUp readFormat (front.value? .format) (beside.value? .format) e.format .text⟩

/-- The command of a name with what was given beside it. -/
def readCommand (e : Environment) (beside : Given) : CommandName → Option Command
  | .eval => beside.expression.map .eval
  | .sample => do
    let expression ← beside.expression
    let low ← valueOr readFloat (beside.value? .low) (-10.0)
    let high ← valueOr readFloat (beside.value? .high) 10.0
    let count ← valueOr readCount ((beside.value? .samples).or e.samples) 200
    return .sample expression low high count
  | .quadratic => beside.expression.map .quadratic
  | .repl => some .repl

/-- What a call asks for, unless it is a usage error. -/
def readInvocation (e : Environment) (arguments : List String) : Option Invocation := do
  let (front, rest) ← readPlace none .nothing arguments
  match rest with
  | [] =>
    return ⟨← readSettings e front front, .repl⟩
  | name :: rest =>
    let name ← CommandName.ofName? name
    let (beside, _) ← readPlace (some name) .nothing rest
    return ⟨← readSettings e front beside, ← readCommand e beside name⟩

end Calculator.CommandLine
