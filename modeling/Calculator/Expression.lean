import Calculator.Arrangement
import Calculator.Conversion
import Calculator.Machine
import Calculator.SignGroup

/-!
# Expressions

From the text of an expression to its value.  `compile` cuts the text into tokens, checks how they
are arranged and converts them to the order of evaluation; `evaluate` runs the result.

Before that, `evaluate` looks at the raw text: it must not be blank, it holds no character that is
foreign to expressions, and its parentheses pair up.  `isPlausible` is this look by itself.
-/

namespace Calculator

/-! ## The raw text -/

/-- Whether a character can occur in an expression. -/
def isExpressionChar (c : Char) : Bool :=
  c.isDigit || c.isAlpha || Text.isBlank c ||
    ['+', '-', '*', '/', '^', '(', ')', '.', ',', '!'].contains c

/-- Whether the rest of a text closes exactly the parentheses that it opens and those, `depth` in
number, that are open before it. -/
def pairsUp (depth : Nat) : List Char → Bool
  | [] => depth == 0
  | c :: cs =>
    if c = '(' then pairsUp (depth + 1) cs
    else if c = ')' then
      match depth with
      | 0 => false
      | outer + 1 => pairsUp outer cs
    else pairsUp depth cs

/-- Whether a text could be an expression as far as its characters and parentheses go; a character
that is foreign to expressions is a fault. -/
def isPlausible (expression : String) : Except Fault Bool :=
  if Text.isBlankText expression then .ok false
  else
    match expression.toList.find? fun c => !isExpressionChar c with
    | some c => .error (.input (.foreignCharacter c))
    | none => .ok (pairsUp 0 expression.toList)

/-- Refuses a text that could not be an expression. -/
def checkText (expression : String) : Except Fault Unit := do
  if ← isPlausible expression then .ok ()
  else if Text.isBlankText expression then .error (.input .empty)
  else .error (.input (.unbalanced (Text.trimmed expression)))

/-! ## The value -/

/-- Tokens in the order of evaluation, if they are arranged as an expression. -/
def arrange (tokens : List Token) : Except Fault (List Token) := do
  checkArrangement tokens
  convert tokens

/-- The tokens of an expression in the order of evaluation. -/
def compile (expression : String) : Except Fault (List Token) := do
  arrange (← tokenize expression)

/-- The value of an expression. -/
def evaluate (expression : String) : Except Fault Float := do
  checkText expression
  run (← compile expression)

example : evaluate "2 + 3 * 4" = .ok 14.0 := by decide +kernel
example : evaluate "2 - -3!" = .ok 8.0 := by decide +kernel
example : evaluate "(1 + 2" = .error (.input (.unbalanced "(1 + 2")) := by decide +kernel
example : evaluate "5 * / 2" = .error (.grammar (.consecutiveOperators "*" "/")) := by
  decide +kernel

end Calculator
