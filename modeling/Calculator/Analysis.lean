import Calculator.Formula

/-!
# What an expression is

An expression has a value, or it is a function of the unknown if it mentions that.  `analyze` tells
the two apart by the tokens.  A function is compiled again as a formula, which checks it in full but
does not evaluate it; the tokens of anything else are arranged and run.

Either way the tokens are arranged, with the same outcome (`analyze_eq`).
-/

namespace Calculator

/-- What an expression is: a value, or a function of the unknown, known by its text. -/
inductive Meaning
  | numeric (value : Float)
  | functionOfX (source : String)
  deriving DecidableEq

/-- The meaning of an expression. -/
def analyze (expression : String) : Except Fault Meaning := do
  checkText expression
  let tokens ← tokenize expression
  if tokens.any Token.isUnknown then
    let f ← Formula.ofText expression
    return .functionOfX f.source
  else
    return .numeric (← run (← arrange tokens))

/-- The tokens of an expression are arranged before it matters whether they mention the unknown. -/
theorem analyze_eq (expression : String) :
    analyze expression = do
      checkText expression
      let tokens ← tokenize expression
      let program ← arrange tokens
      if tokens.any Token.isUnknown then .ok (.functionOfX (Text.trimmed expression))
      else return .numeric (← run program) := by
  simp only [analyze, Formula.ofText, compile]
  cases checkText expression with
  | error fault => rfl
  | ok checked =>
    cases found : tokenize expression with
    | error fault => rfl
    | ok tokens =>
      simp only [bind, Except.bind]
      cases arrange tokens <;> split <;> rfl

example : analyze " X^2 - 1 " = .ok (.functionOfX "X^2 - 1") := by decide +kernel

end Calculator
