import Calculator.Decimal.Layout
import Calculator.Decimal.Reading

/-!
# Faults

What can be wrong with an expression is found at one of four stages: in the raw text, among the
lexemes, in the arrangement of the tokens, or in the course of an evaluation.  A fault names its
cause and carries what the cause is about; its kind of failure (`Fault.code`) and its wording
(`Fault.details`) are functions of it, and no other module words a message.

A `Report` is what a reader is shown: stage, code, and details if there are any.
-/

namespace Calculator

/-- Answers can be compared if both what is answered and what goes wrong can. -/
instance decidableEqAnswer {ε α : Type} [DecidableEq ε] [DecidableEq α] :
    DecidableEq (Except ε α)
  | .ok a, .ok b => decidable_of_iff (a = b) ⟨congrArg _, Except.ok.inj⟩
  | .error e, .error f => decidable_of_iff (e = f) ⟨congrArg _, Except.error.inj⟩
  | .ok _, .error _ => .isFalse nofun
  | .error _, .ok _ => .isFalse nofun

/-- The stage that refuses an expression. -/
inductive Stage
  | input
  | lexical
  | grammar
  | evaluation
  deriving DecidableEq, Repr

/-- The name of a stage at the head of a report. -/
def Stage.heading : Stage → String
  | .input => "InputError"
  | .lexical => "LexicalError"
  | .grammar => "SyntaxError"
  | .evaluation => "EvaluationError"

/-- The kinds of failure that a reader can tell apart. -/
inductive Code
  | invalidCharacter
  | unbalancedParentheses
  | emptyExpression
  | malformedSyntax
  | divisionByZero
  | invalidFactorialOperand
  | unknownOperatorOrFunction
  | insufficientOperands
  | tooManyResults
  | emptyStatisticalArgumentList
  | noUniqueMode
  | numberFormat
  | unexpectedToken
  | badArgumentCount
  deriving DecidableEq, Repr

/-- The name of a kind of failure in a report. -/
def Code.name : Code → String
  | .invalidCharacter => "invalid_character"
  | .unbalancedParentheses => "unbalanced_parentheses"
  | .emptyExpression => "empty_expression"
  | .malformedSyntax => "malformed_syntax"
  | .divisionByZero => "division_by_zero"
  | .invalidFactorialOperand => "invalid_factorial_operand"
  | .unknownOperatorOrFunction => "unknown_operator_or_function"
  | .insufficientOperands => "insufficient_operands"
  | .tooManyResults => "too_many_results"
  | .emptyStatisticalArgumentList => "empty_statistical_argument_list"
  | .noUniqueMode => "no_unique_mode"
  | .numberFormat => "number_format"
  | .unexpectedToken => "unexpected_token"
  | .badArgumentCount => "bad_argument_count"

/-- A failure as it is shown. -/
structure Report where
  stage : Stage
  code : Code
  details : Option String
  deriving DecidableEq, Repr

/-- The text of a report: the stage, and in braces the code and the details after a colon. -/
def Report.text (r : Report) : String :=
  let body :=
    match r.details with
    | some details => r.code.name ++ ": " ++ details
    | none => r.code.name
  r.stage.heading ++ "\x7b" ++ body ++ "\x7d"

/-- A text between single quotation marks. -/
def quoted (text : String) : String :=
  "'" ++ text ++ "'"

/-! ## Causes -/

/-- What is wrong with a raw text. -/
inductive InputFault
  /-- Nothing but blanks. -/
  | empty
  /-- A character that no expression holds. -/
  | foreignCharacter (c : Char)
  /-- The parentheses of the expression do not pair up. -/
  | unbalanced (expression : String)
  /-- A character that no quadratic holds. -/
  | notInQuadratic (c : Char)
  /-- A piece of a quadratic that is not one of its terms. -/
  | notATerm (text : String)
  /-- A coefficient that is not a number. -/
  | badCoefficient (text : String) (reason : Decimal.Misread)
  deriving DecidableEq, Repr

/-- What is wrong with the characters between lexemes. -/
inductive LexicalFault
  /-- A stretch before a lexeme that belongs to none. -/
  | unrecognized (stretch : String)
  /-- A stretch at the end that belongs to no lexeme. -/
  | unrecognizedAtEnd (stretch : String)
  deriving DecidableEq, Repr

/-- What is wrong with the arrangement of tokens, each named by its text. -/
inductive GrammarFault
  | empty
  /-- A function without the parenthesis of its arguments. -/
  | bareFunction (name : String)
  /-- Two operands side by side, where an operator would have to stand. -/
  | missingOperator (left right : String)
  | misplacedSeparator
  /-- A factorial after something that is not an operand. -/
  | misplacedFactorial
  | leadingOperator (symbol : String)
  | trailingOperator (symbol : String)
  | consecutiveOperators (first second : String)
  | operatorBeforeClose (symbol : String)
  | operatorAfterOpen (symbol : String)
  /-- A slash directly before a numeral for zero. -/
  | literalZeroDivisor (numeral : String)
  | emptyParentheses
  | leadingClose
  /-- A separator that is not directly inside the parentheses of a call. -/
  | separatorOutsideCall
  | unmatchedClose
  | unmatchedOpen
  deriving DecidableEq, Repr

/-- What can go wrong in an evaluation; tokens are named by their text. -/
inductive EvaluationFault
  /-- A factorial finds nothing on the stack. -/
  | missingOperand (token : String)
  /-- An operator finds fewer than two values on the stack. -/
  | needsTwoOperands (token : String)
  /-- A call finds fewer values on the stack than it has arguments. -/
  | tooFewArguments (token : String) (expected available : Nat)
  | badNumber (text : String) (reason : Decimal.Misread)
  | unknownConstant (name : String)
  | unknownOperator (symbol : String)
  | unknownFunction (name : String)
  | divisionByZero (dividend divisor : Float)
  | undefinedFactorial (operand : Float)
  /-- A token that stands for no value and no operation. -/
  | notEvaluable (token : String)
  | noValue
  | surplusValues (count : Nat)
  /-- A function of one argument is given another number of them. -/
  | notOneArgument (name : String) (count : Nat)
  | noArguments (name : String)
  | noUniqueMode (values : List Float)
  deriving DecidableEq

/-- Why an expression has no answer. -/
inductive Fault
  | input (cause : InputFault)
  | lexical (cause : LexicalFault)
  | grammar (cause : GrammarFault)
  | evaluation (cause : EvaluationFault)
  deriving DecidableEq

/-! ## Codes -/

/-- The kind of failure that a fault of a raw text is. -/
def InputFault.code : InputFault → Code
  | .empty => .emptyExpression
  | .foreignCharacter _ | .notInQuadratic _ => .invalidCharacter
  | .unbalanced _ => .unbalancedParentheses
  | .notATerm _ => .malformedSyntax
  | .badCoefficient .. => .numberFormat

/-- The kind of failure that a fault among the lexemes is. -/
def LexicalFault.code : LexicalFault → Code
  | .unrecognized _ | .unrecognizedAtEnd _ => .invalidCharacter

/-- The kind of failure that a fault of arrangement is.  A literal zero after a slash is a division
by zero already. -/
def GrammarFault.code : GrammarFault → Code
  | .empty => .emptyExpression
  | .literalZeroDivisor _ => .divisionByZero
  | .unmatchedClose | .unmatchedOpen => .unbalancedParentheses
  | .bareFunction _ | .missingOperator .. | .misplacedSeparator | .misplacedFactorial
  | .leadingOperator _ | .trailingOperator _ | .consecutiveOperators .. | .operatorBeforeClose _
  | .operatorAfterOpen _ | .emptyParentheses | .leadingClose | .separatorOutsideCall =>
    .malformedSyntax

/-- The kind of failure that a fault of evaluation is. -/
def EvaluationFault.code : EvaluationFault → Code
  | .missingOperand _ | .needsTwoOperands _ | .tooFewArguments .. | .noValue =>
    .insufficientOperands
  | .badNumber .. => .numberFormat
  | .unknownConstant _ | .unknownOperator _ | .unknownFunction _ => .unknownOperatorOrFunction
  | .divisionByZero .. => .divisionByZero
  | .undefinedFactorial _ => .invalidFactorialOperand
  | .notEvaluable _ => .unexpectedToken
  | .surplusValues _ => .tooManyResults
  | .notOneArgument .. => .badArgumentCount
  | .noArguments _ => .emptyStatisticalArgumentList
  | .noUniqueMode _ => .noUniqueMode

/-! ## Wording -/

/-- The wording of a fault of a raw text. -/
def InputFault.details : InputFault → String
  | .empty => "expression is empty"
  | .foreignCharacter c => "expression contains invalid character " ++ quoted (String.singleton c)
  | .unbalanced expression => "unbalanced parentheses in " ++ quoted expression
  | .notInQuadratic c => quoted (String.singleton c) ++ " cannot appear in a quadratic"
  | .notATerm text => quoted text ++ " is not a term of ax^2 + bx + c"
  | .badCoefficient text reason => "coefficient " ++ quoted text ++ ": " ++ reason.message

/-- The wording of a fault among the lexemes. -/
def LexicalFault.details : LexicalFault → String
  | .unrecognized stretch => "unrecognized characters " ++ quoted stretch
  | .unrecognizedAtEnd stretch => "unrecognized characters at end " ++ quoted stretch

/-- The wording of a fault of arrangement. -/
def GrammarFault.details : GrammarFault → String
  | .empty => "expression is empty"
  | .bareFunction name => "function " ++ quoted name ++ " must be followed by '('"
  | .missingOperator left right =>
    quoted left ++ " followed by " ++ quoted right ++ " without an operator"
  | .misplacedSeparator => "',' must sit between two arguments"
  | .misplacedFactorial => "'!' must follow a number, a constant or ')'"
  | .leadingOperator symbol => "operator " ++ quoted symbol ++ " at the start of the expression"
  | .trailingOperator symbol => "operator " ++ quoted symbol ++ " at the end of the expression"
  | .consecutiveOperators first second => "consecutive operators " ++ quoted (first ++ second)
  | .operatorBeforeClose symbol => "operator " ++ quoted symbol ++ " followed by ')'"
  | .operatorAfterOpen symbol => "operator " ++ quoted symbol ++ " right after '('"
  | .literalZeroDivisor numeral => "explicit division by zero " ++ quoted ("/" ++ numeral)
  | .emptyParentheses => "empty parentheses '()'"
  | .leadingClose => "')' at the start of the expression"
  | .separatorOutsideCall => "',' outside of a function call"
  | .unmatchedClose => "')' without a matching '('"
  | .unmatchedOpen => "'(' without a matching ')'"

/-- The values of a list between square brackets. -/
def listing (values : List Float) : String :=
  "[" ++ String.intercalate ", " (values.map Decimal.Layout.full.write) ++ "]"

/-- The wording of a fault of evaluation.  Operands are written with bare digits, a list of values
with full ones. -/
def EvaluationFault.details : EvaluationFault → String
  | .missingOperand token => quoted token ++ " is missing an operand"
  | .needsTwoOperands token => quoted token ++ " needs two operands"
  | .tooFewArguments token expected available =>
    quoted token ++ " expects " ++ toString expected ++ " operands, only " ++
      toString available ++ " available"
  | .badNumber text reason => quoted text ++ ": " ++ reason.message
  | .unknownConstant name => "unknown constant " ++ quoted name
  | .unknownOperator symbol => "unknown operator " ++ quoted symbol
  | .unknownFunction name => "unknown function " ++ quoted name
  | .divisionByZero dividend divisor =>
    Decimal.Layout.bare.write dividend ++ " / " ++ Decimal.Layout.bare.write divisor
  | .undefinedFactorial operand =>
    "factorial of " ++ Decimal.Layout.bare.write operand ++ " is undefined"
  | .notEvaluable token => quoted token ++ " cannot be evaluated"
  | .noValue => "expression produced no value"
  | .surplusValues count => "expression left " ++ toString count ++ " values on the stack"
  | .notOneArgument name count => name ++ "() takes 1 argument, got " ++ toString count
  | .noArguments name => name ++ "() needs at least one value"
  | .noUniqueMode values =>
    "no value occurs more often than the others in " ++ listing values

namespace Fault

/-- The stage at which a fault is found. -/
def stage : Fault → Stage
  | .input _ => .input
  | .lexical _ => .lexical
  | .grammar _ => .grammar
  | .evaluation _ => .evaluation

/-- The kind of failure that a fault is. -/
def code : Fault → Code
  | .input cause => cause.code
  | .lexical cause => cause.code
  | .grammar cause => cause.code
  | .evaluation cause => cause.code

/-- The wording of a fault. -/
def details : Fault → String
  | .input cause => cause.details
  | .lexical cause => cause.details
  | .grammar cause => cause.details
  | .evaluation cause => cause.details

/-- What is shown of a fault; every fault has details. -/
def report (fault : Fault) : Report :=
  ⟨fault.stage, fault.code, some fault.details⟩

/-- The message of a fault. -/
def message (fault : Fault) : String :=
  fault.report.text

example : (Fault.evaluation (.divisionByZero 5.0 0.0)).message =
    "EvaluationError\x7bdivision_by_zero: 5 / 0\x7d" := by decide

end Fault

end Calculator
