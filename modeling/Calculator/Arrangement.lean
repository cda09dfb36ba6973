import Calculator.Fault
import Calculator.Token

/-!
# The arrangement of tokens

A sequence of tokens whose signs have been written out is an expression only if operands and
operators alternate, parentheses are not empty, functions are called and separators stand between
arguments.  All of it can be told from each token with the one before and the one after it, so
`checkArrangement` goes through the tokens once, and the first token that breaks a rule decides the
fault.  Whether parentheses pair up is not looked at here.

One rule is about a value: a slash directly before a numeral for zero is refused as it stands.
-/

namespace Calculator

/-- The fault of two operands side by side, named by the two tokens that meet. -/
def missingOperator (left right : Token) : Fault :=
  .grammar (.missingOperator left.text right.text)

/-- An operand must not begin directly after this token. -/
def requireNoOperand (current : Token) : Option Token → Except Fault Unit
  | some next => if next.startsOperand then .error (missingOperator current next) else .ok ()
  | none => .ok ()

/-- Whether a text is a numeral for zero. -/
def isLiteralZero (text : String) : Bool :=
  match Decimal.read text with
  | .ok value => value == 0.0
  | .error _ => false

/-- A factorial follows an operand, and no operand follows it. -/
def checkFactorial (previous : Option Token) (current : Token) (next : Option Token) :
    Except Fault Unit :=
  if previous.any Token.endsOperand then requireNoOperand current next
  else .error (.grammar .misplacedFactorial)

/-- What may come directly after an operator with two operands. -/
def checkSecondOperand (previous : Option Token) (current next : Token) : Except Fault Unit :=
  if next.isOperator && !(current.isSign && next.isSign) then
    .error (.grammar (.consecutiveOperators current.text next.text))
  else if next.isCloseParen then
    .error (.grammar (.operatorBeforeClose current.text))
  else if previous.any Token.isOpenParen && !current.isSign then
    .error (.grammar (.operatorAfterOpen current.text))
  else
    match next.lexeme with
    | .number text =>
      if current.isSymbol "/" && isLiteralZero text then
        .error (.grammar (.literalZeroDivisor text))
      else .ok ()
    | _ => .ok ()

/-- An operator stands between two operands, the factorial apart; of two operators in a row only a
pair of signs is let through. -/
def checkOperator (previous : Option Token) (current : Token) (next : Option Token) :
    Except Fault Unit :=
  if current.isFactorial then checkFactorial previous current next
  else if previous.isNone && !current.isSign then
    .error (.grammar (.leadingOperator current.text))
  else
    match next with
    | none => .error (.grammar (.trailingOperator current.text))
    | some next => checkSecondOperand previous current next

/-- An opening parenthesis is not closed at once, and does not follow an operand. -/
def checkOpenParen (previous : Option Token) (current : Token) (next : Option Token) :
    Except Fault Unit :=
  if next.any Token.isCloseParen then .error (.grammar .emptyParentheses)
  else
    match previous with
    | some previous =>
      if previous.endsOperand then .error (missingOperator previous current) else .ok ()
    | none => .ok ()

/-- A closing parenthesis is not the first token, and no operand follows it. -/
def checkCloseParen (previous : Option Token) (current : Token) (next : Option Token) :
    Except Fault Unit :=
  if previous.isNone then .error (.grammar .leadingClose) else requireNoOperand current next

/-- A function is called: its parenthesis follows. -/
def checkFunction (name : String) (next : Option Token) : Except Fault Unit :=
  if next.any Token.isOpenParen then .ok () else .error (.grammar (.bareFunction name))

/-- Whether a token can stand before a separator. -/
def endsArgument (t : Token) : Bool :=
  match t.lexeme with
  | .operator _ | .function _ | .separator | .openParen => false
  | _ => true

/-- Whether a token can stand after a separator. -/
def startsArgument (t : Token) : Bool :=
  match t.lexeme with
  | .operator _ | .closeParen => false
  | _ => true

/-- A separator stands between two arguments. -/
def checkSeparator (previous next : Option Token) : Except Fault Unit :=
  if previous.any endsArgument && next.any startsArgument then .ok ()
  else .error (.grammar .misplacedSeparator)

/-- The rule of one token, between the token before and the token after it. -/
def checkToken (previous : Option Token) (current : Token) (next : Option Token) :
    Except Fault Unit :=
  match current.lexeme with
  | .operator _ => checkOperator previous current next
  | .openParen => checkOpenParen previous current next
  | .closeParen => checkCloseParen previous current next
  | .function name => checkFunction name next
  | .number _ | .constant _ | .unknown => requireNoOperand current next
  | .separator => checkSeparator previous next

theorem checkToken_of_isOperator {previous next : Option Token} {t : Token}
    (h : t.isOperator = true) : checkToken previous t next = checkOperator previous t next := by
  obtain ⟨l, n⟩ := t
  cases l with
  | operator symbol => rfl
  | _ => cases h

/-- The rules of the rest of a sequence after the token `previous`. -/
def checkFrom (previous : Option Token) : List Token → Except Fault Unit
  | [] => .ok ()
  | t :: rest => do
    checkToken previous t rest.head?
    checkFrom (some t) rest

/-- Accepts the sequences of tokens that are arranged as an expression. -/
def checkArrangement (tokens : List Token) : Except Fault Unit :=
  if tokens.isEmpty then .error (.grammar .empty) else checkFrom none tokens

end Calculator
