import Calculator.Text.Lowercase
import Calculator.Operator

/-!
# Tokens

A token is one lexical unit of an expression together with an argument count.  The count means
something for a function in converted form, where it says how many arguments the call was written
with; it is one everywhere else, and a stage that has no use for it passes it on.

Numbers, operators and names keep their text as it is: whether a text is a numeral, a known operator
or a known name is asked by the stage that gives it a meaning.
-/

namespace Calculator

/-- The kinds of lexical unit, with their texts. -/
inductive Lexeme
  | number (text : String)
  | operator (symbol : String)
  | function (name : String)
  | constant (name : String)
  | openParen
  | closeParen
  | separator
  /-- The letter `x`. -/
  | unknown
  deriving DecidableEq, Repr

/-- How a lexical unit is written. -/
def Lexeme.text : Lexeme → String
  | .number text => text
  | .operator symbol => symbol
  | .function name | .constant name => name
  | .openParen => "("
  | .closeParen => ")"
  | .separator => ","
  | .unknown => "x"

/-- A lexical unit and an argument count. -/
structure Token where
  lexeme : Lexeme
  arity : Nat
  deriving DecidableEq, Repr

namespace Token

/-- A token as it is read, with the argument count one. -/
def ofLexeme (lexeme : Lexeme) : Token := ⟨lexeme, 1⟩

/-- A numeral. -/
def number (text : String) : Token := ofLexeme (.number text)

/-- The operator with a symbol. -/
def operator (symbol : String) : Token := ofLexeme (.operator symbol)

/-- A function, whose name is kept in lower case. -/
def function (name : String) : Token := ofLexeme (.function (Text.lowercase name))

/-- A constant, whose name is kept in lower case. -/
def constant (name : String) : Token := ofLexeme (.constant (Text.lowercase name))

/-- An opening parenthesis. -/
def openParen : Token := ofLexeme .openParen

/-- A closing parenthesis. -/
def closeParen : Token := ofLexeme .closeParen

/-- The comma between two arguments. -/
def separator : Token := ofLexeme .separator

/-- The unknown. -/
def unknown : Token := ofLexeme .unknown

/-- The token with another argument count. -/
def withArity (t : Token) (arity : Nat) : Token := { t with arity }

/-- How a token is written. -/
def text (t : Token) : String := t.lexeme.text

/-- Whether a token is an operator, known or not. -/
def isOperator (t : Token) : Bool :=
  match t.lexeme with
  | .operator _ => true
  | _ => false

/-- Whether a token is the operator with this symbol. -/
def isSymbol (t : Token) (symbol : String) : Bool :=
  t.lexeme = .operator symbol

/-- Whether a token is a plus or a minus, the operators that can stand before a lone operand. -/
def isSign (t : Token) : Bool :=
  t.isSymbol "+" || t.isSymbol "-"

/-- Whether a token is the factorial, which stands after its one operand. -/
def isFactorial (t : Token) : Bool :=
  t.isSymbol "!"

/-- Whether a token is the name of a function, known or not. -/
def isFunction (t : Token) : Bool :=
  match t.lexeme with
  | .function _ => true
  | _ => false

/-- Whether a token is an opening parenthesis. -/
def isOpenParen (t : Token) : Bool :=
  t.lexeme = .openParen

/-- Whether a token is a closing parenthesis. -/
def isCloseParen (t : Token) : Bool :=
  t.lexeme = .closeParen

/-- Whether a token is the unknown. -/
def isUnknown (t : Token) : Bool :=
  t.lexeme = .unknown

/-- Whether a token can stand before a factorial: a number, a constant or a closing parenthesis.
The unknown is not among them. -/
def endsOperand (t : Token) : Bool :=
  match t.lexeme with
  | .number _ | .constant _ | .closeParen => true
  | _ => false

/-- Whether an operand begins with the token. -/
def startsOperand (t : Token) : Bool :=
  match t.lexeme with
  | .number _ | .function _ | .constant _ | .unknown | .openParen => true
  | _ => false

@[simp] theorem withArity_lexeme (t : Token) (n : Nat) : (t.withArity n).lexeme = t.lexeme := rfl

@[simp] theorem withArity_arity (t : Token) (n : Nat) : (t.withArity n).arity = n := rfl

end Token

/-- The texts of tokens, with a space between each and the next. -/
def printTokens (tokens : List Token) : String :=
  String.intercalate " " (tokens.map Token.text)

end Calculator
