import Calculator.Lexeme

/-!
# Signs before operands

A plus or minus with no operand on its left belongs to the operand on its right.  So that every
operator further on has two operands, `-a` is written out as the group `(0 - a)`.  A sign has no
operand on its left at the beginning, after an operator other than the factorial, after an opening
parenthesis, after a function name and after a separator.

The group reaches as far as what binds more strongly than the sign: one operand, which is a number,
a constant, the unknown or a whole parenthesized piece, and the factorials and powers that follow
it.  `-2^2` becomes `(0-2^2)`, and of several signs in a row the innermost group ends first.

`Nesting` keeps the depth of parentheses and the depths at which groups have been opened.  When an
operand ends at the depth of the innermost group and neither a power nor a factorial follows, that
group is closed, and with it every group around it that has now reached its end.  A group that
never gets its operand is closed at the end of the expression: what is wrong there is found later.
-/

namespace Calculator

/-- How deep a place in an expression is nested, and at which depths the sign groups around it were
opened, the innermost first. -/
structure Nesting where
  depth : Nat
  groups : List Nat
  deriving DecidableEq, Repr

namespace Nesting

/-- Outside of every parenthesis. -/
def outside : Nesting := ⟨0, []⟩

/-- One parenthesis further in, which belongs to a sign group. -/
def openGroup (s : Nesting) : Nesting :=
  ⟨s.depth + 1, (s.depth + 1) :: s.groups⟩

/-- The nesting after a token that is not a sign before an operand; a closing parenthesis without an
opening one leaves the depth at zero. -/
def after (s : Nesting) (t : Token) : Nesting :=
  match t.lexeme with
  | .openParen => { s with depth := s.depth + 1 }
  | .closeParen => { s with depth := s.depth - 1 }
  | _ => s

/-- How many groups end at this depth, when an operand has been completed, and which remain. -/
def closeGroups : Nat → List Nat → Nat × Nesting
  | depth, [] => (0, ⟨depth, []⟩)
  | depth, d :: groups =>
    if d = depth then
      let (closed, s) := closeGroups (depth - 1) groups
      (closed + 1, s)
    else (0, ⟨depth, d :: groups⟩)

end Nesting

/-- Whether a sign after this token, if there is one, has no operand on its left. -/
def isUnaryAfter : Option Token → Bool
  | none => true
  | some t =>
    match t.lexeme with
    | .operator symbol => symbol != "!"
    | .openParen | .function _ | .separator => true
    | _ => false

/-- Whether a token completes an operand, unless a stronger operator follows. -/
def Token.completesOperand (t : Token) : Bool :=
  match t.lexeme with
  | .number _ | .constant _ | .unknown | .closeParen => true
  | .operator symbol => symbol == "!"
  | _ => false

/-- Whether the token that follows an operand, if there is one, binds it more strongly than a sign.
-/
def bindsTighter : Option Token → Bool
  | none => false
  | some t => t.isFactorial || t.isSymbol "^"

/-- The rest of an expression with its signs written out, after the token `prev` and in the nesting
`s`. -/
def groupSignsFrom (prev : Option Token) (s : Nesting) : List Token → List Token
  | [] => List.replicate s.groups.length Token.closeParen
  | t :: rest =>
    if t.isSign && isUnaryAfter prev then
      Token.openParen :: Token.number "0" :: t :: groupSignsFrom (some t) s.openGroup rest
    else
      let inner := s.after t
      let (closed, next) :=
        if t.completesOperand && !bindsTighter rest.head? then
          Nesting.closeGroups inner.depth inner.groups
        else (0, inner)
      t :: (List.replicate closed Token.closeParen ++ groupSignsFrom (some t) next rest)

/-- The tokens with every sign before an operand written out as a group. -/
def groupSigns (tokens : List Token) : List Token :=
  groupSignsFrom none .outside tokens

/-- The tokens of an expression, with every sign before an operand written out. -/
def tokenize (expression : String) : Except Fault (List Token) :=
  (scan expression).map groupSigns

end Calculator
