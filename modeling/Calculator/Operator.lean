/-!
# Operators

The four arithmetic operators, the power and the factorial, with the strength by which each binds
its operands and the side to which it groups.  A symbol that is none of them binds most weakly and
groups to the left, so that it never takes an operand away from a known operator.
-/

namespace Calculator

/-- The operators of an expression. -/
inductive Operator
  | add
  | sub
  | mul
  | div
  | pow
  | factorial
  deriving DecidableEq, Repr

/-- The side to which operators of one strength group. -/
inductive Side
  | left
  | right
  deriving DecidableEq, Repr

namespace Operator

/-- The operator that a symbol stands for. -/
def ofSymbol? (symbol : String) : Option Operator :=
  if symbol = "+" then some .add
  else if symbol = "-" then some .sub
  else if symbol = "*" then some .mul
  else if symbol = "/" then some .div
  else if symbol = "^" then some .pow
  else if symbol = "!" then some .factorial
  else none

/-- The symbol of an operator. -/
def symbol : Operator → String
  | .add => "+"
  | .sub => "-"
  | .mul => "*"
  | .div => "/"
  | .pow => "^"
  | .factorial => "!"

/-- How strongly an operator binds; it binds before one with a smaller number. -/
def precedence : Operator → Nat
  | .add | .sub => 1
  | .mul | .div => 2
  | .pow => 3
  | .factorial => 4

/-- The side to which an operator groups with its like. -/
def side : Operator → Side
  | .add | .sub | .mul | .div => .left
  | .pow | .factorial => .right

theorem ofSymbol?_symbol (op : Operator) : ofSymbol? op.symbol = some op := by
  cases op <;> decide

/-- A symbol is read as an operator exactly if it is that operator's symbol. -/
theorem ofSymbol?_eq_some_iff {s : String} {op : Operator} :
    ofSymbol? s = some op ↔ s = op.symbol := by
  constructor
  · intro h
    unfold ofSymbol? at h
    split at h
    · subst s; cases h; rfl
    split at h
    · subst s; cases h; rfl
    split at h
    · subst s; cases h; rfl
    split at h
    · subst s; cases h; rfl
    split at h
    · subst s; cases h; rfl
    split at h
    · subst s; cases h; rfl
    · cases h
  · rintro rfl
    exact ofSymbol?_symbol op

end Operator

/-- How strongly a symbol binds, nothing if it is unknown. -/
def precedence (symbol : String) : Nat :=
  ((Operator.ofSymbol? symbol).map Operator.precedence).getD 0

/-- The side to which a symbol groups, the left if it is unknown. -/
def side (symbol : String) : Side :=
  ((Operator.ofSymbol? symbol).map Operator.side).getD .left

/-- Whether an operator that waits for its second operand takes the operand that has just been
read, so that the operator after it gets the result: it binds more strongly, or equally where they
group to the left. -/
def takesOperand (waiting next : String) : Bool :=
  match side next with
  | .left => precedence next ≤ precedence waiting
  | .right => precedence next < precedence waiting

end Calculator
