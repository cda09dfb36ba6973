import Calculator.Expression

/-!
# Functions of the unknown

A formula is an expression that has been compiled once and is evaluated for one value of the
unknown after another.  The value takes the place of the unknown as a numeral, written with its
shortest digits, in the tokens that have been compiled.

A table of a formula has its points evenly spaced over a range, the two ends included.  A point
where the formula has no value, or none that is finite, is left out.
-/

namespace Calculator

/-- An expression, the text it was read from, and its tokens in the order of evaluation. -/
structure Formula where
  source : String
  program : List Token
  deriving DecidableEq, Repr

namespace Formula

/-- The formula that a text stands for. -/
def ofText (expression : String) : Except Fault Formula := do
  return ⟨Text.trimmed expression, ← compile expression⟩

/-- The token that takes the place of a token when the unknown has the value `x`. -/
def substitute (x : Float) (t : Token) : Token :=
  if t.isUnknown then Token.number (Decimal.Layout.bare.write x) else t

/-- The value at a value of the unknown. -/
def value (f : Formula) (x : Float) : Except Fault Float :=
  run (f.program.map (substitute x))

/-! ## Tables -/

/-- The distance of neighbouring points, if `count` of them reach from one end to the other. -/
def spacing (low high : Float) (count : Nat) : Float :=
  if 1 < count then (high - low) / Float.ofNat (count - 1) else 0.0

/-- The point with the number `i` of `count` points over a range; the last is the upper end itself.
-/
def gridPoint (low high : Float) (count i : Nat) : Float :=
  if i + 1 = count ∧ 1 < count then high
  else low + spacing low high count * Float.ofNat i

/-- The points of an evenly spaced table, in order. -/
def grid (low high : Float) (count : Nat) : List Float :=
  (List.range count).map (gridPoint low high count)

/-- The point of the graph over `x`, if the formula has a finite value there. -/
def graphPoint? (f : Formula) (x : Float) : Option (Float × Float) :=
  match f.value x with
  | .ok y => if y.isFinite then some (x, y) else none
  | .error _ => none

/-- The points of the graph over an evenly spaced table. -/
def sample (f : Formula) (low high : Float) (count : Nat) : List (Float × Float) :=
  (grid low high count).filterMap f.graphPoint?

end Formula

end Calculator
