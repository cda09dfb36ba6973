/-!
# Binary64 data

Of the floats that the calculator computes with, a single one is not a number.  A datum is what is
stored, and of the sixty-four bits any pattern can be: there are many data that are not numbers, of
either sign and with any payload.  A list of data can hold several of them, and an order that reads
the bits tells them apart.

Arithmetic does not.  An operation on data gives the datum of the float that the operation on
floats gives, but where this is not a number, it is left open which of the data is the answer: a
`NaNRule` says which, from the two operands.
-/

namespace Calculator.Binary64

/-- A binary64 datum. -/
structure Datum where
  bits : UInt64
  deriving DecidableEq, Repr

namespace Datum

/-- The datum of a float; for what is not a number, the one without a sign and with no payload but
the bit that makes it quiet. -/
def ofFloat (x : Float) : Datum := ⟨x.toBits⟩

/-- The float that a datum stands for. -/
def toFloat (d : Datum) : Float := Float.ofBits d.bits

/-- Whether a datum is not a number. -/
def isNaN (d : Datum) : Bool := d.toFloat.isNaN

example : isNaN ⟨0x7FF0000000000001⟩ = true := by decide
example : isNaN ⟨0xFFF8000000000000⟩ = true := by decide
example : isNaN ⟨0xFFF0000000000000⟩ = false := by decide

end Datum

/-- Which datum an operation answers where its result is not a number. -/
abbrev NaNRule := Datum → Datum → {d : Datum // d.isNaN = true}

namespace NaNRule

/-- The rule by which the answer is always the datum of the one float that is not a number. -/
def plain : NaNRule := fun _ _ => ⟨.ofFloat (0.0 / 0.0), by decide⟩

variable (rule : NaNRule)

/-- An operation of floats as one of data. -/
def lift (op : Float → Float → Float) (a b : Datum) : Datum :=
  let value := op a.toFloat b.toFloat
  if value.isNaN then (rule a b).val else .ofFloat value

/-- The sum of two data. -/
def add : Datum → Datum → Datum := rule.lift (· + ·)

/-- The quotient of two data. -/
def div : Datum → Datum → Datum := rule.lift (· / ·)

end NaNRule

end Calculator.Binary64
