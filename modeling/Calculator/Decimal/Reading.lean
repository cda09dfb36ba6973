import Calculator.Decimal.Layout

/-!
# Reading a number

A numeral is an optional sign before `inf`, `infinity` or `nan` in letters of either case, or
before digits with at most one point among them and, if one likes, a power of ten: `1`, `.5`, `2.`,
`1e-7`.  There is at least one digit before the power of ten and at least one in it.  Nothing else
is a numeral, a blank at either end included.

The float that is read is the one nearest to the decimal, whatever its length.  The decimal is an
integer `mantissa · 10 ^ exponent`, and a decimal that is larger or smaller than every float by a
wide margin is decided by its order of magnitude alone, so that no huge power has to be computed.
-/

namespace Calculator.Decimal

/-- Why a text is not a numeral. -/
inductive Misread
  | empty
  | malformed
  deriving DecidableEq, Repr

/-- The reason in words. -/
def Misread.message : Misread → String
  | .empty => "cannot parse float from empty string"
  | .malformed => "invalid float literal"

/-- A decimal without its sign: `mantissa · 10 ^ exponent`, the mantissa possibly zero. -/
structure Numeral where
  mantissa : Nat
  exponent : Int
  deriving DecidableEq, Repr

/-- The number that decimal digits stand for. -/
def value (ds : List Char) : Nat :=
  ds.foldl (fun n d => 10 * n + (d.toNat - '0'.toNat)) 0

/-- The leading digits of a text, and what follows them. -/
def splitDigits (cs : List Char) : List Char × List Char :=
  (cs.takeWhile Char.isDigit, cs.dropWhile Char.isDigit)

/-- A sign taken off the front of a text: whether it was a minus, and the rest. -/
def splitSign : List Char → Bool × List Char
  | '-' :: cs => (true, cs)
  | '+' :: cs => (false, cs)
  | cs => (false, cs)

/-- The power of ten at the end of a numeral: none at all, or `e`, an optional sign and digits. -/
def readPower : List Char → Option Int
  | [] => some 0
  | c :: cs =>
    if c = 'e' ∨ c = 'E' then
      let (negative, rest) := splitSign cs
      let (ds, after) := splitDigits rest
      if ds = [] ∨ after ≠ [] then none
      else some (if negative then -(value ds : Int) else value ds)
    else none

/-- The digits after a point, if there is one, and what follows them. -/
def splitFraction : List Char → List Char × List Char
  | '.' :: cs => splitDigits cs
  | cs => ([], cs)

/-- A numeral without its sign. -/
def readUnsigned (cs : List Char) : Option Numeral :=
  let (whole, rest) := splitDigits cs
  let (fraction, rest) := splitFraction rest
  if whole = [] ∧ fraction = [] then none
  else (readPower rest).map fun power => ⟨value (whole ++ fraction), power - fraction.length⟩

/-- Every float that is not zero lies well between `10 ^ (-magnitudeBound)` and
`10 ^ magnitudeBound`. -/
def magnitudeBound : Int := 400

/-- The float nearest to a numeral. -/
def Numeral.toFloat (n : Numeral) : Float :=
  let magnitude := (numerals n.mantissa).length + n.exponent
  if n.mantissa = 0 ∨ magnitude < -magnitudeBound then 0.0
  else if magnitudeBound < magnitude then 1.0 / 0.0
  else Float.ofScientific n.mantissa (n.exponent < 0) n.exponent.natAbs

/-- The words that are numerals, in lower case, and what they stand for. -/
def readWord (word : List Char) : Option Float :=
  if word = ['i', 'n', 'f'] ∨ word = ['i', 'n', 'f', 'i', 'n', 'i', 't', 'y'] then some (1.0 / 0.0)
  else if word = ['n', 'a', 'n'] then some (0.0 / 0.0)
  else none

/-- A numeral of either kind, without its sign. -/
def readMagnitude (cs : List Char) : Option Float :=
  (readWord (cs.map Char.toLower)).or ((readUnsigned cs).map Numeral.toFloat)

/-- The float that a text stands for. -/
def read (text : String) : Except Misread Float :=
  if text.isEmpty then .error .empty
  else
    let (negative, rest) := splitSign text.toList
    match readMagnitude rest with
    | some x => .ok (if negative then -x else x)
    | none => .error .malformed

end Calculator.Decimal
