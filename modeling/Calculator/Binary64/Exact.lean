/-!
# The exact value of a binary64 number

A number of the calculator is a binary64 float.  Two parts of it need more than arithmetic on
floats: its decimal text is decided by the exact value, and a factorial asks whether a number is a
natural number.  Both read the value off the bits: sign, eleven bits of exponent, fifty-two bits of
fraction.

`Exact.ofFloat` gives this value as `mantissa · 2 ^ exponent` in integers, and `natural?` the
natural number that a float is, if it is one.
-/

namespace Calculator.Binary64

/-- What a float stands for: nothing, an infinity, or `± mantissa · 2 ^ exponent`. -/
inductive Exact
  | nan
  | infinite (negative : Bool)
  | finite (negative : Bool) (mantissa : Nat) (exponent : Int)
  deriving DecidableEq, Repr

/-- The exponent of the finest floats, the multiples of `2 ^ (-1074)`. -/
def minExponent : Int := -1074

/-- The mantissa of a power of two that is not among the finest floats, one bit above the fraction.
-/
def leadingBit : Nat := Nat.pow 2 52

/-- The bit of the sign, above all others. -/
def signBit : Nat := Nat.pow 2 63

/-- The exponent bits of what is not a finite number, all of them set. -/
def specialField : Nat := Nat.pow 2 11 - 1

/-- The exact value, read off the bits. -/
def Exact.ofFloat (x : Float) : Exact :=
  let bits := x.toBits.toNat
  let negative := bits / signBit == 1
  let field := bits / leadingBit % (specialField + 1)
  let fraction := bits % leadingBit
  if field = specialField then
    if fraction = 0 then .infinite negative else .nan
  else if field = 0 then
    .finite negative fraction minExponent
  else
    .finite negative (leadingBit + fraction) (minExponent + (field - 1 : Nat))

/-- The natural number that an exact value is; a negative zero is zero. -/
def Exact.natural? : Exact → Option Nat
  | .nan | .infinite _ => none
  | .finite negative mantissa exponent =>
    if mantissa = 0 then some 0
    else if negative then none
    else if 0 ≤ exponent then some (mantissa * Nat.pow 2 exponent.toNat)
    else
      let unit := Nat.pow 2 (-exponent).toNat
      if mantissa % unit = 0 then some (mantissa / unit) else none

/-- The natural number that a float is, if it is one. -/
def natural? (x : Float) : Option Nat :=
  (Exact.ofFloat x).natural?

example : natural? 5.0 = some 5 := by decide
example : natural? (-0.0) = some 0 := by decide
example : natural? 2.5 = none := by decide
example : natural? (-1.0) = none := by decide
example : natural? (1.0 / 0.0) = none := by decide
example : natural? 9007199254740994.0 = some 9007199254740994 := by decide

end Calculator.Binary64
