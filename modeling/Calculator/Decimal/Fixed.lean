import Calculator.Decimal.Layout

/-!
# Numbers with a fixed count of places

A result that is printed as text has as many digits after the point as the user asks for.  They are
the digits of the float's exact value, rounded on the grid of that many places, and a value half
way between two points goes to the even one: with two places an eighth is `0.12`.  The sign of the
float is kept also where nothing but zeros is left.

`nearestEven` is the rounding, in natural numbers; its two laws say that it is never more than half
a unit away, and that in the middle it is even.
-/

namespace Calculator.Decimal

open Calculator.Binary64 (Exact)

/-- The natural number nearest to `num / den`, and the even one of two that are equally near. -/
def nearestEven (num den : Nat) : Nat :=
  if Tie.even.roundsUp (num / den) (2 * (num % den)) den then num / den + 1 else num / den

/-- Rounding moves a quotient by no more than a half. -/
theorem nearestEven_near (num : Nat) {den : Nat} (pos : 0 < den) :
    2 * num ≤ 2 * (nearestEven num den * den) + den ∧
      2 * (nearestEven num den * den) ≤ 2 * num + den := by
  have parts : num / den * den + num % den = num := by
    rw [Nat.mul_comm, Nat.div_add_mod]
  unfold nearestEven
  split
  · next up =>
    have := Tie.le_of_roundsUp up
    have := Nat.mod_lt num pos
    rw [Nat.add_mul]
    omega
  · next down =>
    have := Tie.le_of_not_roundsUp down
    omega

/-- In the middle of two numbers rounding takes the even one. -/
theorem nearestEven_even {num den : Nat} (h : 2 * (num % den) = den) :
    nearestEven num den % 2 = 0 := by
  simp only [nearestEven, Tie.roundsUp, if_pos h]
  split <;> rename_i odd <;> simp at odd <;> omega

/-- The value `mantissa · 2 ^ exponent` in units of `10 ^ (-places)`, rounded. -/
def roundedTo (places mantissa : Nat) : Int → Nat
  | .ofNat exponent => mantissa * Nat.pow 2 exponent * Nat.pow 10 places
  | .negSucc exponent => nearestEven (mantissa * Nat.pow 10 places) (Nat.pow 2 (exponent + 1))

/-- The text of a float with `places` digits after the point. -/
def fixed (places : Nat) (x : Float) : String :=
  match Exact.ofFloat x with
  | .finite negative mantissa exponent =>
    String.ofList <| signed negative <|
      pointed places (numerals (roundedTo places mantissa exponent))
  | value => String.ofList (Layout.bare.exact value)

example : fixed 2 0.125 = "0.12" := by decide
example : fixed 2 0.375 = "0.38" := by decide
example : fixed 1 (-0.04) = "-0.0" := by decide
example : fixed 0 2.5 = "2" := by decide
example : fixed 3 (1.0 / 0.0) = "inf" := by decide

end Calculator.Decimal
