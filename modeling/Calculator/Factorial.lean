import Calculator.Binary64.Exact
import Calculator.Fault

/-!
# The factorial

The factorial is defined for the natural numbers.  It is computed as a product of floats from one
upwards, each step rounded, and beyond `170` it is larger than every float.
-/

namespace Calculator

/-- The largest number whose factorial is a finite float. -/
def maxFactorial : Nat := 170

/-- The product `1 · 2 · … · n` of floats, from the left. -/
def factorialProduct (n : Nat) : Float :=
  (List.range' 2 (n - 1)).foldl (fun product k => product * Float.ofNat k) 1.0

/-- The factorial of a float that is a natural number. -/
def factorial (x : Float) : Except Fault Float :=
  match Binary64.natural? x with
  | none => .error (.evaluation (.undefinedFactorial x))
  | some n => .ok (if maxFactorial < n then 1.0 / 0.0 else factorialProduct n)

example : factorial 5.0 = .ok 120.0 := by rfl
example : factorial 0.0 = .ok 1.0 := by rfl

end Calculator
