import Calculator.Factorial
import Calculator.Statistics

/-!
# Functions with a name

The functions that an expression can call.  A scalar function takes one argument and is a function
of the floats; the factorial takes one as well and is also written `fat`; a statistic takes any
number of arguments but none.  Names are lower case, and `log` is the logarithm to the base ten.
-/

namespace Calculator

/-- The functions that an expression can call. -/
inductive Builtin
  | abs
  | acos
  | asin
  | atan
  | ceil
  | cos
  | exp
  | factorial
  | floor
  | ln
  | log
  | sin
  | sqrt
  | tan
  | mean
  | median
  | mode
  | standardDeviation
  | variance
  deriving DecidableEq, Repr

namespace Builtin

/-- The name by which a function is called. -/
def name : Builtin → String
  | .abs => "abs"
  | .acos => "acos"
  | .asin => "asin"
  | .atan => "atan"
  | .ceil => "ceil"
  | .cos => "cos"
  | .exp => "exp"
  | .factorial => "fat"
  | .floor => "floor"
  | .ln => "ln"
  | .log => "log"
  | .sin => "sin"
  | .sqrt => "sqrt"
  | .tan => "tan"
  | .mean => "mean"
  | .median => "median"
  | .mode => "mode"
  | .standardDeviation => "standarddeviation"
  | .variance => "variance"

/-- All functions, in the order of the declaration. -/
def all : List Builtin :=
  [.abs, .acos, .asin, .atan, .ceil, .cos, .exp, .factorial, .floor, .ln, .log, .sin, .sqrt, .tan,
    .mean, .median, .mode, .standardDeviation, .variance]

theorem mem_all (f : Builtin) : f ∈ all := by
  cases f <;> decide

/-- The function of a name. -/
def ofName? (name : String) : Option Builtin :=
  all.find? fun f => f.name == name

/-- Every function is found by its name. -/
theorem ofName?_name (f : Builtin) : ofName? f.name = some f := by
  cases f <;> decide

/-- A function found by a name has that name. -/
theorem name_of_ofName? {name : String} {f : Builtin} (h : ofName? name = some f) :
    f.name = name := by
  simpa using List.find?_some h

/-- The one argument of a function that takes one. -/
def oneArgument (f : Builtin) : List Float → Except Fault Float
  | [x] => .ok x
  | arguments => .error (.evaluation (.notOneArgument f.name arguments.length))

/-- The value of a function at its arguments. -/
def apply (f : Builtin) (arguments : List Float) : Except Fault Float :=
  let scalar (g : Float → Float) : Except Fault Float := (f.oneArgument arguments).map g
  match f with
  | .abs => scalar Float.abs
  | .acos => scalar Float.acos
  | .asin => scalar Float.asin
  | .atan => scalar Float.atan
  | .ceil => scalar Float.ceil
  | .cos => scalar Float.cos
  | .exp => scalar Float.exp
  | .factorial => do Calculator.factorial (← f.oneArgument arguments)
  | .floor => scalar Float.floor
  | .ln => scalar Float.log
  | .log => scalar Float.log10
  | .sin => scalar Float.sin
  | .sqrt => scalar Float.sqrt
  | .tan => scalar Float.tan
  | .mean => Statistics.mean arguments
  | .median => Statistics.medianOfFloats arguments
  | .mode => Statistics.mode arguments
  | .standardDeviation => Statistics.standardDeviation arguments
  | .variance => Statistics.variance arguments

end Builtin

end Calculator
