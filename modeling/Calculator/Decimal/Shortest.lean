import Calculator.Binary64.Exact

/-!
# Shortest decimals

The text of a float has the fewest digits that read back as the same float, and of those the digits
nearest to its exact value.

Take the float `m · 2 ^ q`.  The real numbers that read back as it form an interval around it,
which reaches half way to the neighbouring floats; its ends belong to it when `m` is even, because
a number half way between two floats reads as the one with the even mantissa.  Below a power of two
the neighbour is only half as far away.  A decimal with few digits is a multiple of a large power
of ten, so the fewest digits are found on the coarsest grid `10 ^ k` that has a point in the
interval.  As the interval is convex and holds the float itself, such a grid has one of the float's
two neighbours on it in the interval, and no other point needs a look.  A point half way between
two equally good neighbours is a matter of the format, and a `Tie` says what becomes of it.

The search runs from a grid too coarse to have a point in the interval down to a grid on which the
float itself lies, where it must end: all of it is arithmetic on natural numbers.
-/

namespace Calculator

open Binary64 (leadingBit minExponent)

/-- A positive decimal `digits · 10 ^ exponent`. -/
structure Decimal where
  digits : Nat
  exponent : Int
  deriving DecidableEq, Repr

namespace Decimal

/-- What becomes of a value half way between two neighbours on a grid. -/
inductive Tie
  | up
  | even
  deriving DecidableEq, Repr

/-- Whether a value above the grid point `d` goes up to the next point: twice what it exceeds `d` by
is compared with the step of the grid. -/
def Tie.roundsUp (tie : Tie) (d twiceRest step : Nat) : Bool :=
  if twiceRest = step then
    match tie with
    | .up => true
    | .even => d % 2 == 1
  else decide (step < twiceRest)

/-- Rounding up gains no more than it adds. -/
theorem Tie.le_of_roundsUp {tie : Tie} {d twiceRest step : Nat}
    (h : tie.roundsUp d twiceRest step = true) : step ≤ twiceRest := by
  unfold roundsUp at h
  split at h
  · omega
  · exact Nat.le_of_lt (of_decide_eq_true h)

/-- Rounding down loses no more than the other way would add. -/
theorem Tie.le_of_not_roundsUp {tie : Tie} {d twiceRest step : Nat}
    (h : ¬ tie.roundsUp d twiceRest step = true) : twiceRest ≤ step := by
  unfold roundsUp at h
  split at h
  · omega
  · exact Nat.le_of_not_lt fun lt => h (decide_eq_true lt)

/-- The reals that read back as one positive float, in units of `2 ^ unit`: from `lower` to `upper`
around the float's own `value`, the ends included if `closed`. -/
structure Interval where
  lower : Nat
  value : Nat
  upper : Nat
  closed : Bool
  unit : Int
  deriving DecidableEq, Repr

/-- The reals that read back as `mantissa · 2 ^ exponent`. -/
def Interval.around (mantissa : Nat) (exponent : Int) : Interval where
  lower :=
    if mantissa = leadingBit ∧ minExponent < exponent then 4 * mantissa - 1 else 4 * mantissa - 2
  value := 4 * mantissa
  upper := 4 * mantissa + 2
  closed := mantissa % 2 == 0
  unit := exponent - 2

/-- The factor that turns units of `2 ^ unit` into the common measure with the grid `10 ^ k`. -/
def Interval.scale (i : Interval) (k : Int) : Nat :=
  Nat.pow 2 i.unit.toNat * Nat.pow 10 (-k).toNat

/-- One step of the grid `10 ^ k` in the common measure with the interval. -/
def Interval.step (i : Interval) (k : Int) : Nat :=
  Nat.pow 2 (-i.unit).toNat * Nat.pow 10 k.toNat

/-- Whether `point`, in the common measure with `10 ^ k`, reads back as the float. -/
def Interval.holds (i : Interval) (k : Int) (point : Nat) : Bool :=
  let lower := i.lower * i.scale k
  let upper := i.upper * i.scale k
  if i.closed then lower ≤ point && point ≤ upper else lower < point && point < upper

/-- The point of the grid `10 ^ k` in the interval that is nearest to the float, if the grid has
any. -/
def Interval.nearest? (i : Interval) (tie : Tie) (k : Int) : Option Nat :=
  let value := i.value * i.scale k
  let step := i.step k
  let below := value / step
  let above := below + 1
  match i.holds k (below * step), i.holds k (above * step) with
  | true, true =>
    some (if tie.roundsUp below (2 * (value % step)) step then above else below)
  | true, false => some below
  | false, true => some above
  | false, false => none

/-- A grid on which the float itself lies: `2 ^ unit` with a negative `unit` is a multiple of
`10 ^ unit`. -/
def Interval.finest (i : Interval) : Int :=
  min i.unit 0

/-- A grid coarser than any with a point in the interval: `0.30103` is a little more than the
decimal logarithm of two. -/
def Interval.coarsest (i : Interval) : Int :=
  (Nat.log2 i.upper + 1 + i.unit) * 30103 / 100000 + 1

/-- The nearest point of the coarsest grid with a point in the interval, from `steps` above the
finest grid down. -/
def Interval.search (i : Interval) (tie : Tie) : Nat → Decimal
  | 0 => ⟨i.value * i.scale i.finest / i.step i.finest, i.finest⟩
  | steps + 1 =>
    let k := i.finest + (steps + 1 : Nat)
    match i.nearest? tie k with
    | some digits => ⟨digits, k⟩
    | none => i.search tie steps

/-- The shortest decimal that reads back as `mantissa · 2 ^ exponent`, for a positive mantissa. -/
def shortest (tie : Tie) (mantissa : Nat) (exponent : Int) : Decimal :=
  let i := Interval.around mantissa exponent
  i.search tie (i.coarsest - i.finest).toNat

end Decimal

end Calculator
