import Calculator.Decimal.Shortest

/-!
# Numbers in shortest digits

How a float is written with its shortest digits: with a point and as many zeros as it takes, or as
one digit, a point, the other digits and a power of ten.  Which of the two is chosen, whether a
whole number keeps a point, how an exponent shows its sign and where an exact tie goes differ from
one output to the next, so a `Layout` collects these choices and `Layout.write` follows them.

Two layouts belong to the calculator itself.  `Layout.bare` never uses a power of ten and leaves a
whole number without a point: the digits of a value that is put in the place of the unknown, or
that an error message names.  `Layout.full` keeps a point in every number and goes over to powers
of ten from `10 ^ 16` up and below `10 ^ (-4)`.
-/

namespace Calculator.Decimal

open Calculator.Binary64 (Exact)

/-- The decimal digits of a natural number. -/
def numerals (n : Nat) : List Char :=
  Nat.toDigits 10 n

/-- Digits with a point before the last `places` of them, and zeros in front where these are too few
for one digit before the point. -/
def pointed : Nat → List Char → List Char
  | 0, ds => ds
  | places + 1, ds =>
    let padded := List.replicate (places + 2 - ds.length) '0' ++ ds
    let whole := padded.length - (places + 1)
    padded.take whole ++ '.' :: padded.drop whole

/-- A minus sign where the number is negative. -/
def signed (negative : Bool) (text : List Char) : List Char :=
  if negative then '-' :: text else text

/-- The choices that one output makes in writing a float with its shortest digits. -/
structure Layout where
  /-- A number whose leading digit stands for less than this power of ten shows a power of ten. -/
  scientificBelow : Option Int
  /-- A number whose leading digit stands for at least this power of ten shows a power of ten. -/
  scientificFrom : Option Int
  /-- A whole number that is written without a power of ten ends in a point and a zero. -/
  wholePoint : Bool
  /-- A power of ten that is not negative is written with a plus sign. -/
  plusSign : Bool
  /-- Where an exact tie between two shortest decimals goes. -/
  tie : Tie
  deriving DecidableEq, Repr

/-- Without powers of ten, and a whole number without a point. -/
def Layout.bare : Layout := ⟨none, none, false, false, .up⟩

/-- With a point in every number, or a power of ten for very small and very large ones. -/
def Layout.full : Layout := ⟨some (-4), some 16, true, false, .up⟩

/-- Whether a number whose leading digit stands for `10 ^ lead` shows a power of ten. -/
def Layout.isScientific (l : Layout) (lead : Int) : Bool :=
  l.scientificBelow.any (fun bound => decide (lead < bound)) ||
    l.scientificFrom.any (fun bound => decide (bound ≤ lead))

/-- The digits `ds` times `10 ^ exponent`, without a power of ten. -/
def Layout.positional (l : Layout) (ds : List Char) : Int → List Char
  | .ofNat zeros =>
    ds ++ List.replicate zeros '0' ++ (if l.wholePoint then ['.', '0'] else [])
  | .negSucc places => pointed (places + 1) ds

/-- The digits `ds`, the first of which stands for `10 ^ lead`, with a power of ten. -/
def Layout.scientific (l : Layout) (ds : List Char) (lead : Int) : List Char :=
  let mantissa :=
    match ds with
    | d :: e :: rest => d :: '.' :: e :: rest
    | short => short
  let power :=
    match lead with
    | .ofNat n => (if l.plusSign then ['+'] else []) ++ numerals n
    | .negSucc n => '-' :: numerals (n + 1)
  mantissa ++ 'e' :: power

/-- A positive decimal. -/
def Layout.decimal (l : Layout) (d : Decimal) : List Char :=
  let ds := numerals d.digits
  let lead := d.exponent + (ds.length - 1 : Nat)
  if l.isScientific lead then l.scientific ds lead else l.positional ds d.exponent

/-- The value `mantissa · 2 ^ exponent` in its shortest digits. -/
def Layout.magnitude (l : Layout) (mantissa : Nat) (exponent : Int) : List Char :=
  if mantissa = 0 then l.positional ['0'] 0 else l.decimal (shortest l.tie mantissa exponent)

/-- An exact value, a number that is none, or an infinity. -/
def Layout.exact (l : Layout) : Exact → List Char
  | .nan => ['N', 'a', 'N']
  | .infinite negative => signed negative ['i', 'n', 'f']
  | .finite negative mantissa exponent => signed negative (l.magnitude mantissa exponent)

/-- The text of a float. -/
def Layout.write (l : Layout) (x : Float) : String :=
  String.ofList (l.exact (Exact.ofFloat x))

example : Layout.full.write 14.0 = "14.0" := by decide
example : Layout.full.write 0.0001 = "0.0001" := by decide
example : Layout.full.write 1e16 = "1e16" := by decide
example : Layout.full.write 1.5e-10 = "1.5e-10" := by decide
example : Layout.full.write (-0.0) = "-0.0" := by decide
example : Layout.bare.write 1e21 = "1000000000000000000000" := by decide
example : Layout.bare.write 0.0000001 = "0.0000001" := by decide
example : Layout.bare.write (-1.0 / 0.0) = "-inf" := by decide

/-! ## The digits -/

theorem isDigit_of_mem_numerals {n : Nat} {c : Char} (h : c ∈ numerals n) : c.isDigit = true :=
  Nat.isDigit_of_mem_toDigits (by decide) (by decide) h

theorem numerals_ne_nil (n : Nat) : numerals n ≠ [] :=
  Nat.toDigits_ne_nil

end Calculator.Decimal
