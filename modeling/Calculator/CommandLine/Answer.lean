import Calculator.Analysis
import Calculator.CommandLine.Arguments
import Calculator.Decimal.Fixed
import Calculator.Quadratic

/-!
# Answers

How a result is printed.  A text is meant for reading: its numbers have the same count of digits
after the point, and no more than `maxPrecision` of them can be printed.  The other format is JSON,
with the fields of an object in alphabetical order and no blanks: its numbers have the shortest
digits, a point in every whole number, powers of ten from `10 ^ 16` up and below `10 ^ (-5)`, and a
number that is infinite or not a number is `null`.

The functions answer nothing if a number would need more digits than can be printed.
-/

namespace Calculator.CommandLine

/-! ## JSON -/

/-- Numbers in JSON: a power of ten always has a sign, and an exact tie goes to the even digit.  How
the power is written differs between releases of the JSON library.  Its later ones, which are
followed here, write `1e+16`, and the earlier ones write `1e16`; nothing else depends on it. -/
def jsonLayout : Decimal.Layout := ⟨some (-5), some 16, true, true, .even⟩

/-- A number in JSON. -/
def jsonNumber (x : Float) : String :=
  if x.isFinite then jsonLayout.write x else "null"

/-- A character between the quotation marks of a JSON string. -/
def jsonChar (c : Char) : List Char :=
  if c = '"' then ['\\', '"']
  else if c = '\\' then ['\\', '\\']
  else if c = '\x08' then ['\\', 'b']
  else if c = '\x09' then ['\\', 't']
  else if c = '\x0a' then ['\\', 'n']
  else if c = '\x0c' then ['\\', 'f']
  else if c = '\x0d' then ['\\', 'r']
  else if c.toNat < 0x20 then
    ['\\', 'u', '0', '0', Nat.digitChar (c.toNat / 16), Nat.digitChar (c.toNat % 16)]
  else [c]

/-- A string in JSON. -/
def jsonString (text : String) : String :=
  "\"" ++ String.ofList (text.toList.flatMap jsonChar) ++ "\""

/-- A JSON object of fields that have been printed. -/
def jsonObject (fields : List (String × String)) : String :=
  let members := fields.map fun (name, value) => jsonString name ++ ":" ++ value
  "\x7b" ++ String.intercalate "," members ++ "\x7d"

/-- A JSON array of elements that have been printed. -/
def jsonArray (elements : List String) : String :=
  "[" ++ String.intercalate "," elements ++ "]"

/-! ## Text -/

/-- The most digits after the point that can be printed. -/
def maxPrecision : Nat := 65535

/-- A number in a text. -/
def Settings.number (s : Settings) (x : Float) : Option String :=
  if s.precision ≤ maxPrecision then some (Decimal.fixed s.precision x) else none

/-! ## The results -/

/-- What an expression means. -/
def Settings.meaning (s : Settings) (m : Meaning) : Option String :=
  match s.format, m with
  | .json, .numeric value =>
    some (jsonObject [("type", jsonString "numeric"), ("value", jsonNumber value)])
  | .json, .functionOfX source =>
    some (jsonObject [("type", jsonString "function_of_x"), ("value", jsonString source)])
  | .text, .numeric value => (s.number value).map fun n => "Result: " ++ n
  | .text, .functionOfX source => some ("f(x) = " ++ source)

/-- A line of a table. -/
def Settings.row (s : Settings) (point : Float × Float) : Option String := do
  return (← s.number point.1) ++ "\t" ++ (← s.number point.2)

/-- A table of points. -/
def Settings.table (s : Settings) (points : List (Float × Float)) : Option String :=
  match s.format with
  | .json =>
    some <| jsonArray <| points.map fun (x, y) =>
      jsonObject [("x", jsonNumber x), ("y", jsonNumber y)]
  | .text => do return String.intercalate "\n" ("x\ty" :: (← points.mapM s.row))

/-- The coefficients of a quadratic and its discriminant. -/
def Settings.quadratic (s : Settings) (q : Quadratic) : Option String :=
  match s.format with
  | .json =>
    some <| jsonObject [("a", jsonNumber q.a), ("b", jsonNumber q.b), ("c", jsonNumber q.c),
      ("discriminant", jsonNumber q.discriminant),
      ("quadratic", if q.isQuadratic then "true" else "false")]
  | .text => do
    let a ← s.number q.a
    let b ← s.number q.b
    let c ← s.number q.c
    let discriminant ← s.number q.discriminant
    return "a = " ++ a ++ "\nb = " ++ b ++ "\nc = " ++ c ++ "\ndiscriminant = " ++ discriminant

/-- The line that reports a fault. -/
def faultLine (fault : Fault) : String :=
  "error: " ++ fault.message

end Calculator.CommandLine
