/-
# The fewest digits that read back

Of the decimals that lie nearer to a binary number than to any other, the ones
with the fewest digits, and of those the nearest (`Binary64.shortest`).  For each
count of digits from 1 to 17 the two neighbours of the number on that decimal grid
are tried in exact arithmetic; the first grid with a hit wins.

`Binary64.text` lays the digits out: positional from `10 ^ -5` up to `10 ^ 16`,
always with a digit after the point, and with an exponent outside.
-/

import RoundChange.Decimal.Binary64

namespace RoundChange
namespace Binary64

/-- The count of digits before the point of a number that is not zero: the `n` with
`10 ^ (n - 1) ≤ x < 10 ^ n`. -/
def integerDigits (x : Binary64) : Int :=
  let reaches (n : Int) : Bool :=
    let (num, den) := inUnits x.mantissa 1 (-x.exponent)
    if n < 0 then den ≤ num * Nat.pow 10 n.natAbs else den * Nat.pow 10 n.natAbs ≤ num
  let guess := ((x.mantissa.log2 : Int) + x.exponent) * 30103 / 100000 + 1
  if reaches guess then guess + 1 else if reaches (guess - 1) then guess else guess - 1

/-- The decimal of `count` digits that is nearest to the number, if one lies nearer
to it than to its neighbours in the format: the digits and their power of ten.
Lengths are counted in quarters of the last bit of the mantissa. -/
def onGrid (x : Binary64) (count : Nat) : Option (Nat × Int) :=
  let t := x.integerDigits - count
  let (a, b) := inUnits 1 1 (-(x.exponent - 2))
  let (a, b) := if t < 0 then (a * Nat.pow 10 t.natAbs, b) else (a, b * Nat.pow 10 t.natAbs)
  let middle := 4 * x.mantissa
  let low := if x.mantissa = 1 <<< 52 ∧ -1074 < x.exponent then middle - 1 else middle - 2
  let high := middle + 2
  let ends := x.mantissa % 2 = 0
  let d := middle * a / b
  let fits (d : Nat) : Bool :=
    if ends then low * a ≤ d * b && d * b ≤ high * a else low * a < d * b && d * b < high * a
  match fits d, fits (d + 1) with
  | false, false => none
  | true, false => some (d, t)
  | false, true => some (d + 1, t)
  | true, true =>
    let twice := 2 * (middle * a)
    let half := (2 * d + 1) * b
    if twice < half then some (d, t)
    else if half < twice then some (d + 1, t)
    else some (d + d % 2, t)

/-- Drops zeros at the end of the digits, at most `fuel` of them. -/
def dropZeros : Nat → Nat × Int → Nat × Int
  | 0, d => d
  | fuel + 1, (d, t) => if d ≠ 0 ∧ d % 10 = 0 then dropZeros fuel (d / 10, t + 1) else (d, t)

/-- The fewest digits that read back, and their power of ten. -/
def shortest (x : Binary64) : Nat × Int :=
  if x.mantissa = 0 then (0, 0)
  else dropZeros 17 (((List.range 17).findSome? fun k => x.onGrid (k + 1)).getD (x.mantissa, 0))

/-- The exponents of ten that are written in positional notation, both included. -/
structure Layout where
  least : Int
  greatest : Int

/-- Positional from `10 ^ -5` up to `10 ^ 16`. -/
def layout : Layout := ⟨-5, 15⟩

/-- The digits of a number, laid out: `0.001234`, `12.34`, `1200.0`, or `1.234e+30`
with the sign of the exponent always shown. -/
def text (x : Binary64) : String :=
  let (d, t) := x.shortest
  let digits := Nat.toDigits 10 d
  let point := (digits.length : Int) + t
  let zeros (n : Int) : List Char := List.replicate n.toNat '0'
  if layout.least ≤ point - 1 ∧ point - 1 ≤ layout.greatest then
    if point ≤ 0 then String.ofList ('0' :: '.' :: (zeros (-point) ++ digits))
    else if 0 ≤ t then String.ofList (digits ++ zeros t ++ ['.', '0'])
    else String.ofList (digits.take point.toNat ++ '.' :: digits.drop point.toNat)
  else
    let fraction := match digits.tail with
      | [] => []
      | rest => '.' :: rest
    let sign := if point - 1 < 0 then '-' else '+'
    String.ofList (digits.take 1 ++ fraction ++ 'e' :: sign :: Nat.toDigits 10 (point - 1).natAbs)

/-- The least number has one digit, and `0.1` reads back from one digit. -/
example : shortest ⟨1, -1074⟩ = (5, -324) ∧
    (ofDecimal 1 (-1)).map shortest = some (1, -1) := by decide +kernel

/-- Zero is written `0.0`, and `2 ^ 64` with an exponent. -/
example : text zero = "0.0" ∧ (ofDecimal (2 ^ 63) 0).map text = some "9.223372036854776e+18" := by
  decide +kernel

end Binary64
end RoundChange
