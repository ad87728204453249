/-
# Binary floating point, 64 bits wide

The finite numbers of the format: 53 bits of mantissa and an exponent from -1074
to 971.  Signs are kept apart, so a `Binary64` is never negative.

| | mantissa | exponent |
| --- | --- | --- |
| zero | `0` | `-1074` |
| subnormal | below `2 ^ 52` | `-1074` |
| normal | from `2 ^ 52`, below `2 ^ 53` | `-1074` to `971` |

A result that is not on this grid goes to the nearer neighbour, a tie to the one
with the even mantissa (`Binary64.ofRatio`); past the last number there is no
result.  A decimal `w · 10 ^ k` is read in two roundings, first of `w`, then of
the product or quotient with the number nearest to the power of ten
(`Binary64.ofDecimal`).
-/

namespace RoundChange

/-- The number `mantissa · 2 ^ exponent`. -/
structure Binary64 where
  mantissa : Nat
  exponent : Int
deriving DecidableEq, Repr

namespace Binary64

/-- Zero. -/
def zero : Binary64 := ⟨0, -1074⟩

/-- The integer nearest to `num / den`, the even one of two. -/
def nearest (num den : Nat) : Nat :=
  let q := num / den
  let r := num % den
  if 2 * r < den then q else if den < 2 * r then q + 1 else q + q % 2

/-- `num / den` in units of `2 ^ q`, as a fraction. -/
def inUnits (num den : Nat) (q : Int) : Nat × Nat :=
  if q < 0 then (num <<< q.natAbs, den) else (num, den <<< q.natAbs)

/-- The number nearest to `num / den`; `none` past the last one. -/
def ofRatio (num den : Nat) : Option Binary64 :=
  if num = 0 then some zero
  else
    let low := max ((num.log2 : Int) - den.log2 - 53) (-1074)
    let q := if 1 <<< 53 ≤ (inUnits num den low).1 / (inUnits num den low).2 then low + 1 else low
    let m := nearest (inUnits num den q).1 (inUnits num den q).2
    let (m, q) := if m = 1 <<< 53 then (1 <<< 52, q + 1) else (m, q)
    if q ≤ 971 then some ⟨m, q⟩ else none

/-- The number nearest to `num / den · 2 ^ e`. -/
def ofScaled (num den : Nat) (e : Int) : Option Binary64 :=
  let (num, den) := inUnits num den (-e)
  ofRatio num den

/-- The rounded product; `none` past the last number. -/
def times (x y : Binary64) : Option Binary64 :=
  ofScaled (x.mantissa * y.mantissa) 1 (x.exponent + y.exponent)

/-- The rounded quotient. -/
def quotient (x y : Binary64) : Option Binary64 :=
  ofScaled x.mantissa y.mantissa (x.exponent - y.exponent)

/-- The number nearest to `10 ^ n`, for `n ≤ 308`. -/
def powerOfTen (n : Nat) : Binary64 := (ofRatio (Nat.pow 10 n) 1).getD zero

/-- Divides by `10 ^ 308` so many times, or until nothing is left. -/
def shrink : Nat → Binary64 → Binary64
  | 0, x => x
  | n + 1, x => if x.mantissa = 0 then x else shrink n ((x.quotient (powerOfTen 308)).getD zero)

/-- The decimal `w · 10 ^ k`, read in two roundings; `none` past the last number.
A power below `10 ^ -308` is divided out in steps of `10 ^ 308`. -/
def ofDecimal (w : Nat) (k : Int) : Option Binary64 := do
  let x ← ofRatio w 1
  if x.mantissa = 0 then return x
  else if 0 ≤ k then
    if k ≤ 308 then x.times (powerOfTen k.natAbs) else none
  else
    let steps := (k.natAbs - 1) / 308
    (shrink steps x).quotient (powerOfTen (k.natAbs - 308 * steps))

/-- One and a half, the tie `2 ^ 53 + 1`, the least number, and one past the last. -/
example : ofDecimal 15 (-1) = some ⟨3 * 2 ^ 51, -52⟩ ∧
    ofDecimal (2 ^ 53 + 1) 0 = some ⟨2 ^ 52, 1⟩ ∧
    ofDecimal 5 (-324) = some ⟨1, -1074⟩ ∧ ofDecimal 2 308 = none := by decide +kernel

end Binary64
end RoundChange
