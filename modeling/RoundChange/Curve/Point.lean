/-
# The points of the twisted Edwards curve

`-x² + y² = 1 + d x² y²` over the integers modulo the prime `p = 2 ^ 255 - 19`.
A point is kept as `(x : y : z : t)` with the coordinates `x / z` and `y / z`, and
`t / z` their product, so that adding needs no division.  Since `d` is no square
the formula for the sum holds for every two points, equal ones included
(`Point.add`).

A point is written in 32 bytes (`Point.encode`): `y` in 255 bits, and above them
the lowest bit of `x`.  Reading (`Point.decode?`) solves the equation for `x`; a
`y` from `p` on stands for its remainder, and the top bit is not looked at when
`x` is zero.
-/

import RoundChange.Bytes

namespace RoundChange
namespace Curve

/-- The modulus of the coordinates, `2 ^ 255 - 19`. -/
def p : Nat := 1 <<< 255 - 19

/-- The modulus is not zero; which zero is said in full, since theories have others. -/
instance : @NeZero Nat Zero.ofOfNat0 p := ⟨by decide⟩

/-- The integers modulo `p`. -/
abbrev Field := Fin p

/-- The coordinate that a number stands for. -/
def field (n : Nat) : Field := Fin.ofNat p n

/-- `x ^ n`, for `n < 2 ^ bits`, by squaring. -/
def power (x : Field) : Nat → Nat → Field
  | 0, _ => 1
  | bits + 1, n =>
    let root := power x bits (n / 2)
    if n % 2 = 1 then root * root * x else root * root

/-- The inverse, zero for zero: `x ^ (p - 2)`. -/
def inverse (x : Field) : Field := power x 255 (p - 2)

/-- The coefficient of the curve, `-121665 / 121666`. -/
def d : Field :=
  field 37095705934669439343138083508754565189542113879843219016388785533085940283555

/-- A square root of `-1`. -/
def rootOfMinusOne : Field :=
  field 19681161376707505956807079304988542015446066515923890162744021073123829784752

/-- The number that is `u / v` when squared, if there is one; of the two, either. -/
def rootOfQuotient? (u v : Field) : Option Field :=
  let v3 := v * v * v
  let x := u * v3 * power (u * v3 * v3 * v) 252 ((p - 5) / 8)
  if v * x * x = u then some x
  else if v * x * x = -u then some (x * rootOfMinusOne)
  else none

/-- A point `(x : y : z : t)`. -/
structure Point where
  (x y z t : Field)
deriving DecidableEq

namespace Point

/-- The neutral point, `(0, 1)`. -/
def zero : Point := ⟨0, 1, 1, 0⟩

/-- The base point, with `y = 4 / 5` and an even `x`. -/
def base : Point :=
  let x := field 15112221349535400772501151409588531511454012693041857206046113283949847762202
  let y := field 46316835694926478169428394003475163141307993866256225615783033603165251855960
  ⟨x, y, 1, x * y⟩

/-- The sum of two points, equal or not. -/
def add (a b : Point) : Point :=
  let m := (a.y - a.x) * (b.y - b.x)
  let n := (a.y + a.x) * (b.y + b.x)
  let t := a.t * b.t * d
  let z := a.z * b.z
  let e := n - m
  let f := z + z - (t + t)
  let g := z + z + (t + t)
  let h := n + m
  ⟨e * f, g * h, f * g, e * h⟩

/-- The point on the other side of the `y` axis. -/
def neg (a : Point) : Point := ⟨-a.x, a.y, a.z, -a.t⟩

/-- `n` times a point, for `n < 2 ^ bits`, by doubling. -/
def times (a : Point) : Nat → Nat → Point
  | 0, _ => zero
  | bits + 1, n =>
    let half := times a bits (n / 2)
    if n % 2 = 1 then (half.add half).add a else half.add half

/-- The 32 bytes of a point. -/
def encode (a : Point) : Bytes32 :=
  let inv := inverse a.z
  ⟨littleEndian 32 ((a.y * inv).val + ((a.x * inv).val % 2) <<< 255), length_littleEndian ..⟩

/-- The point that 32 bytes stand for, if there is one. -/
def decode? (bytes : Bytes32) : Option Point :=
  let n := ofLittleEndian bytes.toList
  let y := field (n % 1 <<< 255)
  (rootOfQuotient? (y * y - 1) (d * (y * y) + 1)).map fun x =>
    let x := if x.val % 2 = n >>> 255 then x else -x
    ⟨x, y, 1, x * y⟩

end Point

/-- The coefficient and the root are what they are said to be. -/
example : 121666 * d = -121665 ∧ rootOfMinusOne * rootOfMinusOne = -1 := by decide +kernel

/-- The base point is on the curve, and reading its bytes gives it back. -/
example : Point.decode? Point.base.encode = some Point.base := by decide +kernel

end Curve
end RoundChange
