/-
# Numbers of JSON

A number without fraction and exponent is an integer if it lies from `-2 ^ 63` to
`2 ^ 64 - 1` and is not written `-0`.  Every other number is real: its digits up to
the greatest value that 64 bits hold are read as one integer `w`, digits past that
count before the point only as powers of ten and not at all behind it, and the
value is `w · 10 ^ k` read in two roundings (`Binary64.ofDecimal`).  A real number
past the last one is no JSON.
-/

import RoundChange.Json.Token

namespace RoundChange
namespace Json

/-- The value of a number. -/
inductive Number where
  | integer (value : Int)
  | real (negative : Bool) (magnitude : Binary64)
deriving DecidableEq

/-- Takes the digits at the front away. -/
def digits : Reader (List Char) := fun text =>
  .ok (text.takeWhile Char.isDigit, text.dropWhile Char.isDigit)

/-- The next character, which stays in the text. -/
def next? : Reader (Option Char) := fun text => .ok (text.head?, text)

/-- The digits before the point: a zero alone, or digits that do not start with one. -/
def integerDigits : Reader (List Char) := do
  match ← digits with
  | [] => if (← next?).isNone then throw .truncated else throw .malformed
  | ['0'] => return ['0']
  | '0' :: _ => throw .malformed
  | ds => return ds

/-- At least one digit. -/
def someDigits : Reader (List Char) := do
  match ← digits with
  | [] => if (← next?).isNone then throw .truncated else throw .malformed
  | ds => return ds

/-- Appends digits to a number while 64 bits hold it; the number, and how many digits
are left over. -/
def append (w : Nat) : List Char → Nat × Nat
  | [] => (w, 0)
  | c :: rest =>
    let w' := 10 * w + (c.toNat - 48)
    if w' < UInt64.size then append w' rest else (w, rest.length + 1)

/-- The digits behind the point, if there is one. -/
def fraction? : Reader (Option (List Char)) := do
  if (← next?) = some '.' then
    advance
    return some (← someDigits)
  else return none

/-- The exponent, if there is one. -/
def exponent? : Reader (Option Int) := do
  match ← next? with
  | some 'e' | some 'E' =>
    advance
    let sign ← next?
    if sign = some '+' ∨ sign = some '-' then advance
    let n := Nat.ofDigitChars 10 (← someDigits) 0
    return some (if sign = some '-' then -(n : Int) else n)
  | _ => return none

/-- A real number, from its digits and their power of ten. -/
def real (negative : Bool) (w : Nat) (k : Int) : Reader Number :=
  match Binary64.ofDecimal w k with
  | some x => pure (.real negative x)
  | none => throw .malformed

/-- A number from behind its sign on. -/
def number (negative : Bool) : Reader Number := do
  let (w, excess) := append 0 (← integerDigits)
  match ← fraction?, ← exponent? with
  | none, none =>
    if excess ≠ 0 then real negative w excess
    else if negative = false then return .integer w
    else if w = 0 ∨ UInt64.size / 2 < w then real true w 0
    else return .integer (-w)
  | fraction, exponent =>
    let ds := fraction.getD []
    let (w, unused) := append w ds
    real negative w (excess - (ds.length - unused : Nat) + exponent.getD 0)

/-- A number that is not decoded, from behind its sign on; where it ends too soon it
is no JSON. -/
def skipNumber : Reader Unit := fun text =>
  let read : Reader Unit := do
    let _ ← integerDigits
    let _ ← fraction?
    let _ ← exponent?
  match read.run text with
  | .error .truncated => .error .malformed
  | outcome => outcome

/-- The greatest integer, `-0`, and a number that is not read to its end. -/
example : (number false).run "18446744073709551615,".toList = .ok (.integer (2 ^ 64 - 1), [',']) ∧
    (number true).run ['0'] = .ok (.real true .zero, []) ∧
    (number false).run ['1', '.'] = .error .truncated ∧
    skipNumber.run ['1', '.'] = .error .malformed := ⟨rfl, rfl, rfl, rfl⟩

end Json
end RoundChange
