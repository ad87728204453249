/-
# Numbers and lists of JSON

An integer within its width, and lists of any length (`Json.list`) or of a given one
(`Json.itemsExactly`).  Where another kind of value stands, the report names what was
found: a literal, a number or a string is read to its end first, so that it may turn
out to be no JSON, while of a list or an object only the bracket is looked at.
-/

import RoundChange.Json.Skip

namespace RoundChange
namespace Json

/-- A list of texts between square brackets. -/
def listText (items : List (List Char)) : List Char :=
  '[' :: ([','].intercalate items ++ [']'])

/-- What stands at the front of a text; a bracket is not looked into. -/
def found : Reader Found := do
  let ofNumber : Number → Found
    | .integer value => .integer value
    | .real negative magnitude => .real negative magnitude
  match ← peek? with
  | none => throw .truncated
  | some 'n' =>
    literal ['n', 'u', 'l', 'l']
    return .null
  | some 't' =>
    literal ['t', 'r', 'u', 'e']
    return .boolean true
  | some 'f' =>
    literal ['f', 'a', 'l', 's', 'e']
    return .boolean false
  | some '-' =>
    advance
    return ofNumber (← number true)
  | some '"' =>
    advance
    return .string (← string)
  | some '[' => return .sequence
  | some '\x7b' => return .map
  | some c => if c.isDigit then return ofNumber (← number false) else throw .malformed

/-- Reports that another kind of value was expected. -/
def wrongType {α : Type} (expected : Expected) : Reader α := do
  throw (.mismatch (.wrongType (← found) expected))

/-- An integer from zero up, of so many bits. -/
def unsigned (bits : Nat) : Reader Nat := do
  let check : Number → Reader Nat
    | .integer value =>
      if 0 ≤ value ∧ value < (1 <<< bits : Nat) then return value.toNat
      else throw (.mismatch (.outOfRange value (.unsigned bits)))
    | .real negative magnitude =>
      throw (.mismatch (.wrongType (.real negative magnitude) (.unsigned bits)))
  match ← peek? with
  | none => throw .truncated
  | some '-' =>
    advance
    check (← number true)
  | some c => if c.isDigit then check (← number false) else wrongType (.unsigned bits)

/-- Another element follows in the list, where `first` says that none came before. -/
def nextItem (first : Bool) : Reader Bool := do
  match ← peek? with
  | none => throw .truncated
  | some ']' => return false
  | some c =>
    if first then return true
    else if c = ',' then
      advance
      match ← peek? with
      | none => throw .truncated
      | some ']' => throw .malformed
      | some _ => return true
    else throw .malformed

/-- The end of a list. -/
def closeList : Reader Unit := do
  match ← peek? with
  | none => throw .truncated
  | some ']' => advance
  | some _ => throw .malformed

/-- The elements of a list, no more than `steps` has characters. -/
def itemsWithin {α : Type} (read : Reader α) : List Char → Bool → Reader (List α)
  | [], _ => throw .truncated
  | _ :: steps, first => do
    if ← nextItem first then
      let x ← read
      let xs ← itemsWithin read steps false
      return x :: xs
    else return []

/-- A list of any length. -/
def list {α : Type} (read : Reader α) : Reader (List α) := do
  match ← peek? with
  | none => throw .truncated
  | some '[' =>
    advance
    let xs ← fun text => itemsWithin read text true text
    closeList
    return xs
  | some _ => wrongType .sequence

/-- So many more elements of a list of which `done` were read. -/
def itemsExactly {α : Type} (read : Reader α) (expected : Expected) : Nat → Nat → Reader (List α)
  | 0, _ => return []
  | count + 1, done => do
    if ← nextItem (done = 0) then
      let x ← read
      let xs ← itemsExactly read expected count (done + 1)
      return x :: xs
    else throw (.mismatch (.wrongLength done expected))

/-- A number past its width, and a list that is too short. -/
example : ((unsigned 8).run ['2', '5', '6']).toOption = none ∧
    ((list (unsigned 8)).run ['[', '1', ',', '2', ']']).toOption = some ([1, 2], []) ∧
    ((itemsExactly (unsigned 8) .bytes32 2 0).run ['1', ']']).toOption = none := by decide +kernel

end Json
end RoundChange
