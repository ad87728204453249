/-
# Values that are read over

A record may have fields that nobody asked for.  Their values are checked to be
JSON, to any depth, and dropped; the brackets that are open around a place are kept
in a list.
-/

import RoundChange.Json.Number

namespace RoundChange
namespace Json

/-- A bracket that is open. -/
inductive Bracket where
  | list
  | object
deriving DecidableEq

/-- The sign between the key of a field and its value. -/
def colon : Reader Unit := do
  match ← peek? with
  | none => throw .truncated
  | some ':' => advance
  | some _ => throw .malformed

/-- A key that is not decoded, with the sign behind it. -/
def skipKey : Reader Unit := do
  match ← peek? with
  | none => throw .truncated
  | some '"' =>
    advance
    skipString
    colon
  | some _ => throw .malformed

/-- A place in a value that is read over, with the brackets open around it: before a
value, or behind one. -/
inductive Place where
  | before (brackets : List Bracket)
  | behind (brackets : List Bracket)
deriving DecidableEq

/-- Takes a number, a string or a literal away, or the bracket that opens a list or
an object, with the first key if it has one. -/
def enter (brackets : List Bracket) : Reader Place := do
  match ← peek? with
  | none => throw .truncated
  | some '[' =>
    advance
    match ← peek? with
    | none => throw .truncated
    | some ']' => return .behind (.list :: brackets)
    | some _ => return .before (.list :: brackets)
  | some '\x7b' =>
    advance
    match ← peek? with
    | none => throw .truncated
    | some '\x7d' => return .behind (.object :: brackets)
    | some _ =>
      skipKey
      return .before (.object :: brackets)
  | some 'n' => literal ['n', 'u', 'l', 'l']
  | some 't' => literal ['t', 'r', 'u', 'e']
  | some 'f' => literal ['f', 'a', 'l', 's', 'e']
  | some '"' =>
    advance
    skipString
  | some '-' =>
    advance
    skipNumber
  | some c => if c.isDigit then skipNumber else throw .malformed
  return .behind brackets

/-- Takes away what may stand behind a value: a comma, in an object with the next key,
or the bracket that closes what is open. -/
def leave (bracket : Bracket) (brackets : List Bracket) : Reader Place := do
  match ← peek? with
  | none => throw .truncated
  | some c =>
    advance
    match bracket with
    | .list =>
      if c = ',' then return .before (.list :: brackets)
      else if c = ']' then return .behind brackets
      else throw .malformed
    | .object =>
      if c = ',' then
        skipKey
        return .before (.object :: brackets)
      else if c = '\x7d' then return .behind brackets
      else throw .malformed

/-- Reads on until nothing is open, in no more steps than `steps` has characters. -/
def skipWithin : List Char → Place → Reader Unit
  | _, .behind [] => return ()
  | [], _ => throw .truncated
  | _ :: steps, .before brackets => do skipWithin steps (← enter brackets)
  | _ :: steps, .behind (bracket :: brackets) => do skipWithin steps (← leave bracket brackets)

/-- Reads over one value. -/
def skipValue : Reader Unit := fun text => skipWithin text (.before []) text

/-- A value in brackets, and a comma with nothing behind it. -/
example : (skipValue.run "[1,\x7b\"a\":[]\x7d] ,".toList).toOption = some ((), [' ', ',']) ∧
    (skipValue.run "[1,]".toList).toOption = none := by decide +kernel

end Json
end RoundChange
