/-
# Faults of JSON text

Text is decoded while it is read, so the first problem in reading order is the one
reported.  It is one of three kinds (`Fault`): the text ends too soon, it is no
JSON, or it is JSON of another shape than asked for; of the last kind the report
says what was found and what was expected (`Mismatch.message`).
-/

import RoundChange.Decimal.Shortest
import RoundChange.Label
import RoundChange.Text.Quoted

namespace RoundChange
namespace Json

/-- What was found where a value of another kind was expected. -/
inductive Found where
  | null
  | boolean (value : Bool)
  | integer (value : Int)
  | real (negative : Bool) (magnitude : Binary64)
  | string (text : List Char)
  | sequence
  | map
deriving DecidableEq

/-- What was expected. -/
inductive Expected where
  /-- An integer from zero up, of so many bits. -/
  | unsigned (bits : Nat)
  | string
  | sequence
  | bytes32
  | record (label : Label)
deriving DecidableEq

/-- Why a value has another shape than asked for. -/
inductive Mismatch where
  | wrongType (found : Found) (expected : Expected)
  | outOfRange (value : Int) (expected : Expected)
  | wrongLength (found : Nat) (expected : Expected)
  | missingField (name : String)
  | duplicateField (name : String)
  | address
deriving DecidableEq

/-- The first problem of a text. -/
inductive Fault where
  /-- The text ends too soon. -/
  | truncated
  /-- The text is no JSON. -/
  | malformed
  /-- The text is of another shape than asked for. -/
  | mismatch (why : Mismatch)
deriving DecidableEq

/-- How a report names what was found. -/
def Found.text : Found → String
  | null => "null"
  | boolean true => "boolean `true`"
  | boolean false => "boolean `false`"
  | integer value => "integer `" ++ toString value ++ "`"
  | real negative magnitude =>
    "floating point `" ++ (if negative then "-" else "") ++ magnitude.text ++ "`"
  | string text => "string " ++ String.ofList (Quoted.quote text)
  | sequence => "sequence"
  | map => "map"

/-- How a report names what was expected. -/
def Expected.text : Expected → String
  | unsigned bits => "u" ++ toString bits
  | string => "a string"
  | sequence => "a sequence"
  | bytes32 => "an array of length 32"
  | record label => "struct " ++ label.name

/-- How a report names what was expected of a sequence that is too short. -/
def Expected.lengthText : Expected → String
  | record label =>
    "struct " ++ label.name ++ " with " ++ toString label.fields.length ++
      (if label.fields.length = 1 then " element" else " elements")
  | other => other.text

/-- The wording of a mismatch. -/
def Mismatch.message : Mismatch → String
  | wrongType found expected =>
    "invalid type: " ++ found.text ++ ", expected " ++ expected.text
  | outOfRange value expected =>
    "invalid value: integer `" ++ toString value ++ "`, expected " ++ expected.text
  | wrongLength found expected =>
    "invalid length " ++ toString found ++ ", expected " ++ expected.lengthText
  | missingField name => "missing field `" ++ name ++ "`"
  | duplicateField name => "duplicate field `" ++ name ++ "`"
  | address => "invalid address: expected 64 hex characters"

end Json
end RoundChange
