/-
# Records of JSON

A record is written as an object with its fields in declaration order
(`Json.objectText`).  It is read from an object with its fields in any order, each at
most once and others between, or from a list of the fields in declaration order
(`Json.record`).  That a field is missed is reported where the object ends, and that
one comes twice as soon as its key is read.
-/

import RoundChange.Json.List

namespace RoundChange
namespace Json

/-- Fields with their names as an object. -/
def objectText (fields : List (String × List Char)) : List Char :=
  let field (name : String) (value : List Char) := '"' :: (name.toList ++ '"' :: ':' :: value)
  '\x7b' :: ([','].intercalate (fields.map fun (name, value) => field name value) ++ ['\x7d'])

/-- How one field of a record is read into the fields gathered so far. -/
structure Slot (σ : Type) where
  filled : σ → Bool
  read : σ → Reader σ

/-- How a record is read: its label, a slot for each field of the label, nothing
gathered, and the record once its fields are gathered, or the place of the first field
that is missed. -/
structure RecordForm (σ α : Type) where
  label : Label
  slots : List (Slot σ)
  start : σ
  finish : σ → Except Nat α

/-- Another key follows in the object, where `first` says that none came before. -/
def nextKey (first : Bool) : Reader Bool := do
  match ← peek? with
  | none => throw .truncated
  | some '\x7d' => return false
  | some '"' => if first then return true else throw .malformed
  | some c =>
    if first = false ∧ c = ',' then
      advance
      match ← peek? with
      | none => throw .truncated
      | some '"' => return true
      | some _ => throw .malformed
    else throw .malformed

/-- The fields of an object, no more than `steps` has characters. -/
def fieldsWithin {σ : Type} (slots : List (String × Slot σ)) : List Char → Bool → σ → Reader σ
  | [], _, _ => throw .truncated
  | _ :: steps, first, gathered => do
    if ← nextKey first then
      advance
      let key ← string
      match slots.find? fun (name, _) => name.toList = key with
      | some (name, slot) =>
        if slot.filled gathered then throw (.mismatch (.duplicateField name))
        colon
        fieldsWithin slots steps false (← slot.read gathered)
      | none =>
        colon
        skipValue
        fieldsWithin slots steps false gathered
    else return gathered

/-- The fields of a record written as a list, of which `done` were read. -/
def fieldsInOrder {σ : Type} (expected : Expected) : List (Slot σ) → Nat → σ → Reader σ
  | [], _, gathered => return gathered
  | slot :: slots, done, gathered => do
    if ← nextItem (done = 0) then
      fieldsInOrder expected slots (done + 1) (← slot.read gathered)
    else throw (.mismatch (.wrongLength done expected))

/-- A record. -/
def record {σ α : Type} (form : RecordForm σ α) : Reader α := do
  let complete (gathered : σ) : Reader α :=
    match form.finish gathered with
    | .ok x => return x
    | .error place => throw (.mismatch (.missingField (form.label.fields.getD place "")))
  match ← peek? with
  | none => throw .truncated
  | some '[' =>
    advance
    let x ← complete (← fieldsInOrder (.record form.label) form.slots 0 form.start)
    closeList
    return x
  | some '\x7b' =>
    advance
    let slots := form.label.fields.zip form.slots
    let x ← complete (← fun text => fieldsWithin slots text true form.start text)
    advance
    return x
  | some _ => wrongType (.record form.label)

/-- A field that must be there, by its place in the record. -/
def required {β : Type} (place : Nat) : Option β → Except Nat β
  | some x => .ok x
  | none => .error place

end Json
end RoundChange
