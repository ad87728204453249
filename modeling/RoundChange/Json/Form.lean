/-
# The JSON form of values

How values are written as JSON, and read back from the front of a text, as `serde_json` does.

| value | written | read |
| --- | --- | --- |
| number | its decimal digits | an integer within its width |
| list | between square brackets | the same |
| 32 bytes | a list of 32 numbers | a list of just 32 |
| option | `null` or the value | the same |
| address | a string of 64 digits | digits of either case, with escapes |

Written text has no blanks.  Reading goes through the text once, and the first problem it meets
is the one reported.
-/

import RoundChange.Address
import RoundChange.Json.Record

namespace RoundChange

/-- The values that have a JSON form. -/
class JsonForm (α : Type) where
  /-- The text of a value, without blanks. -/
  write : α → List Char
  /-- Takes a value from the front of a text. -/
  read : Json.Reader α

namespace Json

/-- The slot of a field with a JSON form. -/
def slot {σ β : Type} [JsonForm β] (get : σ → Option β) (set : σ → β → σ) : Slot σ where
  filled gathered := (get gathered).isSome
  read gathered := do return set gathered (← JsonForm.read)

section

variable {β γ δ : Type} [JsonForm β] [JsonForm γ] [JsonForm δ]

/-- The slot of a record with one field. -/
def oneSlot : List (Slot (Option β)) := [slot id fun _ x => some x]

/-- The slots of a record with two fields. -/
def twoSlots : List (Slot (Option β × Option γ)) :=
  [slot (fun s => s.1) fun s x => (some x, s.2),
   slot (fun s => s.2) fun s x => (s.1, some x)]

/-- The slots of a record with three fields. -/
def threeSlots : List (Slot (Option β × Option γ × Option δ)) :=
  [slot (fun s => s.1) fun s x => (some x, s.2.1, s.2.2),
   slot (fun s => s.2.1) fun s x => (s.1, some x, s.2.2),
   slot (fun s => s.2.2) fun s x => (s.1, s.2.1, some x)]

end

end Json

namespace JsonForm

open Json

instance : JsonForm UInt8 :=
  ⟨fun n => Nat.toDigits 10 n.toNat, UInt8.ofNat <$> unsigned 8⟩

instance : JsonForm UInt32 :=
  ⟨fun n => Nat.toDigits 10 n.toNat, UInt32.ofNat <$> unsigned 32⟩

instance : JsonForm UInt64 :=
  ⟨fun n => Nat.toDigits 10 n.toNat, UInt64.ofNat <$> unsigned 64⟩

instance {α : Type} [JsonForm α] : JsonForm (List α) where
  write xs := listText (xs.map write)
  read := list read

instance : JsonForm Bytes32 where
  write a := listText (a.toList.map write)
  read := do
    match ← peek? with
    | none => throw .truncated
    | some '[' =>
      advance
      let bytes ← itemsExactly (read : Reader UInt8) .bytes32 32 0
      match Bytes32.ofList? bytes with
      | some a =>
        closeList
        return a
      | none => throw .malformed
    | some _ => wrongType .bytes32

instance {α : Type} [JsonForm α] : JsonForm (Option α) where
  write
    | none => ['n', 'u', 'l', 'l']
    | some x => write x
  read := do
    if (← peek?) = some 'n' then
      literal ['n', 'u', 'l', 'l']
      return none
    else return some (← read)

instance : JsonForm Address where
  write a := '"' :: (a.hex ++ ['"'])
  read := do
    match ← peek? with
    | none => throw .truncated
    | some '"' =>
      advance
      match Address.ofHex? (← string) with
      | some a => return a
      | none => throw (.mismatch .address)
    | some _ => wrongType .string

/-- The value that a whole text holds; only blanks may follow it. -/
def decode {α : Type} [JsonForm α] (text : List Char) : Except Fault α :=
  let whole : Reader α := do
    let x ← read
    if (← peek?).isSome then throw .malformed
    return x
  Prod.fst <$> whole.run text

/-- Blanks are read over, and text behind the value is not read. -/
example : (decode (α := List UInt8) "[ 1,255 ] ".toList).toOption = some [1, 255] ∧
    (decode (α := UInt8) "1 1".toList).toOption = none := by decide +kernel

end JsonForm
end RoundChange
