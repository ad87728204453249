/-
# The binary form of values

How values are written in bytes, and read back from the front of a string of bytes, in the
layout of `bincode`.  Nothing marks what comes next, so a reader knows the layout beforehand.

| value | bytes |
| --- | --- |
| number | its width, the low byte first |
| 32 bytes | as they are |
| list | the count in 8 bytes, then the elements |
| option | `00`, or `01` and the value |
| address | as a list of 64 characters, its digits |

Reading takes from the bytes what it needs and leaves the rest.  The digits of an address are
read in either case and written in lower case; all else has one spelling only.
-/

import RoundChange.Address
import RoundChange.Text.Utf8

namespace RoundChange

namespace Binary

/-- Why bytes are no value. -/
inductive Fault where
  /-- The bytes end too soon. -/
  | truncated
  /-- The characters of an address are not well-formed UTF-8. -/
  | text
  /-- An option starts with neither 0 nor 1. -/
  | tag (found : UInt8)
  /-- The characters of an address are not 64 digits. -/
  | address
deriving DecidableEq

/-- Reads a value from the front of some bytes. -/
abbrev Reader (α : Type) := StateT (List UInt8) (Except Fault) α

/-- The first `count` elements of a list and the rest of it, if there are so many. -/
def split? {α : Type} : Nat → List α → Option (List α × List α)
  | 0, rest => some ([], rest)
  | _ + 1, [] => none
  | count + 1, x :: rest => (split? count rest).map fun (front, rest) => (x :: front, rest)

/-- **Splitting cuts the list in two, the first part of the given length.** -/
theorem split?_eq_some_iff {α : Type} {count : Nat} {xs front rest : List α} :
    split? count xs = some (front, rest) ↔ xs = front ++ rest ∧ front.length = count := by
  induction count generalizing xs front with
  | zero =>
    simp only [split?, Option.some.injEq, Prod.mk.injEq, List.length_eq_zero_iff]
    constructor
    · rintro ⟨rfl, rfl⟩; simp
    · rintro ⟨rfl, rfl⟩; simp
  | succ count ih =>
    cases xs with
    | nil =>
      simp only [split?, reduceCtorEq, false_iff]
      rintro ⟨h, hl⟩
      have := List.append_eq_nil_iff.1 h.symm
      simp [this.1] at hl
    | cons x xs =>
      simp only [split?, Option.map_eq_some_iff, Prod.mk.injEq, Prod.exists]
      constructor
      · rintro ⟨a, b, h, rfl, rfl⟩
        obtain ⟨rfl, hl⟩ := ih.1 h
        exact ⟨rfl, by simp [hl]⟩
      · rintro ⟨h, hl⟩
        cases front with
        | nil => simp at hl
        | cons y front =>
          rw [List.cons_append, List.cons.injEq] at h
          exact ⟨front, rest, ih.2 ⟨h.2, by simpa using hl⟩, by rw [h.1], rfl⟩

/-- Takes so many bytes. -/
def take (count : Nat) : Reader (List UInt8) := fun bytes =>
  match split? count bytes with
  | some read => .ok read
  | none => .error .truncated

/-- The number in so many bytes. -/
def number (width : Nat) : Reader Nat := do
  return ofLittleEndian (← take width)

/-- So many values, one behind the other. -/
def repeated {α : Type} (read : Reader α) : Nat → Reader (List α)
  | 0 => pure []
  | count + 1 => do
    let x ← read
    let xs ← repeated read count
    return x :: xs

end Binary

/-- The values that have a binary form. -/
class BinaryForm (α : Type) where
  /-- The bytes of a value. -/
  write : α → List UInt8
  /-- Takes a value from the front of some bytes. -/
  read : Binary.Reader α

namespace BinaryForm

open Binary

instance : BinaryForm UInt8 := ⟨fun n => littleEndian 1 n.toNat, UInt8.ofNat <$> number 1⟩

instance : BinaryForm UInt32 := ⟨fun n => littleEndian 4 n.toNat, UInt32.ofNat <$> number 4⟩

instance : BinaryForm UInt64 := ⟨fun n => littleEndian 8 n.toNat, UInt64.ofNat <$> number 8⟩

instance : BinaryForm Bytes32 where
  write a := a.toList
  read bytes :=
    match h : split? 32 bytes with
    | some (front, rest) => .ok (⟨front, (split?_eq_some_iff.1 h).2⟩, rest)
    | none => .error .truncated

instance {α : Type} [BinaryForm α] : BinaryForm (List α) where
  write xs := littleEndian 8 xs.length ++ xs.flatMap write
  read := do repeated read (← number 8)

instance {α : Type} [BinaryForm α] : BinaryForm (Option α) where
  write
    | none => [0]
    | some x => 1 :: write x
  read := do
    match ← (read : Reader UInt8) with
    | 0 => return none
    | 1 => return some (← read)
    | found => throw (.tag found)

instance : BinaryForm Address where
  write a := littleEndian 8 a.hex.length ++ Utf8.ascii a.hex
  read := do
    let bytes ← take (← number 8)
    match Utf8.decode? bytes with
    | none => throw .text
    | some digits =>
      match Address.ofHex? digits with
      | none => throw .address
      | some a => return a

/-- The value at the front of some bytes; what follows it is not looked at. -/
def decode {α : Type} [BinaryForm α] (bytes : List UInt8) : Except Fault α :=
  Prod.fst <$> (read : Reader α).run bytes

/-- A missing byte, a wrong tag, and a value with bytes behind it. -/
example : decode (α := UInt32) [1, 2, 3] = .error .truncated ∧
    decode (α := Option UInt8) [2, 5] = .error (.tag 2) ∧
    decode (α := List UInt8) [1, 0, 0, 0, 0, 0, 0, 0, 7, 9] = .ok [7] := ⟨rfl, rfl, rfl⟩

end BinaryForm
end RoundChange
