/-
# Addresses

A validator is known by its address, the 32 bytes of its public key as they are: nothing is
hashed or cut off, and nothing is checked (`Address::from_bytes`), so an address that is no
point of the curve is one under which no signature passes.

The text of an address is 64 hexadecimal digits in lower case (`Address.hex`, its `to_hex`);
either case is read (`Address.ofHex?`, its `from_str`).  Addresses are ordered byte by byte,
the order that `Address` derives.
-/

import RoundChange.Bytes
import RoundChange.Text.Hex

namespace RoundChange

/-- The identity of a validator. -/
structure Address where
  bytes : Bytes32
deriving DecidableEq

namespace Address

/-- Addresses are ordered byte by byte. -/
instance : LT Address := ⟨fun a b => a.bytes.toList < b.bytes.toList⟩

instance : DecidableLT Address := fun a b =>
  inferInstanceAs (Decidable (a.bytes.toList < b.bytes.toList))

/-- The 64 digits of an address. -/
def hex (a : Address) : List Char := Hex.encode a.bytes.toList

/-- The 64 digits of an address, as a `String`. -/
def text (a : Address) : String := String.ofList a.hex

/-- The first 16 digits of an address. -/
def short (a : Address) : String := String.ofList (a.hex.take 16)

/-- The address that 64 digits spell. -/
def ofHex? (digits : List Char) : Option Address :=
  (Hex.decode digits).bind fun bytes => (Bytes32.ofList? bytes).map Address.mk

/-- **An address has 64 digits.** -/
@[simp] theorem length_hex (a : Address) : a.hex.length = 64 := by
  simp [hex, a.bytes.length_toList]

/-- **Reading the digits of an address gives it back.** -/
@[simp] theorem ofHex?_hex (a : Address) : ofHex? a.hex = some a := by
  simp [ofHex?, hex, Hex.decode_encode]

/-- **Only 64 characters are an address.** -/
theorem length_of_ofHex? {digits : List Char} {a : Address} (h : ofHex? digits = some a) :
    digits.length = 64 := by
  obtain ⟨bytes, hb, ha⟩ := Option.bind_eq_some_iff.1 h
  obtain ⟨b, hb', rfl⟩ := Option.map_eq_some_iff.1 ha
  rw [Hex.length_of_decode hb, Bytes32.ofList?_eq_some_iff.1 hb', b.length_toList]

/-- The hypothesis of `length_of_ofHex?` is satisfiable, in upper case. -/
example : ofHex? (List.replicate 64 'F') = some ⟨Bytes32.fill 255⟩ := by decide

end Address
end RoundChange
