/-
# Secret keys and signatures

A secret key is a seed of 32 bytes, as in a `NodeKey`.  Its address is the public key
(`SecretKey.address`), and its signatures are checked against that address (`Address.verifies`,
which is `Address::verify`).  A `Signature` is kept as a string of bytes of any length; one
that has not 64 bytes fails the check.
-/

import RoundChange.Address
import RoundChange.Curve.Ed25519
import RoundChange.Label

namespace RoundChange

/-- A secret seed: a `NodeKey`. -/
structure SecretKey where
  seed : Bytes32
deriving DecidableEq

/-- The bytes of a signature. -/
structure Signature where
  bytes : List UInt8
deriving DecidableEq

/-- Why a text is no key. -/
inductive KeyError where
  | secretKey
  | address
deriving DecidableEq

/-- The wording of a key error. -/
def KeyError.message : KeyError → String
  | secretKey => "invalid secret key bytes: expected 32 bytes"
  | address => "invalid address: expected 64 hex characters"

namespace Signature

/-- The names of a signature and its field. -/
def label : Label := ⟨"Signature", ["bytes"]⟩

/-- The first 16 digits of a signature, all of them if it has fewer. -/
def short (s : Signature) : String := String.ofList ((Hex.encode s.bytes).take 16)

end Signature

namespace SecretKey

/-- The secret key that hexadecimal digits spell. -/
def ofHex? (digits : List Char) : Option SecretKey :=
  (Hex.decode digits).bind fun bytes => (Bytes32.ofList? bytes).map SecretKey.mk

/-- The identity that belongs to a secret key. -/
def address (key : SecretKey) : Address := ⟨Ed25519.publicKey key.seed⟩

/-- Signs a string of bytes. -/
def sign (key : SecretKey) (message : List UInt8) : Signature :=
  ⟨Ed25519.sign key.seed message⟩

end SecretKey

/-- The signature is one of the message by the validator of this address. -/
def Address.verifies (a : Address) (message : List UInt8) (s : Signature) : Bool :=
  Ed25519.verify a.bytes message s.bytes

/-- **A signature of another length than 64 passes nowhere.** -/
theorem Address.verifies_eq_false_of_length {a : Address} {message : List UInt8} {s : Signature}
    (h : s.bytes.length ≠ 64) : a.verifies message s = false := by
  simp only [Address.verifies, Ed25519.verify]
  split
  · rename_i first second point hf hs hp
    have h₁ := congrArg List.length (Bytes32.ofList?_eq_some_iff.1 hf)
    have h₂ := congrArg List.length (Bytes32.ofList?_eq_some_iff.1 hs)
    rw [List.length_take, first.length_toList] at h₁
    rw [List.length_drop, second.length_toList] at h₂
    omega
  · rfl

/-- The hypothesis of `Address.verifies_eq_false_of_length` is satisfiable. -/
example : (⟨Bytes32.fill 1⟩ : Address).verifies [] ⟨[1, 2, 3]⟩ = false :=
  Address.verifies_eq_false_of_length (by decide)

end RoundChange
