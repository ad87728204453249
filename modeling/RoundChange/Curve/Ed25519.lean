/-
# Ed25519 signatures

A secret seed of 32 bytes is hashed to a scalar `s` and a string `prefix`; the
public key is the point `A = s B`.  A signature of a message is `R` and `S`, 32
bytes each, with `R = r B` for an `r` hashed from `prefix` and message, and
`S = r + k s` for a `k` hashed from `R`, `A` and message.

Checking (`Ed25519.verify`) recomputes `S B - k A` and compares its bytes with
`R`, so an `R` that is not written in its shortest way never passes.  The key may
be any string of bytes that stands for a point of the curve, a point of small
order included.
-/

import RoundChange.Curve.Point
import RoundChange.Hash.Sha512

namespace RoundChange
namespace Ed25519

open Curve

/-- The order of the base point. -/
def order : Nat := 1 <<< 252 + 27742317777372353535851937790883648493

/-- The number that the hash of some bytes spells, modulo the order. -/
def hashScalar (bytes : List UInt8) : Nat := ofLittleEndian (Sha512.hash bytes) % order

/-- The scalar of a seed: the first half of its hash, made a multiple of 8 with
254 as its highest bit. -/
def scalar (seed : Bytes32) : Nat :=
  1 <<< 254 + ofLittleEndian ((Sha512.hash seed.toList).take 32) % 1 <<< 254 / 8 * 8

/-- The second half of the hash of a seed, which the hash for `R` starts with. -/
def nonce (seed : Bytes32) : List UInt8 := (Sha512.hash seed.toList).drop 32

/-- The public key of a seed. -/
def publicKey (seed : Bytes32) : Bytes32 := (Point.base.times 256 (scalar seed)).encode

/-- The number that binds a signature to its first half, its key and its message. -/
def challenge (first key : Bytes32) (message : List UInt8) : Nat :=
  hashScalar (first.toList ++ key.toList ++ message)

/-- The signature of a message: 64 bytes. -/
def sign (seed : Bytes32) (message : List UInt8) : List UInt8 :=
  let r := hashScalar (nonce seed ++ message)
  let first := (Point.base.times 256 r).encode
  let k := challenge first (publicKey seed) message
  first.toList ++ littleEndian 32 ((r + k * scalar seed) % order)

/-- The signature is one of the message under the key. -/
def verify (key : Bytes32) (message signature : List UInt8) : Bool :=
  match Bytes32.ofList? (signature.take 32), Bytes32.ofList? (signature.drop 32),
      Point.decode? key with
  | some first, some second, some point =>
    let s := ofLittleEndian second.toList
    let k := challenge first key message
    decide (s < order) &&
      decide (((Point.base.times 256 s).add (point.neg.times 256 k)).encode = first)
  | _, _, _ => false

/-- **A signature has 64 bytes.** -/
theorem length_sign (seed : Bytes32) (message : List UInt8) : (sign seed message).length = 64 := by
  simp [sign, Bytes32.length_toList]

end Ed25519
end RoundChange
