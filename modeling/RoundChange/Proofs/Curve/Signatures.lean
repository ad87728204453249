/-
# Signatures are complete

What is signed with a secret seed passes under the public key of the seed, for every seed and
every message (`Ed25519.verify_sign`).  In the group of the curve, with `A = s B` and
`S = r + k s`, the check recomputes

    S B - k A = (r + k s) B - k (s B) = r B

and `S` may be reduced modulo the order of `B` (`Ed25519.mod_order_nsmul`).
-/

import RoundChange.Proofs.Curve.Encoding
import RoundChange.SecretKey

namespace RoundChange
namespace Ed25519

open Curve

/-- As many times the base point as its order is the neutral point. -/
theorem order_nsmul_basePoint : order • basePoint = 0 := by
  have hlt : order < 2 ^ 253 := by decide
  exact (Point.denotes_base.times hlt).eq_zero_iff.2 (by decide +kernel)

/-- Multiples of the base point go by the remainder of the factor. -/
theorem mod_order_nsmul (n : Nat) : (n % order) • basePoint = n • basePoint :=
  (nsmul_eq_mod_nsmul n order_nsmul_basePoint).symm

/-- A remainder by the order has no more than 256 bits. -/
theorem mod_order_lt (n : Nat) : n % order < 2 ^ 256 :=
  Nat.lt_trans (Nat.mod_lt n (by decide)) (by decide)

/-- A secret scalar has no more than 256 bits. -/
theorem scalar_lt (seed : Bytes32) : scalar seed < 2 ^ 256 := by
  unfold scalar
  simp only [Nat.shiftLeft_eq]
  omega

/-- The equation that is checked holds where the numbers are made as the signer makes them. -/
theorem nsmul_add_nsmul_neg (r k a : Nat) :
    ((r + k * a) % order) • basePoint + k • -(a • basePoint) = r • basePoint := by
  rw [mod_order_nsmul, add_nsmul, mul_nsmul', smul_neg, add_neg_cancel_right]

/-- **Signatures are complete**: what is signed with a seed passes under its public key. -/
theorem verify_sign (seed : Bytes32) (message : List UInt8) :
    verify (publicKey seed) message (sign seed message) = true := by
  let r := hashScalar (nonce seed ++ message)
  let first := (Point.base.times 256 r).encode
  let k := challenge first (publicKey seed) message
  let s := (r + k * scalar seed) % order
  let second : Bytes32 := ⟨littleEndian 32 s, length_littleEndian ..⟩
  have hr : r < 2 ^ 256 := mod_order_lt _
  have hk : k < 2 ^ 256 := mod_order_lt _
  have hs : s < order := Nat.mod_lt _ (by decide)
  have htake : (sign seed message).take 32 = first.toList := List.take_left' first.length_toList
  have hdrop : (sign seed message).drop 32 = second.toList := List.drop_left' first.length_toList
  have hsecond : ofLittleEndian second.toList = s := by
    rw [ofLittleEndian_littleEndian, Nat.mod_eq_of_lt (Nat.lt_trans hs (by decide))]
  obtain ⟨key, hdecode, hkey⟩ := (Point.denotes_base.times (scalar_lt seed)).exists_decode?
  have hsum := (Point.denotes_base.times (mod_order_lt (r + k * scalar seed))).add
    (hkey.neg.times hk)
  rw [nsmul_add_nsmul_neg] at hsum
  have hfirst : ((Point.base.times 256 s).add (key.neg.times 256 k)).encode = first :=
    hsum.encode.trans (Point.denotes_base.times hr).encode.symm
  rw [verify, htake, hdrop, Bytes32.ofList?_toList, Bytes32.ofList?_toList, publicKey, hdecode]
  simp only [hsecond]
  rw [Bool.and_eq_true, decide_eq_true_iff, decide_eq_true_iff]
  exact ⟨hs, hfirst⟩

end Ed25519

/-- **What a key signs passes under its address.** -/
theorem SecretKey.verifies_sign (key : SecretKey) (message : List UInt8) :
    key.address.verifies message (key.sign message) = true :=
  Ed25519.verify_sign key.seed message

end RoundChange
