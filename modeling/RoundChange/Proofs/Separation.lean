/-
# One signature for two kinds of payload

In `SignedData::verify_signature` a signature `R`, `S` passes under a key that stands for the
point `A` if

    S B - k A = R

where `k` is hashed from `R`, the key and the message, so that the message comes in through `k`
alone.  What passes for one message passes for another just where both `k` have the same
multiple of `A` (`Ed25519.nsmul_eq_of_verify`, `Ed25519.verify_of_nsmul_eq`).

The code of the kind keeps the bytes apart that are signed for a prepare and for a ballot.  How
far this keeps the signatures apart is a matter of the key:

| point of the key | one signature passes for both |
| --- | --- |
| not of small order, as that of every secret key | only if the two hashes collide |
| of small order | if it passes for one, and both `k` agree modulo eight |
| neutral | whatever the two payloads are (`Address.verifies_neutral`) |

No order is asked for where an address is read or a signature checked, so addresses of all
three sorts can be those of validators.
-/

import RoundChange.Proofs.Admission
import RoundChange.Proofs.Curve.Order
import RoundChange.Proofs.SigningBytes

namespace RoundChange
namespace Ed25519

open Curve

section Check

variable {key : Bytes32} {message message' signature : List UInt8} {A : Point}
  {P : Affine (ZMod p)}

/-- **What is checked**: two halves of 32 bytes, a key that can be read, a number below the
order, and the point that is recomputed. -/
theorem verify_eq_true_iff : verify key message signature = true ↔
    ∃ (first second : Bytes32) (A : Point), signature = first.toList ++ second.toList ∧
      Point.decode? key = some A ∧
      ofLittleEndian second.toList < order ∧
      ((Point.base.times 256 (ofLittleEndian second.toList)).add
        (A.neg.times 256 (challenge first key message))).encode = first := by
  unfold verify
  split
  case h_1 first second A hfirst hsecond hdecode =>
    have hbytes : signature = first.toList ++ second.toList := by
      rw [← Bytes32.ofList?_eq_some_iff.1 hfirst, ← Bytes32.ofList?_eq_some_iff.1 hsecond,
        List.take_append_drop]
    simp only [Bool.and_eq_true, decide_eq_true_eq]
    constructor
    · rintro ⟨hs, hrecomputed⟩
      exact ⟨first, second, A, hbytes, hdecode, hs, hrecomputed⟩
    · rintro ⟨first', second', A', hbytes', hdecode', hs, hrecomputed⟩
      obtain ⟨hfirst', hsecond'⟩ := List.append_inj (hbytes.symm.trans hbytes')
        (first.length_toList.trans first'.length_toList.symm)
      obtain rfl := Bytes32.ext hfirst'
      obtain rfl := Bytes32.ext hsecond'
      obtain rfl := Option.some.inj (hdecode.symm.trans hdecode')
      exact ⟨hs, hrecomputed⟩
  case h_2 hnone =>
    refine iff_of_false Bool.false_ne_true ?_
    rintro ⟨first, second, A, rfl, hdecode, -⟩
    refine hnone first second A ?_ ?_ hdecode
    · rw [List.take_left' first.length_toList, Bytes32.ofList?_toList]
    · rw [List.drop_left' first.length_toList, Bytes32.ofList?_toList]

/-- The point that is recomputed. -/
theorem denotes_recomputed (hA : A.Denotes P) {s : Nat} (hs : s < order)
    (first key : Bytes32) (message : List UInt8) :
    ((Point.base.times 256 s).add (A.neg.times 256 (challenge first key message))).Denotes
      (s • basePoint + challenge first key message • -P) := by
  have horder : order < 2 ^ 256 := by decide
  exact (Point.denotes_base.times (Nat.lt_trans hs horder)).add (hA.neg.times (mod_order_lt _))

/-- The number that a signature is checked with, said of the signature and not of its halves. -/
theorem challenge_eq (first second key : Bytes32) (message : List UInt8) :
    challenge first key message =
      hashScalar ((first.toList ++ second.toList).take 32 ++ key.toList ++ message) := by
  rw [challenge, List.take_left' first.length_toList]

/-- **A signature that passes for two messages** has the same multiple of the key for both. -/
theorem nsmul_eq_of_verify (hdecode : Point.decode? key = some A) (hA : A.Denotes P)
    (h : verify key message signature = true) (h' : verify key message' signature = true) :
    hashScalar (signature.take 32 ++ key.toList ++ message) • P =
      hashScalar (signature.take 32 ++ key.toList ++ message') • P := by
  obtain ⟨first, second, A₁, rfl, hdecode₁, hs, hrecomputed⟩ := verify_eq_true_iff.1 h
  obtain ⟨first', second', A₂, hbytes, hdecode₂, -, hrecomputed'⟩ := verify_eq_true_iff.1 h'
  obtain ⟨hfirst, hsecond⟩ := List.append_inj hbytes
    (first.length_toList.trans first'.length_toList.symm)
  obtain rfl := Bytes32.ext hfirst
  obtain rfl := Bytes32.ext hsecond
  obtain rfl := Option.some.inj (hdecode.symm.trans hdecode₁)
  obtain rfl := Option.some.inj (hdecode.symm.trans hdecode₂)
  have hpoint := (denotes_recomputed hA hs first key message).eq_of_encode
    (denotes_recomputed hA hs first key message') (hrecomputed.trans hrecomputed'.symm)
  rw [← challenge_eq, ← challenge_eq]
  have hneg := add_left_cancel hpoint
  rwa [smul_neg, smul_neg, neg_inj] at hneg

/-- **Where the multiples are the same**, what passes for one message passes for the other. -/
theorem verify_of_nsmul_eq (hdecode : Point.decode? key = some A) (hA : A.Denotes P)
    (hmultiple : hashScalar (signature.take 32 ++ key.toList ++ message) • P =
      hashScalar (signature.take 32 ++ key.toList ++ message') • P)
    (h : verify key message signature = true) : verify key message' signature = true := by
  obtain ⟨first, second, A₁, rfl, hdecode₁, hs, hrecomputed⟩ := verify_eq_true_iff.1 h
  obtain rfl := Option.some.inj (hdecode.symm.trans hdecode₁)
  rw [← challenge_eq, ← challenge_eq] at hmultiple
  refine verify_eq_true_iff.2 ⟨first, second, A, rfl, hdecode, hs, ?_⟩
  have hneg (k k' : Nat) (h : k • P = k' • P) : k • -P = k' • -P := by
    rw [smul_neg, h, smul_neg]
  have hpoint := denotes_recomputed hA hs first key message
  have hpoint' := denotes_recomputed hA hs first key message'
  rw [← congrArg (ofLittleEndian second.toList • basePoint + ·) (hneg _ _ hmultiple)] at hpoint'
  rw [hpoint'.encode, ← hpoint.encode, hrecomputed]

end Check

end Ed25519

namespace Address

open Curve

/-- Eight times the point of the address is the neutral point. -/
def hasSmallOrder (a : Address) : Bool :=
  (Point.decode? a.bytes).any fun A => (A.times 4 8).encode = Point.zero.encode

/-- The test of small order asks whether eight times the point is neutral. -/
theorem hasSmallOrder_iff {a : Address} {A : Point} {P : Affine (ZMod p)}
    (hdecode : Point.decode? a.bytes = some A) (hA : A.Denotes P) :
    a.hasSmallOrder = true ↔ 8 • P = 0 := by
  have hmultiple : (A.times 4 8).Denotes (8 • P) := hA.times (by decide)
  rw [hasSmallOrder, hdecode, Option.any_some, decide_eq_true_iff]
  constructor
  · exact hmultiple.eq_of_encode Point.denotes_zero
  · intro h
    rw [h] at hmultiple
    rw [hmultiple.encode, Point.denotes_zero.encode]

/-- **No secret key has an address of small order.** -/
theorem hasSmallOrder_address (key : SecretKey) : key.address.hasSmallOrder = false := by
  obtain ⟨A, hdecode, hA⟩ :=
    (Point.denotes_base.times (Ed25519.scalar_lt key.seed)).exists_decode?
  exact Bool.eq_false_iff.2 fun h =>
    Ed25519.eight_nsmul_publicKey_ne_zero key.seed ((hasSmallOrder_iff hdecode hA).1 h)

/-- What is hashed to the number that a signature is checked with. -/
def hashed (a : Address) (s : Signature) (message : List UInt8) : List UInt8 :=
  s.bytes.take 32 ++ a.bytes.toList ++ message

section Verifies

variable {a : Address} {s : Signature} {message message' : List UInt8}

/-- An address under which a signature passes stands for a point. -/
theorem exists_denotes_of_verifies (h : a.verifies message s = true) :
    ∃ A P, Point.decode? a.bytes = some A ∧ A.Denotes P := by
  obtain ⟨-, -, A, -, hdecode, -⟩ := Ed25519.verify_eq_true_iff.1 h
  obtain ⟨P, hA⟩ := Point.exists_denotes_of_decode? hdecode
  exact ⟨A, P, hdecode, hA⟩

/-- **Messages with the same hash** pass with the same signatures. -/
theorem verifies_of_hashScalar_eq
    (heq : Ed25519.hashScalar (a.hashed s message) = Ed25519.hashScalar (a.hashed s message'))
    (h : a.verifies message s = true) : a.verifies message' s = true := by
  obtain ⟨A, P, hdecode, hA⟩ := exists_denotes_of_verifies h
  exact Ed25519.verify_of_nsmul_eq hdecode hA (congrArg (· • P) heq) h

/-- **Only messages with the same hash** pass with one signature, if the address is not of
small order. -/
theorem hashScalar_eq_of_verifies (ha : a.hasSmallOrder = false)
    (h : a.verifies message s = true) (h' : a.verifies message' s = true) :
    Ed25519.hashScalar (a.hashed s message) = Ed25519.hashScalar (a.hashed s message') := by
  obtain ⟨A, P, hdecode, hA⟩ := exists_denotes_of_verifies h
  have hP : 8 • P ≠ 0 := fun hzero =>
    Bool.false_ne_true (ha.symm.trans ((hasSmallOrder_iff hdecode hA).2 hzero))
  have hlt : ∀ n : Nat, n % Ed25519.order < Ed25519.order := fun n =>
    Nat.mod_lt n Ed25519.prime_order.pos
  exact (Ed25519.nsmul_eq_nsmul_iff hP (hlt _) (hlt _)).1
    (Ed25519.nsmul_eq_of_verify hdecode hA h h')

/-- **Under an address of small order** it is enough that the hashes agree modulo eight. -/
theorem verifies_of_mod_eight (ha : a.hasSmallOrder = true)
    (hmod : Ed25519.hashScalar (a.hashed s message) % 8 =
      Ed25519.hashScalar (a.hashed s message') % 8)
    (h : a.verifies message s = true) : a.verifies message' s = true := by
  obtain ⟨A, P, hdecode, hA⟩ := exists_denotes_of_verifies h
  have hP : 8 • P = 0 := (hasSmallOrder_iff hdecode hA).1 ha
  exact Ed25519.verify_of_nsmul_eq hdecode hA (Ed25519.nsmul_eq_nsmul_of_mod_eight hP hmod) h

end Verifies

/-- The address of the neutral point. -/
def neutral : Address := ⟨Point.zero.encode⟩

/-- **The neutral point is of small order.** -/
theorem hasSmallOrder_neutral : neutral.hasSmallOrder = true := by
  obtain ⟨A, hdecode, hA⟩ := Point.denotes_zero.exists_decode?
  exact (hasSmallOrder_iff hdecode hA).2 (nsmul_zero 8)

end Address

/-- The signature of the neutral point and the number zero. -/
def Signature.neutral : Signature := ⟨Curve.Point.zero.encode.toList ++ littleEndian 32 0⟩

/-- **Under the neutral point one signature passes for every message.** -/
theorem Address.verifies_neutral (message : List UInt8) :
    neutral.verifies message .neutral = true := by
  obtain ⟨A, hdecode, hA⟩ := Curve.Point.denotes_zero.exists_decode?
  let second : Bytes32 := ⟨littleEndian 32 0, length_littleEndian ..⟩
  have hzero : ofLittleEndian second.toList = 0 := by decide
  have hs : ofLittleEndian second.toList < Ed25519.order := by
    rw [hzero]
    exact Ed25519.prime_order.pos
  have hpoint := Ed25519.denotes_recomputed hA hs Curve.Point.zero.encode neutral.bytes message
  have hsum (s k : Nat) (h : s = 0) :
      s • Curve.basePoint + k • -(0 : Affine (ZMod Curve.p)) = 0 := by
    rw [h, zero_nsmul, neg_zero, smul_zero, add_zero]
  rw [hsum _ _ hzero] at hpoint
  refine Ed25519.verify_eq_true_iff.2
    ⟨Curve.Point.zero.encode, second, A, rfl, hdecode, hs, ?_⟩
  rw [hpoint.encode, Curve.Point.denotes_zero.encode]

namespace Signed

/-- What is hashed to the number that the message is checked with. -/
def hashed {α : Type} [Signable α] (m : Signed α) : List UInt8 :=
  m.author.hashed m.signature (signingBytes m.payload)

/-- **Which signatures pass for a prepare and for a ballot.**  The bytes that are hashed for
the two always differ.  Under an address that is not of small order a signature passes for
both just where it passes for the prepare and the two hashes are the same modulo the order,
which takes a collision; and the address of a secret key is of this sort.  Under an address of
small order it is enough that the hashes agree modulo eight. -/
theorem verifies_prepare_and_vote_iff (a : Address) (s : Signature) (p : Prepare) (b : Ballot) :
    let prepare : Signed Prepare := ⟨p, a, s⟩
    let vote : Vote := ⟨b, a, s⟩
    let k := Ed25519.hashScalar prepare.hashed
    let k' := Ed25519.hashScalar vote.hashed
    prepare.hashed ≠ vote.hashed ∧
      (a.hasSmallOrder = false →
        (prepare.verifies = true ∧ vote.verifies = true ↔ prepare.verifies = true ∧ k = k')) ∧
      (∀ key : SecretKey, key.address = a → a.hasSmallOrder = false) ∧
      (a.hasSmallOrder = true → k % 8 = k' % 8 → prepare.verifies = vote.verifies) := by
  intro prepare vote k k'
  refine ⟨fun h => ?_, fun ha => ?_, ?_, fun ha hmod => ?_⟩
  · have hbytes := List.append_cancel_left h
    exact (Payload.not_prefix_of_kinds p b).1 (hbytes ▸ List.prefix_rfl)
  · refine and_congr_right fun hprepare => ⟨fun hvote => ?_, fun hk => ?_⟩
    · exact Address.hashScalar_eq_of_verifies ha hprepare hvote
    · exact Address.verifies_of_hashScalar_eq hk hprepare
  · rintro key rfl
    exact Address.hasSmallOrder_address key
  · refine Bool.eq_iff_iff.2 ⟨fun hprepare => ?_, fun hvote => ?_⟩
    · exact Address.verifies_of_mod_eight ha hmod hprepare
    · exact Address.verifies_of_mod_eight ha hmod.symm hvote

/-- **One signature can pass for a prepare and for a ballot**, since addresses of small order
are not refused: here for the proposal `42` and for a ballot that it justifies. -/
theorem not_forall_not_verifies_prepare_and_vote :
    ¬∀ (a : Address) (s : Signature) (p : Prepare) (b : Ballot),
      ¬((⟨p, a, s⟩ : Signed Prepare).verifies = true ∧ (⟨b, a, s⟩ : Vote).verifies = true) := by
  intro h
  let proposal : Prepare := ⟨⟨5, 0⟩, .fill 0x42⟩
  let ballot : Ballot := ⟨⟨5, 1⟩, some ⟨⟨5, 0⟩, .fill 0x42, [⟨proposal, .neutral, .neutral⟩]⟩⟩
  exact h .neutral .neutral proposal ballot
    ⟨Address.verifies_neutral _, Address.verifies_neutral _⟩

end Signed
end RoundChange
