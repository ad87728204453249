/-
# What the signed bytes say

The bytes that `SignedData::sign` signs for a payload tell which payload it was and of which
kind (`Payload.signingBytes_prefix_iff`).  They are, one behind the other,

    the domain    the code of the kind    the binary form of the payload

where the first part is the same for all payloads and the second is one byte.  Payloads of
different kinds part there; those of one kind are told apart by their binary forms, since no
binary form is the start of another one (`LawfulBinaryForm.prefix_iff`).  So nothing in a
payload can be changed, however deep, without changing the bytes that are signed.
-/

import RoundChange.Proofs.Fitting

namespace RoundChange

open LawfulBinaryForm (Fits)

section Kinds

variable {α β : Type} [Signable α] [Signable β]

/-- What is signed: the domain, the code and the payload, one behind the other. -/
theorem signingBytes_eq (payload : α) :
    signingBytes payload =
      BinaryForm.write signingDomain ++ Signable.code α :: BinaryForm.write payload := by
  have hcode : BinaryForm.write (Signable.code α) = [Signable.code α] :=
    congrArg (· :: []) UInt8.ofNat_toNat
  rw [signingBytes, hcode, List.append_assoc, List.singleton_append]

/-- **Where the bytes of one payload start those of another** the payloads are of one kind, and
so do their binary forms. -/
theorem signingBytes_prefix_signingBytes_iff {payload : α} {payload' : β} :
    signingBytes payload <+: signingBytes payload' ↔
      Signable.code α = Signable.code β ∧
        BinaryForm.write payload <+: BinaryForm.write payload' := by
  rw [signingBytes_eq, signingBytes_eq, List.prefix_append_right_inj, List.cons_prefix_cons]

end Kinds

/-- A payload of either kind. -/
inductive Payload where
  | prepare (prepare : Prepare)
  | ballot (ballot : Ballot)
deriving DecidableEq

namespace Payload

/-- The bytes that are signed for the payload. -/
def signingBytes : Payload → List UInt8
  | prepare p => RoundChange.signingBytes p
  | ballot b => RoundChange.signingBytes b

/-- Every list in the payload is shorter than `UInt64.size`. -/
def Fits : Payload → Prop
  | prepare p => LawfulBinaryForm.Fits p
  | ballot b => LawfulBinaryForm.Fits b

/-- The bytes of a prepare and of a ballot do not start each other. -/
theorem not_prefix_of_kinds (p : Prepare) (b : Ballot) :
    ¬RoundChange.signingBytes p <+: RoundChange.signingBytes b ∧
      ¬RoundChange.signingBytes b <+: RoundChange.signingBytes p := by
  have hcode : (Signable.code Prepare) ≠ Signable.code Ballot := by decide
  exact ⟨fun h => hcode (signingBytes_prefix_signingBytes_iff.1 h).1,
    fun h => hcode (signingBytes_prefix_signingBytes_iff.1 h).1.symm⟩

/-- **The bytes of one payload start those of another one only if the payloads are the
same.** -/
theorem prefix_iff {x y : Payload} (hx : x.Fits) (hy : y.Fits) :
    x.signingBytes <+: y.signingBytes ↔ x = y := by
  cases x with
  | prepare p =>
    cases y with
    | prepare q =>
      refine signingBytes_prefix_signingBytes_iff.trans ?_
      rw [LawfulBinaryForm.prefix_iff hx hy, prepare.injEq]
      exact and_iff_right rfl
    | ballot c => exact iff_of_false (not_prefix_of_kinds p c).1 (by simp)
  | ballot b =>
    cases y with
    | prepare q => exact iff_of_false (not_prefix_of_kinds q b).2 (by simp)
    | ballot c =>
      refine signingBytes_prefix_signingBytes_iff.trans ?_
      rw [LawfulBinaryForm.prefix_iff hx hy, ballot.injEq]
      exact and_iff_right rfl

/-- **The signed bytes determine what was signed.**  Of all payloads of both kinds whose lists
fit, the bytes of one are the start of those of another only if the two are the same, so that
payloads that differ anywhere have different bytes; and no bytes are those of a prepare and of
a ballot, whether these fit or not. -/
theorem signingBytes_prefix_iff :
    (∀ x y : Payload, x.Fits → y.Fits → (x.signingBytes <+: y.signingBytes ↔ x = y) ∧
      (x ≠ y → x.signingBytes ≠ y.signingBytes)) ∧
    ∀ (p : Prepare) (b : Ballot), RoundChange.signingBytes p ≠ RoundChange.signingBytes b := by
  refine ⟨fun x y hx hy => ⟨prefix_iff hx hy, fun hne hbytes => hne ?_⟩, fun p b hbytes => ?_⟩
  · exact (prefix_iff hx hy).1 (hbytes ▸ List.prefix_rfl)
  · exact (not_prefix_of_kinds p b).1 (hbytes ▸ List.prefix_rfl)

end Payload

namespace Sample

/-- The certificate with its prepares in the other order. -/
def turned : PreparedCertificate := { prepared with prepares := prepared.prepares.reverse }

/-- The prepared certificate of the sample fits. -/
theorem fits_prepared : Fits prepared := justifies_prepared.fits (by decide)

/-- So does the one with its prepares turned round. -/
theorem fits_turned : Fits turned := by
  obtain ⟨hlength, hprepares⟩ := LawfulBinaryForm.fits_preparedCertificate.1 fits_prepared
  refine LawfulBinaryForm.fits_preparedCertificate.2 ⟨?_, fun p hp => ?_⟩
  · rwa [turned, List.length_reverse]
  · exact hprepares p (List.mem_reverse.1 hp)

end Sample

namespace Payload

/-- The hypotheses of `signingBytes_prefix_iff` are satisfiable, where two ballots differ in the
order of the nested prepares alone. -/
theorem signingBytes_prefix_iff_sample :
    let x := ballot ⟨⟨5, 1⟩, some Sample.prepared⟩
    let y := ballot ⟨⟨5, 1⟩, some Sample.turned⟩
    x.Fits ∧ y.Fits ∧ x ≠ y ∧ ¬x.signingBytes <+: y.signingBytes ∧
      x.signingBytes ≠ y.signingBytes := by
  intro x y
  have hx : x.Fits := LawfulBinaryForm.fits_ballot.2 fun c hc =>
    Option.some.inj hc ▸ Sample.fits_prepared
  have hy : y.Fits := LawfulBinaryForm.fits_ballot.2 fun c hc =>
    Option.some.inj hc ▸ Sample.fits_turned
  have hne : x ≠ y := by decide
  have hxy := signingBytes_prefix_iff.1 x y hx hy
  exact ⟨hx, hy, hne, fun h => hne (hxy.1.1 h), hxy.2 hne⟩

end Payload
end RoundChange
