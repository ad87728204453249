/-
# Messages that fit the binary form

The binary form writes the counts of lists in 8 bytes.  Of a message these are the lengths of
its signatures and the numbers of prepares, votes and validators, and nothing else
(`LawfulBinaryForm.fits_signed` and the lemmas around it).

What passes the checks of a height fits: its signatures have 64 bytes, and its lists are by
different validators, so they are no longer than the list of these
(`HeightContext.Admits.fits`).
-/

import RoundChange.Proofs.Admission
import RoundChange.Proofs.BinaryRoundTrip
import RoundChange.Proofs.Validators

namespace RoundChange

open LawfulBinaryForm (Fits)

namespace LawfulBinaryForm

/-- An address fits: its text has 64 digits. -/
theorem fits_address (a : Address) : Fits a := trivial

/-- A signature fits if its bytes can be counted in a word. -/
theorem fits_signature {s : Signature} : Fits s ↔ s.bytes.length < UInt64.size :=
  ⟨fun h => h.1, fun h => ⟨h, fun _ _ => trivial⟩⟩

/-- A round fits. -/
theorem fits_round (r : Round) : Fits r := ⟨trivial, trivial⟩

/-- A prepare fits. -/
theorem fits_prepare (p : Prepare) : Fits p := ⟨fits_round p.round, trivial⟩

/-- A message fits if its payload and its signature do. -/
theorem fits_signed {α : Type} [BinaryForm α] [LawfulBinaryForm α] {m : Signed α} :
    Fits m ↔ Fits m.payload ∧ m.signature.bytes.length < UInt64.size :=
  ⟨fun h => ⟨h.1, fits_signature.1 h.2.2⟩, fun h => ⟨h.1, trivial, fits_signature.2 h.2⟩⟩

/-- A prepared certificate fits if its prepares do and can be counted. -/
theorem fits_preparedCertificate {c : PreparedCertificate} :
    Fits c ↔ c.prepares.length < UInt64.size ∧ ∀ p ∈ c.prepares, Fits p :=
  ⟨fun h => h.2.2, fun h => ⟨fits_round c.round, trivial, h⟩⟩

/-- A ballot fits if the prepared certificate that it carries does. -/
theorem fits_ballot {b : Ballot} : Fits b ↔ ∀ c ∈ b.prepared, Fits c :=
  ⟨fun h => h.2, fun h => ⟨fits_round b.target, h⟩⟩

/-- A certificate fits if its votes do and can be counted. -/
theorem fits_certificate {c : Certificate} :
    Fits c ↔ c.votes.length < UInt64.size ∧ ∀ v ∈ c.votes, Fits v := Iff.rfl

/-- A configuration fits if its validators can be counted. -/
theorem fits_heightConfig {c : HeightConfig} : Fits c ↔ c.validators.length < UInt64.size :=
  ⟨fun h => h.2.1, fun h => ⟨trivial, h, fun a _ => fits_address a⟩⟩

end LawfulBinaryForm

open LawfulBinaryForm (fits_signed fits_prepare fits_preparedCertificate fits_ballot)

/-- A signature that passes has 64 bytes. -/
theorem Address.length_of_verifies {a : Address} {message : List UInt8} {s : Signature}
    (h : a.verifies message s = true) : s.bytes.length = 64 := by
  by_contra hne
  rw [Address.verifies_eq_false_of_length hne] at h
  cases h

/-- **A message with a signature that passes fits** where its payload does. -/
theorem Signed.fits_of_verifies {α : Type} [Signable α] [LawfulBinaryForm α] {m : Signed α}
    (hpayload : Fits m.payload) (h : m.verifies = true) : Fits m := by
  refine fits_signed.2 ⟨hpayload, ?_⟩
  rw [Address.length_of_verifies h]
  decide

namespace HeightContext

variable {height : UInt64} {validators : List Address}

/-- Messages by different validators are no more than the validators. -/
theorem length_le_of_nodup {α : Type} {messages : List (Signed α)}
    (hdistinct : (messages.map Signed.author).Nodup)
    (hmember : ∀ m ∈ messages, m.author ∈ (ofValidators height validators).validators) :
    messages.length ≤ validators.length := by
  have hsubset : messages.map Signed.author ⊆ validators := by
    intro a ha
    obtain ⟨m, hm, rfl⟩ := List.mem_map.1 ha
    exact mem_ofValidators.1 (hmember m hm)
  have hlength := (List.subperm_of_subset hdistinct hsubset).length_le
  rwa [List.length_map] at hlength

variable (hlength : validators.length < UInt64.size)

include hlength

/-- **A prepared certificate that passes the checks fits.** -/
theorem Justifies.fits {target : Round} {p : PreparedCertificate}
    (h : (ofValidators height validators).Justifies target p) : Fits p := by
  have hcount : p.prepares.length ≤ validators.length :=
    length_le_of_nodup h.distinct fun s hs => (h.backed s hs).validator
  refine fits_preparedCertificate.2 ⟨Nat.lt_of_le_of_lt hcount hlength, fun s hs => ?_⟩
  exact Signed.fits_of_verifies (fits_prepare s.payload) (h.backed s hs).signed

/-- **A vote that the height admits fits the binary form**, where the list of validators
does. -/
theorem Admits.fits {v : Vote} (h : (ofValidators height validators).Admits v) : Fits v :=
  Signed.fits_of_verifies (fits_ballot.2 fun p hp => (h.justified p hp).fits hlength) h.signed

end HeightContext
end RoundChange
