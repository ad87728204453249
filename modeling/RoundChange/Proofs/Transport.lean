/-
# What travels arrives as it was sent

Addresses, signatures, rounds, messages, certificates and configurations all travel in either
wire form, that of `bincode` or that of `serde_json`.

| form | carries | from what it stands in |
| --- | --- | --- |
| bytes | values whose lists have counts of 8 bytes | takes just its own bytes |
| text | all values | takes the whole text |

Who decodes them has the value that was sent and no other (`BinaryForm.carries_bytes`,
`JsonForm.carries_text`).  Nothing about a message can therefore depend on its having
travelled: its author, its digest, whether its signature passes and what a judge says of it.
-/

import RoundChange.Proofs.Certificates
import RoundChange.Proofs.Fitting
import RoundChange.Proofs.JsonRoundTrip

namespace RoundChange

open LawfulBinaryForm (Fits)

namespace BinaryForm

/-- The bytes of the value are decoded to it, and reading takes just them, whatever stands
behind. -/
structure Carries {α : Type} [BinaryForm α] (x : α) : Prop where
  decoded : decode (write x) = .ok x
  taken : ∀ rest, (read : Binary.Reader α).run (write x ++ rest) = .ok (x, rest)

section

variable {α : Type} [BinaryForm α] [LawfulBinaryForm α] {x y : α}

/-- **A value that fits is carried by its bytes.** -/
theorem carries (h : Fits x) : Carries x where
  decoded := by
    have hdecode := decode_write h []
    rwa [List.append_nil] at hdecode
  taken := LawfulBinaryForm.run_read h

/-- What is decoded is what was sent. -/
theorem eq_of_decode_write (h : Fits x) (hy : decode (write x) = .ok y) : y = x :=
  Except.ok.inj (hy.symm.trans (carries h).decoded)

end

/-- **Bytes lose nothing.**  Every value whose lists have counts of 8 bytes is read back from
its bytes as it is; an address is 64 digits behind their count.  So a signed message that was
decoded has the author and the digest of the one that was sent, its signature passes just
where that one's does, and of a vote a judge says the same. -/
theorem carries_bytes :
    (∀ a : Address, Carries a ∧ write a = littleEndian 8 64 ++ Utf8.ascii a.hex) ∧
    (∀ s : Signature, s.bytes.length < UInt64.size → Carries s) ∧
    (∀ r : Round, Carries r) ∧ (∀ p : Prepare, Carries p) ∧
    (∀ c : PreparedCertificate, Fits c → Carries c) ∧ (∀ b : Ballot, Fits b → Carries b) ∧
    (∀ m : Signed Prepare, Fits m → Carries m ∧ ∀ m' : Signed Prepare,
      decode (write m) = .ok m' →
        m'.author = m.author ∧ m'.digest = m.digest ∧ m'.verifies = m.verifies) ∧
    (∀ v : Vote, Fits v → Carries v ∧ ∀ v' : Vote, decode (write v) = .ok v' →
      v'.author = v.author ∧ v'.digest = v.digest ∧ v'.verifies = v.verifies ∧
        ∀ ctx : HeightContext, ctx.judge v' = ctx.judge v) ∧
    (∀ c : Certificate, Fits c → Carries c) ∧
    ∀ c : HeightConfig, c.validators.length < UInt64.size → Carries c := by
  refine ⟨fun a => ⟨carries (LawfulBinaryForm.fits_address a), write_address a⟩,
    fun s h => carries (LawfulBinaryForm.fits_signature.2 h),
    fun r => carries (LawfulBinaryForm.fits_round r),
    fun p => carries (LawfulBinaryForm.fits_prepare p), fun _ => carries, fun _ => carries,
    fun m hm => ⟨carries hm, fun m' hm' => ?_⟩, fun v hv => ⟨carries hv, fun v' hv' => ?_⟩,
    fun _ => carries, fun c h => carries (LawfulBinaryForm.fits_heightConfig.2 h)⟩
  · obtain rfl := eq_of_decode_write hm hm'
    exact ⟨rfl, rfl, rfl⟩
  · obtain rfl := eq_of_decode_write hv hv'
    exact ⟨rfl, rfl, rfl, fun _ => rfl⟩

/-- The hypotheses of `carries_bytes` are satisfiable, by a vote that carries a prepared
certificate. -/
theorem carries_bytes_sample :
    Fits Sample.vote₁ ∧ decode (write Sample.vote₁) = .ok Sample.vote₁ ∧
      (HeightContext.ofValidators 5 Sample.validators).judge Sample.vote₁ = .accepted := by
  have hfits : Fits Sample.vote₁ := Sample.admits_vote₁.fits (by decide)
  obtain ⟨-, -, -, -, -, -, -, hvotes, -⟩ := carries_bytes
  have haccepted := HeightContext.judge_eq_accepted_iff_admits.2 Sample.admits_vote₁
  exact ⟨hfits, (hvotes Sample.vote₁ hfits).1.decoded, haccepted⟩

end BinaryForm

namespace JsonForm

/-- The text of the value is decoded to it, and reading takes the whole text. -/
structure Carries {α : Type} [JsonForm α] (x : α) : Prop where
  decoded : decode (write x) = .ok x
  taken : (read : Json.Reader α).run (write x) = .ok (x, [])

/-- **Every value is carried by its text.** -/
theorem carries {α : Type} [JsonForm α] [LawfulJsonForm α] (x : α) : Carries x where
  decoded := decode_write x
  taken := by
    have hread := (LawfulJsonForm.readsBack x).run Json.delimited_nil
    rwa [List.append_nil] at hread

/-- **Text loses nothing.**  Every value is read back from its text as it is, and nothing of
the text is left. -/
theorem carries_text :
    (∀ a : Address, Carries a) ∧ (∀ s : Signature, Carries s) ∧ (∀ r : Round, Carries r) ∧
    (∀ p : Prepare, Carries p) ∧ (∀ c : PreparedCertificate, Carries c) ∧
    (∀ b : Ballot, Carries b) ∧ (∀ m : Signed Prepare, Carries m) ∧ (∀ v : Vote, Carries v) ∧
    (∀ c : Certificate, Carries c) ∧ ∀ c : HeightConfig, Carries c :=
  ⟨carries, carries, carries, carries, carries, carries, carries, carries, carries, carries⟩

end JsonForm
end RoundChange
