/-
# What is decoded

The bytes of a message may come from anyone.  Decoded to a value are the bytes that start with
its writing, up to the case of letters in addresses, and no others, whatever the value
(`BinaryForm.decodes_spellings_only`).  There is no second way to write a count, a tag or a
digit, nor the characters of an address.

So bytes that are decoded to different values differ in more than that case, and the writing of
what was decoded is the same as the bytes with the letters of addresses in lower case: these are
what payloads are signed in.
-/

import RoundChange.Proofs.BinarySpelling
import RoundChange.Proofs.Certificates
import RoundChange.Proofs.SigningBytes

namespace RoundChange

open Binary
open LawfulBinaryForm (Fits)
open SpelledForm

namespace BinaryForm

/-- Decoding reads from the front and drops the rest. -/
theorem decode_eq_ok_iff {α : Type} [BinaryForm α] {bytes : List UInt8} {x : α} :
    decode bytes = .ok x ↔ ∃ rest, (read : Reader α).run bytes = .ok (x, rest) := by
  rw [decode]
  cases (read : Reader α).run bytes with
  | error e => simp [Functor.map, Except.map]
  | ok read => simp [Prod.ext_iff, Functor.map, Except.map]

/-- What is decoded to a value is its writing, up to the case of letters in addresses. -/
structure DecodesSpellings (α : Type) [BinaryForm α] [LawfulBinaryForm α] [SpelledForm α] :
    Prop where
  /-- What is written at the places of a value is its writing. -/
  written : ∀ x : α, (places x).map Place.written = write x
  /-- Just the places' bytes are taken: as many as are written, each as it is written or the
  same digit of an address in upper case.  In lower case they are the writing. -/
  taken : ∀ {bytes : List UInt8} {x : α}, decode bytes = .ok x → ∃ front rest,
    bytes = front ++ rest ∧ (read : Reader α).run bytes = .ok (x, rest) ∧
      front.length = (write x).length ∧ List.Forall₂ Place.Admits (places x) front ∧
        lowered (places x) front = write x
  /-- Every such spelling of a value that fits is decoded to it. -/
  admitted : ∀ {x : α} {front : List UInt8}, Fits x →
    List.Forall₂ Place.Admits (places x) front → ∀ rest, decode (front ++ rest) = .ok x
  /-- What is taken for different values differs, at the places of either of them, in more than
  the case of letters in addresses. -/
  apart : ∀ {front rest front' rest' : List UInt8} {x y : α},
    (read : Reader α).run (front ++ rest) = .ok (x, rest) →
      (read : Reader α).run (front' ++ rest') = .ok (y, rest') → x ≠ y →
        lowered (places x) front ≠ lowered (places x) front'
  /-- The writing of what was decoded is decoded to the same. -/
  restored : ∀ {bytes : List UInt8} {x : α}, decode bytes = .ok x → decode (write x) = .ok x

/-- **Decoding accepts spellings only**, for values of every type with the law. -/
theorem decodesSpellings (α : Type) [BinaryForm α] [LawfulBinaryForm α] [SpelledForm α] :
    DecodesSpellings α where
  written := map_written
  taken {bytes x} h := by
    obtain ⟨rest, hread⟩ := decode_eq_ok_iff.1 h
    obtain ⟨-, front, rfl, hfront⟩ := run_read_iff.1 hread
    have hlength : front.length = (write x).length := by
      rw [← hfront.length_eq, ← map_written, List.length_map]
    exact ⟨front, rest, rfl, hread, hlength, hfront, lowered_of_forall₂ hfront⟩
  admitted hfits hfront rest :=
    decode_eq_ok_iff.2 ⟨rest, run_read_append_iff.2 ⟨hfits, hfront⟩⟩
  apart {front rest front' rest' x y} hx hy hne hlowered := by
    obtain ⟨hfits, hfront⟩ := run_read_append_iff.1 hx
    -- Otherwise the second part would start with a spelling of the first value.
    have hwrite : lowered (places x) front' = write x :=
      hlowered.symm.trans (lowered_of_forall₂ hfront)
    have hread : (read : Reader α).run (front' ++ []) = .ok (y, []) :=
      run_read_append_iff.2 (run_read_append_iff.1 hy)
    rw [List.append_nil] at hread
    exact hne (eq_of_lowered hfits hwrite hread).symm
  restored {bytes x} h := by
    obtain ⟨rest, hread⟩ := decode_eq_ok_iff.1 h
    have hdecode := decode_write (run_read_iff.1 hread).1 []
    rwa [List.append_nil] at hdecode

/-- **A value with no address in it is decoded from its writing** and from nothing else. -/
theorem decode_eq_ok_iff_of_places {α : Type} [BinaryForm α] [LawfulBinaryForm α] [SpelledForm α]
    {bytes : List UInt8} {x : α} (hplaces : places x = (write x).map Place.byte) :
    decode bytes = .ok x ↔ Fits x ∧ write x <+: bytes := by
  simp only [decode_eq_ok_iff, run_read_iff, hplaces, spells_map_byte_iff]
  constructor
  · rintro ⟨rest, hfits, rfl⟩
    exact ⟨hfits, rest, rfl⟩
  · rintro ⟨hfits, rest, rfl⟩
    exact ⟨rest, hfits, rfl⟩

/-- **The bytes that are signed can be had from the bytes of a message**, by the case of letters
in addresses. -/
theorem signingBytes_of_decode {α : Type} [Signable α] [LawfulBinaryForm α] [SpelledForm α]
    {bytes : List UInt8} {m : Signed α} (h : decode bytes = .ok m) :
    signingBytes m.payload = write signingDomain ++
      Signable.code α :: lowered (places m.payload) bytes := by
  obtain ⟨rest, hread⟩ := decode_eq_ok_iff.1 h
  have hspells : Spells (places m.payload ++ places m.author ++ places m.signature) bytes rest :=
    (run_read_iff.1 hread).2
  rw [List.append_assoc] at hspells
  obtain ⟨behind, hpayload, -⟩ := spells_append_iff.1 hspells
  rw [signingBytes_eq, lowered_of_spells hpayload]

/-- **Nothing is decoded but what is written, up to the case of letters in addresses**, at any
depth of any message.  Bytes that are decoded start with as many bytes as the value is written
in, which differ from the writing in the case of these letters alone; so different values are
taken from bytes that differ elsewhere, and writing what was decoded restores the lower case,
in which payloads are signed.  Rounds, prepares and signatures have no address in them and are
decoded from their writing alone. -/
theorem decodes_spellings_only :
    (DecodesSpellings (Signed Prepare) ∧ DecodesSpellings Vote ∧ DecodesSpellings Ballot ∧
      DecodesSpellings Prepare ∧ DecodesSpellings PreparedCertificate ∧
      DecodesSpellings Certificate ∧ DecodesSpellings HeightConfig ∧ DecodesSpellings Round ∧
      DecodesSpellings Address ∧ DecodesSpellings Signature) ∧
    (∀ {bytes : List UInt8} {p : Signed Prepare}, decode bytes = .ok p →
      signingBytes p.payload = write signingDomain ++
        Signable.code Prepare :: lowered (places p.payload) bytes) ∧
    (∀ {bytes : List UInt8} {v : Vote}, decode bytes = .ok v →
      signingBytes v.payload = write signingDomain ++
        Signable.code Ballot :: lowered (places v.payload) bytes) ∧
    (∀ bytes (r : Round), decode bytes = .ok r ↔ write r <+: bytes) ∧
    (∀ bytes (p : Prepare), decode bytes = .ok p ↔ write p <+: bytes) ∧
    ∀ bytes (s : Signature), decode bytes = .ok s ↔
      s.bytes.length < UInt64.size ∧ write s <+: bytes := by
  refine ⟨⟨decodesSpellings _, decodesSpellings _, decodesSpellings _, decodesSpellings _,
    decodesSpellings _, decodesSpellings _, decodesSpellings _, decodesSpellings _,
    decodesSpellings _, decodesSpellings _⟩, signingBytes_of_decode, signingBytes_of_decode,
    fun bytes r => ?_, fun bytes p => ?_, fun bytes s => ?_⟩
  · exact (decode_eq_ok_iff_of_places (places_round r)).trans
      (and_iff_right (LawfulBinaryForm.fits_round r))
  · exact (decode_eq_ok_iff_of_places (places_prepare p)).trans
      (and_iff_right (LawfulBinaryForm.fits_prepare p))
  · rw [decode_eq_ok_iff_of_places (places_signature s), LawfulBinaryForm.fits_signature]

end BinaryForm

namespace Sample

/-- The bytes of the first vote, in which the letters of addresses are in upper case. -/
def shouted : List UInt8 := (places vote₁).map Place.capital

end Sample

namespace BinaryForm

/-- The hypotheses of `decodes_spellings_only` are satisfiable.  A vote is decoded from bytes in
which its addresses are in upper case, another spelling than that which is written; it is signed
in lower case, and the second vote is read from bytes that differ elsewhere. -/
theorem decodes_spellings_only_sample :
    decode Sample.shouted = .ok Sample.vote₁ ∧ decode (write Sample.vote₁) = .ok Sample.vote₁ ∧
      (places Sample.validator₁).map Place.capital ≠ write Sample.validator₁ ∧
      signingBytes Sample.vote₁.payload = write signingDomain ++
        Signable.code Ballot :: lowered (places Sample.vote₁.payload) Sample.shouted ∧
      lowered (places Sample.vote₁) Sample.shouted ≠
        lowered (places Sample.vote₁) (write Sample.vote₂) := by
  obtain ⟨⟨-, hvotes, -⟩, -, hsigned, -⟩ := decodes_spellings_only
  have hfits₁ : Fits Sample.vote₁ := Sample.admits_vote₁.fits (by decide)
  have hfits₂ : Fits Sample.vote₂ := Sample.admits_vote₂.fits (by decide)
  have hspells : List.Forall₂ Place.Admits (places Sample.vote₁) Sample.shouted :=
    List.forall₂_map_right_iff.2 (List.forall₂_same.2 fun _ _ => .inr rfl)
  have hdecode : decode Sample.shouted = .ok Sample.vote₁ := by
    have hdecoded := hvotes.admitted hfits₁ hspells []
    rwa [List.append_nil] at hdecoded
  have hread₁ : (read : Reader Vote).run (Sample.shouted ++ []) = .ok (Sample.vote₁, []) :=
    run_read_append_iff.2 ⟨hfits₁, hspells⟩
  have hread₂ := LawfulBinaryForm.run_read hfits₂ []
  have hne : Sample.vote₁ ≠ Sample.vote₂ := fun h =>
    absurd (congrArg (fun v => v.payload.prepared.isSome) h) (by decide)
  exact ⟨hdecode, hvotes.restored hdecode, by decide, hsigned hdecode,
    hvotes.apart hread₁ hread₂ hne⟩

end BinaryForm
end RoundChange
