/-
# Honest votes always count

An honest validator signs its own ballots (`SignedData::sign`), and is locked on a proposal
only where as many validators as the rule asks for have signed prepares for it (`Lock.Valid`).
Whatever it is locked on, its vote passes every check (`Voter.Honest.admits_vote`) and survives
the binary form (`Voter.fits_vote`).  Votes by a quorum of such validators, appended to a new
coordinator in any order, yield their certificate with the last of them
(`Coordinator.certificates_of_honest_votes`).

That what a key signs passes under its address is not assumed: it is the completeness of the
signatures (`SecretKey.verifies_sign`).
-/

import RoundChange.Proofs.Curve.Signatures
import RoundChange.Proofs.Replay

namespace RoundChange

/-- What is signed passes. -/
theorem Signed.verifies_sign {α : Type} [Signable α] (payload : α) (key : SecretKey) :
    (sign payload key).verifies = true := key.verifies_sign (signingBytes payload)

/-- A proposal that was prepared in a round of the height, and the keys that signed
prepares for it. -/
structure Lock where
  number : UInt32
  digest : Bytes32
  preparers : List SecretKey

namespace Lock

/-- The payload of the prepares. -/
def proposal (height : UInt64) (lock : Lock) : Prepare := ⟨⟨height, lock.number⟩, lock.digest⟩

/-- The certificate that the prepares make. -/
def certificate (height : UInt64) (lock : Lock) : PreparedCertificate :=
  ⟨⟨height, lock.number⟩, lock.digest, lock.preparers.map (Signed.sign (lock.proposal height))⟩

/-- The proposal is of a round earlier than `number`, and as many validators as a quorum has
less one prepared it, each once. -/
structure Valid (validators : List Address) (number : UInt32) (lock : Lock) : Prop where
  earlier : lock.number < number
  enough : Quorum.size validators.toFinset.card - 1 ≤ lock.preparers.length
  distinct : (lock.preparers.map SecretKey.address).Nodup
  validator : ∀ key ∈ lock.preparers, key.address ∈ validators

end Lock

/-- The key of a validator, and what the validator is locked on. -/
structure Voter where
  key : SecretKey
  lock : Option Lock

namespace Voter

/-- The wish of a voter to move to a round. -/
def ballot (target : Round) (voter : Voter) : Ballot :=
  ⟨target, voter.lock.map (Lock.certificate target.height)⟩

/-- The vote of a voter for a round. -/
def vote (target : Round) (voter : Voter) : Vote := Signed.sign (voter.ballot target) voter.key

/-- The voter is a validator, and free or locked on a proposal that validators prepared. -/
structure Honest (validators : List Address) (target : Round) (voter : Voter) : Prop where
  validator : voter.key.address ∈ validators
  lock : ∀ lock ∈ voter.lock, lock.Valid validators target.number

end Voter

section Admitted

open HeightContext

variable {validators : List Address} {target : Round}

/-- **A valid lock justifies a vote.** -/
theorem Lock.Valid.justifies_certificate {lock : Lock}
    (h : lock.Valid validators target.number) :
    (ofValidators target.height validators).Justifies target
      (lock.certificate target.height) := by
  constructor
  case height => rfl
  case earlier => exact h.earlier
  case enough =>
    have henough := h.enough
    rw [← ValidatorSet.size_ofList] at henough
    rw [Lock.certificate, List.length_map]
    exact henough
  case distinct =>
    rw [Lock.certificate, List.map_map]
    exact h.distinct
  case backed =>
    intro p hp
    obtain ⟨key, hkey, rfl⟩ := List.mem_map.1 hp
    exact {
      validator := mem_ofValidators.2 (h.validator key hkey)
      round := rfl
      digest := rfl
      signed := Signed.verifies_sign _ key }

/-- **An honest vote passes every check.** -/
theorem Voter.Honest.admits_vote {voter : Voter} (h : voter.Honest validators target) :
    (ofValidators target.height validators).Admits (voter.vote target) := by
  constructor
  case validator => exact mem_ofValidators.2 h.validator
  case height => rfl
  case signed => exact Signed.verifies_sign _ voter.key
  case justified =>
    intro c hc
    obtain ⟨lock, hmem, rfl⟩ := Option.map_eq_some_iff.1 hc
    exact (h.lock lock hmem).justifies_certificate

end Admitted

section Transport

open LawfulBinaryForm (Fits)

/-- What is signed fits the binary form where the payload does: a signature has 64 bytes. -/
theorem Signed.fits_sign {α : Type} [Signable α] [LawfulBinaryForm α] {payload : α}
    (key : SecretKey) (h : Fits payload) : Fits (sign payload key) := by
  refine LawfulBinaryForm.fits_signed.2 ⟨h, ?_⟩
  rw [sign, SecretKey.sign, Ed25519.length_sign]
  decide

/-- **A vote fits the binary form** where the count of its prepares does. -/
theorem Voter.fits_vote {voter : Voter} (target : Round)
    (hcount : ∀ lock ∈ voter.lock, lock.preparers.length < UInt64.size) :
    Fits (voter.vote target) := by
  refine Signed.fits_sign voter.key (LawfulBinaryForm.fits_ballot.2 fun c hc => ?_)
  obtain ⟨lock, hlock, rfl⟩ := Option.map_eq_some_iff.1 hc
  refine LawfulBinaryForm.fits_preparedCertificate.2 ⟨?_, fun p hp => ?_⟩
  · rw [Lock.certificate, List.length_map]
    exact hcount lock hlock
  · obtain ⟨key, -, rfl⟩ := List.mem_map.1 hp
    exact Signed.fits_sign key (LawfulBinaryForm.fits_prepare _)

end Transport

namespace Coordinator

/-- **Honest votes always count.**  Let a quorum of different validators vote for a round of
the height, each of them free or locked on a proposal of an earlier round that `q - 1` or
more different validators prepared.  Then every vote is accepted, and is read back from its
binary form as it is; and a new coordinator answers the votes, in the given order, with
nothing but the certificate of all of them, with the last. -/
theorem certificates_of_honest_votes {height : UInt64} {validators : List Address}
    {number : UInt32} {voters : List Voter}
    (hquorum : voters.length = Quorum.size validators.toFinset.card)
    (hdistinct : (voters.map fun voter => voter.key.address).Nodup)
    (hhonest : ∀ voter ∈ voters, voter.Honest validators ⟨height, number⟩) :
    let judge := (HeightContext.ofValidators height validators).judge
    let votes := voters.map (Voter.vote ⟨height, number⟩)
    (∀ vote ∈ votes, judge vote = .accepted) ∧
      (∀ voter ∈ voters, (∀ lock ∈ voter.lock, lock.preparers.length < UInt64.size) →
        let vote := voter.vote ⟨height, number⟩
        BinaryForm.decode (BinaryForm.write vote) = .ok vote) ∧
      (new height validators HeightContext.judge).certificates (votes.map .append) =
        List.replicate (Quorum.size validators.toFinset.card - 1) none ++ [some ⟨votes⟩] := by
  intro judge votes
  have hadmitted : ∀ vote ∈ votes, (HeightContext.ofValidators height validators).Admits vote := by
    intro vote hvote
    obtain ⟨voter, hvoter, rfl⟩ := List.mem_map.1 hvote
    exact (hhonest voter hvoter).admits_vote
  have hlength : votes.length = Quorum.size validators.toFinset.card := by
    rw [List.length_map, hquorum]
  refine ⟨fun vote hvote => ?_, fun voter hvoter hcount => ?_, ?_⟩
  · exact HeightContext.judge_eq_accepted_iff_admits.2 (hadmitted vote hvote)
  · have hdecode := BinaryForm.decode_write (voter.fits_vote ⟨height, number⟩ hcount) []
    rwa [List.append_nil] at hdecode
  · have hcertifies : (HeightContext.ofValidators height validators).Certifies ⟨height, number⟩
        ⟨votes⟩ := by
      constructor
      case quorum => rw [hlength, HeightContext.size_ofValidators]
      case distinct =>
        rw [Certificate.authors, List.map_map]
        exact hdistinct
      case admitted => exact hadmitted
      case target =>
        intro vote hvote
        obtain ⟨voter, -, rfl⟩ := List.mem_map.1 hvote
        rfl
    rw [← hlength]
    exact hcertifies.certificates_append

end Coordinator

namespace Sample

/-- The secret keys of the first three validators. -/
def key₁ : SecretKey := ⟨.fill 1⟩

def key₂ : SecretKey := ⟨.fill 2⟩

def key₃ : SecretKey := ⟨.fill 3⟩

/-- The first key is that of the first validator. -/
theorem address_key₁ : key₁.address = validator₁ := by decide +kernel

/-- The second key is that of the second validator. -/
theorem address_key₂ : key₂.address = validator₂ := by decide +kernel

/-- The third key is that of the third validator. -/
theorem address_key₃ : key₃.address = validator₃ := by decide +kernel

/-- A proposal that the second and the third validator prepared in the round before. -/
def lock : Lock := ⟨0, .fill 0x42, [key₂, key₃]⟩

/-- The lock has as many preparers as are required. -/
theorem valid_lock : lock.Valid validators 1 where
  earlier := by decide
  enough := by decide
  distinct := by
    rw [lock, List.map_cons, List.map_cons, List.map_nil, address_key₂, address_key₃]
    decide
  validator := by
    simp only [lock, List.forall_mem_cons, address_key₂, address_key₃]
    decide

/-- The first validator is locked, the other two are free. -/
def voters : List Voter := [⟨key₂, none⟩, ⟨key₁, some lock⟩, ⟨key₃, none⟩]

/-- The voters are three of the validators. -/
theorem addresses_voters :
    voters.map (fun voter => voter.key.address) = [validator₂, validator₁, validator₃] := by
  rw [voters, List.map_cons, List.map_cons, List.map_cons, List.map_nil, address_key₁,
    address_key₂, address_key₃]

/-- The voters are honest: validators with a valid lock or none. -/
theorem honest_voters : ∀ voter ∈ voters, voter.Honest validators ⟨5, 1⟩ := by
  have h₁ : key₁.address ∈ validators := by
    rw [address_key₁]
    decide
  have h₂ : key₂.address ∈ validators := valid_lock.validator key₂ (by simp [lock])
  have h₃ : key₃.address ∈ validators := valid_lock.validator key₃ (by simp [lock])
  have hfree : ∀ l ∈ (none : Option Lock), l.Valid validators 1 := fun _ h => nomatch h
  have hlocked : ∀ l ∈ some lock, l.Valid validators 1 := fun _ h => Option.some.inj h ▸ valid_lock
  intro voter hvoter
  simp only [voters, List.mem_cons, List.not_mem_nil, or_false] at hvoter
  rcases hvoter with rfl | rfl | rfl
  · exact ⟨h₂, hfree⟩
  · exact ⟨h₁, hlocked⟩
  · exact ⟨h₃, hfree⟩

end Sample

namespace Coordinator

/-- The hypotheses of `certificates_of_honest_votes` are satisfiable, where one of three voters
is locked. -/
theorem certificates_of_honest_votes_sample :
    let votes := Sample.voters.map (Voter.vote ⟨5, 1⟩)
    (∀ voter ∈ Sample.voters, voter.Honest Sample.validators ⟨5, 1⟩) ∧
      (new 5 Sample.validators HeightContext.judge).certificates (votes.map .append) =
        [none, none, some ⟨votes⟩] := by
  intro votes
  have hquorum : Sample.voters.length = Quorum.size Sample.validators.toFinset.card := by
    decide
  have hdistinct : (Sample.voters.map fun voter => voter.key.address).Nodup := by
    rw [Sample.addresses_voters]
    decide
  have hcertificates :=
    (certificates_of_honest_votes hquorum hdistinct Sample.honest_voters).2.2
  rw [← hquorum] at hcertificates
  exact ⟨Sample.honest_voters, hcertificates⟩

end Coordinator
end RoundChange
