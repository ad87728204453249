/-
# Messages

| noun | models | is |
| --- | --- | --- |
| `Prepare` | `PreparePayload` | the statement that a proposal was accepted in a round |
| `Signed` | `SignedData` | a payload with the author who claims it and a signature |
| `PreparedCertificate` | the same | the signed prepares that lock a proposal |
| `Ballot` | `RoundChangePayload` | the wish to move to a round, with what its sender is locked on |
| `Vote` | `SignedData` of it | a signed ballot |
| `Certificate` | `RoundChangeCertificate` | the votes of a quorum for one round, as they arrived |

Nothing is checked when a message is put together: whether its signature passes
and whether its author may speak is for `Acceptance` to say.
-/

import RoundChange.Round
import RoundChange.SecretKey

namespace RoundChange

/-- A statement that the proposal with this digest was accepted in this round. -/
structure Prepare where
  round : Round
  digest : Bytes32
deriving DecidableEq

/-- A payload, the author who claims it, and a signature. -/
structure Signed (α : Type) where
  payload : α
  author : Address
  signature : Signature
deriving DecidableEq

/-- The proposal with this digest gathered these prepares in this round. -/
structure PreparedCertificate where
  round : Round
  digest : Bytes32
  prepares : List (Signed Prepare)
deriving DecidableEq

/-- A wish to move to the round `target`, with the proposal that was prepared last. -/
structure Ballot where
  target : Round
  prepared : Option PreparedCertificate
deriving DecidableEq

/-- A signed ballot. -/
abbrev Vote := Signed Ballot

/-- The votes that reached quorum, in order of arrival. -/
structure Certificate where
  votes : List Vote
deriving DecidableEq

/-- The names of a prepare and its fields. -/
def Prepare.label : Label := ⟨"PreparePayload", ["round_identifier", "digest"]⟩

/-- The names of a signed message and its fields. -/
def Signed.label : Label := ⟨"SignedData", ["payload", "author", "signature"]⟩

/-- The names of a prepared certificate and its fields. -/
def PreparedCertificate.label : Label :=
  ⟨"PreparedCertificate", ["proposal_round", "proposal_digest", "prepares"]⟩

/-- The names of a ballot and its fields. -/
def Ballot.label : Label := ⟨"RoundChangePayload", ["round_identifier", "prepared_certificate"]⟩

namespace Certificate

/-- The names of a certificate and its field. -/
def label : Label := ⟨"RoundChangeCertificate", ["messages"]⟩

/-- The authors in order of arrival. -/
def authors (c : Certificate) : List Address := c.votes.map Signed.author

/-- The round that the certificate justifies moving to. -/
def round? (c : Certificate) : Option Round := c.votes.head?.map fun v => v.payload.target

/-- The prepared certificates that the votes carry. -/
def prepared (c : Certificate) : List PreparedCertificate :=
  c.votes.filterMap fun v => v.payload.prepared

/-- Of two prepared certificates the one of the later round, the first if neither is. -/
def later (a b : PreparedCertificate) : PreparedCertificate :=
  if a.round.isEarlier b.round then b else a

/-- The prepared certificate of the latest round, the first of several:
`latest_prepared_certificate`. -/
def latestPrepared? (c : Certificate) : Option PreparedCertificate :=
  c.prepared.foldl (fun best next => some (best.elim next (later · next))) none

/-- The prepared certificates carried are those of the votes. -/
theorem mem_prepared {c : Certificate} {p : PreparedCertificate} :
    p ∈ c.prepared ↔ ∃ v ∈ c.votes, v.payload.prepared = some p := by
  simp [prepared]

/-- **No prepared certificate is the latest where none is carried.** -/
theorem latestPrepared?_of_nil {c : Certificate} (h : c.prepared = []) :
    c.latestPrepared? = none := by
  simp [latestPrepared?, h]

end Certificate
end RoundChange
