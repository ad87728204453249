/-
# Tallies

`RoundChangeStatus`: the votes for one round, at most one by each author, in order of arrival.
When there are as many as the quorum a certificate can be minted from them, once; from then on
the tally does not change (`Tally.add`, `Tally.mint`, which are `add_message` and
`create_round_change_certificate`).  A mint that fails leaves the tally as it is.

The authors are kept as a set beside the votes.  Whether somebody was heard is asked of the
set, so the two must say the same.
-/

import RoundChange.Message
import RoundChange.ValidatorSet

namespace RoundChange

/-- The votes counted for one round, and whom they are by: a `RoundChangeStatus`. -/
structure Tally where
  quorum : Nat
  votes : List Vote
  authors : ValidatorSet
  minted : Bool
deriving DecidableEq

/-- Why no certificate was minted, a `CertificateNotReady`: the votes counted, the quorum, and
whether one was minted before. -/
structure NotReady where
  count : Nat
  quorum : Nat
  minted : Bool
deriving DecidableEq

/-- The wording of a refusal to mint. -/
def NotReady.message (e : NotReady) : String :=
  "round change certificate not ready: " ++ toString e.count ++ "/" ++ toString e.quorum ++
    " messages, actioned=" ++ toString e.minted

namespace Tally

/-- A tally without votes. -/
def new (quorum : Nat) : Tally := ⟨quorum, [], .empty, false⟩

/-- A vote of this author was counted. -/
def hasVoteOf (t : Tally) (a : Address) : Bool := a ∈ t.authors

/-- Counts a vote, unless a certificate was minted or its author was heard before. -/
def add (t : Tally) (v : Vote) : Tally :=
  if t.minted || t.hasVoteOf v.author then t
  else { t with votes := t.votes ++ [v], authors := t.authors.insert v.author }

/-- There are enough votes, and no certificate was minted yet. -/
def isReady (t : Tally) : Bool := t.quorum ≤ t.votes.length && !t.minted

/-- The certificate of all votes if the tally is ready, and the tally after that. -/
def mint (t : Tally) : Except NotReady Certificate × Tally :=
  if t.isReady then (.ok ⟨t.votes⟩, { t with minted := true })
  else (.error ⟨t.votes.length, t.quorum, t.minted⟩, t)

/-- Somebody was heard where the set of the authors has them. -/
@[simp] theorem hasVoteOf_iff_mem_authors {t : Tally} {a : Address} :
    t.hasVoteOf a = true ↔ a ∈ t.authors := by
  simp [hasVoteOf]

/-- **After the mint nothing is counted.** -/
theorem add_of_minted {t : Tally} (h : t.minted = true) (v : Vote) : t.add v = t := by
  simp [add, h]

/-- A tally is ready with as many votes as the quorum, until it has minted. -/
theorem isReady_iff {t : Tally} :
    t.isReady = true ↔ t.minted = false ∧ t.quorum ≤ t.votes.length := by
  rw [isReady, Bool.and_eq_true, decide_eq_true_iff, Bool.not_eq_true', and_comm]

/-- **A certificate is minted just where the tally is ready.** -/
theorem mint_of_isReady {t : Tally} (h : t.isReady = true) :
    t.mint = (.ok ⟨t.votes⟩, { t with minted := true }) := by
  simp [mint, h]

/-- **Where the tally is not ready**, it is said how far it is, and the tally stays. -/
theorem mint_of_not_isReady {t : Tally} (h : t.isReady = false) :
    t.mint = (.error ⟨t.votes.length, t.quorum, t.minted⟩, t) := by
  simp [mint, h]

/-- **The tally that has minted is not ready again.** -/
theorem isReady_eq_false_of_minted {t : Tally} (h : t.minted = true) : t.isReady = false := by
  simp [isReady, h]

/-- The hypotheses of `mint_of_isReady` and `isReady_eq_false_of_minted` are satisfiable. -/
example : (new 0).isReady = true ∧ ({ new 0 with minted := true } : Tally).isReady = false := by
  decide

end Tally
end RoundChange
