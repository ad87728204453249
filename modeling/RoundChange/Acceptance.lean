/-
# Which votes are accepted

The checks that `RoundChangeMessageValidator` makes of a vote at a height, in the order in
which they are made.  The first that fails is the reason why the vote is rejected
(`HeightContext.rejection?`).

| | check |
| ---: | --- |
| 1 | the author is a validator of the height |
| 2 | the vote is for the height |
| 3 | the signature of the vote passes |
| 4 | its prepared certificate is of the height |
| 5 | the certificate is of a round earlier than the one voted for |
| 6 | the certificate has as many prepares as the height requires |
| 7 | each prepare is by an author of none before it, |
| 8 | who is a validator, |
| 9 | names the round and the digest of the certificate, |
| 10 | and has a signature that passes |

Checks 4 to 10 are those of `validate_prepared_certificate`; 7 to 10 are made on one prepare
after the other.  A `Judge` is any rule that accepts or rejects votes, as any implementation of
`MessageValidator` is; one that reports no reason rejects in silence.
-/

import RoundChange.Height
import RoundChange.Signing

namespace RoundChange

/-- Why a vote is rejected: the first check that fails. -/
inductive Rejection where
  | notValidator (author : Address)
  | otherHeight (author : Address) (expected got : UInt64)
  | voteSignature (author : Address) (round : Round)
  | preparedHeight (expected got : UInt64)
  | preparedRound (prepared target : Round)
  | tooFewPrepares (count need : Nat)
  | prepareRepeated (author : Address)
  | prepareNotValidator (author : Address)
  | prepareMismatch (author : Address)
  | prepareSignature (author : Address)
deriving DecidableEq

/-- What a judge says of a vote. -/
inductive Ruling where
  | accepted
  | rejected (reason : Option Rejection)
deriving DecidableEq

/-- A rule that accepts or rejects votes: any `MessageValidator`. -/
abbrev Judge := Vote → Ruling

/-- The judge that accepts where a predicate holds and gives no reasons. -/
def Judge.ofPredicate (p : Vote → Bool) : Judge := fun v =>
  if p v then .accepted else .rejected none

namespace HeightContext

/-- The first check that a prepare of a certificate fails, the prepares before it being
by the authors `seen`. -/
def prepareRejection? (ctx : HeightContext) (c : PreparedCertificate) :
    List Address → List (Signed Prepare) → Option Rejection
  | _, [] => none
  | seen, p :: rest =>
    if p.author ∈ seen then some (.prepareRepeated p.author)
    else if p.author ∉ ctx.validators then some (.prepareNotValidator p.author)
    else if p.payload.round ≠ c.round ∨ p.payload.digest ≠ c.digest then
      some (.prepareMismatch p.author)
    else if p.verifies = false then some (.prepareSignature p.author)
    else prepareRejection? ctx c (p.author :: seen) rest

/-- The first check that the prepared certificate of a vote for `target` fails. -/
def preparedRejection? (ctx : HeightContext) (target : Round) (c : PreparedCertificate) :
    Option Rejection :=
  if c.round.height ≠ ctx.height then some (.preparedHeight ctx.height c.round.height)
  else if c.round.isEarlier target = false then some (.preparedRound c.round target)
  else if c.prepares.length < ctx.requiredPrepares then
    some (.tooFewPrepares c.prepares.length ctx.requiredPrepares)
  else prepareRejection? ctx c [] c.prepares

/-- The first check of `validate` that a vote fails; none if it is accepted. -/
def rejection? (ctx : HeightContext) (v : Vote) : Option Rejection :=
  let target := v.payload.target
  if v.author ∉ ctx.validators then some (.notValidator v.author)
  else if target.height ≠ ctx.height then some (.otherHeight v.author ctx.height target.height)
  else if v.verifies = false then some (.voteSignature v.author target)
  else v.payload.prepared.bind (ctx.preparedRejection? target)

/-- A vote that fails no check is accepted. -/
def accepts (ctx : HeightContext) (v : Vote) : Bool := (ctx.rejection? v).isNone

/-- The judge of a height, which gives its reasons. -/
def judge (ctx : HeightContext) : Judge := fun v =>
  match ctx.rejection? v with
  | none => .accepted
  | some reason => .rejected (some reason)

/-- **The judge of a height accepts what fails no check.** -/
theorem judge_eq_accepted_iff {ctx : HeightContext} {v : Vote} :
    ctx.judge v = .accepted ↔ ctx.rejection? v = none := by
  unfold judge
  split <;> simp_all

end HeightContext
end RoundChange
