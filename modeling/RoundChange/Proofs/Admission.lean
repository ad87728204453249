/-
# The rule that the checks decide

The checks of `RoundChangeMessageValidator::validate` are made one after the other and stop at
the first that fails.  What they decide together is said here without an order: which prepares
back a prepared certificate (`HeightContext.Backs`), which certificates justify a vote for a
round (`HeightContext.Justifies`), and which votes a height admits (`HeightContext.Admits`).
No check fails just where the rule holds (`HeightContext.judge_eq_accepted_iff_admits`), so
that the order of the prepares in a certificate makes no difference to whether it passes
(`HeightContext.justifies_of_perm`), though it does to which check is the first that fails.
-/

import Mathlib.Data.List.Basic
import RoundChange.Acceptance

namespace RoundChange
namespace HeightContext

/-- The prepare is by a validator of the height, names the proposal of the certificate and
is signed by its author. -/
structure Backs (ctx : HeightContext) (c : PreparedCertificate) (p : Signed Prepare) : Prop where
  validator : p.author ∈ ctx.validators
  round : p.payload.round = c.round
  digest : p.payload.digest = c.digest
  signed : p.verifies = true

/-- The certificate is of the height and of a round earlier than `target`, and enough
prepares by different authors back it. -/
structure Justifies (ctx : HeightContext) (target : Round) (c : PreparedCertificate) : Prop where
  height : c.round.height = ctx.height
  earlier : c.round.number < target.number
  enough : ctx.requiredPrepares ≤ c.prepares.length
  distinct : (c.prepares.map Signed.author).Nodup
  backed : ∀ p ∈ c.prepares, ctx.Backs c p

/-- The vote is by a validator of the height, for the height, signed by its author, and
justified where it carries a certificate. -/
structure Admits (ctx : HeightContext) (v : Vote) : Prop where
  validator : v.author ∈ ctx.validators
  height : v.payload.target.height = ctx.height
  signed : v.verifies = true
  justified : ∀ c ∈ v.payload.prepared, ctx.Justifies v.payload.target c

variable {ctx : HeightContext}

/-- The prepares pass where they are by different authors, none of them seen before, and
each backs the certificate. -/
theorem prepareRejection?_eq_none_iff {c : PreparedCertificate} {seen : List Address}
    {prepares : List (Signed Prepare)} : ctx.prepareRejection? c seen prepares = none ↔
      (prepares.map Signed.author).Nodup ∧ (∀ p ∈ prepares, p.author ∉ seen) ∧
        ∀ p ∈ prepares, ctx.Backs c p := by
  induction prepares generalizing seen with
  | nil => simp [prepareRejection?]
  | cons p rest ih =>
    rw [prepareRejection?, List.map_cons, List.nodup_cons, List.forall_mem_cons,
      List.forall_mem_cons]
    split
    · rename_i hseen
      simp [hseen]
    split
    · rename_i hvalidator
      refine iff_of_false (by simp) fun h => hvalidator h.2.2.1.validator
    split
    · rename_i hmismatch
      refine iff_of_false (by simp) fun h => ?_
      exact hmismatch.elim (fun hr => hr h.2.2.1.round) fun hd => hd h.2.2.1.digest
    split
    · rename_i hsigned
      refine iff_of_false (by simp) fun h => ?_
      exact absurd h.2.2.1.signed (by simp [hsigned])
    · rename_i hseen hvalidator hmatch hsigned
      rw [not_or, not_not, not_not] at hmatch
      have hp : ctx.Backs c p := ⟨not_not.1 hvalidator, hmatch.1, hmatch.2, by simpa using hsigned⟩
      rw [ih]
      constructor
      · rintro ⟨hnodup, hnew, hrest⟩
        refine ⟨⟨fun h => ?_, hnodup⟩, ⟨hseen, fun q hq h => ?_⟩, hp, hrest⟩
        · obtain ⟨q, hq, ha⟩ := List.mem_map.1 h
          exact hnew q hq (ha ▸ List.mem_cons_self ..)
        · exact hnew q hq (List.mem_cons_of_mem _ h)
      · rintro ⟨⟨hnotin, hnodup⟩, ⟨-, hnew⟩, -, hrest⟩
        refine ⟨hnodup, fun q hq h => ?_, hrest⟩
        rcases List.mem_cons.1 h with ha | h
        · exact hnotin (ha ▸ List.mem_map_of_mem hq)
        · exact hnew q hq h

/-- **A prepared certificate passes where it justifies the vote.** -/
theorem preparedRejection?_eq_none_iff {target : Round} {c : PreparedCertificate} :
    ctx.preparedRejection? target c = none ↔ ctx.Justifies target c := by
  unfold preparedRejection?
  split
  · rename_i hheight
    exact iff_of_false (by simp) fun h => hheight h.height
  split
  · rename_i hearlier
    refine iff_of_false (by simp) fun h => ?_
    exact absurd (Round.isEarlier_iff.2 h.earlier) (by simp [hearlier])
  split
  · rename_i hfew
    exact iff_of_false (by simp) fun h => Nat.not_lt.2 h.enough hfew
  · rename_i hheight hearlier hfew
    rw [prepareRejection?_eq_none_iff]
    constructor
    · rintro ⟨hnodup, -, hbacked⟩
      exact ⟨not_not.1 hheight, Round.isEarlier_iff.1 (by simpa using hearlier),
        Nat.not_lt.1 hfew, hnodup, hbacked⟩
    · intro h
      exact ⟨h.distinct, fun _ _ => List.not_mem_nil, h.backed⟩

/-- **A vote fails no check where the height admits it.** -/
theorem rejection?_eq_none_iff {v : Vote} : ctx.rejection? v = none ↔ ctx.Admits v := by
  unfold rejection?
  dsimp only
  split
  · rename_i hvalidator
    exact iff_of_false (by simp) fun h => hvalidator h.validator
  split
  · rename_i hheight
    exact iff_of_false (by simp) fun h => hheight h.height
  split
  · rename_i hsigned
    refine iff_of_false (by simp) fun h => ?_
    exact absurd h.signed (by simp [hsigned])
  · rename_i hvalidator hheight hsigned
    rw [Option.bind_eq_none_iff]
    constructor
    · intro h
      refine ⟨not_not.1 hvalidator, not_not.1 hheight, by simpa using hsigned, fun c hc => ?_⟩
      exact preparedRejection?_eq_none_iff.1 (h c hc)
    · intro h c hc
      exact preparedRejection?_eq_none_iff.2 (h.justified c hc)

/-- **The judge of a height accepts what the height admits.** -/
theorem judge_eq_accepted_iff_admits {v : Vote} : ctx.judge v = .accepted ↔ ctx.Admits v :=
  judge_eq_accepted_iff.trans rejection?_eq_none_iff

/-- **What passes the checks** is what the height admits. -/
theorem accepts_iff_admits {v : Vote} : ctx.accepts v = true ↔ ctx.Admits v := by
  rw [accepts, Option.isNone_iff_eq_none, rejection?_eq_none_iff]

/-- **A certificate justifies in any order of its prepares.** -/
theorem justifies_of_perm {target : Round} {c : PreparedCertificate}
    {prepares : List (Signed Prepare)} (hperm : prepares.Perm c.prepares) :
    ctx.Justifies target { c with prepares } ↔ ctx.Justifies target c := by
  constructor
  · rintro ⟨hheight, hearlier, henough, hdistinct, hbacked⟩
    refine ⟨hheight, hearlier, hperm.length_eq ▸ henough, (hperm.map _).nodup_iff.1 hdistinct,
      fun p hp => ?_⟩
    obtain ⟨hvalidator, hround, hdigest, hsigned⟩ := hbacked p (hperm.mem_iff.2 hp)
    exact ⟨hvalidator, hround, hdigest, hsigned⟩
  · rintro ⟨hheight, hearlier, henough, hdistinct, hbacked⟩
    refine ⟨hheight, hearlier, hperm.length_eq.symm ▸ henough,
      (hperm.map _).nodup_iff.2 hdistinct, fun p hp => ?_⟩
    obtain ⟨hvalidator, hround, hdigest, hsigned⟩ := hbacked p (hperm.mem_iff.1 hp)
    exact ⟨hvalidator, hround, hdigest, hsigned⟩

/-- **Which votes a height accepts.**  The author is a validator, the vote is for the height
and signed by its author, and the certificate that it may carry is of the height and of an
earlier round and has as many prepares as the height requires.  All its prepares are by
different authors, each of them a validator, name the round and the digest of the certificate,
and are signed.  In which order the prepares stand makes no difference. -/
theorem accepts_iff_rule (ctx : HeightContext) (v : Vote) :
    (ctx.accepts v = true ↔
      v.author ∈ ctx.validators ∧ v.payload.target.height = ctx.height ∧
        v.author.verifies (signingBytes v.payload) v.signature = true ∧
        ∀ c, v.payload.prepared = some c →
          c.round.height = ctx.height ∧ c.round.number < v.payload.target.number ∧
            ctx.requiredPrepares ≤ c.prepares.length ∧
            (c.prepares.map Signed.author).Nodup ∧ (∀ p ∈ c.prepares, p.author ∈ ctx.validators) ∧
            ∀ p ∈ c.prepares, p.payload.round = c.round ∧ p.payload.digest = c.digest ∧
              p.author.verifies (signingBytes p.payload) p.signature = true) ∧
    ∀ (target : Round) (c : PreparedCertificate) (prepares : List (Signed Prepare)),
      prepares.Perm c.prepares →
        (ctx.preparedRejection? target { c with prepares }).isNone =
          (ctx.preparedRejection? target c).isNone := by
  refine ⟨accepts_iff_admits.trans ⟨fun h => ?_, fun h => ?_⟩, fun target c prepares hperm => ?_⟩
  · refine ⟨h.validator, h.height, h.signed, fun c hc => ?_⟩
    have hj := h.justified c hc
    exact ⟨hj.height, hj.earlier, hj.enough, hj.distinct, fun p hp => (hj.backed p hp).validator,
      fun p hp => ⟨(hj.backed p hp).round, (hj.backed p hp).digest, (hj.backed p hp).signed⟩⟩
  · obtain ⟨hvalidator, hheight, hsigned, hjustified⟩ := h
    refine ⟨hvalidator, hheight, hsigned, fun c hc => ?_⟩
    obtain ⟨hheight', hearlier, henough, hdistinct, hvalidators, hnamed⟩ := hjustified c hc
    refine ⟨hheight', hearlier, henough, hdistinct, fun p hp => ?_⟩
    obtain ⟨hround, hdigest, hsigned'⟩ := hnamed p hp
    exact ⟨hvalidators p hp, hround, hdigest, hsigned'⟩
  · rw [Bool.eq_iff_iff, Option.isNone_iff_eq_none, Option.isNone_iff_eq_none,
      preparedRejection?_eq_none_iff, preparedRejection?_eq_none_iff, justifies_of_perm hperm]

end HeightContext

/-! ### A height of four validators

Its messages are signed with the seeds of 32 equal bytes, 1 to 4; addresses and the two
halves of signatures are given as the numbers that their bytes spell. -/

namespace Sample

/-- The address whose bytes spell a number. -/
def address (n : Nat) : Address := ⟨⟨littleEndian 32 n, length_littleEndian ..⟩⟩

/-- The signature whose halves spell two numbers. -/
def signature (r s : Nat) : Signature := ⟨littleEndian 32 r ++ littleEndian 32 s⟩

def validator₁ : Address :=
  address 0x5c6f0fb4018874f31b12941dbf0967ca725dba3c2ddb52fd95f10974dde3888a

def validator₂ : Address :=
  address 0x94b3c98f5b0ff65da237eeb4918a8dcbcc7e4cc36654a3565f177da80e773981

def validator₃ : Address :=
  address 0xd13787ac1446c13636f9635c3a275929619559903803e9eac6c2d128c62849ed

def validator₄ : Address :=
  address 0x7cbedadb33938726775d573045ece80881fe0effc7837bd67170180517ac93ca

/-- The validators, out of order and one of them twice. -/
def validators : List Address := [validator₂, validator₁, validator₄, validator₃, validator₁]

/-- The proposal with the digest of 32 equal bytes, in the first round of height 5. -/
def proposal (b : UInt8) : Prepare := ⟨⟨5, 0⟩, .fill b⟩

/-- The second and the third validator prepared the proposal `42`. -/
def prepared : PreparedCertificate :=
  ⟨⟨5, 0⟩, .fill 0x42,
    [⟨proposal 0x42, validator₂, signature
        0xe37363b1c12b1dea057cf5c9d206a6503e5066be48f2e4e49d3e0cf2af90d6e6
        0x03de9b1cfff48b9ffe4606611f3e2dde792b6c4206b61440ade552cd3d17110a⟩,
     ⟨proposal 0x42, validator₃, signature
        0xcf0464560a1063442af3f6bd835b96bc998bd16b7d263ba1b83276d1bf3b963d
        0x0ad3679cf06442c7220ed658c3de81ff5f12a26be1ce267a01f1e13e95136768⟩]⟩

/-- The certificate justifies a vote for the second round. -/
theorem justifies_prepared : (HeightContext.ofValidators 5 validators).Justifies ⟨5, 1⟩ prepared :=
  HeightContext.preparedRejection?_eq_none_iff.1 (by decide +kernel)

end Sample
end RoundChange
