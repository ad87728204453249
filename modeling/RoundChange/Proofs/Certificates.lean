/-
# What a certificate proves

A `RoundChangeCertificate` that is handed out under the judge of its height holds a quorum of
votes for one round, by different validators, each of which the height admits
(`HeightContext.Certifies`).  Whatever the requests were, votes get into it only by passing the
checks, however long before the mint they were appended
(`Coordinator.certifies_of_certificate_append`), so the certificate can be believed without
asking who handed it out (`Coordinator.quorum_of_certificate_append`).
-/

import RoundChange.Proofs.Admission
import RoundChange.Proofs.History

namespace RoundChange

/-- The certificate holds as many votes as a quorum has, by different authors, admitted at
the height and for the round. -/
structure HeightContext.Certifies (ctx : HeightContext) (r : Round) (c : Certificate) : Prop where
  quorum : c.votes.length = Quorum.size ctx.validators.size
  distinct : c.authors.Nodup
  admitted : ∀ v ∈ c.votes, ctx.Admits v
  target : ∀ v ∈ c.votes, v.payload.target = r

namespace Coordinator

section

variable {height : UInt64} {validators : List Address} {requests : List Request} {v : Vote}
  {c : Certificate}

/-- **A certificate is one of the round of the vote that completed it.** -/
theorem certifies_of_certificate_append
    (h : (((new height validators HeightContext.judge).run requests).append v).certificate =
      some c) :
    (HeightContext.ofValidators height validators).Certifies v.payload.target c ∧
      c.votes.getLast? = some v := by
  obtain ⟨hv, hlen, hnew, rfl⟩ := (certificate_append_run_new_iff _ _ _ _ _ _).1 h
  have haccepted : ∀ w ∈ firstVotes (heard (HeightContext.ofValidators height validators).judge
      v.payload.target requests) ++ [v],
      (HeightContext.ofValidators height validators).judge w = .accepted ∧
        w.payload.target = v.payload.target := by
    intro w hw
    rcases List.mem_append.1 hw with hw | hw
    · exact mem_heard ((firstVotes_sublist _).subset hw)
    · rw [List.mem_singleton.1 hw]
      exact ⟨hv, rfl⟩
  refine ⟨⟨?_, ?_, fun w hw => ?_, fun w hw => (haccepted w hw).2⟩, List.getLast?_concat⟩
  · rw [List.length_append, List.length_singleton, hlen, HeightContext.size_ofValidators]
  · exact nodup_authors_concat.2 ⟨hnew, nodup_authors_firstVotes _⟩
  · exact HeightContext.judge_eq_accepted_iff_admits.1 (haccepted w hw).1

/-- **A certificate proves that a quorum wants to move to a round.**  After any requests it
holds exactly `⌊2 n / 3⌋ + 1` votes, the last of them the one that completed it.  They are
by different validators, all for one round of the height, and each is signed by its author.
A prepared certificate that one of them carries is of the height and of an earlier round,
and at least `⌊2 n / 3⌋` prepares by different validators, each signed by its author, name
its round and digest. -/
theorem quorum_of_certificate_append
    (h : (((new height validators HeightContext.judge).run requests).append v).certificate =
      some c) :
    let V := validators.toFinset
    c.votes.length = 2 * V.card / 3 + 1 ∧ (c.votes.map Signed.author).Nodup ∧
      (∀ w ∈ c.votes, w.author ∈ V) ∧
      v.payload.target.height = height ∧ (∀ w ∈ c.votes, w.payload.target = v.payload.target) ∧
      c.votes.getLast? = some v ∧
      (∀ w ∈ c.votes, w.author.verifies (signingBytes w.payload) w.signature = true) ∧
      ∀ w ∈ c.votes, ∀ p, w.payload.prepared = some p →
        p.round.height = height ∧ p.round.number < v.payload.target.number ∧
        2 * V.card / 3 ≤ p.prepares.length ∧ (p.prepares.map Signed.author).Nodup ∧
        ∀ s ∈ p.prepares, s.author ∈ V ∧
          s.author.verifies (signingBytes s.payload) s.signature = true ∧
          s.payload.round = p.round ∧ s.payload.digest = p.digest := by
  intro V
  obtain ⟨hc, hlast⟩ := certifies_of_certificate_append h
  have hV : ∀ a, a ∈ (HeightContext.ofValidators height validators).validators → a ∈ V :=
    fun a ha => List.mem_toFinset.2 (HeightContext.mem_ofValidators.1 ha)
  have hmem : v ∈ c.votes := List.mem_of_getLast? hlast
  refine ⟨?_, hc.distinct, fun w hw => hV _ (hc.admitted w hw).validator,
    (hc.admitted v hmem).height, hc.target, hlast, fun w hw => (hc.admitted w hw).signed,
    fun w hw p hp => ?_⟩
  · rw [hc.quorum, HeightContext.size_ofValidators]
    rfl
  · have hj := (hc.admitted w hw).justified p hp
    rw [hc.target w hw] at hj
    have henough := hj.enough
    rw [HeightContext.requiredPrepares_ofValidators] at henough
    refine ⟨hj.height, hj.earlier, henough, hj.distinct, fun s hs => ?_⟩
    have hb := hj.backed s hs
    exact ⟨hV _ hb.validator, hb.signed, hb.round, hb.digest⟩

end

end Coordinator

namespace Sample

/-- The vote of the first validator, who is locked on the proposal `42`. -/
def vote₁ : Vote :=
  ⟨⟨⟨5, 1⟩, some prepared⟩, validator₁, signature
    0x4cef0be8b9721865d02faf09631d8f22f25da2e8a5594b639717a674446d7fac
    0x08293bd4c2872d1f4ac44e9ef5b597f6194348df91d63c42de00c240afd36ecb⟩

def vote₂ : Vote :=
  ⟨⟨⟨5, 1⟩, none⟩, validator₂, signature
    0xe32d459f695289cba774abd7034f43ff76d46d5402f2e74d045cbd92a59266b7
    0x0689f5315d183dcf1fcd8d88b5e750d976d19cb87f74eca5c04d865168821f59⟩

def vote₃ : Vote :=
  ⟨⟨⟨5, 1⟩, none⟩, validator₃, signature
    0x60a2307de8db5c11550ca1321497353fe1f2c131737140f85ca12c560fc90b04
    0x0cb04a7870d9ff24c74eda9afc17693fc1d705e28f32d489f2dd003924bc6b48⟩

/-- The height admits the vote of the first validator, with what it is locked on. -/
theorem admits_vote₁ : (HeightContext.ofValidators 5 validators).Admits vote₁ where
  validator := by decide +kernel
  height := rfl
  signed := by decide +kernel
  justified _ h := Option.some.inj h ▸ justifies_prepared

/-- The height admits the vote of the second validator. -/
theorem admits_vote₂ : (HeightContext.ofValidators 5 validators).Admits vote₂ where
  validator := by decide +kernel
  height := rfl
  signed := by decide +kernel
  justified _ h := nomatch h

/-- The height admits the vote of the third validator. -/
theorem admits_vote₃ : (HeightContext.ofValidators 5 validators).Admits vote₃ where
  validator := by decide +kernel
  height := rfl
  signed := by decide +kernel
  justified _ h := nomatch h

/-- The first validator is heard twice, and the discard forgets earlier rounds only. -/
def requests : List Request :=
  [.append vote₁, .append vote₂, .discard ⟨5, 1⟩, .append vote₁]

/-- The discard leaves all three votes heard. -/
theorem heard_requests {judge : Judge} (h₁ : judge vote₁ = .accepted)
    (h₂ : judge vote₂ = .accepted) : heard judge ⟨5, 1⟩ requests = [vote₁, vote₂, vote₁] := by
  have target₁ : vote₁.payload.target = ⟨5, 1⟩ := rfl
  have target₂ : vote₂.payload.target = ⟨5, 1⟩ := rfl
  simp [heard, requests, List.rtakeWhile, List.filterMap_cons, Request.forgets, Request.vote?, h₁,
    h₂, target₁, target₂]

/-- The third vote makes up the quorum. -/
theorem certificate_append : (((Coordinator.new 5 validators HeightContext.judge).run
    requests).append vote₃).certificate = some ⟨[vote₁, vote₂, vote₃]⟩ := by
  have h₁ := HeightContext.judge_eq_accepted_iff_admits.2 admits_vote₁
  have h₂ := HeightContext.judge_eq_accepted_iff_admits.2 admits_vote₂
  have h₃ := HeightContext.judge_eq_accepted_iff_admits.2 admits_vote₃
  have hheard : heard (HeightContext.ofValidators 5 validators).judge vote₃.payload.target
      requests = [vote₁, vote₂, vote₁] := heard_requests h₁ h₂
  refine (Coordinator.certificate_append_run_new_iff _ _ _ _ _ _).2 ⟨h₃, ?_⟩
  rw [hheard]
  decide

end Sample

namespace Coordinator

/-- The hypothesis of `quorum_of_certificate_append` is satisfiable, where a vote comes
twice and carries a prepared certificate. -/
theorem quorum_of_certificate_append_sample :
    (((new 5 Sample.validators HeightContext.judge).run Sample.requests).append
      Sample.vote₃).certificate = some ⟨[Sample.vote₁, Sample.vote₂, Sample.vote₃]⟩ ∧
    ([Sample.vote₁, Sample.vote₂, Sample.vote₃].map Signed.author).Nodup ∧
    ∀ s ∈ Sample.prepared.prepares, s.author ∈ Sample.validators.toFinset := by
  have h := Sample.certificate_append
  have proof := quorum_of_certificate_append h
  refine ⟨h, proof.2.1, fun s hs => ?_⟩
  obtain ⟨-, -, -, -, hs'⟩ :=
    proof.2.2.2.2.2.2.2 Sample.vote₁ (List.mem_cons_self ..) Sample.prepared rfl
  exact (hs' s hs).1

end Coordinator
end RoundChange
