/-
# Certificates at another node

A `RoundChangeCertificate` that was handed out once is handed out again by whoever appends its
votes, in their order, to a new coordinator of the same height and validators
(`HeightContext.Certifies.certificates_append`): each vote is accepted, and none makes up the
quorum but the last.

Nothing is lost on the way there either.  The JSON form of the certificate is read back as it
is, and so is the binary form: the votes are no more than the validators, and each of them
fits, since the height admits it (`HeightContext.Certifies.fits`).
-/

import RoundChange.Proofs.Certificates
import RoundChange.Proofs.Fitting
import RoundChange.Proofs.Handouts
import RoundChange.Proofs.JsonRoundTrip

namespace RoundChange

namespace Coordinator

section Fresh

variable {height : UInt64} {validators : List Address} {judgeOf : HeightContext → Judge}
  {r : Round} {votes : List Vote}
  (haccepted : ∀ v ∈ votes, judgeOf (HeightContext.ofValidators height validators) v = .accepted ∧
    v.payload.target = r)
  (hdistinct : (votes.map Signed.author).Nodup)

include haccepted hdistinct

/-- **Accepted votes by different authors yield a certificate where they are a quorum**: one
vote more behind them does, if it is the last that is missing. -/
theorem certificate_append_run_map_append {v : Vote} {c : Certificate}
    (hv : judgeOf (HeightContext.ofValidators height validators) v = .accepted)
    (htarget : v.payload.target = r) (hnew : v.author ∉ votes.map Signed.author) :
    (((new height validators judgeOf).run (votes.map .append)).append v).certificate = some c ↔
      votes.length + 1 = Quorum.size validators.toFinset.card ∧ c = ⟨votes ++ [v]⟩ := by
  refine (certificate_append_run_new_iff height validators judgeOf _ v c).trans ?_
  rw [htarget, heard_map_append_of_accepted haccepted, firstVotes_of_nodup hdistinct]
  exact ⟨fun h => ⟨h.2.1, h.2.2.2⟩, fun h => ⟨hv, h.1, hnew, h.2⟩⟩

/-- **Fewer votes than a quorum has yield no certificate.** -/
theorem certificates_map_append_of_lt
    (hfew : votes.length < Quorum.size validators.toFinset.card) :
    (new height validators judgeOf).certificates (votes.map .append) =
      List.replicate votes.length none := by
  induction votes using List.reverseRecOn with
  | nil => rfl
  | append_singleton votes v ih =>
    obtain ⟨hv, htarget⟩ := haccepted v (List.mem_append_right _ (List.mem_singleton_self v))
    have haccepted' := fun w hw => haccepted w (List.mem_append_left _ hw)
    obtain ⟨hnew, hdistinct'⟩ := nodup_authors_concat.1 hdistinct
    rw [List.length_append, List.length_singleton] at hfew ⊢
    have hnone : (((new height validators judgeOf).run (votes.map .append)).append v).certificate =
        none := by
      refine Option.eq_none_iff_forall_ne_some.2 fun c hc => ?_
      obtain ⟨hlen, -⟩ := (certificate_append_run_map_append haccepted' hdistinct' hv htarget
        hnew).1 hc
      omega
    rw [List.map_append, List.map_singleton, certificates_concat_append, hnone,
      ih haccepted' hdistinct' (by omega), List.replicate_succ']

end Fresh

end Coordinator

/-- **The votes of a certificate yield it again**, and nothing before the last of them. -/
theorem HeightContext.Certifies.certificates_append {height : UInt64}
    {validators : List Address} {r : Round} {c : Certificate}
    (h : (ofValidators height validators).Certifies r c) :
    (Coordinator.new height validators judge).certificates (c.votes.map .append) =
      List.replicate (c.votes.length - 1) none ++ [some c] := by
  have hquorum : c.votes.length = Quorum.size validators.toFinset.card := by
    rw [h.quorum, size_ofValidators]
  have haccepted : ∀ v ∈ c.votes, (ofValidators height validators).judge v = .accepted ∧
      v.payload.target = r :=
    fun v hv => ⟨judge_eq_accepted_iff_admits.2 (h.admitted v hv), h.target v hv⟩
  have hdistinct : (c.votes.map Signed.author).Nodup := h.distinct
  obtain ⟨votes⟩ := c
  dsimp only at hquorum haccepted hdistinct ⊢
  rcases List.eq_nil_or_concat' votes with rfl | ⟨init, v, rfl⟩
  · exact absurd hquorum (Nat.succ_ne_zero _).symm
  · obtain ⟨hv, htarget⟩ := haccepted v (List.mem_append_right _ (List.mem_singleton_self v))
    have haccepted' := fun w hw => haccepted w (List.mem_append_left _ hw)
    obtain ⟨hnew, hdistinct'⟩ := nodup_authors_concat.1 hdistinct
    rw [List.length_append, List.length_singleton] at hquorum
    have hlast := (Coordinator.certificate_append_run_map_append haccepted' hdistinct' hv htarget
      hnew).2 ⟨hquorum, rfl⟩
    rw [List.map_append, List.map_singleton, Coordinator.certificates_concat_append, hlast,
      Coordinator.certificates_map_append_of_lt haccepted' hdistinct' (by omega),
      List.length_append, List.length_singleton, Nat.add_sub_cancel]

/-- **A certificate fits the binary form** where the list of validators does. -/
theorem HeightContext.Certifies.fits {height : UInt64} {validators : List Address}
    (hlength : validators.length < UInt64.size) {r : Round} {c : Certificate}
    (h : (ofValidators height validators).Certifies r c) : LawfulBinaryForm.Fits c := by
  have hcount : c.votes.length ≤ validators.length :=
    length_le_of_nodup h.distinct fun v hv => (h.admitted v hv).validator
  exact LawfulBinaryForm.fits_certificate.2
    ⟨Nat.lt_of_le_of_lt hcount hlength, fun v hv => (h.admitted v hv).fits hlength⟩

namespace Coordinator

/-- **A certificate certifies itself at another node.**  After any requests, what is handed
out with a vote survives both wire forms, and its votes, appended in order to a new
coordinator of the height and of the same validators, in any order and with any
repetitions, yield nothing but the certificate, with the last of them. -/
theorem transport_and_replay_of_certificate_append {height : UInt64}
    {validators validators' : List Address} {requests : List Request} {v : Vote} {c : Certificate}
    (h : (((new height validators HeightContext.judge).run requests).append v).certificate =
      some c) (hsame : ∀ a, a ∈ validators' ↔ a ∈ validators) :
    (validators.length < UInt64.size → BinaryForm.decode (BinaryForm.write c) = .ok c) ∧
      JsonForm.decode (JsonForm.write c) = .ok c ∧
      (new height validators' HeightContext.judge).certificates (c.votes.map .append) =
        List.replicate (c.votes.length - 1) none ++ [some c] := by
  have hc := (certifies_of_certificate_append h).1
  refine ⟨fun hlength => ?_, JsonForm.decode_write c, ?_⟩
  · have hdecode := BinaryForm.decode_write (hc.fits hlength) []
    rwa [List.append_nil] at hdecode
  · rw [← HeightContext.ofValidators_congr height hsame] at hc
    exact hc.certificates_append

/-- The hypotheses of `transport_and_replay_of_certificate_append` are satisfiable, where
the other node lists the validators in another order. -/
theorem transport_and_replay_of_certificate_append_sample :
    let c : Certificate := ⟨[Sample.vote₁, Sample.vote₂, Sample.vote₃]⟩
    let other := Sample.validators.reverse
    (((new 5 Sample.validators HeightContext.judge).run Sample.requests).append
        Sample.vote₃).certificate = some c ∧
      (∀ a, a ∈ other ↔ a ∈ Sample.validators) ∧ Sample.validators.length < UInt64.size ∧
      BinaryForm.decode (BinaryForm.write c) = .ok c ∧
      JsonForm.decode (JsonForm.write c) = .ok c ∧
      (new 5 other HeightContext.judge).certificates (c.votes.map .append) =
        [none, none, some c] := by
  intro c other
  have hsame : ∀ a, a ∈ other ↔ a ∈ Sample.validators := fun a => List.mem_reverse
  have hlength : Sample.validators.length < UInt64.size := by decide
  have h := transport_and_replay_of_certificate_append Sample.certificate_append hsame
  exact ⟨Sample.certificate_append, hsame, hlength, h.1 hlength, h.2.1, h.2.2⟩

end Coordinator
end RoundChange
