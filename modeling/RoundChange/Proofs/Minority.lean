/-
# What a faulty minority cannot do

Fewer than a third of the validators of a height may be faulty and do as they like.  A
quorum is sized so that this does no harm:

| they cannot | since |
| --- | --- |
| be all that two certificates have in common | two quorums share more than a third |
| keep a certificate from coming | the others are a quorum |
| bring one about | a third is no quorum |

The first holds of any two runs, also at different heights
(`Coordinator.exists_mem_authors_notMem_of_certificates`).  The others hold of every run in
which the round is not forgotten, whatever else is appended and in whatever order
(`Coordinator.certificatesFor_of_minority`).
-/

import RoundChange.Proofs.Overlap
import RoundChange.Proofs.Replay

namespace RoundChange

namespace HeightContext.Certifies

variable {height : UInt64} {validators : List Address} {r : Round} {c : Certificate}
  (h : (ofValidators height validators).Certifies r c)

include h

/-- **Only validators are authors.** -/
theorem authors_subset : c.authors.toFinset ⊆ validators.toFinset := by
  intro a ha
  obtain ⟨v, hv, rfl⟩ := List.mem_map.1 (List.mem_toFinset.1 ha)
  exact List.mem_toFinset.2 (mem_ofValidators.1 (h.admitted v hv).validator)

/-- **As many are authors as a quorum has.** -/
theorem card_authors : c.authors.toFinset.card = Quorum.size validators.toFinset.card := by
  have hlength : c.authors.length = c.votes.length := List.length_map ..
  rw [List.toFinset_card_of_nodup h.distinct, hlength, h.quorum, size_ofValidators]

end HeightContext.Certifies

namespace Coordinator

/-- **What a run hands out is a certificate of some round.** -/
theorem certifies_of_mem_certificates {height : UInt64} {validators : List Address}
    {requests : List Request} {c : Certificate}
    (h : some c ∈ (new height validators HeightContext.judge).certificates requests) :
    ∃ r, (HeightContext.ofValidators height validators).Certifies r c := by
  obtain ⟨earlier, v, hv⟩ := exists_append_of_mem_certificates h
  exact ⟨v.payload.target, (certifies_of_certificate_append hv).1⟩

/-- **Two certificates have an author in common who is not faulty.**  Let two coordinators
count for the same validators, at any heights, and be asked anything.  More than a third of
the validators are authors in both of any two certificates that they hand out, so no third
of the validators contains them all. -/
theorem exists_mem_authors_notMem_of_certificates {height₁ height₂ : UInt64}
    {validators₁ validators₂ : List Address} {V : Finset Address}
    {requests₁ requests₂ : List Request} {c₁ c₂ : Certificate}
    (hV₁ : validators₁.toFinset = V) (hV₂ : validators₂.toFinset = V)
    (h₁ : some c₁ ∈ (new height₁ validators₁ HeightContext.judge).certificates requests₁)
    (h₂ : some c₂ ∈ (new height₂ validators₂ HeightContext.judge).certificates requests₂) :
    V.card < 3 * (c₁.authors.toFinset ∩ c₂.authors.toFinset).card ∧
      ∀ F ⊆ V, 3 * F.card ≤ V.card → ∃ a ∈ c₁.authors, a ∈ c₂.authors ∧ a ∉ F := by
  obtain ⟨r₁, hc₁⟩ := certifies_of_mem_certificates h₁
  obtain ⟨r₂, hc₂⟩ := certifies_of_mem_certificates h₂
  have hsub₁ := hc₁.authors_subset
  have hsub₂ := hc₂.authors_subset
  have hcard₁ := hc₁.card_authors
  have hcard₂ := hc₂.card_authors
  rw [hV₁] at hsub₁ hcard₁
  rw [hV₂] at hsub₂ hcard₂
  have hcommon := card_add_card_le_card_add_card_inter hsub₁ hsub₂
  have hshared := Quorum.lt_overlap V.card
  have hmany : V.card < 3 * (c₁.authors.toFinset ∩ c₂.authors.toFinset).card := by omega
  refine ⟨hmany, fun F _ hF => ?_⟩
  obtain ⟨a, ha, haF⟩ := Finset.exists_mem_notMem_of_card_lt_card (s := F)
    (t := c₁.authors.toFinset ∩ c₂.authors.toFinset) (by omega)
  rw [Finset.mem_inter, List.mem_toFinset, List.mem_toFinset] at ha
  exact ⟨a, ha.1, ha.2, haF⟩

end Coordinator

namespace Sample

def vote₄ : Vote :=
  ⟨⟨⟨5, 1⟩, none⟩, validator₄, signature
    0xd5bf20653595b06013b2db5a6370ef8a53d0d27816500361999614ae5681c6d8
    0x027ccf183a51aa37d4982748402215333dcbb40553aedd2260ce069b5e419246⟩

/-- The height admits the vote of the fourth validator. -/
theorem admits_vote₄ : (HeightContext.ofValidators 5 validators).Admits vote₄ where
  validator := by decide +kernel
  height := rfl
  signed := by decide +kernel
  justified _ h := nomatch h

/-- The votes of all but the fourth validator, and of all but the first. -/
theorem certifies_votes :
    (HeightContext.ofValidators 5 validators).Certifies ⟨5, 1⟩ ⟨[vote₁, vote₂, vote₃]⟩ ∧
      (HeightContext.ofValidators 5 validators).Certifies ⟨5, 1⟩ ⟨[vote₄, vote₃, vote₂]⟩ := by
  constructor
  · exact (Coordinator.certifies_of_certificate_append certificate_append).1
  · constructor
    case quorum => decide
    case distinct => decide
    case admitted =>
      rw [List.forall_mem_cons, List.forall_mem_cons, List.forall_mem_singleton]
      exact ⟨admits_vote₄, admits_vote₃, admits_vote₂⟩
    case target =>
      rw [List.forall_mem_cons, List.forall_mem_cons, List.forall_mem_singleton]
      exact ⟨rfl, rfl, rfl⟩

end Sample

namespace Coordinator

/-- The hypotheses of `exists_mem_authors_notMem_of_certificates` are satisfiable, where the
validators are listed in different orders and only two of four are authors in both. -/
theorem exists_mem_authors_notMem_of_certificates_sample :
    let c₁ : Certificate := ⟨[Sample.vote₁, Sample.vote₂, Sample.vote₃]⟩
    let c₂ : Certificate := ⟨[Sample.vote₄, Sample.vote₃, Sample.vote₂]⟩
    let other := Sample.validators.reverse
    other.toFinset = Sample.validators.toFinset ∧
      some c₁ ∈ (new 5 Sample.validators HeightContext.judge).certificates
        (c₁.votes.map .append) ∧
      some c₂ ∈ (new 5 other HeightContext.judge).certificates (c₂.votes.map .append) ∧
      Sample.validators.toFinset.card < 3 * (c₁.authors.toFinset ∩ c₂.authors.toFinset).card ∧
      ∃ a ∈ c₁.authors, a ∈ c₂.authors ∧ a ∉ ({Sample.validator₂} : Finset Address) := by
  intro c₁ c₂ other
  have hother : other.toFinset = Sample.validators.toFinset := List.toFinset_reverse ..
  have h₁ := Sample.certifies_votes.1.certificates_append
  have h₂ := Sample.certifies_votes.2
  have hmem : ∀ a, a ∈ other ↔ a ∈ Sample.validators := fun a => List.mem_reverse
  rw [← HeightContext.ofValidators_congr 5 hmem] at h₂
  have h₂ := h₂.certificates_append
  have hc₁ : some c₁ ∈ (new 5 Sample.validators HeightContext.judge).certificates
      (c₁.votes.map .append) := by
    rw [h₁]
    exact List.mem_append_right _ (List.mem_singleton_self _)
  have hc₂ : some c₂ ∈ (new 5 other HeightContext.judge).certificates
      (c₂.votes.map .append) := by
    rw [h₂]
    exact List.mem_append_right _ (List.mem_singleton_self _)
  have h := exists_mem_authors_notMem_of_certificates rfl hother hc₁ hc₂
  exact ⟨hother, hc₁, hc₂, h.1, h.2 {Sample.validator₂} (by decide) (by decide)⟩

section Minority

variable {height : UInt64} {validators : List Address} {F : Finset Address} {r : Round}
  {requests : List Request}

/-- **A minority can neither block a round change nor forge one.**  Let fewer than a third of
the validators be faulty, and let requests be made that do not make a round forgotten.  If
each of the other validators has an accepted vote for the round among them, exactly one
certificate is handed out for it; if all accepted votes for the round are by faulty
validators, none is. -/
theorem certificatesFor_of_minority (hF : F ⊆ validators.toFinset)
    (hminority : 3 * F.card < validators.toFinset.card)
    (hkept : ∀ before, .discard before ∈ requests → before.number ≤ r.number) :
    let judge := (HeightContext.ofValidators height validators).judge
    let certificates :=
      (new height validators HeightContext.judge).certificatesFor r requests
    ((∀ a ∈ validators.toFinset, a ∉ F → ∃ v, .append v ∈ requests ∧ judge v = .accepted ∧
        v.payload.target = r ∧ v.author = a) → ∃ certificate, certificates = [certificate]) ∧
      ((∀ v, .append v ∈ requests → judge v = .accepted → v.payload.target = r → v.author ∈ F) →
        certificates = []) := by
  intro judge certificates
  have hkept' : ∀ request ∈ requests, request.forgets r = false := kept_of_le hkept
  have hlength : certificates.length =
      if Quorum.size validators.toFinset.card ≤
        ((heard judge r requests).map Signed.author).toFinset.card then 1 else 0 :=
    length_certificatesFor_new height validators HeightContext.judge hkept'
  constructor
  · intro hothers
    have hsub : validators.toFinset \ F ⊆
        ((heard judge r requests).map Signed.author).toFinset := by
      intro a ha
      obtain ⟨haV, haF⟩ := Finset.mem_sdiff.1 ha
      exact (mem_authors_heard_of_kept hkept').2 (hothers a haV haF)
    have hcard := Finset.card_le_card hsub
    have hquorum := Quorum.size_add_le hminority
    rw [Finset.card_sdiff_of_subset hF] at hcard
    rw [if_pos (by omega)] at hlength
    exact List.length_eq_one_iff.1 hlength
  · intro hforged
    have hsub : ((heard judge r requests).map Signed.author).toFinset ⊆ F := by
      intro a ha
      obtain ⟨v, hrequest, haccepted, htarget, rfl⟩ := (mem_authors_heard_of_kept hkept').1 ha
      exact hforged v hrequest haccepted htarget
    have hcard := Finset.card_le_card hsub
    have hquorum := Quorum.lt_size (Nat.le_of_lt hminority)
    rw [if_neg (by omega)] at hlength
    exact List.length_eq_zero_iff.1 hlength

end Minority

end Coordinator

namespace Sample

/-- The first three validators vote, the first of them twice. -/
def unblocked : List Request := requests ++ [.append vote₃]

/-- The first validator votes twice, and nobody else does. -/
def forged : List Request := [.append vote₁, .discard ⟨5, 1⟩, .append vote₁]

/-- The discards of the first run forget earlier rounds only. -/
theorem le_of_discard_mem_unblocked (before : Round) (h : .discard before ∈ unblocked) :
    before.number ≤ (⟨5, 1⟩ : Round).number := by
  simp only [unblocked, requests, List.cons_append, List.nil_append, List.mem_cons, reduceCtorEq,
    Request.discard.injEq, List.not_mem_nil, or_false, false_or] at h
  rw [h]
  exact UInt32.le_refl _

/-- The discards of the second run forget earlier rounds only. -/
theorem le_of_discard_mem_forged (before : Round) (h : .discard before ∈ forged) :
    before.number ≤ (⟨5, 1⟩ : Round).number := by
  simp only [forged, List.mem_cons, reduceCtorEq, Request.discard.injEq, List.not_mem_nil,
    or_false, false_or] at h
  rw [h]
  exact UInt32.le_refl _

end Sample

namespace Coordinator

/-- The hypotheses of `certificatesFor_of_minority` are satisfiable.  The fourth validator
cannot keep the others from their certificate, and the first cannot get one by itself. -/
theorem certificatesFor_of_minority_sample :
    let coordinator := new 5 Sample.validators HeightContext.judge
    let V := Sample.validators.toFinset
    ({Sample.validator₄} ⊆ V ∧ 3 * ({Sample.validator₄} : Finset Address).card < V.card ∧
      ∃ certificate, coordinator.certificatesFor ⟨5, 1⟩ Sample.unblocked = [certificate]) ∧
    {Sample.validator₁} ⊆ V ∧ 3 * ({Sample.validator₁} : Finset Address).card < V.card ∧
      coordinator.certificatesFor ⟨5, 1⟩ Sample.forged = [] := by
  intro coordinator V
  have hV : V = {Sample.validator₁, Sample.validator₂, Sample.validator₃, Sample.validator₄} := by
    decide
  have hsub₁ : {Sample.validator₁} ⊆ V := by decide
  have hsub₄ : {Sample.validator₄} ⊆ V := by decide
  have hfew₁ : 3 * ({Sample.validator₁} : Finset Address).card < V.card := by decide
  have hfew₄ : 3 * ({Sample.validator₄} : Finset Address).card < V.card := by decide
  refine ⟨⟨hsub₄, hfew₄, ?_⟩, hsub₁, hfew₁, ?_⟩
  · refine (certificatesFor_of_minority hsub₄ hfew₄ Sample.le_of_discard_mem_unblocked).1 ?_
    intro a ha hne
    rw [← show V = Sample.validators.toFinset from rfl, hV] at ha
    simp only [Finset.mem_insert, Finset.mem_singleton] at ha hne
    rcases ha with rfl | rfl | rfl | rfl
    · exact ⟨Sample.vote₁, List.mem_cons_self ..,
        HeightContext.judge_eq_accepted_iff_admits.2 Sample.admits_vote₁, rfl, rfl⟩
    · exact ⟨Sample.vote₂, List.mem_cons_of_mem _ (List.mem_cons_self ..),
        HeightContext.judge_eq_accepted_iff_admits.2 Sample.admits_vote₂, rfl, rfl⟩
    · exact ⟨Sample.vote₃, List.mem_append_right _ (List.mem_singleton_self _),
        HeightContext.judge_eq_accepted_iff_admits.2 Sample.admits_vote₃, rfl, rfl⟩
    · exact absurd rfl hne
  · refine (certificatesFor_of_minority hsub₁ hfew₁ Sample.le_of_discard_mem_forged).2 ?_
    intro v h _ _
    simp only [Sample.forged, List.mem_cons, reduceCtorEq, Request.append.injEq,
      List.not_mem_nil, or_false, false_or, or_self] at h
    rw [h]
    exact Finset.mem_singleton_self _

end Coordinator
end RoundChange
