/-
# What two prepared certificates have in common

A `PreparedCertificate` needs one prepare fewer than a quorum, `q - 1`, where the proposal of
the proposer counts for its prepare.  Of `n` validators at least `2 (q - 1) - n` then prepared
for both of two certificates (`PreparedCertificate.le_card_preparers_inter`).  That is the
whole overlap, and for four validators it may be empty: two certificates for two digests of one
round are both accepted though nobody signed for both
(`PreparedCertificate.not_forall_exists_equivocation`).

What does hold is in `PreparedCertificate.exists_equivocation`.  An overlap of `2 (q - 1) - n`
has an honest member where fewer are faulty, and for `n = 3 k` that is any fewer than a third.
For every `n` it also has one where a validator that is among the faulty prepared for neither
certificate, as a faulty proposer whose proposals count for its prepares.
-/

import Mathlib.Data.Finset.Card
import RoundChange.Proofs.Admission
import RoundChange.Proofs.Validators

namespace RoundChange

section Counting

variable {α : Type} [DecidableEq α] {s A B F : Finset α}

/-- **Two parts of a set have in common what their sizes exceed it by.** -/
theorem card_add_card_le_card_add_card_inter (hA : A ⊆ s) (hB : B ⊆ s) :
    A.card + B.card ≤ s.card + (A ∩ B).card := by
  have hunion : (A ∪ B).card ≤ s.card := Finset.card_le_card (Finset.union_subset hA hB)
  have hsum := Finset.card_union_add_card_inter A B
  omega

/-- **An overlap larger than a set has a member outside it.** -/
theorem exists_mem_inter_notMem (hA : A ⊆ s) (hB : B ⊆ s)
    (h : s.card + F.card < A.card + B.card) : ∃ a ∈ A, a ∈ B ∧ a ∉ F := by
  have hcommon := card_add_card_le_card_add_card_inter hA hB
  obtain ⟨a, hab, haF⟩ := Finset.exists_mem_notMem_of_card_lt_card (s := F) (t := A ∩ B) (by omega)
  exact ⟨a, (Finset.mem_inter.1 hab).1, (Finset.mem_inter.1 hab).2, haF⟩

end Counting

namespace PreparedCertificate

/-- The authors of the prepares. -/
def preparers (c : PreparedCertificate) : Finset Address := (c.prepares.map Signed.author).toFinset

/-- The validator signed a prepare in each certificate, for one round and two digests. -/
def EquivocatedBy (c₁ c₂ : PreparedCertificate) (a : Address) : Prop :=
  ∃ p₁ ∈ c₁.prepares, ∃ p₂ ∈ c₂.prepares, p₁.author = a ∧ p₂.author = a ∧
    p₁.verifies = true ∧ p₂.verifies = true ∧
    p₁.payload.round = p₂.payload.round ∧ p₁.payload.digest ≠ p₂.payload.digest

/-- Those who prepared are the authors of some prepare. -/
theorem mem_preparers {c : PreparedCertificate} {a : Address} :
    a ∈ c.preparers ↔ ∃ p ∈ c.prepares, p.author = a := by
  rw [preparers, List.mem_toFinset, List.mem_map]

section Accepted

variable {height : UInt64} {validators : List Address} {target t₁ t₂ : Round}
  {c c₁ c₂ : PreparedCertificate}

/-- **Only validators prepare.** -/
theorem preparers_subset (h : (HeightContext.ofValidators height validators).Justifies target c) :
    c.preparers ⊆ validators.toFinset := by
  intro a ha
  obtain ⟨p, hp, rfl⟩ := mem_preparers.1 ha
  exact List.mem_toFinset.2 (HeightContext.mem_ofValidators.1 (h.backed p hp).validator)

/-- **As many validators prepared as a quorum has, less one.** -/
theorem le_card_preparers (h : (HeightContext.ofValidators height validators).Justifies target c) :
    Quorum.size validators.toFinset.card - 1 ≤ c.preparers.card := by
  have henough := h.enough
  rw [preparers, List.toFinset_card_of_nodup h.distinct, List.length_map]
  rwa [HeightContext.ofValidators, ValidatorSet.size_ofList] at henough

variable (h₁ : (HeightContext.ofValidators height validators).Justifies t₁ c₁)
  (h₂ : (HeightContext.ofValidators height validators).Justifies t₂ c₂)

include h₁ h₂

/-- **At least `2 (q - 1) - n` validators prepared for both.** -/
theorem le_card_preparers_inter :
    2 * (Quorum.size validators.toFinset.card - 1) ≤
      validators.toFinset.card + (c₁.preparers ∩ c₂.preparers).card := by
  have hcommon := card_add_card_le_card_add_card_inter (preparers_subset h₁) (preparers_subset h₂)
  have hcard₁ := le_card_preparers h₁
  have hcard₂ := le_card_preparers h₂
  omega

/-- **Who prepared for two digests of one round equivocated.** -/
theorem equivocatedBy_of_mem (hround : c₁.round = c₂.round) (hdigest : c₁.digest ≠ c₂.digest)
    {a : Address} (ha₁ : a ∈ c₁.preparers) (ha₂ : a ∈ c₂.preparers) : EquivocatedBy c₁ c₂ a := by
  obtain ⟨p₁, hp₁, rfl⟩ := mem_preparers.1 ha₁
  obtain ⟨p₂, hp₂, ha⟩ := mem_preparers.1 ha₂
  have b₁ := h₁.backed p₁ hp₁
  have b₂ := h₂.backed p₂ hp₂
  refine ⟨p₁, hp₁, p₂, hp₂, rfl, ha, b₁.signed, b₂.signed, ?_, ?_⟩
  · rw [b₁.round, b₂.round, hround]
  · rwa [b₁.digest, b₂.digest]

/-- Fewer than the overlap are faulty. -/
theorem exists_equivocation_of_card_lt (hround : c₁.round = c₂.round)
    (hdigest : c₁.digest ≠ c₂.digest) {F : Finset Address}
    (hF : F.card + validators.toFinset.card < 2 * (Quorum.size validators.toFinset.card - 1)) :
    ∃ a ∈ validators.toFinset, a ∉ F ∧ EquivocatedBy c₁ c₂ a := by
  have hcommon := le_card_preparers_inter h₁ h₂
  obtain ⟨a, ha, haF⟩ :=
    Finset.exists_mem_notMem_of_card_lt_card (s := F) (t := c₁.preparers ∩ c₂.preparers) (by omega)
  obtain ⟨ha₁, ha₂⟩ := Finset.mem_inter.1 ha
  exact ⟨a, preparers_subset h₁ ha₁, haF, equivocatedBy_of_mem h₁ h₂ hround hdigest ha₁ ha₂⟩

/-- Of `3 k` validators fewer than a third are faulty: the overlap is `2 · 2 k - 3 k = k`. -/
theorem exists_equivocation_of_three_dvd (hround : c₁.round = c₂.round)
    (hdigest : c₁.digest ≠ c₂.digest) (hthree : 3 ∣ validators.toFinset.card) {F : Finset Address}
    (hF : 3 * F.card < validators.toFinset.card) :
    ∃ a ∈ validators.toFinset, a ∉ F ∧ EquivocatedBy c₁ c₂ a := by
  obtain ⟨k, hk⟩ := hthree
  refine exists_equivocation_of_card_lt h₁ h₂ hround hdigest ?_
  simp only [Quorum.size, Quorum.numerator, Quorum.denominator]
  omega

/-- Fewer than a third are faulty, and one of them prepared for neither. -/
theorem exists_equivocation_of_notMem (hround : c₁.round = c₂.round)
    (hdigest : c₁.digest ≠ c₂.digest) {F : Finset Address} {p : Address}
    (hp : p ∈ validators.toFinset) (hpF : p ∈ F) (hp₁ : p ∉ c₁.preparers) (hp₂ : p ∉ c₂.preparers)
    (hF : 3 * F.card < validators.toFinset.card) :
    ∃ a ∈ validators.toFinset, a ∉ F ∧ EquivocatedBy c₁ c₂ a := by
  -- Without `p` there is one validator fewer to share the prepares, and one faulty one fewer.
  have hsub : ∀ {c : PreparedCertificate}, c.preparers ⊆ validators.toFinset → p ∉ c.preparers →
      c.preparers ⊆ validators.toFinset.erase p := fun h hp =>
    Finset.subset_erase.2 ⟨h, hp⟩
  have hcard₁ := le_card_preparers h₁
  have hcard₂ := le_card_preparers h₂
  have hquorum := Quorum.lt_overlap validators.toFinset.card
  have hV := Finset.card_erase_of_mem hp
  have hFp := Finset.card_erase_of_mem hpF
  have hpos : 0 < F.card := Finset.card_pos.2 ⟨p, hpF⟩
  obtain ⟨a, ha₁, ha₂, haF⟩ := exists_mem_inter_notMem (F := F.erase p)
    (hsub (preparers_subset h₁) hp₁) (hsub (preparers_subset h₂) hp₂) (by omega)
  have hap : a ≠ p := fun h => hp₁ (h ▸ ha₁)
  exact ⟨a, preparers_subset h₁ ha₁, fun h => haF (Finset.mem_erase.2 ⟨hap, h⟩),
    equivocatedBy_of_mem h₁ h₂ hround hdigest ha₁ ha₂⟩

end Accepted

/-- **Who signed for both of two certificates.**  Let two certificates of one round and
different digests be accepted at a height of `n` validators with the quorum `q`.  A
validator outside `F` signed for both if `F` has fewer than `2 (q - 1) - n` members, and
for `n` a multiple of three if it has fewer than a third.  It also did, for every `n`, if
`F` has fewer than a third and one of them prepared for neither. -/
theorem exists_equivocation {height : UInt64} {validators : List Address} {t₁ t₂ : Round}
    {c₁ c₂ : PreparedCertificate}
    (h₁ : (HeightContext.ofValidators height validators).preparedRejection? t₁ c₁ = none)
    (h₂ : (HeightContext.ofValidators height validators).preparedRejection? t₂ c₂ = none)
    (hround : c₁.round = c₂.round) (hdigest : c₁.digest ≠ c₂.digest) :
    let V := validators.toFinset
    let q := Quorum.size V.card
    (∀ F ⊆ V, F.card + V.card < 2 * (q - 1) → ∃ a ∈ V, a ∉ F ∧ EquivocatedBy c₁ c₂ a) ∧
      (3 ∣ V.card → ∀ F ⊆ V, 3 * F.card < V.card → ∃ a ∈ V, a ∉ F ∧ EquivocatedBy c₁ c₂ a) ∧
      ∀ F ⊆ V, 3 * F.card < V.card → ∀ p ∈ F, p ∉ c₁.preparers → p ∉ c₂.preparers →
        ∃ a ∈ V, a ∉ F ∧ EquivocatedBy c₁ c₂ a := by
  intro V q
  have j₁ := HeightContext.preparedRejection?_eq_none_iff.1 h₁
  have j₂ := HeightContext.preparedRejection?_eq_none_iff.1 h₂
  refine ⟨fun F _ hF => ?_, fun hthree F _ hF => ?_, fun F hFV hF p hp hp₁ hp₂ => ?_⟩
  · exact exists_equivocation_of_card_lt j₁ j₂ hround hdigest hF
  · exact exists_equivocation_of_three_dvd j₁ j₂ hround hdigest hthree hF
  · exact exists_equivocation_of_notMem j₁ j₂ hround hdigest (hFV hp) hp hp₁ hp₂ hF

end PreparedCertificate

namespace Sample

/-- The first and the second validator prepared the proposal `43`, in the round in which the
second and the third prepared `42`. -/
def doubled : PreparedCertificate :=
  ⟨⟨5, 0⟩, .fill 0x43,
    [⟨proposal 0x43, validator₁, signature
        0xd34043457f647b459569ffee2b04216461c2f83faceed7304cbee59ee2d2c2df
        0x074d3342020bb98f0d3533f229b6776469d61c7b4410f8640f29a5d6a14fbfbc⟩,
     ⟨proposal 0x43, validator₂, signature
        0x6a714e2a979a9eb4127b6552da32d6107a107d410c8094ec7a6f07e1da5cf0ba
        0x019c1a77092ebdac791905f33b945676ab3c80c793fb7f2e1e7344edfe7cf205⟩]⟩

/-- The first and the fourth validator prepared the proposal `43`, in the round in which the
other two prepared `42`. -/
def disjoint : PreparedCertificate :=
  ⟨⟨5, 0⟩, .fill 0x43,
    [⟨proposal 0x43, validator₁, signature
        0xd34043457f647b459569ffee2b04216461c2f83faceed7304cbee59ee2d2c2df
        0x074d3342020bb98f0d3533f229b6776469d61c7b4410f8640f29a5d6a14fbfbc⟩,
     ⟨proposal 0x43, validator₄, signature
        0xe31b6a881359072f286cdd0759ef7cab56cc855b3054b9f71d4f949708bdf9c0
        0x084c202200bbcaacc1e6d5757e98ff3025c0192baf4e3a4e1f6f313295507b53⟩]⟩

end Sample

namespace PreparedCertificate

/-- The hypotheses of `exists_equivocation` are satisfiable: the fourth validator is faulty
and prepared for neither certificate, and another signed for both. -/
theorem exists_equivocation_doubled :
    (HeightContext.ofValidators 5 Sample.validators).preparedRejection? ⟨5, 1⟩ Sample.prepared =
        none ∧
      (HeightContext.ofValidators 5 Sample.validators).preparedRejection? ⟨5, 1⟩ Sample.doubled =
        none ∧
      Sample.prepared.round = Sample.doubled.round ∧
      Sample.prepared.digest ≠ Sample.doubled.digest ∧
      ∃ a ∈ Sample.validators.toFinset, a ∉ ({Sample.validator₄} : Finset Address) ∧
        EquivocatedBy Sample.prepared Sample.doubled a := by
  have h₁ := HeightContext.preparedRejection?_eq_none_iff.2 Sample.justifies_prepared
  have h₂ : (HeightContext.ofValidators 5 Sample.validators).preparedRejection? ⟨5, 1⟩
      Sample.doubled = none := by decide +kernel
  have hdigest : Sample.prepared.digest ≠ Sample.doubled.digest := by decide
  refine ⟨h₁, h₂, rfl, hdigest, ?_⟩
  exact (exists_equivocation h₁ h₂ rfl hdigest).2.2 {Sample.validator₄} (by decide +kernel)
    (by decide +kernel) Sample.validator₄ (by decide +kernel) (by decide +kernel)
    (by decide +kernel)

/-- **Two certificates may conflict though nobody signed for both.**  Of four validators two
prepared one proposal and the other two another, in the same round, and both certificates
are accepted; no validator is faulty. -/
theorem not_forall_exists_equivocation :
    ¬∀ (height : UInt64) (validators : List Address) (t₁ t₂ : Round)
      (c₁ c₂ : PreparedCertificate) (F : Finset Address), validators ≠ [] →
      t₁.height = height → t₂.height = height →
      (HeightContext.ofValidators height validators).preparedRejection? t₁ c₁ = none →
      (HeightContext.ofValidators height validators).preparedRejection? t₂ c₂ = none →
      c₁.round = c₂.round → c₁.digest ≠ c₂.digest →
      F ⊆ validators.toFinset → 3 * F.card < validators.toFinset.card →
      ∃ a ∈ validators.toFinset, a ∉ F ∧ a ∈ c₁.preparers ∧ a ∈ c₂.preparers := by
  intro h
  have h₁ := HeightContext.preparedRejection?_eq_none_iff.2 Sample.justifies_prepared
  have h₂ : (HeightContext.ofValidators 5 Sample.validators).preparedRejection? ⟨5, 1⟩
      Sample.disjoint = none := by decide +kernel
  have hnobody : ∀ a ∈ Sample.prepared.preparers, a ∉ Sample.disjoint.preparers := by
    decide +kernel
  obtain ⟨a, -, -, ha₁, ha₂⟩ := h 5 Sample.validators ⟨5, 1⟩ ⟨5, 1⟩ Sample.prepared
    Sample.disjoint ∅ (by decide) rfl rfl h₁ h₂ rfl (by decide) (Finset.empty_subset _)
    (by decide +kernel)
  exact hnobody a ha₁ ha₂

end PreparedCertificate
end RoundChange
