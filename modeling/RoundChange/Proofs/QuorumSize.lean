/-
# How large a quorum is

Of `n` validators at most `f = ⌊(n - 1) / 3⌋` may be faulty, the greatest `f` with
`3 f + 1 ≤ n`.  A quorum is all validators but so many (`Quorum.size_eq_sub`), so there still
is one without the faulty.  In the 64-bit words of `calculate_required_validator_quorum` the
doubling is the one step that may leave the words, and it does so from `2 ^ 63` validators on
(`Quorum.word?_eq`).

Two groups of `k` validators share at least `2 k - n` of them, and some two share no more
(`Quorum.sharesMore_iff`).  Which group is the smallest that will do depends therefore on how
many two of them have to share:

| validators | to share more than `n / 3` | to share more than `f` | quorum |
| --- | ---: | ---: | ---: |
| `n = 3 f + 1` | `2 f + 1` | `2 f + 1` | `2 f + 1` |
| `n = 3 f + 2` | `2 f + 2` | `2 f + 2` | `2 f + 2` |
| `n = 3 f + 3` | `2 f + 3` | `2 f + 2` | `2 f + 3` |

A quorum is sized for the first (`Quorum.isLeast_word`).  Where `n` is a multiple of three it
is one larger than the second asks for: of three validators none may be faulty, and any two of
them share one with any other two (`Quorum.not_forall_isLeast_word`).
-/

import Mathlib.Order.Bounds.Basic
import RoundChange.Proofs.BinaryRoundTrip
import RoundChange.Proofs.Overlap

namespace RoundChange

namespace Quorum

/-- **The steps stay within the words up to half of them**, and no further. -/
theorem word?_eq (n : UInt64) : word? n = if n.toNat < 2 ^ 63 then some (word n) else none := by
  have htwo : (UInt64.ofNat numerator).toNat = 2 := rfl
  have hthree : (UInt64.ofNat denominator).toNat = 3 := rfl
  rw [word?, Word.mul?, htwo]
  split
  · rename_i hlt
    have hdoubled : 2 * n.toNat < 2 ^ 64 := hlt
    have hquotient : (UInt64.ofNat numerator * n / UInt64.ofNat denominator).toNat +
        (1 : UInt64).toNat < UInt64.size := by
      rw [UInt64.toNat_div, hthree]
      show _ / 3 + 1 < 2 ^ 64
      have hbound := (UInt64.ofNat numerator * n).toNat_lt
      omega
    rw [if_pos (by omega)]
    exact if_pos hquotient
  · rename_i hge
    have hdoubled : ¬2 * n.toNat < 2 ^ 64 := hge
    rw [if_neg (by omega)]
    rfl

section Arithmetic

variable {n m : Nat}

/-- **A quorum is all validators but those that may be faulty.** -/
theorem size_eq_sub (h : 0 < n) : size n = n - (n - 1) / 3 := by
  simp only [size, numerator, denominator]
  omega

/-- **More validators have no smaller quorum.** -/
theorem size_mono (h : m ≤ n) : size m ≤ size n := by
  simp only [size, numerator, denominator]
  omega

/-- **A quorum is more than half of `n` and a third of `n` together.** -/
theorem size_eq_half_add_one (n : Nat) : size n = (n + n / 3) / 2 + 1 := by
  simp only [size, numerator, denominator]
  omega

/-- With the most that may be faulty in place of the third, that is one less for a multiple of
three, and the same otherwise. -/
theorem half_add_one_eq (h : 0 < n) :
    (n + (n - 1) / 3) / 2 + 1 = if 3 ∣ n then size n - 1 else size n := by
  have hresidue : ∃ t, n = 3 * t + 1 ∨ n = 3 * t + 2 ∨ n = 3 * t + 3 := ⟨(n - 1) / 3, by omega⟩
  obtain ⟨t, ht⟩ := hresidue
  simp only [size, numerator, denominator]
  split <;> omega

/-- **A third of all but one** is the most that may be faulty. -/
theorem isGreatest_third (h : 0 < n) : IsGreatest {f : Nat | 3 * f + 1 ≤ n} ((n - 1) / 3) := by
  refine ⟨?_, fun f hf => ?_⟩
  · show 3 * ((n - 1) / 3) + 1 ≤ n
    omega
  · have hle : 3 * f + 1 ≤ n := hf
    omega

end Arithmetic

section Groups

variable {V : Finset Address} {f k : Nat}

/-- Any two groups of `k` of the validators share more than `f` of them. -/
def SharesMore (V : Finset Address) (f k : Nat) : Prop :=
  ∀ A ⊆ V, ∀ B ⊆ V, A.card = k → B.card = k → f < (A ∩ B).card

/-- **Some two groups share no more than they must.** -/
theorem exists_card_inter_le (h : k ≤ V.card) :
    ∃ A ⊆ V, ∃ B ⊆ V, A.card = k ∧ B.card = k ∧ (A ∩ B).card ≤ 2 * k - V.card := by
  obtain ⟨A, hA, hAk⟩ := Finset.exists_subset_card_eq h
  have hrest : (V \ A).card = V.card - k := by rw [Finset.card_sdiff_of_subset hA, hAk]
  -- The other group takes as many as it can from outside the first.
  rcases Nat.le_total (V.card - k) k with hfew | hmany
  · obtain ⟨B, hsub, hB, hBk⟩ := Finset.exists_subsuperset_card_eq Finset.sdiff_subset
      (hrest.trans_le hfew) h
    have hall : V ⊆ A ∪ B := fun a ha => by
      by_cases haA : a ∈ A
      · exact Finset.mem_union_left _ haA
      · exact Finset.mem_union_right _ (hsub (Finset.mem_sdiff.2 ⟨ha, haA⟩))
    have hcard := Finset.card_le_card hall
    have hsum := Finset.card_union_add_card_inter A B
    exact ⟨A, hA, B, hB, hAk, hBk, by omega⟩
  · obtain ⟨B, hB, hBk⟩ := Finset.exists_subset_card_eq (hmany.trans_eq hrest.symm)
    have hdisjoint : Disjoint A B := Finset.disjoint_of_subset_right hB Finset.disjoint_sdiff
    refine ⟨A, hA, B, hB.trans Finset.sdiff_subset, hAk, hBk, ?_⟩
    rw [Finset.disjoint_iff_inter_eq_empty.1 hdisjoint, Finset.card_empty]
    exact Nat.zero_le _

/-- **What any two groups share** is what their sizes exceed all validators by. -/
theorem sharesMore_iff (h : k ≤ V.card) : SharesMore V f k ↔ V.card + f < 2 * k := by
  constructor
  · intro hshare
    obtain ⟨A, hA, B, hB, hAk, hBk, hle⟩ := exists_card_inter_le h
    have hlt := hshare A hA B hB hAk hBk
    omega
  · intro hlt A hA B hB hAk hBk
    have hle := card_add_card_le_card_add_card_inter hA hB
    omega

/-- **The smallest groups of which any two share more than `f`** are more than half of the
validators and `f` together. -/
theorem isLeast_sharesMore (h : f < V.card) :
    IsLeast {k | SharesMore V f k} ((V.card + f) / 2 + 1) := by
  constructor
  · exact (sharesMore_iff (by omega)).2 (by omega)
  · intro k hk
    rcases Nat.lt_or_ge V.card k with hgt | hle
    · omega
    · have hlt := (sharesMore_iff hle).1 hk
      omega

/-- **There are as many addresses as a word can count.** -/
theorem exists_card_eq (n : UInt64) : ∃ V : Finset Address, V.card = n.toNat := by
  refine ⟨(Finset.range n.toNat).image Sample.address, ?_⟩
  rw [Finset.card_image_of_injOn, Finset.card_range]
  intro i hi j hj hij
  have hbound : ∀ {k : Nat}, k ∈ Finset.range n.toNat → k < 256 ^ 32 := fun hk =>
    Nat.lt_of_lt_of_le (Nat.lt_trans (Finset.mem_range.1 hk) n.toNat_lt) (by decide)
  have hbytes : littleEndian 32 i = littleEndian 32 j :=
    congrArg (fun a : Address => a.bytes.toList) hij
  have hspelled := congrArg ofLittleEndian hbytes
  rwa [ofLittleEndian_littleEndian, ofLittleEndian_littleEndian, Nat.mod_eq_of_lt (hbound hi),
    Nat.mod_eq_of_lt (hbound hj)] at hspelled

end Groups

/-- **The quorum in words is exact and tight.**  For `n` validators, at least one and fewer than
`2 ^ 63`, no step leaves the words.  The quorum is all validators but `⌊(n - 1) / 3⌋`, so that
any so many may be absent, and two quorums share more than a third.  It does not fall when `n`
grows, and the prepares are one fewer. -/
theorem word_exact {n : UInt64} (hpos : 0 < n.toNat) (hlt : n.toNat < 2 ^ 63) :
    ∃ q : UInt64, word? n = some q ∧ word n = q ∧ q.toNat = size n.toNat ∧
      q.toNat = n.toNat - (n.toNat - 1) / 3 ∧ 1 ≤ q.toNat ∧ q.toNat ≤ n.toNat ∧
      (∀ V : Finset Address, V.card = n.toNat →
        ∀ absent ⊆ V, absent.card ≤ (n.toNat - 1) / 3 → q.toNat ≤ (V \ absent).card) ∧
      n.toNat < 3 * (2 * q.toNat - n.toNat) ∧
      (∀ m : UInt64, m ≤ n → word m ≤ q) ∧
      prepares q.toNat + 1 = q.toNat := by
  have hsize : (word n).toNat = size n.toNat := toNat_word hlt
  have hsub : size n.toNat = n.toNat - (n.toNat - 1) / 3 := size_eq_sub hpos
  have hone : 1 ≤ size n.toNat := Nat.succ_pos _
  refine ⟨word n, ?_, rfl, hsize, hsize.trans hsub, hsize.symm ▸ hone,
    hsize.symm ▸ size_le hpos, fun V hV absent habsent hf => ?_, hsize.symm ▸ lt_overlap n.toNat,
    fun m hm => ?_, ?_⟩
  · rw [word?_eq, if_pos hlt]
  · rw [Finset.card_sdiff_of_subset habsent, hV, hsize, hsub]
    omega
  · have hmn : m.toNat ≤ n.toNat := UInt64.le_iff_toNat_le.1 hm
    rw [UInt64.le_iff_toNat_le, hsize, toNat_word (Nat.lt_of_le_of_lt hmn hlt)]
    exact size_mono hmn
  · rw [hsize, prepares]
    omega

/-- The hypotheses of `word_exact` are satisfiable at the greatest count, where one validator
more leaves the words. -/
theorem word_exact_greatest :
    let n : UInt64 := 9223372036854775807
    0 < n.toNat ∧ n.toNat < 2 ^ 63 ∧ word? (n + 1) = none ∧
      ∃ q : UInt64, word? n = some q ∧ q.toNat = n.toNat - (n.toNat - 1) / 3 := by
  intro n
  have hpos : 0 < n.toNat := by decide
  have hlt : n.toNat < 2 ^ 63 := by decide
  have hnone : word? (n + 1) = none := by
    rw [word?_eq, if_neg (by decide)]
  obtain ⟨q, hq, -, -, hsub, -⟩ := word_exact hpos hlt
  exact ⟨hpos, hlt, hnone, q, hq, hsub⟩

/-- **What a quorum is the smallest of.**  It is the smallest `k` such that any two groups of
`k` validators share more than a third of all, and so one outside any third.  That is more than
the greatest `f` with `3 f + 1 ≤ n`, and the smallest `k` such that any two groups of `k` share
more than `f` is the quorum too, or one less where `n` is a multiple of three.  There are sets
of every such size, and groups of the size of a quorum in them. -/
theorem isLeast_word {n : UInt64} (hpos : 0 < n.toNat) (hlt : n.toNat < 2 ^ 63) {f : Nat}
    (hf : IsGreatest {f : Nat | 3 * f + 1 ≤ n.toNat} f) :
    ∃ q : Nat, (word n).toNat = q ∧ q ≤ n.toNat ∧ (∃ V : Finset Address, V.card = n.toNat) ∧
      ∀ V : Finset Address, V.card = n.toNat →
        IsLeast {k | SharesMore V (n.toNat / 3) k} q ∧
        (∀ F : Finset Address, 3 * F.card ≤ n.toNat → ∀ A ⊆ V, ∀ B ⊆ V, A.card = q → B.card = q →
          ∃ a ∈ A, a ∈ B ∧ a ∉ F) ∧
        SharesMore V f q ∧
        IsLeast {k | SharesMore V f k} (if 3 ∣ n.toNat then q - 1 else q) := by
  have hfaulty := hf.unique (isGreatest_third hpos)
  refine ⟨size n.toNat, toNat_word hlt, size_le hpos, exists_card_eq n, fun V hV => ?_⟩
  have hthird : IsLeast {k | SharesMore V (n.toNat / 3) k} (size n.toNat) := by
    rw [size_eq_half_add_one, ← hV]
    exact isLeast_sharesMore (by omega)
  refine ⟨hthird, fun F hF A hA B hB hAq hBq => ?_, fun A hA B hB hAq hBq => ?_, ?_⟩
  · have hoverlap := lt_overlap n.toNat
    exact exists_mem_inter_notMem hA hB (by omega)
  · have hshare := hthird.1 A hA B hB hAq hBq
    omega
  · rw [← half_add_one_eq hpos, ← hfaulty, ← hV]
    exact isLeast_sharesMore (by omega)

/-- The hypotheses of `isLeast_word` are satisfiable: of four validators one may be faulty, and
three are the smallest group of which any two share more than one. -/
theorem isLeast_word_four :
    IsGreatest {f : Nat | 3 * f + 1 ≤ (4 : UInt64).toNat} 1 ∧
      IsLeast {k | SharesMore Sample.validators.toFinset 1 k} 3 := by
  have hf : IsGreatest {f : Nat | 3 * f + 1 ≤ (4 : UInt64).toNat} 1 :=
    isGreatest_third (by decide)
  have hcard : Sample.validators.toFinset.card = (4 : UInt64).toNat := by decide
  obtain ⟨q, rfl, -, -, hleast⟩ := isLeast_word (by decide) (by decide) hf
  exact ⟨hf, (hleast _ hcard).2.2.2⟩

/-- **Of three validators a quorum is not the smallest group** of which any two share more than
the faulty: none may be faulty, any two groups of two share a validator, and a quorum is all
three. -/
theorem not_forall_isLeast_word :
    ¬∀ (n : UInt64) (f : Nat) (V : Finset Address), 0 < n.toNat → n.toNat < 2 ^ 63 →
      IsGreatest {f : Nat | 3 * f + 1 ≤ n.toNat} f → V.card = n.toNat →
      IsLeast {k | SharesMore V f k} (word n).toNat := by
  intro h
  let V : Finset Address := {Sample.validator₁, Sample.validator₂, Sample.validator₃}
  have hcard : V.card = (3 : UInt64).toNat := by decide
  have hf : IsGreatest {f : Nat | 3 * f + 1 ≤ (3 : UInt64).toNat} 0 :=
    isGreatest_third (by decide)
  have hleast := h 3 0 V (by decide) (by decide) hf hcard
  have htwo : SharesMore V 0 2 := (sharesMore_iff (by rw [hcard]; decide)).2 (by rw [hcard]; decide)
  exact absurd (hleast.2 htwo) (by decide)

end Quorum
end RoundChange
