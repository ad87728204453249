/-
# Quorum arithmetic

Of `n` validators fewer than a third may be faulty.  A quorum is more than two thirds of them,
`⌊2 n / 3⌋ + 1`, so that two quorums share more than a third.

| validators | quorum | prepares |
| ---: | ---: | ---: |
| 1 | 1 | 0 |
| 4 | 3 | 2 |
| 7 | 5 | 4 |

A proposal counts as prepared with one `PREPARE` fewer than a quorum, since the proposer's own
proposal stands in for its prepare (`prepare_message_count_for_quorum`).  `Quorum.word` is the
quorum in 64-bit words, as `calculate_required_validator_quorum` has it; the doubling stays
within a word below `2 ^ 63` (`Quorum.toNat_word`).  Where words are checked, a step that
leaves them has no result (`Quorum.word?`).
-/

namespace RoundChange
namespace Word

/-- The product of two words, if it is a word. -/
def mul? (a b : UInt64) : Option UInt64 :=
  if a.toNat * b.toNat < UInt64.size then some (a * b) else none

/-- The sum of two words, if it is a word. -/
def add? (a b : UInt64) : Option UInt64 :=
  if a.toNat + b.toNat < UInt64.size then some (a + b) else none

end Word

namespace Quorum

/-- The share of the validators that a quorum exceeds is `numerator / denominator`. -/
def numerator : Nat := 2

/-- The share of the validators that a quorum exceeds is `numerator / denominator`. -/
def denominator : Nat := 3

/-- The fewest validators that a height can have. -/
def leastValidators : Nat := 1

/-- The size of a quorum of so many validators. -/
def size (validators : Nat) : Nat := numerator * validators / denominator + 1

/-- The prepares that a prepared certificate needs, for a quorum of this size:
`prepare_message_count_for_quorum`. -/
def prepares (quorum : Nat) : Nat := quorum - 1

/-- The size of a quorum in 64-bit words: `calculate_required_validator_quorum`. -/
def word (validators : UInt64) : UInt64 :=
  UInt64.ofNat numerator * validators / UInt64.ofNat denominator + 1

/-- The size of a quorum in 64-bit words, where a step that leaves the words has no result. -/
def word? (validators : UInt64) : Option UInt64 := do
  let doubled ← Word.mul? (UInt64.ofNat numerator) validators
  Word.add? (doubled / UInt64.ofNat denominator) 1

/-- **Below `2 ^ 63` validators the words hold the quorum.** -/
theorem toNat_word {validators : UInt64} (h : validators.toNat < UInt64.size / 2) :
    (word validators).toNat = size validators.toNat := by
  rw [UInt64.size] at h
  simp only [word, size, numerator, denominator, UInt64.toNat_add, UInt64.toNat_div,
    UInt64.toNat_mul, UInt64.toNat_ofNat', UInt64.reduceToNat, Nat.reducePow, Nat.reduceMod]
  rw [Nat.mod_eq_of_lt (a := 2 * validators.toNat) (by omega)]
  exact Nat.mod_eq_of_lt (by omega)

/-- The hypothesis of `toNat_word` is satisfiable at the greatest count, and the next
count wraps. -/
example : (word (2 ^ 63 - 1)).toNat = size (2 ^ 63 - 1) ∧ (word (2 ^ 63)).toNat = 1 := by
  decide +kernel

/-- **Two quorums share more than a third of the validators.** -/
theorem lt_overlap (n : Nat) : n < 3 * (2 * size n - n) := by
  simp only [size, numerator, denominator]
  omega

/-- **A quorum is no more than all validators.** -/
theorem size_le {n : Nat} (h : 0 < n) : size n ≤ n := by
  simp only [size, numerator, denominator]
  omega

/-- The hypothesis of `size_le` is satisfiable where the bound is tight, and needed. -/
example : size 1 = 1 ∧ size 0 = 1 := by decide

/-- **Without fewer than a third of the validators there still is a quorum.** -/
theorem size_add_le {n f : Nat} (h : 3 * f < n) : size n + f ≤ n := by
  simp only [size, numerator, denominator]
  omega

/-- **A third of the validators is no quorum.** -/
theorem lt_size {n f : Nat} (h : 3 * f ≤ n) : f < size n := by
  simp only [size, numerator, denominator]
  omega

/-- The hypotheses of `size_add_le` and `lt_size` are satisfiable, and where a third is
missing there need be no quorum. -/
example : size 4 + 1 = 4 ∧ 1 < size 3 ∧ size 3 + 1 = 4 := by decide

end Quorum
end RoundChange
