/-
# Rounds

One attempt at agreeing on one block (`ConsensusRoundIdentifier`): the height of the block, and
the number of the attempt.  Rounds are compared within one height, so `Round.isEarlier` looks
at the number alone (`is_earlier_round_than`), and so does the sort of the rounds that are
listed (`Round.byNumber`); the key order `Round.before` also tells heights apart.
-/

import RoundChange.Label

namespace RoundChange

/-- An attempt at agreeing on the block of a height, a `ConsensusRoundIdentifier`; the first has
number 0. -/
structure Round where
  height : UInt64
  number : UInt32
deriving DecidableEq

namespace Round

/-- The names of a round and its fields. -/
def label : Label := ⟨"ConsensusRoundIdentifier", ["sequence_number", "round_number"]⟩

/-- The first round has the lower number; heights are not looked at. -/
def isEarlier (a b : Round) : Bool := a.number < b.number

/-- The key order: by number, and by height where the numbers agree. -/
def before (a b : Round) : Bool :=
  a.number < b.number || (a.number == b.number && a.height < b.height)

/-- Rounds by their numbers; those of one number stay in the order they have. -/
def byNumber (rounds : List Round) : List Round := rounds.mergeSort fun a b => a.number ≤ b.number

/-- Height and number with a stroke between. -/
def text (a : Round) : String := toString a.height.toNat ++ "/" ++ toString a.number.toNat

/-- One round is earlier than another where its number is lower. -/
theorem isEarlier_iff {a b : Round} : a.isEarlier b = true ↔ a.number < b.number := by
  simp [isEarlier]

/-- The key order compares the numbers first, and then the heights. -/
theorem before_iff {a b : Round} : a.before b = true ↔
    a.number.toNat < b.number.toNat ∨ a.number.toNat = b.number.toNat ∧
      a.height.toNat < b.height.toNat := by
  simp [before, UInt32.lt_iff_toNat_lt, UInt64.lt_iff_toNat_lt, UInt32.toNat_inj]

/-- The key order is transitive. -/
theorem before_trans {a b c : Round} (h : a.before b = true) (h' : b.before c = true) :
    a.before c = true := by
  rw [before_iff] at h h' ⊢
  omega

/-- **Of two different rounds one is before the other.** -/
theorem before_of_not_before_of_ne {a b : Round} (h : ¬a.before b = true) (hne : a ≠ b) :
    b.before a = true := by
  rw [before_iff] at h ⊢
  have differ : a.number.toNat ≠ b.number.toNat ∨ a.height.toNat ≠ b.height.toNat := by
    refine Decidable.byContradiction fun same => hne ?_
    simp only [not_or, Decidable.not_not] at same
    cases a; cases b
    exact congr (congrArg Round.mk (UInt64.toNat_inj.1 same.2)) (UInt32.toNat_inj.1 same.1)
  omega

/-- **Sorting keeps the rounds.** -/
theorem perm_byNumber (rounds : List Round) : (byNumber rounds).Perm rounds :=
  List.mergeSort_perm ..

/-- **The numbers do not fall.** -/
theorem pairwise_byNumber (rounds : List Round) :
    (byNumber rounds).Pairwise fun a b => a.number ≤ b.number := by
  refine (List.pairwise_mergeSort (fun a b c hab hbc => ?_) (fun a b => ?_) rounds).imp
    of_decide_eq_true
  · exact decide_eq_true (UInt32.le_trans (of_decide_eq_true hab) (of_decide_eq_true hbc))
  · simpa using UInt32.le_total a.number b.number

/-- **Rounds whose numbers do not fall are sorted.** -/
theorem byNumber_of_pairwise {rounds : List Round}
    (h : rounds.Pairwise fun a b => a.number ≤ b.number) : byNumber rounds = rounds :=
  List.mergeSort_of_pairwise (h.imp decide_eq_true)

/-- Of two rounds of one number the first stays the first. -/
example : byNumber [⟨9, 1⟩, ⟨5, 1⟩] = [⟨9, 1⟩, ⟨5, 1⟩] ∧
    byNumber [⟨5, 1⟩, ⟨9, 1⟩] = [⟨5, 1⟩, ⟨9, 1⟩] := by cbv

/-- **The order by number is that of any two heights.** -/
example : (⟨9, 1⟩ : Round).isEarlier ⟨5, 2⟩ = true ∧ (⟨5, 2⟩ : Round).isEarlier ⟨9, 2⟩ = false ∧
    (⟨5, 2⟩ : Round).before ⟨9, 2⟩ = true := by decide

end Round
end RoundChange
