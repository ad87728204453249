/-
# A validator set is what its list names

`ValidatorSet.ofList` sorts a list of addresses and drops repetitions, as `collect` into a
`BTreeSet` does in `RoundChangeManager::new`.  Here the result is tied to the finite set of the
addresses listed: it has as many members (`ValidatorSet.size_ofList`), and two lists of the
same addresses give the same set, whatever their order and repetitions
(`ValidatorSet.ofList_congr`).  The context of a height therefore depends on that finite set
alone (`HeightContext.ofValidators_congr`), and so does the number of prepares it requires
(`HeightContext.requiredPrepares_ofValidators`).
-/

import Mathlib.Data.Finset.Card
import Mathlib.Data.List.Sort
import RoundChange.Height

namespace RoundChange

/-- No address comes before itself. -/
instance : Std.Irrefl (α := Address) (· < ·) := ⟨fun a => List.lt_irrefl a.bytes.toList⟩

/-- Of two addresses not both come before the other. -/
instance : Std.Antisymm (α := Address) (· < ·) where
  antisymm a b hab hba := by
    have haa : a < a := Address.lt_trans' hab hba
    exact absurd haa (Std.Irrefl.irrefl a)

namespace ValidatorSet

/-- **Sets with the same members are equal.** -/
theorem eq_of_mem_iff {s t : ValidatorSet} (h : ∀ a, a ∈ s ↔ a ∈ t) : s = t := by
  have hm : s.members = t.members := s.increasing.eq_of_mem_iff t.increasing h
  cases s; cases t; cases hm; rfl

/-- **Order and repetitions of a list make no difference to its set.** -/
theorem ofList_congr {l m : List Address} (h : ∀ a, a ∈ l ↔ a ∈ m) : ofList l = ofList m :=
  eq_of_mem_iff fun a => by rw [mem_ofList, mem_ofList, h]

/-- **The set of a list has as many members as the list has different addresses.** -/
theorem size_ofList (l : List Address) : (ofList l).size = l.toFinset.card := by
  have nodup : (ofList l).members.Nodup := (ofList l).increasing.nodup
  have same : (ofList l).members.toFinset = l.toFinset := by
    ext a
    rw [List.mem_toFinset, List.mem_toFinset]
    exact mem_ofList
  rw [size, ← List.toFinset_card_of_nodup nodup, same]

end ValidatorSet

namespace HeightContext

/-- **A context depends on the set of the validators listed.** -/
theorem ofValidators_congr {l m : List Address} (height : UInt64) (h : ∀ a, a ∈ l ↔ a ∈ m) :
    ofValidators height l = ofValidators height m := by
  rw [ofValidators, ofValidators, ValidatorSet.ofList_congr h]

/-- **A context has as many validators as different ones are listed.** -/
theorem size_ofValidators (height : UInt64) (l : List Address) :
    (ofValidators height l).validators.size = l.toFinset.card :=
  ValidatorSet.size_ofList l

/-- **Two thirds of the validators, rounded down, must have prepared.** -/
theorem requiredPrepares_ofValidators (height : UInt64) (l : List Address) :
    (ofValidators height l).requiredPrepares = 2 * l.toFinset.card / 3 := by
  rw [ofValidators, ValidatorSet.size_ofList]
  simp only [Quorum.prepares, Quorum.size, Quorum.numerator, Quorum.denominator]
  omega

end HeightContext
end RoundChange
