/-
# Validator sets

The validators of a height, a `BTreeSet` of addresses: in increasing order, each once.  The
order makes the list canonical, so that two lists of the same addresses, in any order and with
any repetition, give the same set (`ValidatorSet.ofList`).
-/

import RoundChange.Address

namespace RoundChange

namespace Address

/-- Puts an address into its place in an increasing list, unless it is there. -/
def insertSorted (a : Address) : List Address → List Address
  | [] => [a]
  | b :: rest =>
    if a < b then a :: b :: rest
    else if a = b then b :: rest
    else b :: insertSorted a rest

/-- An address that is inserted is added to those of the list. -/
theorem mem_insertSorted {a x : Address} {l : List Address} :
    x ∈ insertSorted a l ↔ x = a ∨ x ∈ l := by
  induction l with
  | nil => simp [insertSorted]
  | cons b rest ih =>
    rw [insertSorted]
    split
    · simp
    · split
      · rename_i h; subst h; simp
      · simp only [List.mem_cons, ih]
        exact or_left_comm

/-- Different addresses are ordered one way or the other. -/
theorem lt_of_not_lt_of_ne {a b : Address} (h : ¬a < b) (hne : a ≠ b) : b < a := by
  have hle : b.bytes.toList ≤ a.bytes.toList := List.not_lt.1 h
  refine Decidable.byContradiction fun hlt => hne ?_
  have hge : a.bytes.toList ≤ b.bytes.toList := List.not_lt.1 hlt
  have heq := List.le_antisymm hge hle
  cases a; cases b; exact congrArg Address.mk (Bytes32.ext heq)

/-- The order of addresses is transitive. -/
theorem lt_trans' {a b c : Address} (h : a < b) (h' : b < c) : a < c :=
  List.lt_trans h h'

/-- The list stays in increasing order. -/
theorem pairwise_insertSorted {a : Address} {l : List Address} (h : l.Pairwise (· < ·)) :
    (insertSorted a l).Pairwise (· < ·) := by
  induction l with
  | nil => simp [insertSorted]
  | cons b rest ih =>
    rw [List.pairwise_cons] at h
    rw [insertSorted]
    split
    · rename_i hab
      rw [List.pairwise_cons]
      refine ⟨fun x hx => ?_, List.pairwise_cons.2 h⟩
      rcases List.mem_cons.1 hx with rfl | hx
      · exact hab
      · exact lt_trans' hab (h.1 x hx)
    · split
      · exact List.pairwise_cons.2 h
      · rename_i hab hne
        rw [List.pairwise_cons]
        refine ⟨fun x hx => ?_, ih h.2⟩
        rcases mem_insertSorted.1 hx with rfl | hx
        · exact lt_of_not_lt_of_ne hab hne
        · exact h.1 x hx

end Address

/-- Addresses in increasing order, each once. -/
structure ValidatorSet where
  members : List Address
  increasing : members.Pairwise (· < ·)
deriving DecidableEq

namespace ValidatorSet

instance : Membership Address ValidatorSet := ⟨fun s a => a ∈ s.members⟩

instance (a : Address) (s : ValidatorSet) : Decidable (a ∈ s) :=
  inferInstanceAs (Decidable (a ∈ s.members))

/-- No validators. -/
def empty : ValidatorSet := ⟨[], .nil⟩

/-- One validator more, unless it is there. -/
def insert (s : ValidatorSet) (a : Address) : ValidatorSet :=
  ⟨a.insertSorted s.members, Address.pairwise_insertSorted s.increasing⟩

/-- The set of the addresses in a list. -/
def ofList (addresses : List Address) : ValidatorSet := addresses.foldl insert empty

/-- How many validators there are. -/
def size (s : ValidatorSet) : Nat := s.members.length

/-- Inserting adds one address. -/
@[simp] theorem mem_insert {s : ValidatorSet} {a x : Address} :
    x ∈ s.insert a ↔ x = a ∨ x ∈ s := Address.mem_insertSorted

/-- **An address more in the list** is one more in the set. -/
theorem ofList_concat (addresses : List Address) (a : Address) :
    ofList (addresses ++ [a]) = (ofList addresses).insert a := List.foldl_append ..

/-- **The set has the members of the list.** -/
@[simp] theorem mem_ofList {addresses : List Address} {x : Address} :
    x ∈ ofList addresses ↔ x ∈ addresses := by
  have fold : ∀ (l : List Address) (s : ValidatorSet),
      x ∈ l.foldl insert s ↔ x ∈ s ∨ x ∈ l := by
    intro l
    induction l with
    | nil => simp
    | cons a l ih =>
      intro s
      rw [List.foldl_cons, ih, mem_insert, List.mem_cons, or_comm (a := x = a), or_assoc]
  rw [ofList, fold]
  exact ⟨fun h => h.resolve_left List.not_mem_nil, .inr⟩

end ValidatorSet
end RoundChange
