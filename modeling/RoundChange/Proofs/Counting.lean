/-
# What a tally holds

A `RoundChangeStatus` counts the first vote of each author until there is a quorum of them, and
nothing after that.  Beside the votes it keeps the set of their authors (`Tally.holding`).
Said of the votes it was given and not of the steps it took: its votes are the first `quorum`
of the first votes of each author, and it has minted just where there are so many
(`Tally.ofVotes`).  Counting one vote more keeps this shape, and yields a certificate where the
vote is by a new author and makes up the quorum (`Tally.count_ofVotes`).  Once all votes are
counted there was one certificate or none, which is said of the votes as well
(`Tally.issued?`).
-/

import Mathlib.Data.Finset.Card
import Mathlib.Data.List.Nodup
import RoundChange.Tally

namespace RoundChange

/-- The authors of some votes and of one more differ. -/
theorem nodup_authors_concat {votes : List Vote} {v : Vote} :
    ((votes ++ [v]).map Signed.author).Nodup ↔
      v.author ∉ votes.map Signed.author ∧ (votes.map Signed.author).Nodup := by
  rw [List.map_append, List.map_singleton, ← List.concat_eq_append, List.nodup_concat]

/-- The votes of a list that are the first of their author. -/
def firstVotes : List Vote → List Vote
  | [] => []
  | v :: rest => v :: (firstVotes rest).filter fun w => w.author ≠ v.author

/-- No votes, no first votes. -/
@[simp] theorem firstVotes_nil : firstVotes [] = [] := rfl

/-- **First votes keep their order.** -/
theorem firstVotes_sublist (l : List Vote) : (firstVotes l).Sublist l := by
  induction l with
  | nil => exact .slnil
  | cons v rest ih => exact (List.filter_sublist.trans ih).cons_cons v

/-- **Every author has a first vote.** -/
theorem mem_authors_firstVotes {l : List Vote} {a : Address} :
    a ∈ (firstVotes l).map Signed.author ↔ a ∈ l.map Signed.author := by
  induction l with
  | nil => rfl
  | cons v rest ih =>
    simp only [List.mem_map] at ih
    simp only [firstVotes, List.map_cons, List.mem_cons, List.mem_map, List.mem_filter,
      decide_eq_true_eq]
    constructor
    · rintro (rfl | ⟨w, ⟨hw, -⟩, rfl⟩)
      · exact .inl rfl
      · exact .inr (ih.1 ⟨w, hw, rfl⟩)
    · rintro (rfl | h)
      · exact .inl rfl
      · obtain ⟨w, hw, rfl⟩ := ih.2 h
        by_cases hv : w.author = v.author
        · exact .inl hv
        · exact .inr ⟨w, ⟨hw, hv⟩, rfl⟩

/-- **First votes are by different authors.** -/
theorem nodup_authors_firstVotes (l : List Vote) : ((firstVotes l).map Signed.author).Nodup := by
  induction l with
  | nil => exact .nil
  | cons v rest ih =>
    rw [firstVotes, List.map_cons, List.nodup_cons]
    refine ⟨fun h => ?_, (List.filter_sublist.map _).nodup ih⟩
    obtain ⟨w, hw, ha⟩ := List.mem_map.1 h
    have hne := (List.mem_filter.1 hw).2
    exact of_decide_eq_true hne ha

/-- **The vote of a new author is a first one.** -/
theorem firstVotes_concat_of_not_mem {l : List Vote} {v : Vote}
    (h : v.author ∉ l.map Signed.author) : firstVotes (l ++ [v]) = firstVotes l ++ [v] := by
  induction l with
  | nil => rfl
  | cons u rest ih =>
    rw [List.map_cons, List.mem_cons, not_or] at h
    rw [List.cons_append, firstVotes, firstVotes, ih h.2, List.filter_append]
    simp [h.1]

/-- **A later vote of an author is not a first one.** -/
theorem firstVotes_concat_of_mem {l : List Vote} {v : Vote}
    (h : v.author ∈ l.map Signed.author) : firstVotes (l ++ [v]) = firstVotes l := by
  induction l with
  | nil => exact absurd h List.not_mem_nil
  | cons u rest ih =>
    rw [List.cons_append, firstVotes, firstVotes]
    by_cases hr : v.author ∈ rest.map Signed.author
    · rw [ih hr]
    · have hu : v.author = u.author := (List.mem_cons.1 h).resolve_right hr
      rw [firstVotes_concat_of_not_mem hr, List.filter_append]
      simp [hu]

/-- **There are as many first votes as authors.** -/
theorem length_firstVotes (l : List Vote) :
    (firstVotes l).length = (l.map Signed.author).toFinset.card := by
  have hauthors : ((firstVotes l).map Signed.author).toFinset = (l.map Signed.author).toFinset := by
    ext a
    rw [List.mem_toFinset, List.mem_toFinset, mem_authors_firstVotes]
  rw [← hauthors, List.toFinset_card_of_nodup (nodup_authors_firstVotes l), List.length_map]

/-- **Votes by different authors are all first ones.** -/
theorem firstVotes_of_nodup {l : List Vote} (h : (l.map Signed.author).Nodup) :
    firstVotes l = l := by
  induction l with
  | nil => rfl
  | cons v rest ih =>
    rw [List.map_cons, List.nodup_cons] at h
    rw [firstVotes, ih h.2]
    refine congrArg (v :: ·) (List.filter_eq_self.2 fun w hw => decide_eq_true fun ha => h.1 ?_)
    exact ha ▸ List.mem_map_of_mem hw

namespace Tally

/-- The tally that holds these votes, and their authors as the set beside them. -/
def holding (quorum : Nat) (votes : List Vote) (minted : Bool) : Tally :=
  ⟨quorum, votes, .ofList (votes.map Signed.author), minted⟩

section Holding

variable {quorum : Nat} {votes : List Vote} {minted : Bool} {v : Vote}

/-- **The set of the authors says what the votes say.** -/
theorem hasVoteOf_iff {a : Address} :
    (holding quorum votes minted).hasVoteOf a = true ↔ ∃ v ∈ votes, v.author = a := by
  rw [hasVoteOf_iff_mem_authors, holding, ValidatorSet.mem_ofList, List.mem_map]

/-- A vote of an author that was heard is not held a second time. -/
theorem add_holding_of_mem (h : v.author ∈ votes.map Signed.author) :
    (holding quorum votes minted).add v = holding quorum votes minted := by
  have hheard : (holding quorum votes minted).hasVoteOf v.author = true :=
    hasVoteOf_iff.2 (List.mem_map.1 h)
  rw [add, hheard, Bool.or_true, if_pos rfl]

/-- The vote of a new author is held behind the others. -/
theorem add_holding_of_not_mem (h : v.author ∉ votes.map Signed.author) :
    (holding quorum votes false).add v = holding quorum (votes ++ [v]) false := by
  have hnew : (holding quorum votes false).hasVoteOf v.author = false :=
    Bool.eq_false_iff.2 fun hheard => h (List.mem_map.2 (hasVoteOf_iff.1 hheard))
  have hopen : (holding quorum votes false).minted = false := rfl
  rw [add, hopen, hnew, Bool.or_false, if_neg Bool.false_ne_true, holding, holding,
    List.map_append, List.map_singleton, ValidatorSet.ofList_concat]

end Holding

/-- The tally of these votes: of the first votes of each author as many as a quorum
needs, and the certificate minted if there are so many. -/
def ofVotes (quorum : Nat) (heard : List Vote) : Tally :=
  let counted := (firstVotes heard).take quorum
  ⟨quorum, counted, .ofList (counted.map Signed.author),
    decide (quorum ≤ (firstVotes heard).length)⟩

/-- Counts a vote, and mints the certificate if the tally is ready then. -/
def count (t : Tally) (v : Vote) : Tally × Option Certificate :=
  ((t.add v).mint.2, (t.add v).mint.1.toOption)

/-- **The tally of no votes is the new one.** -/
theorem ofVotes_nil {quorum : Nat} (h : 0 < quorum) : ofVotes quorum [] = new quorum := by
  simp [ofVotes, new, ValidatorSet.ofList, Nat.not_le.2 h]

/-- A tally that is ready with the vote yields its certificate. -/
theorem count_of_isReady {t : Tally} {v : Vote} (h : (t.add v).isReady = true) :
    t.count v = ({ t.add v with minted := true }, some ⟨(t.add v).votes⟩) := by
  rw [count, mint_of_isReady h]
  rfl

/-- A tally that is not ready with the vote holds it and yields nothing. -/
theorem count_of_not_isReady {t : Tally} {v : Vote} (h : (t.add v).isReady = false) :
    t.count v = (t.add v, none) := by
  rw [count, mint_of_not_isReady h]
  rfl

/-- **A tally that has minted does not change.** -/
theorem count_of_minted {t : Tally} (h : t.minted = true) (v : Vote) : t.count v = (t, none) := by
  have same : t.add v = t := add_of_minted h v
  rw [count_of_not_isReady (same.symm ▸ isReady_eq_false_of_minted h), same]

/-- The tally of these votes, which is made with the first of them. -/
def ofVotes? (quorum : Nat) (heard : List Vote) : Option Tally :=
  if heard = [] then none else some (ofVotes quorum heard)

/-- **A tally that is not there counts as the new one.** -/
theorem getD_ofVotes? {quorum : Nat} (h : 0 < quorum) (heard : List Vote) :
    (ofVotes? quorum heard).getD (new quorum) = ofVotes quorum heard := by
  unfold ofVotes?
  split
  · rename_i hnil
    rw [hnil, ofVotes_nil h]
    rfl
  · rfl

/-- **Below the quorum the tally holds all first votes and has not minted.** -/
theorem ofVotes_of_lt {quorum : Nat} {heard : List Vote}
    (h : (firstVotes heard).length < quorum) :
    ofVotes quorum heard = holding quorum (firstVotes heard) false := by
  rw [ofVotes, List.take_of_length_le (Nat.le_of_lt h), decide_eq_false (Nat.not_le.2 h), holding]

/-- The certificate that one vote more yields: that of the first votes, if the vote is by
a new author and makes up the quorum. -/
def completed? (quorum : Nat) (heard : List Vote) (v : Vote) : Option Certificate :=
  if (firstVotes heard).length + 1 = quorum ∧ v.author ∉ heard.map Signed.author then
    some ⟨firstVotes heard ++ [v]⟩
  else none

/-- When one vote more yields a certificate, and which. -/
theorem completed?_eq_some_iff {quorum : Nat} {heard : List Vote} {v : Vote} {c : Certificate} :
    completed? quorum heard v = some c ↔ (firstVotes heard).length + 1 = quorum ∧
      v.author ∉ heard.map Signed.author ∧ c = ⟨firstVotes heard ++ [v]⟩ := by
  unfold completed?
  split
  · rename_i h
    simp [h, eq_comm]
  · rename_i h
    simp only [reduceCtorEq, false_iff]
    exact fun h' => h ⟨h'.1, h'.2.1⟩

section Stages

variable {quorum : Nat} {heard : List Vote} {v : Vote}

/-- A tally with a quorum of votes counts no more. -/
theorem count_ofVotes_of_le (h : quorum ≤ (firstVotes heard).length) :
    (ofVotes quorum heard).count v = (ofVotes quorum (heard ++ [v]), none) := by
  rw [count_of_minted (decide_eq_true h)]
  by_cases hmem : v.author ∈ heard.map Signed.author
  · rw [ofVotes, ofVotes, firstVotes_concat_of_mem hmem]
  · have hle : quorum ≤ (firstVotes heard ++ [v]).length := by
      rw [List.length_append]
      omega
    rw [ofVotes, ofVotes, firstVotes_concat_of_not_mem hmem, List.take_append_of_le_length h,
      decide_eq_true h, decide_eq_true hle]

/-- A tally below its quorum does not count an author twice. -/
theorem count_ofVotes_of_mem (h : (firstVotes heard).length < quorum)
    (hmem : v.author ∈ heard.map Signed.author) :
    (ofVotes quorum heard).count v = (ofVotes quorum (heard ++ [v]), none) := by
  have hnext : ofVotes quorum (heard ++ [v]) = ofVotes quorum heard := by
    rw [ofVotes, ofVotes, firstVotes_concat_of_mem hmem]
  have hadd : (ofVotes quorum heard).add v = ofVotes quorum heard := by
    rw [ofVotes_of_lt h, add_holding_of_mem (mem_authors_firstVotes.2 hmem)]
  have hready : ((ofVotes quorum heard).add v).isReady = false := by
    rw [hadd, ofVotes_of_lt h, isReady, holding, decide_eq_false (Nat.not_le.2 h), Bool.false_and]
  rw [count_of_not_isReady hready, hadd, hnext]

/-- A tally below its quorum counts a new author, and mints if that makes up the quorum. -/
theorem count_ofVotes_of_not_mem (h : (firstVotes heard).length < quorum)
    (hmem : v.author ∉ heard.map Signed.author) :
    (ofVotes quorum heard).count v = (ofVotes quorum (heard ++ [v]),
      if (firstVotes heard).length + 1 = quorum then some ⟨firstVotes heard ++ [v]⟩ else none) := by
  have hnext : firstVotes (heard ++ [v]) = firstVotes heard ++ [v] :=
    firstVotes_concat_of_not_mem hmem
  have hlen : (firstVotes heard ++ [v]).length = (firstVotes heard).length + 1 :=
    List.length_append
  have hadd : (ofVotes quorum heard).add v = holding quorum (firstVotes heard ++ [v]) false := by
    rw [ofVotes_of_lt h, add_holding_of_not_mem (mt mem_authors_firstVotes.1 hmem)]
  by_cases hq : (firstVotes heard).length + 1 = quorum
  · have hle : quorum ≤ (firstVotes heard ++ [v]).length := by omega
    have hready : ((ofVotes quorum heard).add v).isReady = true := by
      rw [hadd, isReady, holding, decide_eq_true hle, Bool.not_false, Bool.and_true]
    rw [count_of_isReady hready, hadd, if_pos hq, ofVotes, hnext, decide_eq_true hle,
      List.take_of_length_le (by omega), holding]
  · have hlt : (firstVotes heard ++ [v]).length < quorum := by omega
    have hready : ((ofVotes quorum heard).add v).isReady = false := by
      rw [hadd, isReady, holding, decide_eq_false (Nat.not_le.2 hlt), Bool.false_and]
    rw [count_of_not_isReady hready, hadd, if_neg hq, ofVotes_of_lt (by rwa [hnext]), hnext]

/-- **Counting keeps the shape of a tally, and yields the certificate of a quorum.** -/
theorem count_ofVotes (quorum : Nat) (heard : List Vote) (v : Vote) :
    (ofVotes quorum heard).count v =
      (ofVotes quorum (heard ++ [v]), completed? quorum heard v) := by
  rcases Nat.lt_or_ge (firstVotes heard).length quorum with hopen | hfull
  · by_cases hmem : v.author ∈ heard.map Signed.author
    · rw [count_ofVotes_of_mem hopen hmem, completed?, if_neg fun h => h.2 hmem]
    · rw [count_ofVotes_of_not_mem hopen hmem, completed?]
      simp only [hmem, not_false_eq_true, and_true]
  · rw [count_ofVotes_of_le hfull, completed?, if_neg fun h => by omega]

/-- The certificate that some votes have yielded: that of the first quorum of first votes,
once there are so many. -/
def issued? (quorum : Nat) (heard : List Vote) : Option Certificate :=
  if quorum ≤ (firstVotes heard).length then some ⟨(firstVotes heard).take quorum⟩ else none

/-- **A certificate is issued with the vote that completes it**, and by no later vote. -/
theorem toList_issued?_concat :
    (issued? quorum (heard ++ [v])).toList =
      (issued? quorum heard).toList ++ (completed? quorum heard v).toList := by
  rcases Nat.lt_or_ge (firstVotes heard).length quorum with hopen | hfull
  · have hnone : issued? quorum heard = none := if_neg (Nat.not_le.2 hopen)
    rw [hnone, Option.toList_none, List.nil_append]
    refine congrArg Option.toList ?_
    by_cases hmem : v.author ∈ heard.map Signed.author
    · rw [completed?, if_neg fun h => h.2 hmem, issued?, firstVotes_concat_of_mem hmem,
        if_neg (Nat.not_le.2 hopen)]
    · rw [issued?, firstVotes_concat_of_not_mem hmem, completed?, List.length_append,
        List.length_singleton]
      by_cases hq : (firstVotes heard).length + 1 = quorum
      · have hall : (firstVotes heard ++ [v]).take quorum = firstVotes heard ++ [v] := by
          refine List.take_of_length_le ?_
          rw [List.length_append, List.length_singleton, hq]
        rw [if_pos (Nat.le_of_eq hq.symm), if_pos ⟨hq, hmem⟩, hall]
      · rw [if_neg (by omega), if_neg fun h => hq h.1]
  · have hnone : completed? quorum heard v = none := if_neg fun h => by omega
    rw [hnone, Option.toList_none, List.append_nil]
    refine congrArg Option.toList ?_
    by_cases hmem : v.author ∈ heard.map Signed.author
    · rw [issued?, firstVotes_concat_of_mem hmem, issued?]
    · have hmore : quorum ≤ (firstVotes heard ++ [v]).length := by
        rw [List.length_append]
        omega
      rw [issued?, issued?, firstVotes_concat_of_not_mem hmem, if_pos hmore, if_pos hfull,
        List.take_append_of_le_length hfull]

end Stages

end Tally
end RoundChange
