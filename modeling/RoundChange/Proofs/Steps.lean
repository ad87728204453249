/-
# What one request does

Tallies are a finite map from rounds: putting one changes the answer for its round alone
(`Tallies.get?_put`), and dropping rounds changes it for the earlier ones
(`Tallies.get?_dropBefore`); what they answer is all there is to them (`Tallies.ext_get?`).
From this follows all that `append_round_change_message` and `discard_rounds_prior_to` can do
to the tally of a round, and what they answer:

| request | tally of round `r` | certificate |
| --- | --- | --- |
| append of a rejected vote | stays | none |
| append of an accepted vote for `r` | has counted it | what counting yields |
| append of an accepted vote for another round | stays | says nothing of `r` |
| discard before a round later than `r` | is forgotten | none |
| discard before any other round | stays | none |
-/

import Mathlib.Data.List.Sort
import RoundChange.Coordinator
import RoundChange.Proofs.Counting

namespace RoundChange

namespace Tallies

/-- A search finds what was put for its round, and what was there for any other. -/
theorem find?_putSorted (r s : Round) (tally : Tally) (l : List (Round × Tally)) :
    (putSorted r tally l).find? (fun e => e.1 = s) =
      if r = s then some (r, tally) else l.find? fun e => e.1 = s := by
  induction l with
  | nil => by_cases h : r = s <;> simp [putSorted, h]
  | cons e rest ih =>
    rw [putSorted]
    split
    · by_cases h : r = s <;> simp [h]
    · split
      · rename_i he
        by_cases h : r = s
        · simp [h]
        · simp [h, ← he]
      · rename_i he
        by_cases hes : e.1 = s
        · have hrs : r ≠ s := fun h => he (h.trans hes.symm)
          simp [hes, hrs]
        · simp [hes, ih]

/-- **Only the round that is put changes.** -/
theorem get?_put (t : Tallies) (r s : Round) (tally : Tally) :
    (t.put r tally).get? s = if r = s then some tally else t.get? s := by
  rw [get?, put, find?_putSorted]
  split <;> rfl

/-- A search finds nothing for a dropped round, and what was there for any other. -/
theorem find?_filter_not_isEarlier (r s : Round) (l : List (Round × Tally)) :
    (l.filter fun e => !e.1.isEarlier r).find? (fun e => e.1 = s) =
      if s.isEarlier r then none else l.find? fun e => e.1 = s := by
  induction l with
  | nil => simp
  | cons e rest ih =>
    by_cases he : e.1 = s
    · cases hs : s.isEarlier r with
      | true => simpa [he, hs] using ih
      | false => simp [he, hs]
    · rw [List.filter_cons]
      split <;> simp [he, ih]

/-- **Only the earlier rounds are dropped.** -/
theorem get?_dropBefore (t : Tallies) (r s : Round) :
    (t.dropBefore r).get? s = if s.isEarlier r then none else t.get? s := by
  rw [get?, dropBefore, find?_filter_not_isEarlier]
  split <;> rfl

/-- **The rounds are those that have a tally.** -/
theorem mem_rounds_iff {t : Tallies} {r : Round} :
    r ∈ t.rounds ↔ ∃ tally, t.get? r = some tally := by
  rw [rounds, List.mem_map, get?]
  constructor
  · rintro ⟨e, he, rfl⟩
    have hfound : (t.entries.find? fun e' => e'.1 = e.1).isSome :=
      List.find?_isSome.2 ⟨e, he, decide_eq_true rfl⟩
    obtain ⟨found, hfound⟩ := Option.isSome_iff_exists.1 hfound
    exact ⟨found.2, congrArg (Option.map Prod.snd) hfound⟩
  · rintro ⟨tally, h⟩
    obtain ⟨found, hfound, -⟩ := Option.map_eq_some_iff.1 h
    have hround := List.find?_some hfound
    exact ⟨found, List.mem_of_find?_eq_some hfound, of_decide_eq_true hround⟩

/-- **No round has two tallies.** -/
theorem nodup_rounds (t : Tallies) : t.rounds.Nodup := by
  refine List.pairwise_map.2 (t.increasing.imp fun {a b} h hround => ?_)
  rw [hround, Round.before_iff] at h
  omega

/-- **The tally of a round** is the one that stands beside it. -/
theorem get?_eq_some_iff {t : Tallies} {r : Round} {tally : Tally} :
    t.get? r = some tally ↔ (r, tally) ∈ t.entries := by
  have hmem : ∀ {found}, t.get? r = some found → (r, found) ∈ t.entries := by
    intro found h
    obtain ⟨e, he, rfl⟩ := Option.map_eq_some_iff.1 h
    have hround := List.find?_some he
    rw [← of_decide_eq_true hround]
    exact List.mem_of_find?_eq_some he
  refine ⟨hmem, fun h => ?_⟩
  obtain ⟨found, hfound⟩ := mem_rounds_iff.1 (List.mem_map_of_mem h)
  have hsame : (r, found) = (r, tally) :=
    List.inj_on_of_nodup_map t.nodup_rounds (hmem hfound) h rfl
  rw [hfound, (Prod.mk.inj hsame).2]

/-- **Tallies that answer alike for every round are equal.** -/
theorem ext_get? {t u : Tallies} (h : ∀ r, t.get? r = u.get? r) : t = u := by
  have hirrefl : Std.Irrefl fun a b : Round × Tally => a.1.before b.1 = true :=
    ⟨fun a ha => by rw [Round.before_iff] at ha; omega⟩
  have hantisymm : Std.Antisymm fun a b : Round × Tally => a.1.before b.1 = true :=
    ⟨fun a b hab hba => by rw [Round.before_iff] at hab hba; omega⟩
  have hentries : t.entries = u.entries :=
    t.increasing.eq_of_mem_iff u.increasing fun e => by
      rw [← get?_eq_some_iff, ← get?_eq_some_iff, h]
  cases t; cases u; cases hentries; rfl

end Tallies

namespace Coordinator

section Fixed

variable (c : Coordinator) (request : Request) (requests : List Request)

/-- A request does not change the judge. -/
@[simp] theorem judge_after_serve : (c.serve request).after.judge = c.judge := by
  obtain ⟨tallies, h⟩ := c.after_serve request
  rw [h]

/-- A request does not change the quorum. -/
@[simp] theorem quorum_after_serve : (c.serve request).after.quorum = c.quorum := by
  obtain ⟨tallies, h⟩ := c.after_serve request
  rw [h]

/-- **A run does not change the judge.** -/
@[simp] theorem judge_run : (c.run requests).judge = c.judge := by
  induction requests generalizing c with
  | nil => rfl
  | cons request rest ih => rw [run_cons, ih, judge_after_serve]

/-- **A run does not change the quorum.** -/
@[simp] theorem quorum_run : (c.run requests).quorum = c.quorum := by
  induction requests generalizing c with
  | nil => rfl
  | cons request rest ih => rw [run_cons, ih, quorum_after_serve]

end Fixed

section Append

variable {c : Coordinator} {v : Vote}

/-- **An accepted vote is counted for its round.** -/
theorem append_of_accepted (h : c.judge v = .accepted) :
    let counted := ((c.tally? v.payload.target).getD (Tally.new c.quorum)).count v
    (c.append v).after = { c with tallies := c.tallies.put v.payload.target counted.1 } ∧
      (c.append v).certificate = counted.2 := by
  intro counted
  let tally := ((c.tally? v.payload.target).getD (Tally.new c.quorum)).add v
  cases hready : tally.isReady with
  | true =>
    have hcounted : counted = ({ tally with minted := true }, some ⟨tally.votes⟩) :=
      Tally.count_of_isReady hready
    have hmint : tally.mint = (.ok ⟨tally.votes⟩, { tally with minted := true }) :=
      Tally.mint_of_isReady hready
    simp only [append, h, tally, hready, hmint, hcounted, if_true, and_self]
  | false =>
    have hcounted : counted = (tally, none) := Tally.count_of_not_isReady hready
    simp only [append, h, tally, hready, hcounted, Bool.false_eq_true, if_false, and_self]

/-- **What is reported of an accepted vote**: that its round has a certificate, or how far its
tally is. -/
theorem events_append_of_accepted (h : c.judge v = .accepted) :
    let tally := ((c.tally? v.payload.target).getD (Tally.new c.quorum)).add v
    (c.append v).events = if tally.isReady then [.reached v.payload.target tally.votes.length]
      else [.stored v.payload.target tally.votes.length c.quorum tally.minted] := by
  intro tally
  cases hready : tally.isReady with
  | true =>
    have hmint : tally.mint = (.ok ⟨tally.votes⟩, { tally with minted := true }) :=
      Tally.mint_of_isReady hready
    simp only [append, h, tally, hready, hmint, if_true]
  | false => simp only [append, h, tally, hready, Bool.false_eq_true, if_false]

/-- **A vote that is not accepted changes nothing and yields nothing.** -/
theorem append_of_not_accepted (h : c.judge v ≠ .accepted) :
    (c.append v).after = c ∧ (c.append v).certificate = none := by
  unfold append
  split
  · exact ⟨rfl, rfl⟩
  · rename_i accepted
    exact absurd accepted h

end Append

/-- **The rounds that are listed** are those that have a tally, whatever the order of the keys. -/
theorem mem_rounds_iff {c : Coordinator} {order : KeyOrder} {r : Round} :
    r ∈ c.rounds order ↔ ∃ t, c.tally? r = some t := by
  rw [rounds, (Round.perm_byNumber _).mem_iff, (order.perm _).mem_iff, Tallies.mem_rounds_iff]
  rfl

/-- **Discarding forgets the earlier rounds.** -/
theorem tally?_discard (c : Coordinator) (before r : Round) :
    (c.discard before).after.tally? r = if r.isEarlier before then none else c.tally? r :=
  c.tallies.get?_dropBefore before r

end Coordinator
end RoundChange
