/-
# The rounds a coordinator lists

`tracked_rounds` takes the rounds that have a tally as a hash map hands out its keys, and sorts
them by their numbers (`Coordinator.rounds`).  No order of the keys is promised, so all that is
said here is said for any of them: the list names each round with a tally once and no other
(`Coordinator.Enumerates`), and the numbers do not fall.  Another order of the keys gives the
same numbers at the same places (`Coordinator.map_number_rounds`), but of two rounds of
different heights and one number either may come first.

Under the judge of a height there are no such rounds.  Only votes for the height are accepted,
a tally is made with its first vote, and so every round that has one is of the height.  The
numbers then differ, and there is one listing only, whatever the order of the keys
(`Coordinator.listing_run_new`).
-/

import RoundChange.Proofs.Admission
import RoundChange.Proofs.History

namespace RoundChange

namespace Round

variable {keys keys' l m : List Round} {height : UInt64}

/-- **The numbers do not depend on the order of the keys.** -/
theorem map_number_byNumber_congr (h : keys.Perm keys') :
    (byNumber keys).map number = (byNumber keys').map number := by
  have hperm : (byNumber keys).Perm (byNumber keys') :=
    ((perm_byNumber keys).trans h).trans (perm_byNumber keys').symm
  exact (hperm.map number).eq_of_pairwise (fun a b _ _ hab hba => UInt32.le_antisymm hab hba)
    (List.pairwise_map.2 (pairwise_byNumber keys)) (List.pairwise_map.2 (pairwise_byNumber keys'))

/-- **Rounds of one height are known by their numbers.** -/
theorem eq_of_map_number_eq (h : l.map number = m.map number) (hl : ∀ r ∈ l, r.height = height)
    (hm : ∀ r ∈ m, r.height = height) : l = m := by
  have hrebuild : ∀ {k : List Round}, (∀ r ∈ k, r.height = height) →
      (k.map number).map (Round.mk height) = k := by
    intro k hk
    rw [List.map_map]
    exact (List.map_congr_left fun r hr => by rw [Function.comp, ← hk r hr]; rfl).trans
      (List.map_id k)
  rw [← hrebuild hl, h, hrebuild hm]

/-- **Sorting has one result** where all rounds are of one height. -/
theorem byNumber_congr (h : keys.Perm keys') (hheight : ∀ r ∈ keys, r.height = height) :
    byNumber keys = byNumber keys' :=
  eq_of_map_number_eq (map_number_byNumber_congr h)
    (fun r hr => hheight r ((perm_byNumber keys).mem_iff.1 hr))
    fun r hr => hheight r (h.mem_iff.2 ((perm_byNumber keys').mem_iff.1 hr))

/-- Different rounds of one height whose numbers do not fall have rising numbers. -/
theorem pairwise_number_lt (hsorted : l.Pairwise fun a b => a.number ≤ b.number)
    (honce : l.Nodup) (hheight : ∀ r ∈ l, r.height = height) :
    l.Pairwise fun a b => a.number < b.number := by
  refine (hsorted.and honce).imp_of_mem fun {a b} ha hb ⟨hle, hne⟩ => ?_
  refine UInt32.lt_of_le_of_ne hle fun hnumber => hne ?_
  have hsame : a.height = b.height := (hheight a ha).trans (hheight b hb).symm
  cases a; cases b; cases hsame; cases hnumber; rfl

end Round

namespace Coordinator

/-- The rounds are those that have a tally, each named once, in any order. -/
structure Enumerates (c : Coordinator) (rounds : List Round) : Prop where
  once : rounds.Nodup
  tracked : ∀ r, r ∈ rounds ↔ ∃ t, c.tally? r = some t

section Enumerations

variable {c : Coordinator} {rounds keys : List Round} {order order' : KeyOrder} {height : UInt64}

/-- Two enumerations differ in their order alone. -/
theorem Enumerates.perm (h : c.Enumerates rounds) (h' : c.Enumerates keys) : rounds.Perm keys :=
  (List.perm_ext_iff_of_nodup h.once h'.once).2 fun r => by rw [h.tracked, h'.tracked]

/-- The tallies enumerate their rounds. -/
theorem enumerates_tallies (c : Coordinator) : c.Enumerates c.tallies.rounds :=
  ⟨c.tallies.nodup_rounds, fun _ => Tallies.mem_rounds_iff⟩

/-- **The rounds that are listed** are those that have a tally, whatever the order of the keys. -/
theorem enumerates_rounds (c : Coordinator) (order : KeyOrder) : c.Enumerates (c.rounds order) where
  once := (Round.perm_byNumber _).nodup_iff.2 ((order.perm _).nodup_iff.2 c.tallies.nodup_rounds)
  tracked _ := mem_rounds_iff

/-- **Any enumeration is handed out by some map**, so that the orders of the keys leave out no
way of listing the rounds. -/
theorem Enumerates.exists_order (h : c.Enumerates keys) :
    ∃ order, c.rounds order = Round.byNumber keys := by
  refine ⟨⟨fun l => if l = c.tallies.rounds then keys else l, fun l => ?_⟩, ?_⟩
  · split
    · rename_i hl
      rw [hl]
      exact h.perm c.enumerates_tallies
    · exact .refl l
  · exact congrArg Round.byNumber (if_pos rfl)

/-- **The numbers that are listed** do not depend on the order of the keys. -/
theorem map_number_rounds (c : Coordinator) (order order' : KeyOrder) :
    (c.rounds order).map Round.number = (c.rounds order').map Round.number :=
  Round.map_number_byNumber_congr ((order.perm _).trans (order'.perm _).symm)

/-- **Of one height there is one list**, whatever the order of the keys. -/
theorem rounds_eq_byNumber (hkeys : c.Enumerates keys)
    (hheight : ∀ r ∈ c.rounds order, r.height = height) :
    Round.byNumber keys = c.rounds order := by
  have hperm : keys.Perm (c.rounds order) := hkeys.perm (c.enumerates_rounds order)
  rw [Round.byNumber_congr hperm fun r hr => hheight r (hperm.mem_iff.1 hr)]
  exact Round.byNumber_of_pairwise (Round.pairwise_byNumber _)

end Enumerations

section Run

variable {height only : UInt64} {validators : List Address} {judgeOf : HeightContext → Judge}
  {requests : List Request} {order : KeyOrder} {r : Round} {t : Tally}

/-- **A tally holds votes, accepted ones, for its round.** -/
theorem votes_of_tally?_run_new
    (h : ((new height validators judgeOf).run requests).tally? r = some t) :
    t.votes ≠ [] ∧ ∀ v ∈ t.votes,
      judgeOf (HeightContext.ofValidators height validators) v = .accepted ∧
        v.payload.target = r := by
  have hpos := quorum_new_pos height validators judgeOf
  rw [tally?_run rfl hpos, Tally.ofVotes?, Option.ite_none_left_eq_some, Option.some.injEq] at h
  obtain ⟨hheard, rfl⟩ := h
  refine ⟨fun hnil => ?_, fun v hv => ?_⟩
  · have hfirst : firstVotes _ = [] :=
      (List.take_eq_nil_iff.1 hnil).resolve_left (Nat.pos_iff_ne_zero.1 hpos)
    have hlength := length_firstVotes (heard (new height validators judgeOf).judge r requests)
    rw [hfirst, List.length_nil, eq_comm, Finset.card_eq_zero, List.toFinset_eq_empty_iff,
      List.map_eq_nil_iff] at hlength
    exact hheard hlength
  · exact mem_heard ((firstVotes_sublist _).subset (List.mem_of_mem_take hv))

/-- **A judge that accepts votes for one height only** leaves no rounds but those of that
height. -/
theorem height_of_mem_rounds_run_new
    (hjudge : ∀ v, judgeOf (HeightContext.ofValidators height validators) v = .accepted →
      v.payload.target.height = only)
    (h : r ∈ ((new height validators judgeOf).run requests).rounds order) : r.height = only := by
  obtain ⟨t, ht⟩ := mem_rounds_iff.1 h
  obtain ⟨hne, hvotes⟩ := votes_of_tally?_run_new ht
  obtain ⟨v, hv⟩ := List.exists_mem_of_ne_nil _ hne
  obtain ⟨haccepted, rfl⟩ := hvotes v hv
  exact hjudge v haccepted

end Run

/-- **What rounds are listed.**  After any requests and under any judge, whatever the order of
the keys, the list names each round that has a tally once and no other, and the numbers do not
fall; and whatever order these rounds are sorted from, that is how they may be listed.  Every
tally holds votes, and all of them are for its round.  Under the judge of a height all rounds
are of the height, their numbers rise, and there is one list, whatever it is sorted from. -/
theorem listing_run_new (height : UInt64) (validators : List Address) (requests : List Request) :
    (∀ judgeOf : HeightContext → Judge,
      let c := (new height validators judgeOf).run requests
      (∀ order, c.Enumerates (c.rounds order) ∧
        (c.rounds order).Pairwise fun a b => a.number ≤ b.number) ∧
      (∀ keys, c.Enumerates keys → ∃ order, c.rounds order = Round.byNumber keys) ∧
      ∀ r t, c.tally? r = some t → t.votes ≠ [] ∧ ∀ v ∈ t.votes, v.payload.target = r) ∧
    let c := (new height validators HeightContext.judge).run requests
    ∀ order, (∀ r ∈ c.rounds order, r.height = height) ∧
      ((c.rounds order).Pairwise fun a b => a.number < b.number) ∧
      ∀ keys, c.Enumerates keys → Round.byNumber keys = c.rounds order := by
  constructor
  · intro judgeOf c
    refine ⟨fun order => ⟨c.enumerates_rounds order, Round.pairwise_byNumber _⟩,
      fun keys hkeys => hkeys.exists_order, fun r t ht => ?_⟩
    obtain ⟨hne, hvotes⟩ := votes_of_tally?_run_new ht
    exact ⟨hne, fun v hv => (hvotes v hv).2⟩
  · intro c order
    have hheight : ∀ r ∈ c.rounds order, r.height = height := fun r =>
      height_of_mem_rounds_run_new fun v hv =>
        (HeightContext.judge_eq_accepted_iff_admits.1 hv).height
    have hrising := Round.pairwise_number_lt (Round.pairwise_byNumber _)
      (c.enumerates_rounds order).once hheight
    exact ⟨hheight, hrising, fun keys hkeys => rounds_eq_byNumber hkeys hheight⟩

end Coordinator
end RoundChange
