/-
# What a coordinator depends on

A coordinator is made from a height, a list of validators and a rule that makes the judge
(`RoundChangeManager::new`).  Of the list only the addresses in it count.  They are sorted and
repetitions dropped before anything is derived from them, so the quorum, the prepares that are
required and the judge depend on the set of addresses alone (`Coordinator.new_congr`); that the
sorted list is the same for all lists of the same addresses is `ValidatorSet.eq_of_mem_iff`.

Two coordinators of the same validators are therefore equal, and what they are asked they
answer alike (`Coordinator.new_same_validators`), but for one thing that is not theirs to
decide.  The rounds that have a tally are keys of a hash map, and `tracked_rounds` sorts them
by number alone, so each listing comes with an order of the keys of its own
(`Coordinator.replies`).  Two listings have the same rounds and the same numbers at the same
places (`Reply.Agrees`).  They are the same list where all rounds are of one height, as they
are under a judge that accepts votes for one height only.  Under another judge rounds of one
number may come in either order (`Coordinator.not_forall_replies_eq`).
-/

import RoundChange.Proofs.Listing

namespace RoundChange

/-- What can be asked of a coordinator: to do something, or what it knows. -/
inductive Query where
  | request (request : Request)
  | status (round : Round)
  | rounds

/-- What a coordinator answers. -/
inductive Reply where
  | reaction (certificate : Option Certificate) (events : List Event)
  | status (tally : Option Tally)
  | rounds (rounds : List Round)

namespace Reply

/-- The replies are the same, up to the order of rounds of one number. -/
inductive Agrees : Reply → Reply → Prop
  | same (reply : Reply) : Agrees reply reply
  | rounds {l m : List Round} (hperm : l.Perm m)
      (hnumbers : l.map Round.number = m.map Round.number) : Agrees (.rounds l) (.rounds m)

/-- The rounds that are listed, if any are, are of one height. -/
def OfOneHeight : Reply → Prop
  | .rounds l => ∃ height, ∀ r ∈ l, r.height = height
  | _ => True

/-- **Of one height there is one reply.** -/
theorem Agrees.eq_of_oneHeight {a b : Reply} (h : a.Agrees b) (ha : a.OfOneHeight) : a = b := by
  cases h with
  | same => rfl
  | rounds hperm hnumbers =>
    obtain ⟨height, hl⟩ := ha
    exact congrArg Reply.rounds
      (Round.eq_of_map_number_eq hnumbers hl fun r hr => hl r (hperm.mem_iff.2 hr))

/-- Replies that are the same where they list rounds of one height are the same if all of them
do. -/
theorem eq_of_forall₂ {replies replies' : List Reply}
    (h : List.Forall₂ (fun a b => a.Agrees b ∧ (a.OfOneHeight → a = b)) replies replies')
    (hone : ∀ reply ∈ replies, reply.OfOneHeight) : replies = replies' := by
  induction h with
  | nil => rfl
  | cons hreply _ ih =>
    obtain ⟨hfirst, hrest⟩ := List.forall_mem_cons.1 hone
    rw [hreply.2 hfirst, ih hrest]

end Reply

namespace Coordinator

/-- The reply to a query, and the coordinator after it, where the keys of a listing come in the
given order. -/
def reply (c : Coordinator) (order : KeyOrder) : Query → Reply × Coordinator
  | .request request =>
    let reaction := c.serve request
    (.reaction reaction.certificate reaction.events, reaction.after)
  | .status round => (.status (c.tally? round), c)
  | .rounds => (.rounds (c.rounds order), c)

/-- The replies to some queries, made one after the other; each listing has an order of the
keys of its own. -/
def replies : Coordinator → (Nat → KeyOrder) → List Query → List Reply
  | _, _, [] => []
  | c, orders, query :: rest =>
    (c.reply (orders 0) query).1 ::
      (c.reply (orders 0) query).2.replies (fun place => orders (place + 1)) rest

variable {height only : UInt64} {l m : List Address} {judgeOf : HeightContext → Judge}

/-- **Order and repetitions of the list make no difference** to the coordinator. -/
theorem new_congr (h : ∀ a, a ∈ l ↔ a ∈ m) (judgeOf : HeightContext → Judge) :
    new height l judgeOf = new height m judgeOf := by
  rw [new, new, HeightContext.ofValidators_congr height h]

/-- **The judge is made for the same context**, so that making it has the same effects. -/
theorem newM_congr {M : Type → Type} [Monad M] (h : ∀ a, a ∈ l ↔ a ∈ m)
    (makeJudge : HeightContext → M Judge) :
    newM height l makeJudge = newM height m makeJudge := by
  rw [newM, newM, HeightContext.ofValidators_congr height h]
  refine congrArg (makeJudge _ >>= ·) (funext fun judge => ?_)
  rw [new_congr h]

/-- **The order of the keys changes a reply at most in the order of rounds of one number**, and
nothing behind it. -/
theorem agrees_reply (c : Coordinator) (order order' : KeyOrder) (query : Query) :
    (c.reply order query).1.Agrees (c.reply order' query).1 ∧
      (c.reply order query).2 = (c.reply order' query).2 := by
  cases query with
  | request request => exact ⟨.same _, rfl⟩
  | status round => exact ⟨.same _, rfl⟩
  | rounds =>
    have hperm := (c.enumerates_rounds order).perm (c.enumerates_rounds order')
    exact ⟨.rounds hperm (c.map_number_rounds order order'), rfl⟩

/-- **Nor does it change more in a sequence of replies.** -/
theorem forall₂_replies (c : Coordinator) (orders orders' : Nat → KeyOrder)
    (queries : List Query) :
    List.Forall₂ (fun a b => a.Agrees b ∧ (a.OfOneHeight → a = b)) (c.replies orders queries)
      (c.replies orders' queries) := by
  induction queries generalizing c orders orders' with
  | nil => exact .nil
  | cons query rest ih =>
    obtain ⟨hagrees, hafter⟩ := c.agrees_reply (orders 0) (orders' 0) query
    rw [replies, replies, ← hafter]
    exact .cons ⟨hagrees, hagrees.eq_of_oneHeight⟩ (ih _ _ _)

/-- **A judge that accepts votes for one height only** leaves only rounds of that height to be
listed. -/
theorem oneHeight_of_mem_replies_run_new
    (hjudge : ∀ v, judgeOf (HeightContext.ofValidators height l) v = .accepted →
      v.payload.target.height = only) (requests : List Request) (orders : Nat → KeyOrder)
    (queries : List Query) :
    ∀ reply ∈ ((new height l judgeOf).run requests).replies orders queries,
      reply.OfOneHeight := by
  -- What is asked next is asked after the requests so far, and after one more if it is one.
  induction queries generalizing requests orders with
  | nil => exact List.forall_mem_nil _
  | cons query rest ih =>
    refine List.forall_mem_cons.2 ?_
    cases query with
    | request request =>
      have hrest := ih (requests ++ [request]) fun place => orders (place + 1)
      rw [run_append] at hrest
      exact ⟨trivial, hrest⟩
    | status round => exact ⟨trivial, ih requests _⟩
    | rounds =>
      exact ⟨⟨only, fun _ hr => height_of_mem_rounds_run_new hjudge hr⟩, ih requests _⟩

/-- **The order of the keys makes no difference** under a judge that accepts votes for one height
only. -/
theorem replies_new_congr_order
    (hjudge : ∀ v, judgeOf (HeightContext.ofValidators height l) v = .accepted →
      v.payload.target.height = only) (orders orders' : Nat → KeyOrder) (queries : List Query) :
    (new height l judgeOf).replies orders queries =
      (new height l judgeOf).replies orders' queries :=
  Reply.eq_of_forall₂ (forall₂_replies _ orders orders' queries)
    (oneHeight_of_mem_replies_run_new hjudge [] orders queries)

/-- **A coordinator depends on the set of its validators only.**  For two lists of the same
addresses, in any order and with any repetitions, the judge is made for equal contexts, the
quorum is more than two thirds of the different addresses and the prepares one fewer, the
validators are those listed, and the coordinators are equal.  Whatever is asked of them gets the
same replies, up to the order of listed rounds of one number: a listing may come in another
order of the keys, and is the same where all its rounds are of one height.  So all replies are
the same if the judge accepts votes for one height only. -/
theorem new_same_validators (height : UInt64) {l m : List Address} (h : ∀ a, a ∈ l ↔ a ∈ m) :
    let context := HeightContext.ofValidators height l
    context = HeightContext.ofValidators height m ∧
    context.requiredPrepares = 2 * l.toFinset.card / 3 ∧
    (∀ a, a ∈ context.validators ↔ a ∈ l) ∧
    (∀ {M : Type → Type} [Monad M] (makeJudge : HeightContext → M Judge),
      newM height l makeJudge = newM height m makeJudge) ∧
    ∀ judgeOf : HeightContext → Judge,
      (new height l judgeOf).judge = judgeOf context ∧
      (new height l judgeOf).quorum = 2 * l.toFinset.card / 3 + 1 ∧
      new height l judgeOf = new height m judgeOf ∧
      (∀ orders orders' queries,
        List.Forall₂ (fun a b => a.Agrees b ∧ (a.OfOneHeight → a = b))
          ((new height l judgeOf).replies orders queries)
          ((new height m judgeOf).replies orders' queries)) ∧
      ∀ only, (∀ v, judgeOf context v = .accepted → v.payload.target.height = only) →
        ∀ orders orders' queries, (new height l judgeOf).replies orders queries =
          (new height m judgeOf).replies orders' queries := by
  intro context
  refine ⟨HeightContext.ofValidators_congr height h,
    HeightContext.requiredPrepares_ofValidators height l, fun a => HeightContext.mem_ofValidators,
    newM_congr h, fun judgeOf => ⟨rfl, quorum_new .., new_congr h judgeOf, ?_, ?_⟩⟩
  · intro orders orders' queries
    rw [← new_congr h judgeOf]
    exact forall₂_replies _ orders orders' queries
  · intro only hjudge orders orders' queries
    rw [← new_congr h judgeOf]
    exact replies_new_congr_order hjudge orders orders' queries

/-- The hypotheses of `new_same_validators` are satisfiable, where one list names a validator
twice and the judge is that of the height. -/
theorem new_same_validators_sample :
    let m := [Sample.validator₁, Sample.validator₂, Sample.validator₃, Sample.validator₄]
    HeightContext.ofValidators 5 Sample.validators = HeightContext.ofValidators 5 m ∧
      (new 5 Sample.validators HeightContext.judge).quorum = 3 ∧
      ∀ orders orders' queries,
        (new 5 Sample.validators HeightContext.judge).replies orders queries =
          (new 5 m HeightContext.judge).replies orders' queries := by
  intro m
  have hsame : ∀ a, a ∈ Sample.validators ↔ a ∈ m := fun a =>
    ⟨(by decide : ∀ a ∈ Sample.validators, a ∈ m) a,
      (by decide : ∀ a ∈ m, a ∈ Sample.validators) a⟩
  obtain ⟨hcontext, -, -, -, hnew⟩ := new_same_validators 5 hsame
  obtain ⟨-, hquorum, -, -, hreplies⟩ := hnew HeightContext.judge
  have hcard : Sample.validators.toFinset.card = 4 := by decide
  rw [hcard] at hquorum
  exact ⟨hcontext, hquorum,
    hreplies 5 fun v hv => (HeightContext.judge_eq_accepted_iff_admits.1 hv).height⟩

end Coordinator

namespace Sample

/-- Two validators. -/
def two : List Address := [validator₁, validator₂]

/-- The same two, the other way round and one of them twice. -/
def twoAgain : List Address := [validator₂, validator₁, validator₂]

/-- A vote of the first validator for round 1 of a height. -/
def voteFor (height : UInt64) : Vote := ⟨⟨⟨height, 1⟩, none⟩, validator₁, ⟨[]⟩⟩

/-- The keys in the opposite of the order in which they are kept. -/
def reversed : KeyOrder := ⟨List.reverse, List.reverse_perm⟩

end Sample

namespace Coordinator

/-- **Coordinators of the same validators may list rounds in different orders.**  Their judge
accepts a vote for round 1 of height 5 and one for round 1 of height 6, and the keys of one are
handed out the other way round. -/
theorem not_forall_replies_eq :
    ¬∀ (height : UInt64) (l m : List Address), (∀ a, a ∈ l ↔ a ∈ m) →
      ∀ (judgeOf : HeightContext → Judge) (orders orders' : Nat → KeyOrder)
        (queries : List Query), (new height l judgeOf).replies orders queries =
          (new height m judgeOf).replies orders' queries := by
  intro h
  let judgeOf := fun _ : HeightContext => Judge.ofPredicate fun _ => true
  let requests := [Request.append (Sample.voteFor 5), .append (Sample.voteFor 6)]
  let c := (new 5 Sample.two judgeOf).run requests
  have hsame : ∀ a, a ∈ Sample.two ↔ a ∈ Sample.twoAgain := fun a =>
    ⟨(by decide : ∀ a ∈ Sample.two, a ∈ Sample.twoAgain) a,
      (by decide : ∀ a ∈ Sample.twoAgain, a ∈ Sample.two) a⟩
  have htracked : c.tallies.rounds = [⟨5, 1⟩, ⟨6, 1⟩] := by decide
  have hstored : c.rounds .asStored = [⟨5, 1⟩, ⟨6, 1⟩] := by
    rw [rounds, htracked]
    exact Round.byNumber_of_pairwise (by decide)
  have hreversed : c.rounds Sample.reversed = [⟨6, 1⟩, ⟨5, 1⟩] := by
    rw [rounds, htracked]
    exact Round.byNumber_of_pairwise (by decide)
  have hreplies := h 5 Sample.two Sample.twoAgain hsame judgeOf (fun _ => .asStored)
    (fun _ => Sample.reversed) (requests.map .request ++ [.rounds])
  rw [← new_congr hsame] at hreplies
  have hlast : Reply.rounds (c.rounds .asStored) = .rounds (c.rounds Sample.reversed) :=
    (List.cons.inj (List.cons.inj (List.cons.inj hreplies).2).2).1
  rw [hstored, hreversed] at hlast
  exact absurd (Reply.rounds.inj hlast) (by decide)

end Coordinator
end RoundChange
