/-
# Rounds do not interfere

Two requests are independent if they are votes for different rounds, two discards, or a vote
and a discard that does not reach up to the round of the vote (`Request.Independent`).  Where
neighbours in a sequence are independent, their order makes no difference: sequences that come
out of each other by swapping such neighbours leave the same state behind, and each request is
answered in the same way in both (`Coordinator.answers_of_swaps`).

The reason is that `append_round_change_message` and `discard_rounds_prior_to` act on each
round by itself.  What comes of the tally of a round depends on that tally alone
(`Coordinator.tally?_after_serve`), and the votes for a round are answered by its tally alone.
So a round sees nothing but the requests that touch it: the rest can be left out, and two
coordinators that answer its votes alike need not agree on any other round
(`Coordinator.AgreeOn.answersFor_filter_touches`).
-/

import Mathlib.Logic.Relation
import RoundChange.Proofs.Certificates
import RoundChange.Proofs.Handouts

namespace RoundChange

namespace Request

/-- The request is a vote for the round. -/
def isFor (r : Round) : Request → Bool
  | .append v => v.payload.target = r
  | .discard _ => false

/-- The request is a vote for the round, or makes the round forgotten. -/
def touches (r : Round) (request : Request) : Bool := request.isFor r || request.forgets r

/-- A vote touches its round. -/
@[simp] theorem touches_append (r : Round) (v : Vote) :
    (append v).touches r = decide (v.payload.target = r) := Bool.or_false _

/-- A discard touches the rounds of lower numbers. -/
@[simp] theorem touches_discard (r before : Round) :
    (discard before).touches r = decide (r.number < before.number) := rfl

/-- The requests are votes for different rounds, or two discards, or a vote and a discard
before a round whose number is not above that of the vote. -/
def Independent : Request → Request → Prop
  | .append v, .append w => v.payload.target ≠ w.payload.target
  | .append v, .discard before | .discard before, .append v =>
    ¬v.payload.target.number < before.number
  | .discard _, .discard _ => True

instance : DecidableRel Independent
  | .append v, .append w => inferInstanceAs (Decidable (v.payload.target ≠ w.payload.target))
  | .append v, .discard before | .discard before, .append v =>
    inferInstanceAs (Decidable ¬v.payload.target.number < before.number)
  | .discard _, .discard _ => inferInstanceAs (Decidable True)

/-- Independence does not depend on the order of the two. -/
theorem Independent.symm {a b : Request} (h : a.Independent b) : b.Independent a := by
  cases a with
  | append v =>
    cases b with
    | append w => exact Ne.symm h
    | discard before => exact h
  | discard before =>
    cases b with
    | append w => exact h
    | discard before' => exact trivial

/-- A vote is independent of the discard before a round of its own number, whatever the
heights, and not of the discard before a later one. -/
example : (append Sample.vote₁).Independent (.discard ⟨9, 1⟩) ∧
    ¬(append Sample.vote₁).Independent (.discard ⟨5, 2⟩) := by decide

/-- A vote for a round does not make it forgotten. -/
theorem forgets_of_isFor {r : Round} {request : Request} (h : request.isFor r = true) :
    request.forgets r = false := by
  cases request with
  | append v => rfl
  | discard before => cases h

/-- **Of two independent requests one does not touch a round**, unless both make it
forgotten. -/
theorem Independent.not_touches_or {a b : Request} (h : a.Independent b) (r : Round) :
    a.touches r = false ∨ b.touches r = false ∨ a.forgets r = true ∧ b.forgets r = true := by
  -- A vote for `r` and a discard that forgets `r` are not independent.
  have hkeeps : ∀ {v : Vote} {before : Round}, ¬v.payload.target.number < before.number →
      (append v).touches r = false ∨ (discard before).touches r = false := by
    intro v before hv
    by_cases ht : v.payload.target = r
    · exact .inr (decide_eq_false (ht ▸ hv))
    · exact .inl (by simp [ht])
  cases a with
  | append v =>
    cases b with
    | append w =>
      by_cases ht : v.payload.target = r
      · have hw : w.payload.target ≠ r := fun hw => h (ht.trans hw.symm)
        exact .inr (.inl (by simp [hw]))
      · exact .inl (by simp [ht])
    | discard before => exact (hkeeps h).imp_right .inl
  | discard before =>
    cases b with
    | append w => exact (hkeeps h).symm.imp_right .inl
    | discard before' =>
      rw [touches_discard, touches_discard, forgets, forgets]
      cases decide (r.number < before.number) with
      | false => exact .inl rfl
      | true =>
        cases decide (r.number < before'.number) with
        | false => exact .inr (.inl rfl)
        | true => exact .inr (.inr ⟨rfl, rfl⟩)

section Act

variable {judge : Judge} {quorum : Nat} {r : Round} {a b : Request}

/-- **A request that does not touch a round leaves its tally alone.** -/
theorem act_of_not_touches (h : a.touches r = false) (tally? : Option Tally) :
    act judge quorum r tally? a = tally? := by
  obtain ⟨hfor, hforgets⟩ := Bool.or_eq_false_iff.1 h
  have hvote : a.vote? judge r = none := by
    cases a with
    | append v => exact if_neg fun hv => of_decide_eq_false hfor hv.2
    | discard before => rfl
  rw [act, hforgets, hvote]
  rfl

/-- A request that has a round forgotten leaves it no tally. -/
theorem act_of_forgets (h : a.forgets r = true) (tally? : Option Tally) :
    act judge quorum r tally? a = none := by
  rw [act, if_pos h]

/-- **Independent requests act on a round in either order.** -/
theorem Independent.act_comm (h : a.Independent b) (tally? : Option Tally) :
    act judge quorum r (act judge quorum r tally? a) b =
      act judge quorum r (act judge quorum r tally? b) a := by
  rcases h.not_touches_or r with ha | hb | ⟨ha, hb⟩
  · rw [act_of_not_touches ha, act_of_not_touches ha]
  · rw [act_of_not_touches hb, act_of_not_touches hb]
  · rw [act_of_forgets hb, act_of_forgets ha]

end Act

/-- One sequence is the other with two neighbours swapped, whose requests are independent. -/
inductive Swap {α : Type} (request : α → Request) : List α → List α → Prop
  | neighbours (earlier later : List α) (x y : α) (h : (request x).Independent (request y)) :
      Swap request (earlier ++ x :: y :: later) (earlier ++ y :: x :: later)

namespace Swap

variable {α : Type} {request : α → Request} {l m : List α}

/-- Swapped sequences hold the same requests. -/
theorem perm (h : Swap request l m) : l.Perm m := by
  obtain ⟨earlier, later, x, y, -⟩ := h
  exact (List.Perm.swap y x later).append_left earlier

/-- **The votes for one round are never swapped.** -/
theorem filter_isFor (h : Swap request l m) (r : Round) :
    l.filter (fun x => (request x).isFor r) = m.filter fun x => (request x).isFor r := by
  obtain ⟨earlier, later, x, y, h⟩ := h
  have hone : (request x).isFor r = false ∨ (request y).isFor r = false := by
    rcases h.not_touches_or r with hx | hy | ⟨hx, -⟩
    · exact .inl (Bool.or_eq_false_iff.1 hx).1
    · exact .inr (Bool.or_eq_false_iff.1 hy).1
    · -- Discards are no votes.
      left
      by_contra hfor
      rw [forgets_of_isFor (Bool.eq_true_of_not_eq_false hfor)] at hx
      cases hx
  rw [List.filter_append, List.filter_append]
  refine congrArg _ ?_
  rcases hone with hx | hy
  · simp only [List.filter_cons, hx, Bool.false_eq_true, if_false]
  · simp only [List.filter_cons, hy, Bool.false_eq_true, if_false]

end Swap

end Request

namespace Coordinator

open Request (Swap act)

/-- **A run acts on each round by itself.** -/
theorem tally?_run_eq_foldl (c : Coordinator) (requests : List Request) (r : Round) :
    (c.run requests).tally? r = requests.foldl (act c.judge c.quorum r) (c.tally? r) := by
  induction requests generalizing c with
  | nil => rfl
  | cons request rest ih =>
    rw [run_cons, ih, judge_after_serve, quorum_after_serve, tally?_after_serve, List.foldl_cons]

/-- Requests change nothing but the tallies. -/
theorem after_run (c : Coordinator) (requests : List Request) :
    ∃ tallies, c.run requests = { c with tallies } := by
  induction requests generalizing c with
  | nil => exact ⟨c.tallies, rfl⟩
  | cons request rest ih =>
    obtain ⟨tallies, h⟩ := c.after_serve request
    obtain ⟨tallies', h'⟩ := ih (c.serve request).after
    refine ⟨tallies', ?_⟩
    rw [run_cons, h', h]

/-- **Runs that agree on the tally of every round end in the same state.** -/
theorem run_eq_run_of_tally? {c : Coordinator} {l m : List Request}
    (h : ∀ r, (c.run l).tally? r = (c.run m).tally? r) : c.run l = c.run m := by
  obtain ⟨left, hl⟩ := c.after_run l
  obtain ⟨right, hm⟩ := c.after_run m
  rw [hl, hm] at h
  rw [hl, hm, Tallies.ext_get? (t := left) (u := right) h]

/-- **The order of independent neighbours makes no difference to the state.** -/
theorem run_of_swap {α : Type} {request : α → Request} {l m : List α} (c : Coordinator)
    (h : Swap request l m) : c.run (l.map request) = c.run (m.map request) := by
  obtain ⟨earlier, later, x, y, h⟩ := h
  refine run_eq_run_of_tally? fun r => ?_
  simp only [tally?_run_eq_foldl, List.map_append, List.map_cons, List.foldl_append,
    List.foldl_cons]
  rw [h.act_comm]

/-- The coordinators judge alike, have quorums of the same size, and have counted the same
votes for the round. -/
structure AgreeOn (r : Round) (c d : Coordinator) : Prop where
  judge : c.judge = d.judge
  quorum : c.quorum = d.quorum
  tally : c.tally? r = d.tally? r

namespace AgreeOn

/-- A coordinator agrees with itself. -/
theorem refl (r : Round) (c : Coordinator) : AgreeOn r c c := ⟨rfl, rfl, rfl⟩

variable {r : Round} {c d : Coordinator} {request : Request}

/-- Coordinators that agree on a round do so after the same request. -/
theorem after_serve (h : AgreeOn r c d) (request : Request) :
    AgreeOn r (c.serve request).after (d.serve request).after where
  judge := by rw [judge_after_serve, judge_after_serve, h.judge]
  quorum := by rw [quorum_after_serve, quorum_after_serve, h.quorum]
  tally := by rw [tally?_after_serve, tally?_after_serve, h.judge, h.quorum, h.tally]

/-- A request that does not touch the round need not be served by both. -/
theorem after_serve_of_not_touches (h : AgreeOn r c d) (hrequest : request.touches r = false) :
    AgreeOn r (c.serve request).after d where
  judge := by rw [judge_after_serve, h.judge]
  quorum := by rw [quorum_after_serve, h.quorum]
  tally := by rw [tally?_after_serve, Request.act_of_not_touches hrequest, h.tally]

/-- Coordinators that agree on a round answer a vote for it alike. -/
theorem certificate_serve (h : AgreeOn r c d) (hrequest : request.isFor r = true) :
    (c.serve request).certificate = (d.serve request).certificate := by
  cases request with
  | discard before => rfl
  | append v =>
    obtain rfl : v.payload.target = r := of_decide_eq_true hrequest
    rw [serve, serve]
    by_cases ha : c.judge v = .accepted
    · rw [(append_of_accepted ha).2, (append_of_accepted (h.judge ▸ ha)).2, h.tally, h.quorum]
    · rw [(append_of_not_accepted ha).2, (append_of_not_accepted (h.judge ▸ ha)).2]

end AgreeOn

/-- **An independent request before it does not change what a request is answered.** -/
theorem certificate_serve_after_serve {a b : Request} (h : a.Independent b) (c : Coordinator) :
    ((c.serve a).after.serve b).certificate = (c.serve b).certificate := by
  cases b with
  | discard before => rfl
  | append v =>
    have hfor : (Request.append v).isFor v.payload.target = true := decide_eq_true rfl
    rcases h.not_touches_or v.payload.target with ha | hv | ⟨-, hv⟩
    · exact ((AgreeOn.refl _ c).after_serve_of_not_touches ha).certificate_serve hfor
    · rw [Request.touches, hfor] at hv
      cases hv
    · cases hv

section Answers

variable {κ : Type}

/-- Labelled requests, each with the certificate it is answered with, if there is one.  The
labels tell equal requests apart, by their places or by the clients that make them. -/
def answers (c : Coordinator) (requests : List (κ × Request)) :
    List ((κ × Request) × Option Certificate) :=
  requests.zip (c.certificates (requests.map Prod.snd))

/-- The votes for a round among some requests, each with its answer. -/
def answersFor (c : Coordinator) (r : Round) (requests : List (κ × Request)) :
    List ((κ × Request) × Option Certificate) :=
  (c.answers requests).filter fun answer => answer.1.2.isFor r

/-- The first request is answered before the others. -/
theorem answers_cons (c : Coordinator) (x : κ × Request) (rest : List (κ × Request)) :
    c.answers (x :: rest) =
      (x, (c.serve x.2).certificate) :: (c.serve x.2).after.answers rest := rfl

/-- Further requests are answered behind those before. -/
theorem answers_append (c : Coordinator) (l m : List (κ × Request)) :
    c.answers (l ++ m) = c.answers l ++ (c.run (l.map Prod.snd)).answers m := by
  induction l generalizing c with
  | nil => rfl
  | cons x l ih => rw [List.cons_append, answers_cons, ih, answers_cons]; rfl

/-- **Answers are swapped with their requests.** -/
theorem swap_answers {c : Coordinator} {l m : List (κ × Request)} (h : Swap Prod.snd l m) :
    Swap (fun answer => answer.1.2) (c.answers l) (c.answers m) := by
  obtain ⟨earlier, later, x, y, h⟩ := h
  have hstate := (c.run (earlier.map Prod.snd)).run_of_swap (Swap.neighbours [] [] x y h)
  simp only [List.nil_append, List.map_cons, List.map_nil, run_cons, run_nil] at hstate
  simp only [answers_append, answers_cons]
  rw [certificate_serve_after_serve h, certificate_serve_after_serve h.symm, hstate]
  exact .neighbours _ _ _ _ h

/-- **A round sees nothing but what touches it.**  Its votes get the answers that they get
where all other requests are left out, also from a coordinator that agrees on the round
alone. -/
theorem AgreeOn.answersFor_filter_touches {r : Round} {c d : Coordinator} (h : AgreeOn r c d)
    (requests : List (κ × Request)) :
    c.answersFor r requests = d.answersFor r (requests.filter fun x => x.2.touches r) := by
  -- What both serve keeps them in agreement, and so does what `c` alone serves.
  induction requests generalizing c d with
  | nil => rfl
  | cons x rest ih =>
    rw [answersFor, answers_cons, List.filter_cons, List.filter_cons]
    cases hx : x.2.touches r with
    | true =>
      rw [if_pos rfl, answersFor, answers_cons, List.filter_cons]
      have hrest := ih (h.after_serve x.2)
      rw [answersFor, answersFor] at hrest
      rw [hrest]
      cases hfor : x.2.isFor r with
      | true => rw [if_pos rfl, if_pos rfl, h.certificate_serve hfor]
      | false => rfl
    | false =>
      obtain ⟨hfor, -⟩ := Bool.or_eq_false_iff.1 hx
      rw [if_neg (by rw [hfor]; exact Bool.false_ne_true), if_neg Bool.false_ne_true]
      exact ih (h.after_serve_of_not_touches hx)

/-- **Rounds do not interfere.**  Let two sequences of requests come out of each other by
swapping neighbours that are independent.  They leave the coordinator in the same state, and
each request is answered in the same way in both.  The votes for one round are answered in the
same order, too, and as if there were no requests but those that touch the round. -/
theorem answers_of_swaps (c : Coordinator) {l m : List (κ × Request)}
    (h : Relation.ReflTransGen (Swap Prod.snd) l m) :
    c.run (l.map Prod.snd) = c.run (m.map Prod.snd) ∧
      (c.answers l).Perm (c.answers m) ∧
      (∀ r, c.answersFor r l = c.answersFor r m) ∧
      ∀ r, c.answersFor r l = c.answersFor r (l.filter fun x => x.2.touches r) := by
  have hboth : c.run (l.map Prod.snd) = c.run (m.map Prod.snd) ∧
      (c.answers l).Perm (c.answers m) ∧ ∀ r, c.answersFor r l = c.answersFor r m := by
    induction h with
    | refl => exact ⟨rfl, .refl _, fun _ => rfl⟩
    | tail _ hswap ih =>
      obtain ⟨hstate, hperm, hfor⟩ := ih
      have hanswers := swap_answers (c := c) hswap
      exact ⟨hstate.trans (c.run_of_swap hswap), hperm.trans hanswers.perm,
        fun r => (hfor r).trans (hanswers.filter_isFor r)⟩
  exact ⟨hboth.1, hboth.2.1, hboth.2.2, fun r => (AgreeOn.refl r c).answersFor_filter_touches l⟩

end Answers

end Coordinator

namespace Sample

/-- The fourth validator asks for the round after the one that the others ask for. -/
def later₄ : Vote := ⟨⟨⟨5, 2⟩, none⟩, validator₄, vote₁.signature⟩

/-- Three votes for a round, with a vote for the next round and a discard between them. -/
def interleaved : List (Nat × Request) :=
  [(1, .append vote₁), (2, .discard ⟨9, 1⟩), (3, .append later₄), (4, .append vote₂),
    (5, .append vote₃)]

/-- The same requests, with the vote for the next round first and the discard late. -/
def reordered : List (Nat × Request) :=
  [(3, .append later₄), (1, .append vote₁), (4, .append vote₂), (2, .discard ⟨9, 1⟩),
    (5, .append vote₃)]

/-- Three swaps lead from one order of the requests to the other. -/
theorem swaps_interleaved_reordered :
    Relation.ReflTransGen (Request.Swap Prod.snd) interleaved reordered := by
  have hlater : (Request.discard ⟨9, 1⟩).Independent (.append later₄) := by decide
  have hrounds : (Request.append vote₁).Independent (.append later₄) := by decide
  have hdiscard : (Request.discard ⟨9, 1⟩).Independent (.append vote₂) := by decide
  refine .head (.neighbours [_] _ _ _ hlater) (.head (.neighbours [] _ _ _ hrounds) ?_)
  exact .single (.neighbours [_, _] _ _ _ hdiscard)

end Sample

namespace Coordinator

/-- The hypothesis of `answers_of_swaps` is satisfiable, where the votes for the round make up
a quorum. -/
theorem answers_of_swaps_sample :
    let c := new 5 Sample.validators fun _ => Judge.ofPredicate fun _ => true
    Relation.ReflTransGen (Request.Swap Prod.snd) Sample.interleaved Sample.reordered ∧
      c.run (Sample.interleaved.map Prod.snd) = c.run (Sample.reordered.map Prod.snd) ∧
      c.answersFor ⟨5, 1⟩ Sample.reordered =
        [((1, .append Sample.vote₁), none), ((4, .append Sample.vote₂), none),
          ((5, .append Sample.vote₃),
            some ⟨[Sample.vote₁, Sample.vote₂, Sample.vote₃]⟩)] := by
  intro c
  obtain ⟨hstate, -, hfor, -⟩ := c.answers_of_swaps Sample.swaps_interleaved_reordered
  refine ⟨Sample.swaps_interleaved_reordered, hstate, ?_⟩
  rw [← hfor]
  decide

end Coordinator
end RoundChange
