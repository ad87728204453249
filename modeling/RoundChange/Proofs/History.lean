/-
# The coordinator as a function of its history

What a `RoundChangeManager` knows of a round depends on nothing but the accepted votes for the
round since it was forgotten last (`heard`).  Its tally is the one that these votes make
(`Coordinator.tally?_run`), there is none while there are no such votes, and a vote yields a
certificate just where it makes up the quorum of their authors
(`Coordinator.certificate_append_run`).  Rounds of equal number and different height are
different rounds, but a discard forgets by number, whatever its height.

The induction is on the requests from the last one backwards: behind a run that is described by
its history, one request more acts on each round by itself (`Coordinator.tally?_after_serve`).
-/

import Mathlib.Data.List.DropRight
import RoundChange.Proofs.Steps
import RoundChange.Proofs.Validators

namespace RoundChange

namespace Request

/-- The request makes the round forgotten. -/
def forgets (r : Round) : Request → Bool
  | .append _ => false
  | .discard before => r.number < before.number

/-- The vote for the round that the request brings, if the judge accepts it. -/
def vote? (judge : Judge) (r : Round) : Request → Option Vote
  | .append v => if judge v = .accepted ∧ v.payload.target = r then some v else none
  | .discard _ => none

/-- What a request makes of the tally of a round. -/
def act (judge : Judge) (quorum : Nat) (r : Round) (tally? : Option Tally) (request : Request) :
    Option Tally :=
  if request.forgets r then none
  else match request.vote? judge r with
    | none => tally?
    | some v => some ((tally?.getD (Tally.new quorum)).count v).1

/-- **A request adds to the votes that a tally was made from**, or takes them all away. -/
theorem act_ofVotes? {quorum : Nat} (hq : 0 < quorum) (judge : Judge) (r : Round)
    (heard : List Vote) (request : Request) :
    act judge quorum r (Tally.ofVotes? quorum heard) request = Tally.ofVotes? quorum
      (if request.forgets r then [] else heard ++ (request.vote? judge r).toList) := by
  rw [act]
  split
  · rfl
  · cases request.vote? judge r with
    | none => rw [Option.toList_none, List.append_nil]
    | some v =>
      have hne : heard ++ (some v).toList ≠ [] := by simp
      simp only [Tally.getD_ofVotes? hq, Tally.count_ofVotes]
      rw [Tally.ofVotes?, if_neg hne, Option.toList_some]

end Request

/-- The accepted votes for a round that were appended behind the last request that makes
it forgotten, in order of arrival. -/
def heard (judge : Judge) (r : Round) (requests : List Request) : List Vote :=
  (requests.rtakeWhile fun request => !request.forgets r).filterMap (Request.vote? judge r)

section Heard

variable {judge : Judge} {r : Round} {requests : List Request}

/-- Nothing is heard before the first request. -/
@[simp] theorem heard_nil : heard judge r [] = [] := rfl

/-- The last request adds its vote to what is heard, or has it all forgotten. -/
theorem heard_concat (request : Request) : heard judge r (requests ++ [request]) =
    if request.forgets r then [] else heard judge r requests ++ (request.vote? judge r).toList := by
  rw [heard, List.rtakeWhile_concat]
  cases hf : request.forgets r with
  | true => rfl
  | false =>
    rw [if_pos (by rfl), List.filterMap_append, if_neg Bool.false_ne_true, heard]
    cases hv : request.vote? judge r <;> simp [hv]

/-- **An accepted vote for the round is heard.** -/
theorem heard_concat_append {v : Vote} (ha : judge v = .accepted) (ht : v.payload.target = r) :
    heard judge r (requests ++ [.append v]) = heard judge r requests ++ [v] := by
  rw [heard_concat]
  simp [Request.forgets, Request.vote?, ha, ht]

/-- **Any other vote is not.** -/
theorem heard_concat_append_of_not {v : Vote}
    (h : ¬(judge v = .accepted ∧ v.payload.target = r)) :
    heard judge r (requests ++ [.append v]) = heard judge r requests := by
  rw [heard_concat]
  simp [Request.forgets, Request.vote?, h]

/-- **What is heard was accepted and is for the round.** -/
theorem mem_heard {v : Vote} (h : v ∈ heard judge r requests) :
    judge v = .accepted ∧ v.payload.target = r := by
  obtain ⟨request, -, hv⟩ := List.mem_filterMap.1 h
  cases request with
  | discard before => cases hv
  | append w =>
    rw [Request.vote?] at hv
    split at hv
    · rename_i hw
      exact Option.some.inj hv ▸ hw
    · cases hv

end Heard

namespace Coordinator

/-- **A request acts on each round by itself.** -/
theorem tally?_after_serve (c : Coordinator) (request : Request) (r : Round) :
    (c.serve request).after.tally? r = request.act c.judge c.quorum r (c.tally? r) := by
  cases request with
  | discard before =>
    rw [serve, tally?_discard]
    rfl
  | append v =>
    rw [serve]
    by_cases ha : c.judge v = .accepted
    · rw [(append_of_accepted ha).1, tally?, Tallies.get?_put]
      by_cases ht : v.payload.target = r
      · simp [Request.act, Request.forgets, Request.vote?, ha, ht]
      · simp [Request.act, Request.forgets, Request.vote?, ht, tally?]
    · rw [(append_of_not_accepted ha).1]
      simp [Request.act, Request.forgets, Request.vote?, ha]

section Run

variable {c : Coordinator} (hempty : c.tallies = .empty) (hq : 0 < c.quorum)

include hempty hq

/-- **The tally of a round is the one that the votes heard for it make.** -/
theorem tally?_run (requests : List Request) (r : Round) :
    (c.run requests).tally? r = Tally.ofVotes? c.quorum (heard c.judge r requests) := by
  induction requests using List.reverseRecOn with
  | nil =>
    rw [run_nil, tally?, hempty]
    rfl
  | append_singleton requests request ih =>
    rw [run_append, run_cons, run_nil, tally?_after_serve, judge_run, quorum_run, ih,
      Request.act_ofVotes? hq, heard_concat]

/-- **A vote yields a certificate where it is accepted and makes up the quorum.** -/
theorem certificate_append_run (requests : List Request) (v : Vote) :
    ((c.run requests).append v).certificate = if c.judge v = .accepted then
      Tally.completed? c.quorum (heard c.judge v.payload.target requests) v else none := by
  split
  · rename_i ha
    have hcert := (append_of_accepted (c := c.run requests) (v := v) (by rwa [judge_run])).2
    rw [hcert, quorum_run, tally?_run hempty hq, Tally.getD_ofVotes? hq, Tally.count_ofVotes]
  · rename_i ha
    exact (append_of_not_accepted (by rwa [judge_run])).2

end Run

section New

variable (height : UInt64) (validators : List Address) (judgeOf : HeightContext → Judge)

/-- The quorum of a new coordinator counts each validator once. -/
theorem quorum_new :
    (new height validators judgeOf).quorum = Quorum.size validators.toFinset.card :=
  congrArg Quorum.size (HeightContext.size_ofValidators height validators)

/-- A quorum is never empty. -/
theorem quorum_new_pos : 0 < (new height validators judgeOf).quorum := Nat.succ_pos _

/-- **Which vote yields which certificate.**  It is accepted, it is by a new author, with
it there is a quorum of authors, and the certificate holds the first vote of each. -/
theorem certificate_append_run_new_iff (requests : List Request) (v : Vote) (c : Certificate) :
    let judge := judgeOf (HeightContext.ofValidators height validators)
    let counted := firstVotes (heard judge v.payload.target requests)
    (((new height validators judgeOf).run requests).append v).certificate = some c ↔
      judge v = .accepted ∧ counted.length + 1 = Quorum.size validators.toFinset.card ∧
        v.author ∉ counted.map Signed.author ∧ c = ⟨counted ++ [v]⟩ := by
  intro judge counted
  rw [certificate_append_run rfl (quorum_new_pos height validators judgeOf),
    Option.ite_none_right_eq_some, Tally.completed?_eq_some_iff, ← mem_authors_firstVotes,
    quorum_new]
  rfl

/-- **A coordinator is its history.**  After any requests a round has a tally just where a
vote was heard for it.  The tally then holds the first `quorum` of the first votes of each
author, and has minted where there are so many.  A vote yields a certificate where it is
accepted, the first votes fall one short of the quorum and none is by its author; the
certificate holds them, and the vote behind them. -/
theorem run_new_eq_history (requests : List Request) :
    let judge := judgeOf (HeightContext.ofValidators height validators)
    let quorum := Quorum.size validators.toFinset.card
    let c := (new height validators judgeOf).run requests
    (∀ r, let counted := firstVotes (heard judge r requests)
      match c.tally? r with
      | none => heard judge r requests = []
      | some t => heard judge r requests ≠ [] ∧ t.votes = counted.take quorum ∧
          (∀ a, t.hasVoteOf a = true ↔ ∃ v ∈ counted.take quorum, v.author = a) ∧
          (t.minted = true ↔ quorum ≤ counted.length)) ∧
    ∀ v certificate, let counted := firstVotes (heard judge v.payload.target requests)
      (c.append v).certificate = some certificate ↔
        judge v = .accepted ∧ counted.length = quorum - 1 ∧
          (∀ w ∈ counted, w.author ≠ v.author) ∧ certificate = ⟨counted ++ [v]⟩ := by
  intro judge quorum c
  have hquorum : (new height validators judgeOf).quorum = quorum :=
    quorum_new height validators judgeOf
  refine ⟨fun r => ?_, fun v certificate => ?_⟩
  · have htally : c.tally? r = Tally.ofVotes? quorum (heard judge r requests) := by
      rw [← hquorum]
      exact tally?_run rfl (quorum_new_pos height validators judgeOf) requests r
    rw [htally, Tally.ofVotes?]
    by_cases hnil : heard judge r requests = []
    · rw [if_pos hnil]
      exact hnil
    · rw [if_neg hnil]
      exact ⟨hnil, rfl, fun a => Tally.hasVoteOf_iff, decide_eq_true_iff⟩
  · have hpos : 0 < quorum := hquorum ▸ quorum_new_pos height validators judgeOf
    have hlen : ∀ n : Nat, n + 1 = quorum ↔ n = quorum - 1 := by omega
    refine (certificate_append_run_new_iff height validators judgeOf requests v
      certificate).trans ?_
    rw [hlen, List.mem_map]
    simp only [not_exists, not_and, ne_eq]
    rfl

end New

end Coordinator
end RoundChange
