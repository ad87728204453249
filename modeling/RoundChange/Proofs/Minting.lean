/-
# A tally that is asked in any order

A coordinator asks a tally for its certificate when it is ready, and only then.  The tally
itself can be given votes and asked for a certificate in any order (`Tally.run`): before there
is a quorum, again after a mint, by authors who vote twice, and with a quorum of zero.

Whatever the order of `add_message` and `create_round_change_certificate`, a tally is in one of
two stages (`Tally.Stage`).

| stage | certificates so far | votes |
| --- | --- | --- |
| `collecting` | none | the first one of each author that was added |
| `minted` | one | those of the certificate |

The first passes into the second with a mint that finds enough votes, and nothing leads out of
the second (`Tally.Stage.after`).  In both the set of the authors is that of the votes.
-/

import RoundChange.Proofs.Counting

namespace RoundChange
namespace Tally

/-- What a tally is asked to do. -/
inductive Call where
  | add (v : Vote)
  | mint
deriving DecidableEq

/-- The vote that a call adds. -/
def Call.vote? : Call → Option Vote
  | add v => some v
  | mint => none

/-- The tally after a call. -/
def after (t : Tally) : Call → Tally
  | .add v => t.add v
  | .mint => t.mint.2

/-- The certificate that a call yields. -/
def certificate? (t : Tally) : Call → Option Certificate
  | .add _ => none
  | .mint => t.mint.1.toOption

/-- The tally after some calls. -/
def run (t : Tally) (calls : List Call) : Tally := calls.foldl after t

/-- The certificates that come of some calls, in order. -/
def certificates : Tally → List Call → List Certificate
  | _, [] => []
  | t, call :: rest => (t.certificate? call).toList ++ (t.after call).certificates rest

/-- The last call is made last. -/
theorem run_concat (t : Tally) (calls : List Call) (call : Call) :
    t.run (calls ++ [call]) = (t.run calls).after call := List.foldl_append ..

/-- What the last call yields comes last. -/
theorem certificates_concat (t : Tally) (calls : List Call) (call : Call) :
    t.certificates (calls ++ [call]) =
      t.certificates calls ++ ((t.run calls).certificate? call).toList := by
  induction calls generalizing t with
  | nil => exact List.append_nil _
  | cons first rest ih =>
    rw [List.cons_append, certificates, ih, certificates, List.append_assoc]
    rfl

/-- How far a tally has come, for the votes that were added to it and the certificates that
it has yielded. -/
inductive Stage (quorum : Nat) (added : List Vote) : List Certificate → Tally → Prop where
  | collecting : Stage quorum added [] (holding quorum (firstVotes added) false)
  | minted (votes : List Vote) : Stage quorum added [⟨votes⟩] (holding quorum votes true)

section Mint

variable {t : Tally}

/-- **A mint succeeds where the tally is ready**, with all votes. -/
theorem mint_eq_ok_iff {c : Certificate} {after : Tally} : t.mint = (.ok c, after) ↔
    t.isReady = true ∧ c = ⟨t.votes⟩ ∧ after = { t with minted := true } := by
  cases hready : t.isReady with
  | true => simp only [mint_of_isReady hready, Except.ok.injEq, Prod.mk.injEq, true_and, eq_comm]
  | false =>
    simp only [mint_of_not_isReady hready, Prod.mk.injEq, reduceCtorEq, Bool.false_eq_true,
      false_and]

/-- **A mint fails where it is not**, says how far the tally is, and leaves it there. -/
theorem mint_eq_error_iff {e : NotReady} {after : Tally} : t.mint = (.error e, after) ↔
    ¬t.isReady = true ∧ e = ⟨t.votes.length, t.quorum, t.minted⟩ ∧ after = t := by
  cases hready : t.isReady with
  | true => simp only [mint_of_isReady hready, Prod.mk.injEq, reduceCtorEq, not_true, false_and]
  | false =>
    simp only [mint_of_not_isReady hready, Prod.mk.injEq, Except.error.injEq, Bool.false_eq_true,
      not_false_eq_true, true_and, eq_comm]

/-- **A call to a tally that has minted** changes nothing and yields nothing. -/
theorem after_of_minted (h : t.minted = true) (call : Call) :
    t.after call = t ∧ t.certificate? call = none := by
  cases call with
  | add v => exact ⟨add_of_minted h v, rfl⟩
  | mint =>
    have hmint := mint_of_not_isReady (isReady_eq_false_of_minted h)
    simp only [after, certificate?, hmint, true_and]
    rfl

/-- **Nor do any calls after a mint.** -/
theorem run_of_minted (h : t.minted = true) (calls : List Call) :
    t.run calls = t ∧ t.certificates calls = [] := by
  induction calls with
  | nil => exact ⟨rfl, rfl⟩
  | cons call rest ih =>
    obtain ⟨hafter, hnone⟩ := after_of_minted h call
    rw [run, List.foldl_cons, hafter, certificates, hnone, hafter]
    exact ih

end Mint

section Run

variable {quorum : Nat} {added : List Vote} {issued : List Certificate} {t : Tally}

/-- **A vote is held if its author is new.** -/
theorem add_holding_firstVotes (added : List Vote) (v : Vote) :
    (holding quorum (firstVotes added) false).add v =
      holding quorum (firstVotes (added ++ [v])) false := by
  by_cases hmem : v.author ∈ added.map Signed.author
  · rw [add_holding_of_mem (mem_authors_firstVotes.2 hmem), firstVotes_concat_of_mem hmem]
  · rw [add_holding_of_not_mem (mt mem_authors_firstVotes.1 hmem),
      firstVotes_concat_of_not_mem hmem]

/-- **What a call makes of the stage of a tally.** -/
theorem Stage.after (h : Stage quorum added issued t) (call : Call) :
    Stage quorum (added ++ call.vote?.toList) (issued ++ (t.certificate? call).toList)
      (t.after call) := by
  cases h with
  | collecting =>
    cases call with
    | add v =>
      rw [Tally.after, add_holding_firstVotes]
      exact .collecting
    | mint =>
      rw [Call.vote?, Option.toList_none, List.append_nil, List.nil_append, Tally.after,
        certificate?]
      cases hready : (holding quorum (firstVotes added) false).isReady with
      | true =>
        rw [mint_of_isReady hready]
        exact .minted (firstVotes added)
      | false =>
        rw [mint_of_not_isReady hready]
        exact .collecting
  | minted votes =>
    obtain ⟨hafter, hnone⟩ := after_of_minted (t := holding quorum votes true) rfl call
    rw [hafter, hnone, Option.toList_none, List.append_nil]
    exact .minted votes

/-- The flag tells whether a certificate was yielded, and the quorum stays. -/
theorem Stage.minted_iff (h : Stage quorum added issued t) :
    (t.minted = false ↔ issued = []) ∧ t.quorum = quorum := by
  cases h with
  | collecting => exact ⟨iff_of_true rfl rfl, rfl⟩
  | minted votes => exact ⟨iff_of_false Bool.noConfusion (List.cons_ne_nil _ _), rfl⟩

/-- The votes are the first ones, or those of the certificate. -/
theorem Stage.votes_eq (h : Stage quorum added issued t) :
    (issued = [] → t.votes = firstVotes added) ∧ (issued ≠ [] → issued = [⟨t.votes⟩]) := by
  cases h with
  | collecting => exact ⟨fun _ => rfl, fun hsome => absurd rfl hsome⟩
  | minted votes => exact ⟨fun hnone => absurd hnone (List.cons_ne_nil _ _), fun _ => rfl⟩

/-- **The set of the authors is that of the votes.** -/
theorem Stage.hasVoteOf_iff (h : Stage quorum added issued t) {a : Address} :
    t.hasVoteOf a = true ↔ ∃ v ∈ t.votes, v.author = a := by
  cases h with
  | collecting => exact Tally.hasVoteOf_iff
  | minted votes => exact Tally.hasVoteOf_iff

/-- **After any calls** a tally is in the stage of the votes that they added and of the
certificates that came of them. -/
theorem stage_run_new (quorum : Nat) (calls : List Call) :
    Stage quorum (calls.filterMap Call.vote?) ((new quorum).certificates calls)
      ((new quorum).run calls) := by
  induction calls using List.reverseRecOn with
  | nil => exact .collecting
  | append_singleton calls call ih =>
    have hvotes : [call].filterMap Call.vote? = call.vote?.toList := by
      cases call <;> rfl
    rw [run_concat, certificates_concat, List.filterMap_append, hvotes]
    exact ih.after call

/-- **A tally mints at most once and is frozen then**, in whatever order it is given votes and
asked for its certificate, and whatever its quorum.  Until a mint succeeds it holds the first
vote of each author that was added, in order of arrival.  A mint succeeds where none did before
and there are as many votes as the quorum, and its certificate holds them all; any other mint
fails with the count, the quorum and whether one succeeded before, and changes nothing.  Once a
mint has succeeded its certificate is the only one, and no calls change the tally again.  All
the time the set of the authors is that of the votes. -/
theorem run_new_mints_once (quorum : Nat) (calls : List Call) :
    let t := (new quorum).run calls
    let issued := (new quorum).certificates calls
    (issued = [] → t.votes = firstVotes (calls.filterMap Call.vote?)) ∧
      (∀ c after, t.mint = (.ok c, after) ↔
        (issued = [] ∧ quorum ≤ t.votes.length) ∧ c = ⟨t.votes⟩ ∧
          after = { t with minted := true }) ∧
      (∀ e after, t.mint = (.error e, after) ↔
        ¬(issued = [] ∧ quorum ≤ t.votes.length) ∧ e = ⟨t.votes.length, quorum, t.minted⟩ ∧
          after = t) ∧
      (t.minted = true ↔ issued ≠ []) ∧
      (issued ≠ [] → issued = [⟨t.votes⟩] ∧
        ∀ later, t.run later = t ∧ t.certificates later = []) ∧
      ∀ a, t.hasVoteOf a = true ↔ ∃ v ∈ t.votes, v.author = a := by
  intro t issued
  have hstage : Stage quorum (calls.filterMap Call.vote?) issued t := stage_run_new quorum calls
  obtain ⟨hopen, hquorum⟩ := hstage.minted_iff
  have hclosed : t.minted = true ↔ issued ≠ [] := by
    rw [Ne, ← hopen, Bool.not_eq_false]
  have hready : t.isReady = true ↔ issued = [] ∧ quorum ≤ t.votes.length := by
    rw [isReady_iff, hopen, hquorum]
  refine ⟨hstage.votes_eq.1, fun c after => ?_, fun e after => ?_, hclosed,
    fun hsome => ⟨hstage.votes_eq.2 hsome, run_of_minted (hclosed.2 hsome)⟩,
    fun a => hstage.hasVoteOf_iff⟩
  · rw [mint_eq_ok_iff, hready]
  · rw [mint_eq_error_iff, hready, hquorum]

/-- A quorum of zero is there from the start, and yields the empty certificate once. -/
example : (new 0).certificates [.mint, .mint] = [⟨[]⟩] := by decide

end Run

end Tally
end RoundChange
