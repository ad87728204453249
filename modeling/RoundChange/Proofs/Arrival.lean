/-
# The order of arrival

Votes reach a coordinator in any order, and some of them more than once.  What they come to
does not depend on it: which rounds are certified and tracked, how many votes are counted for
each of them and whether it has minted follow from the number of validators that ask for the
round (`Coordinator.Outcome`), and that is a matter of which votes there are, not of when they
come (`supporters_congr`).

Which votes are counted does depend on it.  Of a validator that votes twice the first vote
counts, and a tally takes no more votes than make up the quorum.

Where clients share the coordinator (`SharedRoundChangeManager`), the order is that in which
they are served.  However that turns out and whoever brings which vote, one of them is handed
the certificate of a round that a quorum of validators asks for
(`Coordinator.length_handed_new`).
-/

import RoundChange.Proofs.Certificates
import RoundChange.Proofs.Handouts
import RoundChange.Schedule

namespace RoundChange

/-- The authors of those votes that are accepted and for the round. -/
def supporters (judge : Judge) (r : Round) (votes : List Vote) : Finset Address :=
  ((votes.filter fun v => judge v = .accepted ∧ v.payload.target = r).map Signed.author).toFinset

section Supporters

variable {judge : Judge} {r : Round} {votes l m : List Vote}

/-- Those who ask for a round are the authors of an accepted vote for it. -/
theorem mem_supporters {a : Address} : a ∈ supporters judge r votes ↔
    ∃ v ∈ votes, (judge v = .accepted ∧ v.payload.target = r) ∧ v.author = a := by
  simp only [supporters, List.mem_toFinset, List.mem_map, List.mem_filter, decide_eq_true_eq,
    and_assoc]

/-- **Order and repetitions make no difference** to who asks for a round. -/
theorem supporters_congr (h : ∀ v, v ∈ l ↔ v ∈ m) :
    supporters judge r l = supporters judge r m := by
  ext a
  rw [mem_supporters, mem_supporters]
  simp only [h]

/-- **The authors heard of votes alone** are those who ask for the round. -/
theorem authors_heard_map_append (votes : List Vote) :
    ((heard judge r (votes.map .append)).map Signed.author).toFinset =
      supporters judge r votes := by
  rw [heard_map_append, supporters]

/-- A vote is heard where somebody asks for the round. -/
theorem heard_map_append_eq_nil_iff :
    heard judge r (votes.map .append) = [] ↔ (supporters judge r votes).card = 0 := by
  rw [← authors_heard_map_append, Finset.card_eq_zero, List.toFinset_eq_empty_iff,
    List.map_eq_nil_iff]

end Supporters

namespace Coordinator

/-- What votes come to for a round that so many validators ask for: a certificate if they are
a quorum, and a tally if there are any, which counts one vote of each of them up to the
quorum and has minted if they are one. -/
structure Outcome (c : Coordinator) (votes : List Vote) (r : Round) (supporters : Nat) :
    Prop where
  certificates : (c.certificatesFor r (votes.map .append)).length =
    if c.quorum ≤ supporters then 1 else 0
  tracked : ∀ order, r ∈ (c.run (votes.map .append)).rounds order ↔ 0 < supporters
  counted : 0 < supporters → ∃ t, (c.run (votes.map .append)).tally? r = some t ∧
    t.votes.length = min c.quorum supporters ∧ t.minted = decide (c.quorum ≤ supporters)

/-- **The number of those who ask for a round decides what votes come to.** -/
theorem outcome_supporters {c : Coordinator} (hempty : c.tallies = .empty) (hq : 0 < c.quorum)
    (votes : List Vote) (r : Round) :
    c.Outcome votes r (supporters c.judge r votes).card := by
  have htally := tally?_run hempty hq (votes.map .append) r
  have hcount := length_firstVotes (heard c.judge r (votes.map .append))
  rw [authors_heard_map_append] at hcount
  have hsome : 0 < (supporters c.judge r votes).card →
      (c.run (votes.map .append)).tally? r =
        some (Tally.ofVotes c.quorum (heard c.judge r (votes.map .append))) := by
    intro hpos
    have hne : heard c.judge r (votes.map .append) ≠ [] := fun hnil =>
      Nat.ne_of_gt hpos (heard_map_append_eq_nil_iff.1 hnil)
    rw [htally, Tally.ofVotes?, if_neg hne]
  constructor
  case certificates =>
    rw [length_certificatesFor hempty hq forgets_of_mem_map_append, authors_heard_map_append]
  case tracked =>
    intro order
    rw [mem_rounds_iff]
    constructor
    · rintro ⟨t, ht⟩
      refine Nat.pos_of_ne_zero fun hzero => ?_
      have hnil := heard_map_append_eq_nil_iff.2 hzero
      rw [Tally.ofVotes?, if_pos hnil] at htally
      cases htally.symm.trans ht
    · intro hpos
      exact ⟨_, hsome hpos⟩
  case counted =>
    intro hpos
    refine ⟨_, hsome hpos, ?_, ?_⟩
    · rw [Tally.ofVotes, List.length_take, hcount]
    · rw [Tally.ofVotes, hcount]

/-- **Order of arrival and repeated delivery do not change what is certified.**  Let two
lists hold the same votes, in any order and with any repetitions, and let each be appended
to a new coordinator.  Then every round comes to the same in both, whatever the judge:
it is certified once where a quorum of validators asks for it and not at all otherwise, it
is tracked where anyone does, and as many votes are counted as validators ask for it, up to
the quorum. -/
theorem outcome_of_mem_iff (height : UInt64) (validators : List Address)
    (judgeOf : HeightContext → Judge) {l m : List Vote} (hsame : ∀ v, v ∈ l ↔ v ∈ m)
    (r : Round) :
    let c := new height validators judgeOf
    let supporters := supporters (judgeOf (HeightContext.ofValidators height validators)) r l
    c.quorum = Quorum.size validators.toFinset.card ∧
      c.Outcome l r supporters.card ∧ c.Outcome m r supporters.card := by
  intro c supporters
  have hpos := quorum_new_pos height validators judgeOf
  have hl : c.Outcome l r supporters.card := outcome_supporters rfl hpos l r
  have hm := outcome_supporters (c := c) rfl hpos m r
  rw [← supporters_congr hsame] at hm
  exact ⟨quorum_new height validators judgeOf, hl, hm⟩

section Clients

variable {κ κ' : Type}

/-- The certificates for a round that the clients of a shared coordinator are handed, each with
the client that gets it. -/
def handed (c : Coordinator) (r : Round) (schedule : List (κ × Request)) : List (κ × Certificate) :=
  (c.serveClients schedule).filterMap fun (client, reaction) =>
    (reaction.certificate.filter fun certificate => certificate.round? = some r).map (client, ·)

/-- **Between them the clients are handed** what one that makes all their requests is. -/
theorem handed_snd (c : Coordinator) (r : Round) (schedule : List (κ × Request)) :
    (c.handed r schedule).map Prod.snd = c.certificatesFor r (schedule.map Prod.snd) := by
  rw [certificatesFor, certificates, ← serveClients_snd, handed, List.map_filterMap,
    List.map_map, List.filterMap_map, List.filter_filterMap]
  refine List.filterMap_congr fun told _ => ?_
  rw [Option.map_map]
  exact Option.map_id' ..

/-- **One client is handed the certificate of a round** where a quorum of validators asks for
it, and none otherwise, in whatever order the clients are served and whoever brings which
vote. -/
theorem length_handed_new (height : UInt64) (validators : List Address)
    (judgeOf : HeightContext → Judge) (r : Round) (schedule : List (κ × Vote)) :
    ((new height validators judgeOf).handed r
        (schedule.map fun (client, v) => (client, .append v))).length =
      if Quorum.size validators.toFinset.card ≤
        (supporters (judgeOf (HeightContext.ofValidators height validators)) r
          (schedule.map Prod.snd)).card then 1 else 0 := by
  let c := new height validators judgeOf
  have hpos : 0 < c.quorum := quorum_new_pos height validators judgeOf
  have hcount : (c.certificatesFor r ((schedule.map Prod.snd).map .append)).length =
      if c.quorum ≤ (supporters c.judge r (schedule.map Prod.snd)).card then 1 else 0 :=
    (outcome_supporters rfl hpos (schedule.map Prod.snd) r).certificates
  rw [← quorum_new height validators judgeOf]
  refine Eq.trans ?_ hcount
  rw [List.map_map, ← List.length_map Prod.snd, handed_snd, List.map_map]
  rfl

/-- **Two schedules of the same votes** have the same certificates handed out, one for a round or
none. -/
theorem length_handed_congr (height : UInt64) (validators : List Address)
    (judgeOf : HeightContext → Judge) (r : Round) {l : List (κ × Vote)} {m : List (κ' × Vote)}
    (hsame : ∀ v, v ∈ l.map Prod.snd ↔ v ∈ m.map Prod.snd) :
    ((new height validators judgeOf).handed r
        (l.map fun (client, v) => (client, .append v))).length =
      ((new height validators judgeOf).handed r
        (m.map fun (client, v) => (client, .append v))).length := by
  rw [length_handed_new, length_handed_new, supporters_congr hsame]

end Clients

end Coordinator

namespace Sample

/-- The first validator votes again, this time without a prepared certificate. -/
def equivocal₁ : Vote := ⟨⟨⟨5, 1⟩, none⟩, validator₁, vote₁.signature⟩

end Sample

namespace Coordinator

/-- The hypothesis of `outcome_of_mem_iff` is satisfiable, where one validator votes in two
ways, the votes come in another order and one of them comes twice. -/
theorem outcome_of_mem_iff_sample :
    let l := [Sample.vote₁, Sample.equivocal₁, Sample.vote₂, Sample.vote₃]
    let m := [Sample.vote₃, Sample.equivocal₁, Sample.vote₃, Sample.vote₂, Sample.vote₁]
    let c := new 5 Sample.validators fun _ => Judge.ofPredicate fun _ => true
    (∀ v, v ∈ l ↔ v ∈ m) ∧ c.Outcome l ⟨5, 1⟩ 3 ∧ c.Outcome m ⟨5, 1⟩ 3 := by
  intro l m c
  have hsame : ∀ v, v ∈ l ↔ v ∈ m := by
    intro v
    simp only [l, m, List.mem_cons, List.not_mem_nil, or_false]
    tauto
  have hcard : (supporters (Judge.ofPredicate fun _ => true) ⟨5, 1⟩ l).card = 3 := by
    decide
  obtain ⟨-, hl, hm⟩ := outcome_of_mem_iff 5 Sample.validators
    (fun _ => Judge.ofPredicate fun _ => true) hsame ⟨5, 1⟩
  rw [hcard] at hl hm
  exact ⟨hsame, hl, hm⟩

end Coordinator
end RoundChange
