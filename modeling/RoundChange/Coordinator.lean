/-
# The coordinator of a height

`RoundChangeManager`: counts the votes of one height in one tally for each round, and hands out
a certificate for a round with the vote that makes up its quorum.

| `Coordinator` | `RoundChangeManager` | |
| --- | --- | --- |
| `new` | `new` | takes a list of validators as it is |
| `ofConfigM` | `from_config` | checks a configuration, then makes a judge for it |
| `append` | `append_round_change_message` | counts a vote, if the judge accepts it |
| `discard` | `discard_rounds_prior_to` | forgets rounds; later votes start new tallies |
| `tally?` | `status` | shows the tally of a round |
| `rounds` | `tracked_rounds` | lists the rounds that have a tally, by number |

Both requests answer with a `Reaction`: the coordinator after it, the certificate if there is
one, and what is reported.  Tallies are kept in the key order of their rounds, so that
coordinators with the same tallies are equal.  That order is not for anyone to see: a hash map
hands out its keys in no order that it promises, so the rounds are listed for any order of the
keys (`KeyOrder`), and sorted by number from there.
-/

import RoundChange.Event
import RoundChange.Tally

namespace RoundChange

/-- The tallies of a height in the key order of their rounds, one for each. -/
structure Tallies where
  entries : List (Round × Tally)
  increasing : entries.Pairwise fun a b => a.1.before b.1 = true
deriving DecidableEq

namespace Tallies

/-- No tallies. -/
def empty : Tallies := ⟨[], .nil⟩

/-- The tally of a round, if there is one. -/
def get? (t : Tallies) (r : Round) : Option Tally :=
  (t.entries.find? fun e => e.1 = r).map Prod.snd

/-- The rounds that have a tally, in key order. -/
def rounds (t : Tallies) : List Round := t.entries.map Prod.fst

/-- How many rounds have a tally. -/
def size (t : Tallies) : Nat := t.entries.length

/-- Puts the tally of a round into a list in key order, in place of the one there. -/
def putSorted (r : Round) (tally : Tally) : List (Round × Tally) → List (Round × Tally)
  | [] => [(r, tally)]
  | e :: rest =>
    if r.before e.1 then (r, tally) :: e :: rest
    else if r = e.1 then (r, tally) :: rest
    else e :: putSorted r tally rest

/-- What is in the list behind that was put there or in it before. -/
theorem mem_putSorted {r : Round} {tally : Tally} {l : List (Round × Tally)} {e : Round × Tally}
    (h : e ∈ putSorted r tally l) : e = (r, tally) ∨ e ∈ l := by
  induction l with
  | nil => exact .inl (List.mem_singleton.1 h)
  | cons x rest ih =>
    rw [putSorted] at h
    split at h
    · exact List.mem_cons.1 h
    · split at h
      · exact (List.mem_cons.1 h).imp_right (List.mem_cons_of_mem _)
      · rcases List.mem_cons.1 h with rfl | h
        · exact .inr (List.mem_cons_self ..)
        · exact (ih h).imp_right (List.mem_cons_of_mem _)

/-- The list stays in key order. -/
theorem pairwise_putSorted {r : Round} {tally : Tally} {l : List (Round × Tally)}
    (h : l.Pairwise fun a b => a.1.before b.1 = true) :
    (putSorted r tally l).Pairwise fun a b => a.1.before b.1 = true := by
  induction l with
  | nil => simp [putSorted]
  | cons x rest ih =>
    have h' := List.pairwise_cons.1 h
    rw [putSorted]
    split
    · rename_i hr
      refine List.pairwise_cons.2 ⟨fun e he => ?_, h⟩
      rcases List.mem_cons.1 he with rfl | he
      · exact hr
      · exact Round.before_trans hr (h'.1 e he)
    · split
      · rename_i hr
        exact List.pairwise_cons.2 ⟨fun e he => hr ▸ h'.1 e he, h'.2⟩
      · rename_i hr hne
        refine List.pairwise_cons.2 ⟨fun e he => ?_, ih h'.2⟩
        rcases mem_putSorted he with rfl | he
        · exact Round.before_of_not_before_of_ne hr hne
        · exact h'.1 e he

/-- Puts the tally of a round in place of the one there, if there is one. -/
def put (t : Tallies) (r : Round) (tally : Tally) : Tallies :=
  ⟨putSorted r tally t.entries, pairwise_putSorted t.increasing⟩

/-- Keeps the tallies of the rounds that are not earlier than a given one. -/
def dropBefore (t : Tallies) (r : Round) : Tallies :=
  ⟨t.entries.filter fun e => !e.1.isEarlier r, t.increasing.filter _⟩

end Tallies

/-- The order in which a map hands out its keys: any arrangement of them. -/
structure KeyOrder where
  arrange : List Round → List Round
  perm : ∀ keys, (arrange keys).Perm keys

/-- The keys in the order in which the tallies are kept. -/
def KeyOrder.asStored : KeyOrder := ⟨id, fun _ => .refl _⟩

/-- What is known at a height: a `RoundChangeManager`. -/
structure Coordinator where
  height : UInt64
  validators : ValidatorSet
  quorum : Nat
  judge : Judge
  tallies : Tallies

/-- What comes of a request. -/
structure Reaction where
  after : Coordinator
  certificate : Option Certificate
  events : List Event

/-- What a coordinator is asked to do. -/
inductive Request where
  | append (v : Vote)
  | discard (before : Round)
deriving DecidableEq

namespace Coordinator

/-- The coordinator of a height, with the judge that is made for its context. -/
def new (height : UInt64) (validators : List Address) (judgeOf : HeightContext → Judge) :
    Coordinator :=
  let context := HeightContext.ofValidators height validators
  { height
    validators := context.validators
    quorum := Quorum.size context.validators.size
    judge := judgeOf context
    tallies := .empty }

/-- The coordinator of a height, where making the judge may have effects. -/
def newM {m : Type → Type} [Monad m] (height : UInt64) (validators : List Address)
    (makeJudge : HeightContext → m Judge) : m Coordinator := do
  let judge ← makeJudge (HeightContext.ofValidators height validators)
  return new height validators fun _ => judge

/-- The coordinator of a configuration, which is checked before a judge is made. -/
def ofConfigM {m : Type → Type} [Monad m] (config : HeightConfig)
    (makeJudge : HeightContext → m Judge) : m (Except ConfigError Coordinator) :=
  match config.check with
  | .error e => return .error e
  | .ok () => Except.ok <$> newM config.height config.validators makeJudge

/-- The coordinator of a configuration, if it passes its check. -/
def ofConfig (config : HeightConfig) (judgeOf : HeightContext → Judge) :
    Except ConfigError Coordinator :=
  (ofConfigM config fun context => (pure (judgeOf context) : Id Judge)).run

/-- What is reported of a new coordinator. -/
def created (c : Coordinator) : Event := .created c.height c.validators.size c.quorum

/-- The tally of a round, if a vote for it was accepted. -/
def tally? (c : Coordinator) (r : Round) : Option Tally := c.tallies.get? r

/-- The rounds that have a tally, the lowest number first.  Rounds of one number come in the
order in which the keys are handed out. -/
def rounds (c : Coordinator) (order : KeyOrder) : List Round :=
  Round.byNumber (order.arrange c.tallies.rounds)

/-- Counts a vote for its round, if the judge accepts it; the certificate of the round
comes with the vote that makes up the quorum. -/
def append (c : Coordinator) (v : Vote) : Reaction :=
  let target := v.payload.target
  match c.judge v with
  | .rejected reason =>
    ⟨c, none, (Ruling.rejected reason).events ++ [.invalid v.author target]⟩
  | .accepted =>
    let tally := ((c.tally? target).getD (Tally.new c.quorum)).add v
    if tally.isReady then
      match tally.mint with
      | (.ok certificate, tally) =>
        ⟨{ c with tallies := c.tallies.put target tally }, some certificate,
         [.reached target certificate.votes.length]⟩
      | (.error e, tally) =>
        ⟨{ c with tallies := c.tallies.put target tally }, none, [.notMinted target e]⟩
    else
      ⟨{ c with tallies := c.tallies.put target tally }, none,
       [.stored target tally.votes.length c.quorum tally.minted]⟩

/-- Forgets the rounds whose number is below that of a given one, whatever its height. -/
def discard (c : Coordinator) (before : Round) : Reaction :=
  let kept := c.tallies.dropBefore before
  let warning := if before.height = c.height then [] else [.otherHeight c.height before.height]
  ⟨{ c with tallies := kept }, none,
   warning ++ [.discarded before (c.tallies.size - kept.size) kept.size]⟩

/-- Does what is asked. -/
def serve (c : Coordinator) : Request → Reaction
  | .append v => c.append v
  | .discard before => c.discard before

/-- The coordinator after some requests. -/
def run (c : Coordinator) (requests : List Request) : Coordinator :=
  requests.foldl (fun c request => (c.serve request).after) c

/-- What comes of each of some requests, made one after the other. -/
def reactions : Coordinator → List Request → List Reaction
  | _, [] => []
  | c, request :: rest => c.serve request :: (c.serve request).after.reactions rest

/-- No requests change nothing. -/
@[simp] theorem run_nil (c : Coordinator) : c.run [] = c := rfl

/-- The first request is served first. -/
@[simp] theorem run_cons (c : Coordinator) (request : Request) (rest : List Request) :
    c.run (request :: rest) = (c.serve request).after.run rest := rfl

/-- A run goes on from where another one ended. -/
@[simp] theorem run_append (c : Coordinator) (l m : List Request) :
    c.run (l ++ m) = (c.run l).run m := List.foldl_append ..

/-- **A configuration that passes its check makes the coordinator of its list.** -/
theorem ofConfig_of_check {config : HeightConfig} {judgeOf : HeightContext → Judge}
    (h : config.check = .ok ()) :
    ofConfig config judgeOf = .ok (new config.height config.validators judgeOf) := by
  rw [ofConfig, ofConfigM, h]
  rfl

/-- **Requests change neither the height nor its validators, quorum and judge.** -/
theorem after_serve (c : Coordinator) (request : Request) :
    ∃ tallies, (c.serve request).after = { c with tallies } := by
  cases request with
  | discard before => exact ⟨_, rfl⟩
  | append v =>
    simp only [serve, append]
    split
    · exact ⟨c.tallies, rfl⟩
    · split
      · split <;> exact ⟨_, rfl⟩
      · exact ⟨_, rfl⟩

end Coordinator
end RoundChange
