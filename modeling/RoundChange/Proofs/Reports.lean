/-
# What is reported of a vote

All checks that `RoundChangeMessageValidator` makes of a vote stand in one list, in their order
and with the level, the text and the fields of the event that each of them calls for
(`HeightContext.checks`).

| check of | level | text of the event |
| --- | --- | --- |
| the author | `DEBUG` | round change from non-validator |
| the height voted for | `DEBUG` | round change targets another height |
| the signature of the vote | `WARN` | round change signature does not verify |
| the certificate's height | `DEBUG` | prepared certificate is for another height |
| the certificate's round | `DEBUG` | prepared certificate is not from an earlier round |
| the number of prepares | `DEBUG` | prepared certificate has too few prepares |
| a prepare: its author is new | `DEBUG` | duplicate prepare in prepared certificate |
| and a validator | `DEBUG` | prepare from non-validator |
| its round and digest | `DEBUG` | prepare does not match prepared proposal |
| its signature | `WARN` | prepare signature does not verify |

A check is said by itself there: whether a prepare repeats an author is asked of the prepares
before it in the certificate, not of those that passed.  The checks of a certificate are those
of its head and then those of its prepares one after the other, so the first that fails is that
of the first prepare that is not in order.

The height reports of a vote the event of the first check that fails, and nothing where none
does (`HeightContext.events_judge`).  `append_round_change_message` reports that event and then
that the vote was not counted, or one event about a vote that was
(`Coordinator.events_append_of_stored`, `Coordinator.events_append_of_issued`): how far the
tally of its round is, or that it has a certificate.  That a ready tally yields no certificate
is never reported.
-/

import RoundChange.Proofs.Admission
import RoundChange.Proofs.History

namespace RoundChange

/-- What a log gets of an event: the level, the message, and the fields. -/
def Event.report (e : Event) : Level × String × List (String × String) :=
  (e.level, e.message, e.fields)

/-- What a log gets of the event of a rejection. -/
def Rejection.report (reason : Rejection) : Level × String × List (String × String) :=
  (Event.refused reason).report

/-- A check: whether it passes, whether it is one of a signature, and what is to be said where
it fails. -/
structure Check where
  passes : Bool
  ofSignature : Bool
  message : String
  fields : List (String × String)

/-- What a log is to get of a check that fails: a warning if it is one of a signature, and
nothing above the lowest level otherwise. -/
def Check.report (check : Check) : Level × String × List (String × String) :=
  (if check.ofSignature then .warn else .debug, check.message, check.fields)

/-- The first check that fails. -/
def firstFailure? (checks : List Check) : Option Check := checks.find? fun check => !check.passes

/-- One check of a chain: its reason is given where it fails, and the rest is looked at where it
passes.  What is reported is the event of the first check that fails if the reason's event is
that of the check. -/
theorem map_report_ite {fails : Prop} [Decidable fails] {reason : Rejection} {check : Check}
    {others : Option Rejection} {rest : List Check} (hcheck : check.passes = !decide fails)
    (hreport : reason.report = check.report)
    (hrest : others.map Rejection.report = (firstFailure? rest).map Check.report) :
    (if fails then some reason else others).map Rejection.report =
      (firstFailure? (check :: rest)).map Check.report := by
  rw [firstFailure?, List.find?_cons, hcheck, Bool.not_not]
  by_cases hfails : fails
  · rw [if_pos hfails, decide_eq_true hfails, Option.map_some, Option.map_some, hreport]
  · rw [if_neg hfails, decide_eq_false hfails, hrest, firstFailure?]

namespace HeightContext

/-- The checks of the prepare that has so many before it in the certificate. -/
def prepareChecks (ctx : HeightContext) (c : PreparedCertificate) (p : Signed Prepare)
    (index : Nat) : List Check :=
  let author := [("author", p.author.text)]
  [⟨p.author ∉ (c.prepares.take index).map Signed.author, false,
    "duplicate prepare in prepared certificate", author⟩,
   ⟨p.author ∈ ctx.validators, false, "prepare from non-validator", author⟩,
   ⟨p.payload.round = c.round ∧ p.payload.digest = c.digest, false,
    "prepare does not match prepared proposal", author⟩,
   ⟨p.verifies, true, "prepare signature does not verify", author⟩]

/-- The checks of the prepared certificate of a vote for `target`. -/
def preparedChecks (ctx : HeightContext) (target : Round) (c : PreparedCertificate) : List Check :=
  [⟨c.round.height = ctx.height, false, "prepared certificate is for another height",
    [("expected", toString ctx.height.toNat), ("got", toString c.round.height.toNat)]⟩,
   ⟨c.round.number < target.number, false, "prepared certificate is not from an earlier round",
    [("prepared", c.round.text), ("target", target.text)]⟩,
   ⟨ctx.requiredPrepares ≤ c.prepares.length, false, "prepared certificate has too few prepares",
    [("have", toString c.prepares.length), ("need", toString ctx.requiredPrepares)]⟩] ++
  c.prepares.zipIdx.flatMap fun (p, index) => ctx.prepareChecks c p index

/-- The checks of a vote. -/
def checks (ctx : HeightContext) (v : Vote) : List Check :=
  let target := v.payload.target
  [⟨v.author ∈ ctx.validators, false, "round change from non-validator",
    [("author", v.author.text)]⟩,
   ⟨target.height = ctx.height, false, "round change targets another height",
    [("author", v.author.text), ("expected", toString ctx.height.toNat),
     ("got", toString target.height.toNat)]⟩,
   ⟨v.verifies, true, "round change signature does not verify",
    [("author", v.author.text), ("round", target.text)]⟩] ++
  v.payload.prepared.toList.flatMap (ctx.preparedChecks target)

variable {ctx : HeightContext}

/-- The loop over the prepares finds the first check that fails, and the event of the rejection
is the one that the check calls for.  The authors seen are those of the prepares before, since
all of them passed. -/
theorem prepareRejection?_eq_firstFailure? {c : PreparedCertificate} {seen : List Address}
    {rest : List (Signed Prepare)} (before : List (Signed Prepare))
    (hprepares : c.prepares = before ++ rest)
    (hseen : ∀ a, a ∈ seen ↔ a ∈ before.map Signed.author) :
    (ctx.prepareRejection? c seen rest).map Rejection.report =
      (firstFailure? ((rest.zipIdx before.length).flatMap fun (p, index) =>
        ctx.prepareChecks c p index)).map Check.report := by
  induction rest generalizing before seen with
  | nil => rfl
  | cons p rest ih =>
    have htake : c.prepares.take before.length = before := by
      rw [hprepares, List.take_left]
    have hprepares' : c.prepares = before ++ [p] ++ rest := by
      rw [hprepares, List.append_assoc, List.singleton_append]
    have hseen' : ∀ a, a ∈ p.author :: seen ↔ a ∈ (before ++ [p]).map Signed.author := by
      intro a
      rw [List.mem_cons, hseen, List.map_append, List.mem_append, List.map_singleton,
        List.mem_singleton, or_comm]
    have hrest := ih (before ++ [p]) hprepares' hseen'
    rw [List.length_append, List.length_singleton] at hrest
    rw [List.zipIdx_cons, List.flatMap_cons, prepareRejection?]
    refine map_report_ite ?repeated rfl <| map_report_ite ?validator rfl <|
      map_report_ite ?mismatch rfl <| map_report_ite ?signature rfl hrest
    case repeated => rw [htake, decide_not, decide_eq_decide.2 (hseen p.author)]
    case validator => rw [decide_not, Bool.not_not]
    case mismatch => simp only [← decide_not, not_or, Decidable.not_not]
    case signature => cases p.verifies <;> rfl

/-- **The first check that a prepared certificate fails** is the first in the list that fails,
and its event is reported. -/
theorem preparedRejection?_eq_firstFailure? {target : Round} {c : PreparedCertificate} :
    (ctx.preparedRejection? target c).map Rejection.report =
      (firstFailure? (ctx.preparedChecks target c)).map Check.report := by
  have hloop : (ctx.prepareRejection? c [] c.prepares).map Rejection.report =
      (firstFailure? (c.prepares.zipIdx.flatMap fun (p, index) =>
        ctx.prepareChecks c p index)).map Check.report :=
    prepareRejection?_eq_firstFailure? [] rfl fun _ => Iff.rfl
  rw [preparedRejection?, preparedChecks]
  refine map_report_ite ?height rfl <| map_report_ite ?earlier rfl <|
    map_report_ite ?enough rfl hloop
  case height => rw [decide_not, Bool.not_not]
  case earlier => cases hearlier : c.round.isEarlier target <;> exact hearlier
  case enough => rw [← decide_not, decide_eq_decide, Nat.not_lt]

/-- **The first check that a vote fails** is the first in the list that fails, and its event is
reported. -/
theorem rejection?_eq_firstFailure? (v : Vote) :
    (ctx.rejection? v).map Rejection.report =
      (firstFailure? (ctx.checks v)).map Check.report := by
  have hcertificate :
      (v.payload.prepared.bind (ctx.preparedRejection? v.payload.target)).map Rejection.report =
        (firstFailure? (v.payload.prepared.toList.flatMap
          (ctx.preparedChecks v.payload.target))).map Check.report := by
    cases v.payload.prepared with
    | none => rfl
    | some c =>
      rw [Option.bind_some, Option.toList_some, List.flatMap_singleton,
        preparedRejection?_eq_firstFailure?]
  rw [rejection?, checks]
  refine map_report_ite ?validator rfl <| map_report_ite ?height rfl <|
    map_report_ite ?signature rfl hcertificate
  case validator => rw [decide_not, Bool.not_not]
  case height => rw [decide_not, Bool.not_not]
  case signature => cases v.verifies <;> rfl

/-- The judge accepts where no check fails. -/
theorem judge_eq_accepted_iff_firstFailure? {v : Vote} :
    ctx.judge v = .accepted ↔ firstFailure? (ctx.checks v) = none := by
  rw [judge_eq_accepted_iff, ← Option.map_eq_none_iff (f := Check.report),
    ← rejection?_eq_firstFailure?, Option.map_eq_none_iff]

/-- The judge gives a reason whose event is that of the first check that fails. -/
theorem judge_eq_rejected {v : Vote} {check : Check}
    (h : firstFailure? (ctx.checks v) = some check) :
    ∃ reason, ctx.rejection? v = some reason ∧ ctx.judge v = .rejected (some reason) ∧
      reason.report = check.report := by
  have hrejection := ctx.rejection?_eq_firstFailure? v
  rw [h, Option.map_some, Option.map_eq_some_iff] at hrejection
  obtain ⟨reason, hreason, hreport⟩ := hrejection
  refine ⟨reason, hreason, ?_, hreport⟩
  rw [judge, hreason]

/-- **The height reports the first check that fails**, and nothing where none does. -/
theorem events_judge (ctx : HeightContext) (v : Vote) :
    match firstFailure? (ctx.checks v) with
    | none => ctx.accepts v = true ∧ (ctx.judge v).events = []
    | some check => ctx.accepts v = false ∧
        (ctx.judge v).events.map Event.report = [check.report] := by
  cases hfirst : firstFailure? (ctx.checks v) with
  | none =>
    have haccepted := judge_eq_accepted_iff_firstFailure?.2 hfirst
    refine ⟨?_, ?_⟩
    · rw [accepts, judge_eq_accepted_iff.1 haccepted, Option.isNone_none]
    · rw [haccepted, Ruling.events]
  | some check =>
    obtain ⟨reason, hreason, hrejected, hreport⟩ := judge_eq_rejected hfirst
    refine ⟨?_, ?_⟩
    · rw [accepts, hreason, Option.isNone_some]
    · rw [hrejected, ← hreport]
      rfl

end HeightContext

namespace Coordinator

section Append

variable {c : Coordinator} {v : Vote}

/-- **A vote that fails a check changes nothing**, and the check is reported before the vote. -/
theorem append_of_firstFailure? {ctx : HeightContext} {check : Check}
    (hjudge : c.judge = ctx.judge) (h : firstFailure? (ctx.checks v) = some check) :
    ∃ reason, reason.report = check.report ∧
      c.append v = ⟨c, none, [.refused reason, .invalid v.author v.payload.target]⟩ := by
  obtain ⟨reason, -, hrejected, hreport⟩ := HeightContext.judge_eq_rejected h
  rw [← hjudge] at hrejected
  refine ⟨reason, hreport, ?_⟩
  simp only [append, hrejected]
  rfl

/-- **Of a vote that yields no certificate** it is reported how far the tally is after it. -/
theorem events_append_of_stored (h : c.judge v = .accepted)
    (hnone : (c.append v).certificate = none) :
    ∃ t, (c.append v).after.tally? v.payload.target = some t ∧
      (c.append v).events = [.stored v.payload.target t.votes.length c.quorum t.minted] := by
  let tally := ((c.tally? v.payload.target).getD (Tally.new c.quorum)).add v
  obtain ⟨hafter, hcertificate⟩ := append_of_accepted h
  have hready : tally.isReady = false := by
    cases hready : tally.isReady with
    | false => rfl
    | true =>
      rw [Tally.count_of_isReady hready] at hcertificate
      exact absurd (hnone.symm.trans hcertificate) nofun
  refine ⟨tally, ?_, ?_⟩
  · rw [hafter, Tally.count_of_not_isReady hready]
    exact (Tallies.get?_put ..).trans (if_pos rfl)
  · exact (events_append_of_accepted h).trans (if_neg (Bool.eq_false_iff.1 hready))

/-- **Of a vote that yields a certificate** it is reported how many votes that has. -/
theorem events_append_of_issued {certificate : Certificate}
    (hissued : (c.append v).certificate = some certificate) :
    c.judge v = .accepted ∧
      (c.append v).events = [.reached v.payload.target certificate.votes.length] := by
  let tally := ((c.tally? v.payload.target).getD (Tally.new c.quorum)).add v
  have haccepted : c.judge v = .accepted := by
    by_contra hrefused
    obtain ⟨-, hnone⟩ := append_of_not_accepted hrefused
    exact absurd (hnone.symm.trans hissued) nofun
  obtain ⟨-, hcertificate⟩ := append_of_accepted haccepted
  rw [hissued] at hcertificate
  refine ⟨haccepted, ?_⟩
  cases hready : tally.isReady with
  | false =>
    rw [Tally.count_of_not_isReady hready] at hcertificate
    exact absurd hcertificate nofun
  | true =>
    rw [Tally.count_of_isReady hready] at hcertificate
    have hvotes : certificate = ⟨tally.votes⟩ := Option.some.inj hcertificate
    rw [hvotes]
    exact (events_append_of_accepted haccepted).trans (if_pos hready)

end Append

/-- **What is reported names the first check that fails, and agrees with what comes of a
vote.**  The judge of a height reports nothing where it accepts, and otherwise just the event of
the first check that fails, with the text and the fields of that check, as a warning if the
check is one of a signature.  After any requests a coordinator reports of a vote that it rejects
this event, and then that the vote was invalid; of one that it accepts how far the tally of the
round is then, or, where it hands out a certificate, how many votes that has. -/
theorem reports_of_append :
    (∀ (ctx : HeightContext) (v : Vote),
      match firstFailure? (ctx.checks v) with
      | none => ctx.accepts v = true ∧ (ctx.judge v).events = []
      | some check => ctx.accepts v = false ∧
          (ctx.judge v).events.map Event.report = [check.report]) ∧
    ∀ (height : UInt64) (validators : List Address) (requests : List Request) (v : Vote),
      let ctx := HeightContext.ofValidators height validators
      let quorum := Quorum.size validators.toFinset.card
      let c := (new height validators HeightContext.judge).run requests
      let target := v.payload.target
      let reaction := c.append v
      (∀ check, firstFailure? (ctx.checks v) = some check →
        reaction.certificate = none ∧ reaction.after = c ∧
          reaction.events.map Event.report = [check.report,
            (.info, "round change message was invalid",
              [("author", v.author.text), ("round", target.text)])]) ∧
      (firstFailure? (ctx.checks v) = none → reaction.certificate = none →
        ∃ t, reaction.after.tally? target = some t ∧
          reaction.events.map Event.report = [(.debug, "round change stored",
            [("round", target.text), ("have", toString t.votes.length), ("need", toString quorum),
             ("actioned", toString t.minted)])]) ∧
      ∀ certificate, reaction.certificate = some certificate →
        firstFailure? (ctx.checks v) = none ∧
          reaction.events.map Event.report = [(.info, "round change quorum reached",
            [("round", target.text), ("messages", toString certificate.votes.length)])] := by
  refine ⟨HeightContext.events_judge, fun height validators requests v => ?_⟩
  intro ctx quorum c target reaction
  have hjudge : c.judge = ctx.judge := judge_run _ _
  have hquorum : c.quorum = quorum := by
    rw [quorum_run, quorum_new]
  refine ⟨fun check hfirst => ?_, fun hfirst hnone => ?_, fun certificate hissued => ?_⟩
  · obtain ⟨reason, hreport, hreaction⟩ := append_of_firstFailure? hjudge hfirst
    have hreaction : reaction = ⟨c, none, [.refused reason, .invalid v.author target]⟩ :=
      hreaction
    rw [hreaction, ← hreport]
    exact ⟨rfl, rfl, rfl⟩
  · have haccepted : c.judge v = .accepted := by
      rw [hjudge, HeightContext.judge_eq_accepted_iff_firstFailure?, hfirst]
    obtain ⟨t, htally, hevents⟩ := events_append_of_stored haccepted hnone
    refine ⟨t, htally, ?_⟩
    rw [hevents, hquorum]
    rfl
  · obtain ⟨haccepted, hevents⟩ := events_append_of_issued hissued
    rw [hjudge, HeightContext.judge_eq_accepted_iff_firstFailure?] at haccepted
    refine ⟨haccepted, ?_⟩
    rw [hevents]
    rfl

end Coordinator
end RoundChange
