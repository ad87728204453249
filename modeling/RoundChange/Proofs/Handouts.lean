/-
# What a run hands out

`append_round_change_message` answers with a certificate or with none
(`Coordinator.certificates`).  A certificate is for the round of the vote that it came with
(`Coordinator.round?_of_certificate_append_run`), so those for one round are told from the
others by what they hold (`Coordinator.certificatesFor`).

As long as a round is not forgotten there is at most one.  It holds the first votes that made
up the quorum, and it is there just where a quorum of authors was heard
(`Coordinator.length_certificatesFor`); which votes came in between, and for which other
rounds, makes no difference.
-/

import RoundChange.Proofs.History

namespace RoundChange

section Kept

variable {judge : Judge} {r : Round} {requests : List Request}

/-- **While a round is not forgotten**, every accepted vote for it is heard. -/
theorem heard_of_kept (h : ∀ request ∈ requests, request.forgets r = false) :
    heard judge r requests = requests.filterMap (Request.vote? judge r) := by
  have hkept : requests.rtakeWhile (fun request => !request.forgets r) = requests := by
    refine List.rtakeWhile_eq_self_iff.2 fun request hrequest => ?_
    rw [h request hrequest]
    rfl
  rw [heard, hkept]

/-- While a round is not forgotten, the votes heard are the accepted ones for it. -/
theorem mem_heard_of_kept (h : ∀ request ∈ requests, request.forgets r = false) {v : Vote} :
    v ∈ heard judge r requests ↔
      .append v ∈ requests ∧ judge v = .accepted ∧ v.payload.target = r := by
  rw [heard_of_kept h, List.mem_filterMap]
  constructor
  · rintro ⟨request, hrequest, hv⟩
    cases request with
    | discard before => cases hv
    | append w =>
      obtain ⟨hw, heq⟩ := Option.ite_none_right_eq_some.1 hv
      obtain rfl := Option.some.inj heq
      exact ⟨hrequest, hw⟩
  · rintro ⟨hrequest, hv⟩
    exact ⟨.append v, hrequest, if_pos hv⟩

/-- The authors heard for a round are those of the accepted votes for it. -/
theorem mem_authors_heard_of_kept (h : ∀ request ∈ requests, request.forgets r = false)
    {a : Address} : a ∈ ((heard judge r requests).map Signed.author).toFinset ↔
      ∃ v, .append v ∈ requests ∧ judge v = .accepted ∧ v.payload.target = r ∧ v.author = a := by
  rw [List.mem_toFinset, List.mem_map]
  constructor
  · rintro ⟨v, hv, ha⟩
    obtain ⟨hrequest, haccepted, htarget⟩ := (mem_heard_of_kept h).1 hv
    exact ⟨v, hrequest, haccepted, htarget, ha⟩
  · rintro ⟨v, hrequest, haccepted, htarget, ha⟩
    exact ⟨v, (mem_heard_of_kept h).2 ⟨hrequest, haccepted, htarget⟩, ha⟩

/-- **Discards of rounds that are not later** do not make a round forgotten. -/
theorem kept_of_le (h : ∀ before, .discard before ∈ requests → before.number ≤ r.number) :
    ∀ request ∈ requests, request.forgets r = false := by
  intro request hrequest
  cases request with
  | append v => rfl
  | discard before =>
    exact decide_eq_false (UInt32.not_lt.2 (h before hrequest))

/-- Votes alone make no round forgotten. -/
theorem forgets_of_mem_map_append {votes : List Vote} :
    ∀ request ∈ votes.map Request.append, request.forgets r = false := by
  intro request h
  obtain ⟨v, -, rfl⟩ := List.mem_map.1 h
  rfl

/-- **Of votes alone** those are heard that are accepted and for the round. -/
theorem heard_map_append (votes : List Vote) :
    heard judge r (votes.map .append) =
      votes.filter fun v => judge v = .accepted ∧ v.payload.target = r := by
  rw [heard_of_kept forgets_of_mem_map_append, List.filterMap_map]
  induction votes with
  | nil => rfl
  | cons v votes ih =>
    rw [List.filterMap_cons, List.filter_cons, ih, Function.comp, Request.vote?]
    by_cases hv : judge v = .accepted ∧ v.payload.target = r <;> simp [hv]

/-- **All votes are heard** where each is accepted and for the round. -/
theorem heard_map_append_of_accepted {votes : List Vote}
    (h : ∀ v ∈ votes, judge v = .accepted ∧ v.payload.target = r) :
    heard judge r (votes.map .append) = votes := by
  rw [heard_map_append]
  exact List.filter_eq_self.2 fun v hv => decide_eq_true (h v hv)

end Kept

namespace Coordinator

/-- **What comes of requests and more requests** is what comes of the former, and then of
the latter at the coordinator behind them. -/
theorem reactions_append (c : Coordinator) (l m : List Request) :
    c.reactions (l ++ m) = c.reactions l ++ (c.run l).reactions m := by
  induction l generalizing c with
  | nil => rfl
  | cons request l ih => rw [List.cons_append, reactions, ih, reactions, run_cons, List.cons_append]

/-- The certificates that come of some requests. -/
def certificates (c : Coordinator) (requests : List Request) : List (Option Certificate) :=
  (c.reactions requests).map (·.certificate)

/-- The answer to the last request comes last. -/
theorem certificates_concat (c : Coordinator) (requests : List Request) (request : Request) :
    c.certificates (requests ++ [request]) =
      c.certificates requests ++ [((c.run requests).serve request).certificate] := by
  rw [certificates, reactions_append, List.map_append]
  rfl

/-- The answer to the last vote comes last. -/
theorem certificates_concat_append (c : Coordinator) (requests : List Request) (v : Vote) :
    c.certificates (requests ++ [.append v]) =
      c.certificates requests ++ [((c.run requests).append v).certificate] :=
  c.certificates_concat requests (.append v)

/-- **A certificate comes with a vote**, behind the requests before it. -/
theorem exists_append_of_mem_certificates {c : Coordinator} {requests : List Request}
    {certificate : Certificate} (h : some certificate ∈ c.certificates requests) :
    ∃ earlier v, ((c.run earlier).append v).certificate = some certificate := by
  induction requests using List.reverseRecOn with
  | nil => cases h
  | append_singleton requests request ih =>
    rw [certificates_concat, List.mem_append, List.mem_singleton] at h
    rcases h with h | h
    · exact ih h
    · cases request with
      | append v => exact ⟨requests, v, h.symm⟩
      | discard before => cases h

/-- The certificates for a round that come of some requests. -/
def certificatesFor (c : Coordinator) (r : Round) (requests : List Request) : List Certificate :=
  ((c.certificates requests).filterMap id).filter fun certificate => certificate.round? = some r

/-- The last request adds the certificate it is answered with, if it is for the round. -/
theorem certificatesFor_concat (c : Coordinator) (r : Round) (requests : List Request)
    (request : Request) :
    c.certificatesFor r (requests ++ [request]) = c.certificatesFor r requests ++
      ((c.run requests).serve request).certificate.toList.filter fun certificate =>
        certificate.round? = some r := by
  rw [certificatesFor, certificates_concat, List.filterMap_append, List.filter_append]
  cases ((c.run requests).serve request).certificate <;> rfl

section Run

variable {c : Coordinator} (hempty : c.tallies = .empty) (hq : 0 < c.quorum)

include hempty hq

/-- **A certificate is for the round of the vote that it came with.** -/
theorem round?_of_certificate_append_run {requests : List Request} {v : Vote}
    {certificate : Certificate}
    (h : ((c.run requests).append v).certificate = some certificate) :
    certificate.round? = some v.payload.target := by
  rw [certificate_append_run hempty hq, Option.ite_none_right_eq_some,
    Tally.completed?_eq_some_iff] at h
  obtain ⟨-, -, -, rfl⟩ := h
  rw [Certificate.round?]
  cases hfirst : firstVotes (heard c.judge v.payload.target requests) with
  | nil => rfl
  | cons w rest =>
    have hw : w ∈ firstVotes (heard c.judge v.payload.target requests) := by
      rw [hfirst]
      exact List.mem_cons_self ..
    have htarget := (mem_heard ((firstVotes_sublist _).subset hw)).2
    exact congrArg some htarget

/-- What a vote adds to the certificates for a round: the certificate that it completes, if it
is accepted and for the round. -/
theorem filter_certificate_append_run (r : Round) (requests : List Request) (v : Vote) :
    ((c.run requests).append v).certificate.toList.filter
        (fun certificate => certificate.round? = some r) =
      if c.judge v = .accepted ∧ v.payload.target = r then
        (Tally.completed? c.quorum (heard c.judge r requests) v).toList else [] := by
  have hround : ∀ certificate ∈ ((c.run requests).append v).certificate.toList,
      certificate.round? = some v.payload.target := fun certificate h =>
    round?_of_certificate_append_run hempty hq (Option.mem_toList.1 h)
  by_cases ht : v.payload.target = r
  · have hall : ((c.run requests).append v).certificate.toList.filter
        (fun certificate => certificate.round? = some r) =
        ((c.run requests).append v).certificate.toList :=
      List.filter_eq_self.2 fun certificate h => decide_eq_true (ht ▸ hround certificate h)
    rw [hall, certificate_append_run hempty hq, ht]
    by_cases ha : c.judge v = .accepted
    · rw [if_pos ha, if_pos ⟨ha, rfl⟩]
    · rw [if_neg ha, if_neg fun h => ha h.1, Option.toList_none]
  · rw [if_neg fun h => ht h.2, List.filter_eq_nil_iff]
    intro certificate h hr
    exact ht (Option.some.inj ((hround certificate h).symm.trans (of_decide_eq_true hr)))

/-- **A round that is not forgotten has the certificate of its votes**, if they are a quorum,
and no other. -/
theorem certificatesFor_eq_issued? {r : Round} {requests : List Request}
    (hkept : ∀ request ∈ requests, request.forgets r = false) :
    c.certificatesFor r requests =
      (Tally.issued? c.quorum (heard c.judge r requests)).toList := by
  induction requests using List.reverseRecOn with
  | nil =>
    rw [heard_nil, Tally.issued?, firstVotes_nil, List.length_nil, if_neg (Nat.not_le.2 hq)]
    rfl
  | append_singleton requests request ih =>
    have hrequests := ih fun request h => hkept request (List.mem_append_left _ h)
    have hlast := hkept request (List.mem_append_right _ (List.mem_singleton_self _))
    rw [certificatesFor_concat, hrequests]
    cases request with
    | discard before =>
      rw [heard_concat, hlast, if_neg Bool.false_ne_true, Request.vote?, Option.toList_none,
        List.append_nil]
      exact List.append_nil _
    | append v =>
      rw [serve, filter_certificate_append_run hempty hq]
      split
      · rename_i hv
        rw [heard_concat_append hv.1 hv.2, Tally.toList_issued?_concat]
      · rename_i hv
        rw [heard_concat_append_of_not hv, List.append_nil]

/-- **A round that is not forgotten has one certificate where a quorum of authors was
heard**, and none otherwise. -/
theorem length_certificatesFor {r : Round} {requests : List Request}
    (hkept : ∀ request ∈ requests, request.forgets r = false) :
    (c.certificatesFor r requests).length =
      if c.quorum ≤ ((heard c.judge r requests).map Signed.author).toFinset.card then 1 else 0 := by
  rw [certificatesFor_eq_issued? hempty hq hkept, Tally.issued?, length_firstVotes]
  split <;> rfl

end Run

/-- **A new coordinator hands out one certificate for a round** where a quorum of authors is
heard before the round is forgotten, and none otherwise. -/
theorem length_certificatesFor_new (height : UInt64) (validators : List Address)
    (judgeOf : HeightContext → Judge) {r : Round} {requests : List Request}
    (hkept : ∀ request ∈ requests, request.forgets r = false) :
    ((new height validators judgeOf).certificatesFor r requests).length =
      if Quorum.size validators.toFinset.card ≤
        ((heard (judgeOf (HeightContext.ofValidators height validators)) r requests).map
          Signed.author).toFinset.card then 1 else 0 := by
  rw [length_certificatesFor rfl (quorum_new_pos height validators judgeOf) hkept, quorum_new]
  rfl

end Coordinator
end RoundChange
