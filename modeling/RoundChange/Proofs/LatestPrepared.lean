/-
# The prepared certificate that is proposed again

The proposer of a new round has to propose again what was prepared last, so the votes for the
round have to say which proposal that is.  `Certificate.latestPrepared?`
(`latest_prepared_certificate`) goes through them once and keeps of two prepared certificates
the one of the later round, the first if neither is later.  What it keeps of the votes it has
seen is the first of those with the highest number (`Certificate.FirstLatest`), whatever the
votes are.

The first depends on the order of the votes, its number does not.  Nor does its digest, where
all prepared certificates of the highest number are for one proposal.
-/

import RoundChange.Message

namespace RoundChange
namespace Certificate

variable {c c' : Certificate} {p q best : PreparedCertificate} {ps seen : List PreparedCertificate}

/-- The first of those with the highest number: the numbers before it are lower, and those behind
it are no higher. -/
def FirstLatest (ps : List PreparedCertificate) (p : PreparedCertificate) : Prop :=
  ∃ before after, ps = before ++ p :: after ∧
    (∀ q ∈ before, q.round.number < p.round.number) ∧
      ∀ q ∈ after, q.round.number ≤ p.round.number

namespace FirstLatest

/-- The first of the latest is one of the list. -/
theorem mem (h : FirstLatest ps p) : p ∈ ps := by
  obtain ⟨before, after, rfl, -⟩ := h
  exact List.mem_append_right _ (List.mem_cons_self ..)

/-- None of the list is later. -/
theorem le (h : FirstLatest ps p) (hq : q ∈ ps) : q.round.number ≤ p.round.number := by
  obtain ⟨before, after, rfl, hbefore, hafter⟩ := h
  rcases List.mem_append.1 hq with hq | hq
  · exact UInt32.le_of_lt (hbefore q hq)
  · rcases List.mem_cons.1 hq with rfl | hq
    · exact UInt32.le_refl _
    · exact hafter q hq

/-- **The one that is kept is the first of the highest number again.** -/
theorem later (h : FirstLatest seen best) (next : PreparedCertificate) :
    FirstLatest (seen ++ [next]) (later best next) := by
  unfold Certificate.later
  split
  · rename_i hlt
    rw [Round.isEarlier_iff] at hlt
    exact ⟨seen, [], rfl, fun q hq => UInt32.lt_of_le_of_lt (h.le hq) hlt, nofun⟩
  · rename_i hnot
    rw [Round.isEarlier_iff, UInt32.not_lt] at hnot
    obtain ⟨before, after, rfl, hbefore, hafter⟩ := h
    refine ⟨before, after ++ [next], List.append_assoc .., hbefore, fun q hq => ?_⟩
    rcases List.mem_append.1 hq with hq | hq
    · exact hafter q hq
    · rwa [List.mem_singleton.1 hq]

/-- **There is one first of the highest number.** -/
theorem unique (hp : FirstLatest ps p) (hq : FirstLatest ps q) : p = q := by
  have hle := hp.le hq.mem
  have hge := hq.le hp.mem
  obtain ⟨before, after, rfl, hbefore, -⟩ := hp
  obtain ⟨before', after', hsplit, hbefore', -⟩ := hq
  -- Where one stood before the other, its number would be lower.
  rcases List.append_eq_append_iff.1 hsplit with ⟨mid, rfl, hmid⟩ | ⟨mid, rfl, hmid⟩
  · cases mid with
    | nil => exact (List.cons.inj hmid).1
    | cons x mid =>
      obtain ⟨rfl, -⟩ := List.cons.inj hmid
      exact absurd (hbefore' p (by simp)) (UInt32.not_lt.2 hle)
  · cases mid with
    | nil => exact (List.cons.inj hmid).1.symm
    | cons x mid =>
      obtain ⟨rfl, -⟩ := List.cons.inj hmid
      exact absurd (hbefore q (by simp)) (UInt32.not_lt.2 hge)

end FirstLatest

/-- **What is kept in the end** is the first of the highest number of all that were seen. -/
theorem exists_foldl_later (h : FirstLatest seen best) (ps : List PreparedCertificate) :
    ∃ p, ps.foldl (fun best next => some (best.elim next (later · next))) (some best) = some p ∧
      FirstLatest (seen ++ ps) p := by
  induction ps generalizing seen best with
  | nil => exact ⟨best, rfl, (List.append_nil seen).symm ▸ h⟩
  | cons next ps ih =>
    obtain ⟨p, hp, hfirst⟩ := ih (h.later next)
    rw [List.append_assoc, List.singleton_append] at hfirst
    exact ⟨p, hp, hfirst⟩

/-- **The first of the highest number is selected** where any is carried. -/
theorem exists_latestPrepared? (h : c.prepared ≠ []) :
    ∃ p, c.latestPrepared? = some p ∧ FirstLatest c.prepared p := by
  obtain ⟨first, ps, hps⟩ := List.exists_cons_of_ne_nil h
  have hone : FirstLatest [first] first := ⟨[], [], rfl, nofun, nofun⟩
  rw [latestPrepared?, hps]
  exact exists_foldl_later hone ps

/-- There is no latest where none is carried. -/
theorem latestPrepared?_eq_none_iff : c.latestPrepared? = none ↔ c.prepared = [] := by
  refine ⟨fun h => Decidable.byContradiction fun hne => ?_, latestPrepared?_of_nil⟩
  obtain ⟨p, hp, -⟩ := exists_latestPrepared? hne
  rw [h] at hp
  cases hp

/-- **The selected certificate is the first of the highest number.** -/
theorem latestPrepared?_eq_some_iff : c.latestPrepared? = some p ↔ FirstLatest c.prepared p := by
  constructor
  · intro h
    have hne : c.prepared ≠ [] := fun hnil => by
      rw [latestPrepared?_of_nil hnil] at h
      cases h
    obtain ⟨q, hq, hfirst⟩ := exists_latestPrepared? hne
    obtain rfl := Option.some.inj (hq.symm.trans h)
    exact hfirst
  · intro h
    obtain ⟨q, hq, hfirst⟩ := exists_latestPrepared? (List.ne_nil_of_mem h.mem)
    rw [hq, hfirst.unique h]

/-- **The first of the highest number** of the prepared certificates is that of a vote such that
all votes before it carry lower numbers, if any. -/
theorem firstLatest_prepared_iff : FirstLatest c.prepared p ↔ ∃ earlier v later,
    c.votes = earlier ++ v :: later ∧ v.payload.prepared = some p ∧
      (∀ u ∈ c.votes, ∀ q ∈ u.payload.prepared, q.round.number ≤ p.round.number) ∧
        ∀ u ∈ earlier, ∀ q ∈ u.payload.prepared, q.round.number < p.round.number := by
  constructor
  · intro h
    have hle : ∀ u ∈ c.votes, ∀ q ∈ u.payload.prepared, q.round.number ≤ p.round.number :=
      fun u hu q hq => h.le (mem_prepared.2 ⟨u, hu, hq⟩)
    obtain ⟨before, after, hsplit, hbefore, -⟩ := h
    obtain ⟨front, back, hvotes, rfl, hback⟩ := List.filterMap_eq_append_iff.1 hsplit
    obtain ⟨between, v, later, rfl, hnone, hv, -⟩ := List.filterMap_eq_cons_iff.1 hback
    refine ⟨front ++ between, v, later, ?_, hv, hle, fun u hu q hq => ?_⟩
    · rw [hvotes, List.append_assoc]
    · rcases List.mem_append.1 hu with hu | hu
      · exact hbefore q (List.mem_filterMap.2 ⟨u, hu, hq⟩)
      · rw [hnone u hu] at hq
        cases hq
  · rintro ⟨earlier, v, later, hvotes, hv, hle, hlt⟩
    refine ⟨earlier.filterMap fun v => v.payload.prepared,
      later.filterMap fun v => v.payload.prepared, ?_, fun q hq => ?_, fun q hq => ?_⟩
    · rw [prepared, hvotes, List.filterMap_append, List.filterMap_cons, hv]
    · obtain ⟨u, hu, hq⟩ := List.mem_filterMap.1 hq
      exact hlt u hu q hq
    · obtain ⟨u, hu, hq⟩ := List.mem_filterMap.1 hq
      refine hle u ?_ q hq
      rw [hvotes]
      exact List.mem_append_right _ (List.mem_cons_of_mem _ hu)

/-- One of the prepared certificates with the highest number. -/
def Latest (c : Certificate) (p : PreparedCertificate) : Prop :=
  p ∈ c.prepared ∧ ∀ q ∈ c.prepared, q.round.number ≤ p.round.number

/-- What is found is one of the latest. -/
theorem latest_of_latestPrepared? (h : c.latestPrepared? = some p) : c.Latest p :=
  have hfirst := latestPrepared?_eq_some_iff.1 h
  ⟨hfirst.mem, fun _ => hfirst.le⟩

/-- Being one of the latest does not depend on the order of the votes. -/
theorem Latest.of_perm (hperm : c.votes.Perm c'.votes) (h : c'.Latest p) : c.Latest p := by
  have hprepared : c.prepared.Perm c'.prepared := hperm.filterMap _
  exact ⟨hprepared.mem_iff.2 h.1, fun q hq => h.2 q (hprepared.mem_iff.1 hq)⟩

/-- **What all of the highest number have in common** does not depend on the order of the
votes. -/
theorem map_latestPrepared?_of_perm {α : Type} {f : PreparedCertificate → α}
    (hperm : c.votes.Perm c'.votes) (hf : ∀ p q, c.Latest p → c.Latest q → f p = f q) :
    c.latestPrepared?.map f = c'.latestPrepared?.map f := by
  have hprepared : c.prepared.Perm c'.prepared := hperm.filterMap _
  cases hp : c.latestPrepared? with
  | none =>
    have hnil : c'.prepared = [] := by
      rw [latestPrepared?_eq_none_iff.1 hp] at hprepared
      exact hprepared.nil_eq.symm
    rw [latestPrepared?_of_nil hnil]
  | some p =>
    cases hq : c'.latestPrepared? with
    | none =>
      rw [latestPrepared?_eq_none_iff.1 hq] at hprepared
      rw [latestPrepared?_of_nil hprepared.eq_nil] at hp
      cases hp
    | some q =>
      have hlatest : c.Latest q := Latest.of_perm hperm (latest_of_latestPrepared? hq)
      exact congrArg some (hf p q (latest_of_latestPrepared? hp) hlatest)

/-- **All of the highest number have one number.** -/
theorem Latest.number_eq (hp : c.Latest p) (hq : c.Latest q) : p.round.number = q.round.number :=
  UInt32.le_antisymm (hq.2 p hp.1) (hp.2 q hq.1)

/-- **The latest prepared certificate is the first of those with the highest number.**  None is
selected just where no vote carries one.  Selected is the one of a vote such that no number that
is carried is higher and all that are carried by votes before it are lower, at whatever heights.
So its number is the same in every order of the votes, and so is its digest if all of the highest
number have one digest. -/
theorem latestPrepared?_first :
    (∀ c : Certificate, c.latestPrepared? = none ↔ ∀ v ∈ c.votes, v.payload.prepared = none) ∧
    (∀ (c : Certificate) (p : PreparedCertificate), c.latestPrepared? = some p ↔
      ∃ earlier v later, c.votes = earlier ++ v :: later ∧ v.payload.prepared = some p ∧
        (∀ u ∈ c.votes, ∀ q ∈ u.payload.prepared, q.round.number ≤ p.round.number) ∧
          ∀ u ∈ earlier, ∀ q ∈ u.payload.prepared, q.round.number < p.round.number) ∧
    ∀ c c' : Certificate, c.votes.Perm c'.votes →
      c.latestPrepared?.map (fun p => p.round.number) =
        c'.latestPrepared?.map (fun p => p.round.number) ∧
      ((∀ p q, c.Latest p → c.Latest q → p.digest = q.digest) →
        c.latestPrepared?.map (fun p => p.digest) =
          c'.latestPrepared?.map (fun p => p.digest)) := by
  refine ⟨fun c => ?_, fun c p => ?_, fun c c' hperm => ⟨?_, ?_⟩⟩
  · rw [latestPrepared?_eq_none_iff, prepared, List.filterMap_eq_nil_iff]
  · rw [latestPrepared?_eq_some_iff, firstLatest_prepared_iff]
  · exact map_latestPrepared?_of_perm hperm fun _ _ hp hq => hp.number_eq hq
  · exact map_latestPrepared?_of_perm hperm

end Certificate

namespace Sample

/-- The prepared certificate of a round for the proposal of which all bytes are the same. -/
def lockedOn (round : Round) (b : UInt8) : PreparedCertificate := ⟨round, .fill b, []⟩

/-- Votes in the name of four validators, three of whom are locked: one on a proposal of round 0
and two on one of round 1, where one of them means another height. -/
def locked : Certificate where
  votes := [
    ⟨⟨⟨5, 2⟩, none⟩, ⟨.fill 1⟩, ⟨[]⟩⟩,
    ⟨⟨⟨5, 2⟩, some (lockedOn ⟨5, 0⟩ 0x41)⟩, ⟨.fill 2⟩, ⟨[]⟩⟩,
    ⟨⟨⟨5, 2⟩, some (lockedOn ⟨5, 1⟩ 0x42)⟩, ⟨.fill 3⟩, ⟨[]⟩⟩,
    ⟨⟨⟨5, 2⟩, some (lockedOn ⟨6, 1⟩ 0x42)⟩, ⟨.fill 4⟩, ⟨[]⟩⟩]

end Sample

namespace Certificate

/-- The hypotheses of `latestPrepared?_first` are satisfiable.  In the other order another
prepared certificate is selected, of the same number and with the same digest. -/
theorem latestPrepared?_first_sample :
    let turned : Certificate := ⟨Sample.locked.votes.reverse⟩
    Sample.locked.latestPrepared? = some (Sample.lockedOn ⟨5, 1⟩ 0x42) ∧
      turned.latestPrepared? = some (Sample.lockedOn ⟨6, 1⟩ 0x42) ∧
      Sample.locked.latestPrepared?.map (fun p => p.round.number) =
        turned.latestPrepared?.map (fun p => p.round.number) ∧
      Sample.locked.latestPrepared?.map (fun p => p.digest) =
        turned.latestPrepared?.map (fun p => p.digest) := by
  intro turned
  have hperm : Sample.locked.votes.Perm turned.votes := (List.reverse_perm _).symm
  obtain ⟨hnumber, hdigest⟩ := latestPrepared?_first.2.2 Sample.locked turned hperm
  refine ⟨rfl, rfl, hnumber, hdigest fun p q hp hq => ?_⟩
  have hlatest : ∀ p, Sample.locked.Latest p → p.digest = .fill 0x42 := by
    rintro p ⟨hmem, hle⟩
    have hone := hle (Sample.lockedOn ⟨5, 1⟩ 0x42) (by decide)
    exact (by decide : ∀ p ∈ Sample.locked.prepared, 1 ≤ p.round.number →
      p.digest = .fill 0x42) p hmem hone
  rw [hlatest p hp, hlatest q hq]

end Certificate
end RoundChange
