/-
# Configurations and their coordinators

A `RoundChangeConfig` is checked twice, where it is loaded (`from_json`) and where a
coordinator is made of it (`RoundChangeManager::from_config`).  It passes just where its list
of validators is not empty and names none of them twice (`HeightConfig.check_eq_ok_iff`);
otherwise the check tells the first entry of the list that stands there already
(`HeightConfig.check_eq_repeated_iff`).

Addresses are compared as the bytes they are, so an address that is spelled twice is named
twice, whatever the case of its letters (`HeightConfig.decode_spelled`).  The coordinator of a
configuration that was loaded therefore has as many validators as are listed, and they can make
up its quorum.
-/

import RoundChange.Coordinator
import RoundChange.Load
import RoundChange.Proofs.JsonRoundTrip
import RoundChange.Proofs.Validators

namespace RoundChange

/-- An address is known by its bytes. -/
theorem Address.toList_injective : Function.Injective fun a : Address => a.bytes.toList := by
  rintro ⟨a⟩ ⟨b⟩ h
  exact congrArg mk (Bytes32.ext h)

namespace HeightConfig

section Check

variable {c : HeightConfig} {seen l : List Address} {a x : Address} {i : Nat}

/-- The entry at the place equals one of those seen or one that stands before it. -/
def RepeatsAt (seen l : List Address) (i : Nat) (a : Address) : Prop :=
  l[i]? = some a ∧ (a ∈ seen ∨ a ∈ l.take i)

/-- A repetition further on is one in the rest of the list. -/
theorem repeatsAt_succ_iff : RepeatsAt seen (x :: l) (i + 1) a ↔ RepeatsAt (x :: seen) l i a := by
  rw [RepeatsAt, RepeatsAt, List.getElem?_cons_succ, List.take_succ_cons, List.mem_cons,
    List.mem_cons, ← or_assoc, or_comm (a := a ∈ seen), or_assoc]

/-- The first address is a repetition where it was seen before. -/
theorem repeatsAt_zero_iff : RepeatsAt seen (x :: l) 0 a ↔ x = a ∧ a ∈ seen := by
  rw [RepeatsAt, List.getElem?_cons_zero, Option.some.injEq, List.take_zero]
  exact and_congr_right fun _ => or_iff_left List.not_mem_nil

/-- **The first entry that repeats one** of those seen or of those before it is found. -/
theorem firstRepeat?_eq_some_iff : firstRepeat? seen l = some a ↔
    ∃ i, RepeatsAt seen l i a ∧ ∀ j < i, ∀ b, ¬RepeatsAt seen l j b := by
  -- An entry that was passed is one of those seen from then on, and places move up by one.
  induction l generalizing seen with
  | nil => exact iff_of_false nofun fun ⟨_, h, _⟩ => nomatch h.1
  | cons x l ih =>
    rw [firstRepeat?]
    split
    · rename_i hx
      constructor
      · rintro ⟨rfl⟩
        exact ⟨0, repeatsAt_zero_iff.2 ⟨rfl, hx⟩, nofun⟩
      · rintro ⟨i, h, hfirst⟩
        cases i with
        | zero => exact congrArg some (repeatsAt_zero_iff.1 h).1
        | succ i => exact absurd (repeatsAt_zero_iff.2 ⟨rfl, hx⟩) (hfirst 0 (Nat.succ_pos i) x)
    · rename_i hx
      rw [ih]
      constructor
      · rintro ⟨i, h, hfirst⟩
        refine ⟨i + 1, repeatsAt_succ_iff.2 h, fun j hj b hb => ?_⟩
        cases j with
        | zero =>
          obtain ⟨rfl, hb⟩ := repeatsAt_zero_iff.1 hb
          exact hx hb
        | succ j => exact hfirst j (Nat.lt_of_succ_lt_succ hj) b (repeatsAt_succ_iff.1 hb)
      · rintro ⟨i, h, hfirst⟩
        cases i with
        | zero =>
          obtain ⟨rfl, h⟩ := repeatsAt_zero_iff.1 h
          exact absurd h hx
        | succ i =>
          refine ⟨i, repeatsAt_succ_iff.1 h, fun j hj b hb => ?_⟩
          exact hfirst (j + 1) (Nat.succ_lt_succ hj) b (repeatsAt_succ_iff.2 hb)

/-- **None is found where all entries differ** from each other and from those seen. -/
theorem firstRepeat?_eq_none_iff :
    firstRepeat? seen l = none ↔ l.Nodup ∧ ∀ b ∈ l, b ∉ seen := by
  induction l generalizing seen with
  | nil => exact iff_of_true rfl ⟨.nil, nofun⟩
  | cons x l ih =>
    rw [firstRepeat?, List.nodup_cons, List.forall_mem_cons]
    split
    · rename_i hx
      exact iff_of_false nofun fun h => h.2.1 hx
    · rename_i hx
      rw [ih]
      constructor
      · rintro ⟨hnodup, hnew⟩
        have hxl : x ∉ l := fun hmem => hnew x hmem (List.mem_cons_self ..)
        exact ⟨⟨hxl, hnodup⟩, hx, fun b hb hseen => hnew b hb (List.mem_cons_of_mem _ hseen)⟩
      · rintro ⟨⟨hxl, hnodup⟩, -, hnew⟩
        refine ⟨hnodup, fun b hb hseen => ?_⟩
        rcases List.mem_cons.1 hseen with rfl | hseen
        · exact hxl hb
        · exact hnew b hb hseen

/-- Of a list that names somebody the first repetition is reported. -/
theorem check_of_ne_nil (h : c.validators ≠ []) :
    c.check = (firstRepeat? [] c.validators).elim (.ok ()) fun a => .error (.repeated a) := by
  have hpos := List.length_pos_iff.2 h
  rw [check, if_neg (by rw [Quorum.leastValidators]; omega)]
  cases firstRepeat? [] c.validators <;> rfl

/-- **A configuration is refused as empty** just where no validators are listed. -/
theorem check_eq_noValidators_iff : c.check = .error .noValidators ↔ c.validators = [] := by
  refine ⟨fun h => Decidable.byContradiction fun hne => ?_, check_of_nil⟩
  rw [check_of_ne_nil hne] at h
  cases hrepeat : firstRepeat? [] c.validators with
  | none => rw [hrepeat] at h; cases h
  | some a => rw [hrepeat] at h; cases h

/-- **A configuration is refused for the first entry** that equals one before it. -/
theorem check_eq_repeated_iff : c.check = .error (.repeated a) ↔ ∃ i,
    c.validators[i]? = some a ∧ a ∈ c.validators.take i ∧
      ∀ j < i, ∀ b, c.validators[j]? = some b → b ∉ c.validators.take j := by
  have hfirst : c.check = .error (.repeated a) ↔ firstRepeat? [] c.validators = some a := by
    by_cases hnil : c.validators = []
    · rw [check_of_nil hnil, hnil]
      exact iff_of_false nofun nofun
    · rw [check_of_ne_nil hnil]
      cases firstRepeat? [] c.validators with
      | none => exact iff_of_false nofun nofun
      | some b => simp
  rw [hfirst, firstRepeat?_eq_some_iff]
  simp [RepeatsAt, and_assoc]

/-- **A configuration passes** just where validators are listed, each of them once. -/
theorem check_eq_ok_iff : c.check = .ok () ↔ c.validators ≠ [] ∧ c.validators.Nodup := by
  by_cases hnil : c.validators = []
  · rw [check_of_nil hnil]
    exact iff_of_false nofun fun h => h.1 hnil
  · have hnone : firstRepeat? [] c.validators = none ↔ c.validators.Nodup := by
      rw [firstRepeat?_eq_none_iff]
      exact and_iff_left fun _ _ => List.not_mem_nil
    rw [check_of_ne_nil hnil, and_iff_right hnil, ← hnone]
    cases firstRepeat? [] c.validators with
    | none => exact iff_of_true rfl rfl
    | some b => exact iff_of_false nofun nofun

end Check

section Loading

variable {c : HeightConfig} {text : List Char}

/-- A configuration that is decoded is checked before it is handed on. -/
theorem load_of_decode (h : JsonForm.decode text = .ok c) :
    load text = (c.check.mapError LoadError.refused).map fun _ => c := by
  rw [load, h]
  show (c.check.mapError LoadError.refused >>= fun _ => pure c) = _
  cases c.check <;> rfl

/-- **What was loaded passes its check.** -/
theorem check_of_load (h : load text = .ok c) : c.check = .ok () := by
  cases hd : (JsonForm.decode text : Except Json.Fault HeightConfig) with
  | error e =>
    rw [load, hd] at h
    cases h
  | ok d =>
    rw [load_of_decode hd] at h
    cases hcheck : d.check with
    | error e => rw [hcheck] at h; cases h
    | ok =>
      rw [hcheck] at h
      obtain rfl := Except.ok.inj h
      exact hcheck

/-- The text of a configuration whose addresses are spelled in this way. -/
def spelled (height : UInt64) (spellings : List (List Char)) : List Char :=
  JsonForm.labelled label [JsonForm.write height, Json.listText (spellings.map Json.quoted)]

variable {height : UInt64} {spellings : List (List Char)} {validators : List Address}
  (h : List.Forall₂ (fun digits a => Address.ofHex? digits = some a) spellings validators)

include h

/-- **Addresses are read in any case.** -/
theorem decode_spelled : JsonForm.decode (spelled height spellings) =
    .ok (⟨height, validators⟩ : HeightConfig) := by
  have hitems : List.Forall₂ (Json.ReadsAs JsonForm.read) (spellings.map Json.quoted) validators :=
    List.forall₂_map_left_iff.2 (h.imp fun _ _ => Address.readsAs_of_ofHex?)
  exact JsonForm.decode_of_readsAs (LawfulJsonForm.readsAs_record (clear_labels _ (by simp)) rfl
    (LawfulJsonForm.gathers_two (LawfulJsonForm.readsBack height)
      (LawfulJsonForm.readsAs_list hitems)) rfl)

/-- In lower case the spellings are the digits of the addresses. -/
theorem map_toLower_spellings :
    (spellings.map fun digits => digits.map Char.toLower) = validators.map Address.hex := by
  induction h with
  | nil => rfl
  | cons ha _ ih => rw [List.map_cons, List.map_cons, Address.map_toLower_of_ofHex? ha, ih]

/-- **Spellings that differ in case alone are one address** to the check. -/
theorem check_spelled_eq_ok_iff : check ⟨height, validators⟩ = .ok () ↔
    spellings ≠ [] ∧ (spellings.map fun digits => digits.map Char.toLower).Nodup := by
  rw [check_eq_ok_iff, map_toLower_spellings h, List.nodup_map_iff Address.hex_injective]
  have hlength := h.length_eq
  refine and_congr_left fun _ => not_congr ?_
  rw [← List.length_eq_zero_iff, ← List.length_eq_zero_iff, hlength]

end Loading

end HeightConfig

namespace Coordinator

variable {c : HeightConfig} {judgeOf : HeightContext → Judge}

/-- **No coordinator is made** just where the check refuses the configuration, for the reason
that it gives. -/
theorem ofConfig_eq_error_iff {e : ConfigError} :
    ofConfig c judgeOf = .error e ↔ c.check = .error e := by
  rw [ofConfig, ofConfigM]
  cases c.check with
  | error e' => simp
  | ok => simp [newM]

/-- **Validators that are listed once each** are all validators of the coordinator. -/
theorem size_validators_new (h : c.validators.Nodup) :
    (new c.height c.validators judgeOf).validators.size = c.validators.length :=
  (HeightContext.size_ofValidators c.height c.validators).trans (List.toFinset_card_of_nodup h)

/-- **The validators can make up a quorum** if there are any. -/
theorem quorum_new_le (hne : c.validators ≠ []) (h : c.validators.Nodup) :
    (new c.height c.validators judgeOf).quorum ≤ c.validators.length := by
  show Quorum.size (new c.height c.validators judgeOf).validators.size ≤ _
  rw [size_validators_new h]
  exact Quorum.size_le (List.length_pos_iff.2 hne)

end Coordinator

open Coordinator (new newM ofConfig ofConfigM)

namespace HeightConfig

/-- **What was loaded makes a coordinator**, whatever the judge, with all validators that are
listed, who can make up its quorum. -/
theorem coordinator_of_load {text : List Char} {c : HeightConfig} (h : load text = .ok c)
    (judgeOf : HeightContext → Judge) :
    ofConfig c judgeOf = .ok (new c.height c.validators judgeOf) ∧
      (new c.height c.validators judgeOf).validators.size = c.validators.length ∧
      1 ≤ (new c.height c.validators judgeOf).quorum ∧
      (new c.height c.validators judgeOf).quorum ≤ c.validators.length := by
  have hcheck := check_of_load h
  obtain ⟨hne, hnodup⟩ := check_eq_ok_iff.1 hcheck
  exact ⟨Coordinator.ofConfig_of_check hcheck, Coordinator.size_validators_new hnodup,
    Nat.succ_pos _, Coordinator.quorum_new_le hne hnodup⟩

/-- **The check is exact, and what passes it can be relied on.**  A configuration is refused
just where its list is empty, or for the first entry that stands there already.  The text of a
configuration is loaded just where it passes, and refused for the reason that the check gives;
addresses that are spelled in two cases count as one.  Of a configuration that was loaded the
coordinator is made whatever the judge, with all validators that are listed, who can make up its
quorum.  Of a configuration that is refused no coordinator is made, and no judge. -/
theorem check_exact_and_carried :
    (∀ c : HeightConfig, c.check = .error .noValidators ↔ c.validators = []) ∧
    (∀ (c : HeightConfig) (a : Address), c.check = .error (.repeated a) ↔ ∃ i,
      c.validators[i]? = some a ∧ a ∈ c.validators.take i ∧
        ∀ j < i, ∀ b, c.validators[j]? = some b → b ∉ c.validators.take j) ∧
    (∀ c : HeightConfig, c.check = .ok () ↔ c.validators ≠ [] ∧ c.validators.Nodup) ∧
    (∀ c : HeightConfig, (c.check = .ok () → load (JsonForm.write c) = .ok c) ∧
      ∀ e, c.check = .error e → load (JsonForm.write c) = .error (.refused e)) ∧
    (∀ (c : HeightConfig) (spellings : List (List Char)),
      List.Forall₂ (fun digits a => Address.ofHex? digits = some a) spellings c.validators →
        load (spelled c.height spellings) = load (JsonForm.write c) ∧
        (c.check = .ok () ↔
          spellings ≠ [] ∧ (spellings.map fun digits => digits.map Char.toLower).Nodup)) ∧
    (∀ (text : List Char) (c : HeightConfig), load text = .ok c → c.check = .ok () ∧
      (c.validators.map fun a => a.bytes.toList).Nodup ∧ ∀ judgeOf : HeightContext → Judge,
        ofConfig c judgeOf = .ok (new c.height c.validators judgeOf) ∧
        (new c.height c.validators judgeOf).validators.size = c.validators.length ∧
        1 ≤ (new c.height c.validators judgeOf).quorum ∧
        (new c.height c.validators judgeOf).quorum ≤ c.validators.length) ∧
    (∀ (c : HeightConfig) (judgeOf : HeightContext → Judge) (e : ConfigError),
      ofConfig c judgeOf = .error e ↔ c.check = .error e) ∧
    ∀ {m : Type → Type} [Monad m] (c : HeightConfig) (makeJudge : HeightContext → m Judge),
      (∀ e, c.check = .error e → ofConfigM c makeJudge = pure (.error e)) ∧
      (c.check = .ok () →
        ofConfigM c makeJudge = Except.ok <$> newM c.height c.validators makeJudge) := by
  refine ⟨fun c => check_eq_noValidators_iff, fun c a => check_eq_repeated_iff,
    fun c => check_eq_ok_iff, fun c => ?_, fun c spellings h => ⟨?_, check_spelled_eq_ok_iff h⟩,
    fun text c h => ⟨check_of_load h, ?_, coordinator_of_load h⟩,
    fun c judgeOf e => Coordinator.ofConfig_eq_error_iff, fun c makeJudge => ⟨fun e h => ?_,
    fun h => ?_⟩⟩
  · have hload := load_of_decode (JsonForm.decode_write c)
    refine ⟨fun h => ?_, fun e h => ?_⟩
    · rw [hload, h]
      rfl
    · rw [hload, h]
      rfl
  · rw [load_of_decode (decode_spelled h), load_of_decode (JsonForm.decode_write c)]
  · exact (check_eq_ok_iff.1 (check_of_load h)).2.map Address.toList_injective
  · rw [ofConfigM, h]
  · rw [ofConfigM, h]

end HeightConfig

namespace Sample

/-- A configuration of two validators. -/
def config : HeightConfig := ⟨5, [⟨.fill 0xAA⟩, ⟨.fill 2⟩]⟩

/-- A configuration that names one validator twice. -/
def twice : HeightConfig := ⟨5, [⟨.fill 0xAA⟩, ⟨.fill 0xAA⟩]⟩

end Sample

namespace HeightConfig

/-- The hypotheses of `check_exact_and_carried` are satisfiable.  A configuration is loaded and
makes a coordinator; one that spells an address in two cases is refused, and no judge is asked
for. -/
theorem check_exact_and_carried_sample :
    load (JsonForm.write Sample.config) = .ok Sample.config ∧
    (new 5 Sample.config.validators HeightContext.judge).validators.size = 2 ∧
    load (spelled 5 [List.replicate 64 'a', List.replicate 64 'A']) =
      .error (.refused (.repeated ⟨.fill 0xAA⟩)) ∧
    (ofConfigM Sample.twice fun _ => (none : Option Judge)) =
      some (.error (.repeated ⟨.fill 0xAA⟩)) ∧
    (ofConfigM Sample.config fun context => some context.judge) =
      Except.ok <$> newM 5 Sample.config.validators fun context => some context.judge := by
  obtain ⟨-, -, -, hwritten, hspelled, hloaded, -, hmade⟩ := check_exact_and_carried
  have hcheck : Sample.config.check = .ok () := by decide
  have hrefused : Sample.twice.check = .error (.repeated ⟨.fill 0xAA⟩) := by decide
  have hload := (hwritten Sample.config).1 hcheck
  have hspellings : List.Forall₂ (fun digits a => Address.ofHex? digits = some a)
      [List.replicate 64 'a', List.replicate 64 'A'] Sample.twice.validators :=
    .cons (by decide) (.cons (by decide) .nil)
  refine ⟨hload, ((hloaded _ _ hload).2.2 HeightContext.judge).2.1, ?_,
    (hmade Sample.twice _).1 _ hrefused, (hmade Sample.config _).2 hcheck⟩
  exact (hspelled Sample.twice _ hspellings).1.trans ((hwritten Sample.twice).2 _ hrefused)

end HeightConfig
end RoundChange
