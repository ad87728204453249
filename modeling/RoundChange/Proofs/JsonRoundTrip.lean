/-
# Reading JSON forms back

What a value is written as is read back as that value, wherever it stands in a text
(`LawfulJsonForm`).  Unlike in the binary form there is no bound on the length of lists,
since a list is read up to its closing bracket.

Each layout has one law: numbers, strings of 32 bytes, lists, addresses, and records of
one, two and three fields.  An option is read back where no value is written like `null`.
The laws of lists and records are about any text that their parts are read from, since an
address can be read from two (`Address.readsAs_of_ofHex?`).
-/

import RoundChange.Json.Message
import RoundChange.Proofs.HexSpelling
import RoundChange.Proofs.JsonRecord

namespace RoundChange

open Json Reader

/-- The JSON form is read back. -/
class LawfulJsonForm (α : Type) [JsonForm α] : Prop where
  /-- **Reading takes what was written and nothing more.** -/
  readsBack : ∀ x : α, ReadsBack JsonForm.read JsonForm.write x

/-- The digits of an address, in either case, stand in a string as they are. -/
theorem Address.plain_of_ofHex? {digits : List Char} {a : Address} (h : ofHex? digits = some a)
    (c : Char) (hc : c ∈ digits) : Plain c := by
  obtain ⟨n, hn⟩ := Hex.exists_value?_of_decode (ofHex?_eq_some_iff.1 h) c hc
  rcases Hex.value?_eq_some_iff.1 hn with rfl | rfl
  · exact (by decide : ∀ k : Fin 16, Plain (Hex.digit k)) n
  · exact (by decide : ∀ k : Fin 16, Plain (Hex.digit k).toUpper) n

/-- The text as a string, if it needs no escapes. -/
def Json.quoted (text : List Char) : List Char := '"' :: (text ++ ['"'])

/-- **An address is read from its digits in either case.** -/
theorem Address.readsAs_of_ofHex? {digits : List Char} {a : Address}
    (h : ofHex? digits = some a) : ReadsAs JsonForm.read (quoted digits) a where
  starts := ⟨'"', _, rfl, rfl, by decide⟩
  run {rest} _ := by
    have hstring := run_string (plain_of_ofHex? h) rest
    have hopen : quoted digits ++ rest = '"' :: (digits ++ '"' :: rest) := by
      rw [quoted, List.cons_append, List.append_assoc]
      rfl
    rw [hopen]
    refine (run_bind_of_ok (run_peek? rfl _) _).trans ?_
    refine (run_bind_of_ok (run_advance ..) _).trans ?_
    refine (run_bind_of_ok hstring _).trans ?_
    rw [h]
    rfl

/-- The labels of the messages are clear. -/
theorem clear_labels : ∀ label ∈ [Round.label, Signature.label, Prepare.label, Signed.label,
    PreparedCertificate.label, Ballot.label, Certificate.label, HeightConfig.label],
    label.Clear := by
  decide

namespace LawfulJsonForm

section Records

variable {β γ δ σ α : Type} [JsonForm β] [JsonForm γ] [JsonForm δ]

/-- **A slot takes the value of its field.** -/
theorem run_slot (get : σ → Option β) (set : σ → β → σ) (gathered : σ) {text : List Char} {x : β}
    (hx : ReadsAs JsonForm.read text x) {rest : List Char} (h : Delimited rest) :
    ((slot get set).read gathered).run (text ++ rest) = .ok (set gathered x, rest) :=
  run_map_of_ok (hx.run h) (set gathered)

section Gathering

variable {name₁ name₂ name₃ : String} {text₁ text₂ text₃ : List Char} {x : β} {y : γ} {z : δ}
  (hx : ReadsAs JsonForm.read text₁ x)

include hx

/-- The slot of a record with one field takes its value. -/
theorem gathers_one : Gathers ([name₁].zip oneSlot) ([name₁].zip [text₁]) none (some x) := by
  refine .cons (List.mem_cons_self ..) rfl (run_slot _ _ _ hx) ?_
  exact .nil _

variable (hy : ReadsAs JsonForm.read text₂ y)

include hy

/-- The slots of a record with two fields take their values. -/
theorem gathers_two :
    Gathers ([name₁, name₂].zip twoSlots) ([name₁, name₂].zip [text₁, text₂]) (none, none)
      (some x, some y) := by
  refine .cons (List.mem_cons_self ..) rfl (run_slot _ _ _ hx) ?_
  refine .cons (List.mem_cons_of_mem _ (List.mem_cons_self ..)) rfl (run_slot _ _ _ hy) ?_
  exact .nil _

/-- The slots of a record with three fields take their values. -/
theorem gathers_three (hz : ReadsAs JsonForm.read text₃ z) :
    Gathers ([name₁, name₂, name₃].zip threeSlots)
      ([name₁, name₂, name₃].zip [text₁, text₂, text₃]) (none, none, none)
      (some x, some y, some z) := by
  refine .cons (List.mem_cons_self ..) rfl (run_slot _ _ _ hx) ?_
  refine .cons (List.mem_cons_of_mem _ (List.mem_cons_self ..)) rfl (run_slot _ _ _ hy) ?_
  refine .cons (List.mem_cons_of_mem _ (List.mem_cons_of_mem _ (List.mem_cons_self ..))) rfl
    (run_slot _ _ _ hz) ?_
  exact .nil _

end Gathering

/-- **A labelled record is read** if its fields can be gathered and make it. -/
theorem readsAs_record {form : RecordForm σ α} {text : List Char} {values : List (List Char)}
    {gathered : σ} {x : α} (hlabel : form.label.Clear)
    (htext : text = JsonForm.labelled form.label values)
    (h : Gathers (form.label.fields.zip form.slots) (form.label.fields.zip values) form.start
      gathered) (hfinish : form.finish gathered = .ok x) : ReadsAs (record form) text x where
  starts := by
    rw [htext]
    exact ⟨'\x7b', _, rfl, rfl, by decide⟩
  run _ := by
    rw [htext]
    exact run_record hlabel h hfinish _

end Records

instance : LawfulJsonForm UInt8 where
  readsBack n :=
    { starts := startsValue_toDigits n.toNat
      run := fun h => by
        have hn := run_map_of_ok (run_unsigned h 8 n.toNat_lt
          (Nat.lt_trans n.toNat_lt (by decide))) UInt8.ofNat
        rwa [UInt8.ofNat_toNat] at hn }

instance : LawfulJsonForm UInt32 where
  readsBack n :=
    { starts := startsValue_toDigits n.toNat
      run := fun h => by
        have hn := run_map_of_ok (run_unsigned h 32 n.toNat_lt
          (Nat.lt_trans n.toNat_lt (by decide))) UInt32.ofNat
        rwa [UInt32.ofNat_toNat] at hn }

instance : LawfulJsonForm UInt64 where
  readsBack n :=
    { starts := startsValue_toDigits n.toNat
      run := fun h => by
        have hn := run_map_of_ok (run_unsigned h 64 n.toNat_lt n.toNat_lt) UInt64.ofNat
        rwa [UInt64.ofNat_toNat] at hn }

/-- **A list is read if its elements are.** -/
theorem readsAs_list {α : Type} [JsonForm α] {texts : List (List Char)} {xs : List α}
    (h : List.Forall₂ (ReadsAs JsonForm.read) texts xs) :
    ReadsAs JsonForm.read (listText texts) xs where
  starts := ⟨'[', _, rfl, rfl, by decide⟩
  run _ := run_list h _

instance {α : Type} [JsonForm α] [LawfulJsonForm α] : LawfulJsonForm (List α) where
  readsBack _ := readsAs_list (forall₂_readsAs fun x _ => readsBack x)

instance : LawfulJsonForm Bytes32 where
  readsBack a :=
    { starts := ⟨'[', _, rfl, rfl, by decide⟩
      run := fun {rest} _ => by
        have hread : ∀ n ∈ a.toList, ReadsBack JsonForm.read JsonForm.write n :=
          fun n _ => readsBack n
        have hitems := run_itemsExactly_zero (forall₂_readsAs hread) .bytes32 rest
        rw [a.length_toList] at hitems
        show StateT.run _ (listText (a.toList.map JsonForm.write) ++ rest) = _
        rw [listText_append]
        refine (run_bind_of_ok (run_peek? rfl _) _).trans ?_
        refine (run_bind_of_ok (run_advance ..) _).trans ?_
        refine (run_bind_of_ok hitems _).trans ?_
        rw [Bytes32.ofList?_toList]
        rfl }

/-- **An option is read back** where no value is written like `null`. -/
theorem option {α : Type} [JsonForm α] [LawfulJsonForm α]
    (h : ∀ x : α, (JsonForm.write x).head? ≠ some 'n') : LawfulJsonForm (Option α) where
  readsBack
    | none => { starts := ⟨'n', _, rfl, rfl, by decide⟩, run := fun _ => rfl }
    | some x =>
      { starts := (readsBack x).starts
        run := fun {rest} hrest => by
          have hread := (readsBack x).run hrest
          obtain ⟨c, tail, htext, hblank, -⟩ := (readsBack x).starts
          have hn := h x
          rw [htext, List.head?_cons] at hn
          show StateT.run (do
            if (← peek?) = some 'n' then
              literal ['n', 'u', 'l', 'l']
              return none
            else return some (← JsonForm.read) : Reader (Option α)) (JsonForm.write x ++ rest) = _
          rw [htext, List.cons_append] at hread ⊢
          rw [run_bind_of_ok (run_peek? hblank _), if_neg hn, run_bind_of_ok hread]
          rfl }

instance : LawfulJsonForm Address where
  readsBack a := Address.readsAs_of_ofHex? a.ofHex?_hex

instance : LawfulJsonForm Round where
  readsBack _ := readsAs_record (clear_labels _ (by simp)) rfl
    (gathers_two (readsBack _) (readsBack _)) rfl

instance : LawfulJsonForm Signature where
  readsBack _ := readsAs_record (clear_labels _ (by simp)) rfl (gathers_one (readsBack _)) rfl

instance : LawfulJsonForm Prepare where
  readsBack _ := readsAs_record (clear_labels _ (by simp)) rfl
    (gathers_two (readsBack _) (readsBack _)) rfl

instance {α : Type} [JsonForm α] [LawfulJsonForm α] : LawfulJsonForm (Signed α) where
  readsBack _ := readsAs_record (clear_labels _ (by simp)) rfl
    (gathers_three (readsBack _) (readsBack _) (readsBack _)) rfl

instance : LawfulJsonForm PreparedCertificate where
  readsBack _ := readsAs_record (clear_labels _ (by simp)) rfl
    (gathers_three (readsBack _) (readsBack _) (readsBack _)) rfl

instance : LawfulJsonForm (Option PreparedCertificate) :=
  option fun _ h => absurd (Option.some.inj h : '\x7b' = 'n') (by decide)

instance : LawfulJsonForm Ballot where
  readsBack _ := readsAs_record (clear_labels _ (by simp)) rfl
    (gathers_two (readsBack _) (readsBack _)) rfl

instance : LawfulJsonForm Certificate where
  readsBack _ := readsAs_record (clear_labels _ (by simp)) rfl (gathers_one (readsBack _)) rfl

instance : LawfulJsonForm HeightConfig where
  readsBack _ := readsAs_record (clear_labels _ (by simp)) rfl
    (gathers_two (readsBack _) (readsBack _)) rfl

end LawfulJsonForm

namespace JsonForm

/-- **Text that is read as a value is decoded to it**, if it stands alone. -/
theorem decode_of_readsAs {α : Type} [JsonForm α] {text : List Char} {x : α}
    (h : ReadsAs read text x) : decode text = .ok x := by
  have hread := h.run delimited_nil
  rw [List.append_nil] at hread
  have hwhole : (do
      let x ← read
      if (← peek?).isSome then throw Fault.malformed
      return x : Reader α).run text = .ok (x, []) := by
    rw [run_bind_of_ok hread]
    rfl
  rw [decode, hwhole]
  rfl

/-- **Decoding undoes encoding.** -/
theorem decode_write {α : Type} [JsonForm α] [LawfulJsonForm α] (x : α) :
    decode (write x) = .ok x :=
  decode_of_readsAs (LawfulJsonForm.readsBack x)

end JsonForm
end RoundChange
