/-
# Reading records of JSON

A record is read back from its object where the values of the fields fill its slots one
after the other (`Json.Gathers`): every field is known, comes once, and its value is read
in full.  That the slots are found by name is a matter of the label
(`Label.Clear`): its names are different and need no escapes.
-/

import RoundChange.Json.Form
import RoundChange.Proofs.JsonText

namespace RoundChange

/-- The names of the fields differ and are written without escapes. -/
structure Label.Clear (label : Label) : Prop where
  nodup : label.fields.Nodup
  plain : ∀ name ∈ label.fields, ∀ c ∈ name.toList, Json.Plain c

/-- Names are looked through by `List.all`, so that no other decision of a statement about
all characters can be taken for this one. -/
instance (label : Label) : Decidable label.Clear :=
  decidable_of_iff (label.fields.Nodup ∧
      (label.fields.all fun name => name.toList.all fun c => Json.Plain c) = true) <| by
    simp only [List.all_eq_true, decide_eq_true_eq]
    exact ⟨fun h => ⟨h.1, h.2⟩, fun h => ⟨h.nodup, h.plain⟩⟩

namespace Json

open Reader (run_bind_of_ok)

/-- A field of an object. -/
def fieldText (field : String × List Char) : List Char :=
  '"' :: (field.1.toList ++ '"' :: ':' :: field.2)

section Fields

variable {σ : Type}

/-- **The slot of a name is found** where no two names are the same. -/
theorem find?_zip {names : List String} (hnames : names.Nodup) {slots : List (Slot σ)}
    {name : String} {slot : Slot σ} (h : (name, slot) ∈ names.zip slots) :
    ((names.zip slots).find? fun (n, _) => n.toList = name.toList) = some (name, slot) := by
  induction names generalizing slots with
  | nil => cases h
  | cons n names ih =>
    cases slots with
    | nil => cases h
    | cons s slots =>
      have hnew := List.nodup_cons.1 hnames
      rw [List.zip_cons_cons] at h ⊢
      rcases List.mem_cons.1 h with heq | htail
      · rw [← heq]
        exact List.find?_cons_of_pos (decide_eq_true rfl)
      · have hne : n.toList ≠ name.toList := by
          intro heq
          rw [String.toList_inj.1 heq] at hnew
          exact hnew.1 (List.of_mem_zip htail).1
        rw [List.find?_cons_of_neg (by simpa using hne)]
        exact ih hnew.2 htail

/-- The fields of an object fill the slots one after the other. -/
inductive Gathers (slots : List (String × Slot σ)) : List (String × List Char) → σ → σ → Prop
  | nil (gathered : σ) : Gathers slots [] gathered gathered
  | cons {name : String} {slot : Slot σ} {value : List Char} {fields : List (String × List Char)}
      {before between after : σ} (known : (name, slot) ∈ slots)
      (free : slot.filled before = false)
      (read : ∀ {rest : List Char}, Delimited rest →
        (slot.read before).run (value ++ rest) = .ok (between, rest))
      (others : Gathers slots fields between after) :
      Gathers slots ((name, value) :: fields) before after

variable {label : Label} (hlabel : label.Clear) {slots : List (Slot σ)}

include hlabel

/-- **One field is gathered**, whichever way its key was reached. -/
theorem run_field {first : Bool} {name : String} {slot : Slot σ} {value text rest : List Char}
    {before between : σ} (hknown : (name, slot) ∈ label.fields.zip slots)
    (hfree : slot.filled before = false)
    (hread : (slot.read before).run (value ++ rest) = .ok (between, rest))
    (hnext : (nextKey first).run text = .ok (true, fieldText (name, value) ++ rest))
    (s : Char) (steps : List Char) :
    (fieldsWithin (label.fields.zip slots) (s :: steps) first before).run text =
      (fieldsWithin (label.fields.zip slots) steps false between).run rest := by
  have hkey := run_string (hlabel.plain name (List.of_mem_zip hknown).1) (':' :: (value ++ rest))
  have htext : fieldText (name, value) ++ rest =
      '"' :: (name.toList ++ '"' :: ':' :: (value ++ rest)) := by
    rw [fieldText, List.cons_append, List.append_assoc]
    rfl
  rw [htext] at hnext
  rw [fieldsWithin, run_bind_of_ok hnext]
  refine (run_bind_of_ok (run_advance ..) _).trans ?_
  refine (run_bind_of_ok hkey _).trans ?_
  rw [find?_zip hlabel.nodup hknown]
  simp only [hfree]
  have hcolon : colon.run (':' :: (value ++ rest)) = .ok ((), value ++ rest) := rfl
  refine (run_bind_of_ok hcolon _).trans ?_
  exact run_bind_of_ok hread _

/-- **The fields behind the first one are gathered**, in more steps than there are. -/
theorem run_fieldsWithin {fields : List (String × List Char)} {before after : σ}
    (h : Gathers (label.fields.zip slots) fields before after) {steps : List Char}
    (hsteps : fields.length < steps.length) (rest : List Char) :
    (fieldsWithin (label.fields.zip slots) steps false before).run
      (behindCommas (fields.map fieldText) ++ '\x7d' :: rest) = .ok (after, '\x7d' :: rest) := by
  induction h generalizing steps with
  | nil gathered =>
    cases steps with
    | nil => cases hsteps
    | cons s steps => rfl
  | @cons name slot value fields before between after known free read others ih =>
    cases steps with
    | nil => cases hsteps
    | cons s steps =>
      have hread := read (delimited_behindCommas (fields.map fieldText)
        (delimited_closeObject rest))
      rw [List.map_cons, behindCommas_cons, List.cons_append, List.append_assoc,
        run_field hlabel known free hread rfl]
      exact ih (Nat.lt_of_succ_lt_succ hsteps)

/-- **The fields of an object are gathered** in as many steps as their text has
characters. -/
theorem run_fields {fields : List (String × List Char)} {before after : σ}
    (h : Gathers (label.fields.zip slots) fields before after) (rest : List Char) :
    StateT.run (fun text => fieldsWithin (label.fields.zip slots) text true before text)
      ([','].intercalate (fields.map fieldText) ++ '\x7d' :: rest) =
        .ok (after, '\x7d' :: rest) := by
  cases h with
  | nil => rfl
  | @cons name slot value fields _ between _ known free read others =>
    have hread := read (delimited_behindCommas (fields.map fieldText) (delimited_closeObject rest))
    have hsteps : fields.length < (name.toList ++ '"' :: ':' :: value ++
        (behindCommas (fields.map fieldText) ++ '\x7d' :: rest)).length := by
      have hlength := length_le_behindCommas (fields.map fieldText)
      rw [List.length_map] at hlength
      rw [List.length_append, List.length_append, List.length_append, List.length_cons]
      omega
    rw [List.map_cons, intercalate_cons, List.append_assoc]
    refine (run_field hlabel known free hread rfl '"' _).trans ?_
    exact run_fieldsWithin hlabel others hsteps rest

omit hlabel

/-- **A record is read back from its object** if its fields can be gathered and make it. -/
theorem run_record {α : Type} {form : RecordForm σ α} (hlabel : form.label.Clear)
    {fields : List (String × List Char)} {gathered : σ} {x : α}
    (h : Gathers (form.label.fields.zip form.slots) fields form.start gathered)
    (hfinish : form.finish gathered = .ok x) (rest : List Char) :
    (record form).run (objectText fields ++ rest) = .ok (x, rest) := by
  have hopen : objectText fields ++ rest =
      '\x7b' :: ([','].intercalate (fields.map fieldText) ++ '\x7d' :: rest) := by
    rw [objectText, List.cons_append, List.append_assoc]
    rfl
  rw [hopen, record, run_bind_of_ok (run_peek? rfl _)]
  refine (run_bind_of_ok (run_advance ..) _).trans ?_
  refine (run_bind_of_ok (run_fields hlabel h rest) _).trans ?_
  simp only [hfinish]
  rfl

end Fields

end Json
end RoundChange
