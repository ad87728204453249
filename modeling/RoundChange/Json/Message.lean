/-
# The JSON form of messages

A message is an object whose fields are those of its label in declaration order.
The prepared certificate of a ballot may be left out of an object, which means
that there is none; every other field must be there.
-/

import RoundChange.Height
import RoundChange.Json.Form
import RoundChange.Message

namespace RoundChange
namespace JsonForm

open Json

/-- The object of a label with these texts as the values of its fields. -/
def labelled (label : Label) (values : List (List Char)) : List Char :=
  objectText (label.fields.zip values)

instance : JsonForm Round where
  write a := labelled Round.label [write a.height, write a.number]
  read := record ⟨Round.label, twoSlots, (none, none), fun s => do
    return ⟨← required 0 s.1, ← required 1 s.2⟩⟩

instance : JsonForm Signature where
  write s := labelled Signature.label [write s.bytes]
  read := record ⟨Signature.label, oneSlot, none, fun s => do return ⟨← required 0 s⟩⟩

instance : JsonForm Prepare where
  write a := labelled Prepare.label [write a.round, write a.digest]
  read := record ⟨Prepare.label, twoSlots, (none, none), fun s => do
    return ⟨← required 0 s.1, ← required 1 s.2⟩⟩

instance {α : Type} [JsonForm α] : JsonForm (Signed α) where
  write a := labelled Signed.label [write a.payload, write a.author, write a.signature]
  read := record ⟨Signed.label, threeSlots, (none, none, none), fun s => do
    return ⟨← required 0 s.1, ← required 1 s.2.1, ← required 2 s.2.2⟩⟩

instance : JsonForm PreparedCertificate where
  write a := labelled PreparedCertificate.label [write a.round, write a.digest, write a.prepares]
  read := record ⟨PreparedCertificate.label, threeSlots, (none, none, none), fun s => do
    return ⟨← required 0 s.1, ← required 1 s.2.1, ← required 2 s.2.2⟩⟩

instance : JsonForm Ballot where
  write a := labelled Ballot.label [write a.target, write a.prepared]
  read := record ⟨Ballot.label, twoSlots, (none, none), fun s => do
    return ⟨← required 0 s.1, s.2.getD none⟩⟩

instance : JsonForm Certificate where
  write c := labelled Certificate.label [write c.votes]
  read := record ⟨Certificate.label, oneSlot, none, fun s => do return ⟨← required 0 s⟩⟩

instance : JsonForm HeightConfig where
  write c := labelled HeightConfig.label [write c.height, write c.validators]
  read := record ⟨HeightConfig.label, twoSlots, (none, none), fun s => do
    return ⟨← required 0 s.1, ← required 1 s.2⟩⟩

/-- A round as an object and as a list. -/
example : write (⟨5, 1⟩ : Round) = "\x7b\"sequence_number\":5,\"round_number\":1\x7d".toList ∧
    (decode "[5,1]".toList).toOption = some (⟨5, 1⟩ : Round) := by decide +kernel

end JsonForm
end RoundChange
