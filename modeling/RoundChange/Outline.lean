/-
# The display of values

How a value is shown to a developer: numbers and texts as they are, lists in square
brackets, sets in braces, and records with their label and the names of their
fields.  Of a long string of bytes only the beginning is shown, and of a secret key
only its address.
-/

import RoundChange.Height
import RoundChange.Message

namespace RoundChange

/-- What is shown of a value. -/
inductive Outline where
  | atom (text : String)
  | list (items : List Outline)
  | set (items : List Outline)
  | some (item : Outline)
  | record (label : Label) (values : List Outline)

namespace Outline

/-- A record with the texts of its values. -/
def recordText (label : Label) (values : List String) : String :=
  let field (name value : String) := name ++ ": " ++ value
  label.name ++ " \x7b " ++ ", ".intercalate (label.fields.zipWith field values) ++ " \x7d"

mutual

/-- The text that is shown. -/
def text : Outline → String
  | atom text => text
  | list items => "[" ++ ", ".intercalate (texts items) ++ "]"
  | set items => "\x7b" ++ ", ".intercalate (texts items) ++ "\x7d"
  | some item => "Some(" ++ text item ++ ")"
  | record label values => recordText label (texts values)

/-- The texts of several values. -/
def texts : List Outline → List String
  | [] => []
  | item :: rest => text item :: texts rest

end

/-- Nothing in square brackets, and a set of two. -/
example : text (list []) = "[]" ∧ text (set [atom "1", atom "2"]) = "\x7b1, 2\x7d" := by
  decide +kernel

end Outline

/-- The values that are shown in outline. -/
class Outlined (α : Type) where
  /-- What is shown of a value. -/
  outline : α → Outline

namespace Outlined

open Outline

instance : Outlined UInt8 := ⟨fun n => atom (toString n.toNat)⟩

instance : Outlined UInt32 := ⟨fun n => atom (toString n.toNat)⟩

instance : Outlined UInt64 := ⟨fun n => atom (toString n.toNat)⟩

instance {α : Type} [Outlined α] : Outlined (List α) := ⟨fun xs => list (xs.map outline)⟩

instance {α : Type} [Outlined α] : Outlined (Option α) :=
  ⟨fun x => x.elim (atom "None") fun x => some (outline x)⟩

instance : Outlined Bytes32 := ⟨fun a => outline a.toList⟩

instance : Outlined Address := ⟨fun a => atom ("Address(" ++ a.short ++ ")")⟩

instance : Outlined Signature := ⟨fun s => atom ("Signature(" ++ s.short ++ "..)")⟩

instance : Outlined SecretKey := ⟨fun k => atom ("NodeKey(address=" ++ k.address.text ++ ")")⟩

instance : Outlined Round := ⟨fun a => record Round.label [outline a.height, outline a.number]⟩

instance : Outlined Prepare := ⟨fun a => record Prepare.label [outline a.round, outline a.digest]⟩

instance {α : Type} [Outlined α] : Outlined (Signed α) :=
  ⟨fun a => record Signed.label [outline a.payload, outline a.author, outline a.signature]⟩

instance : Outlined PreparedCertificate :=
  ⟨fun a => record PreparedCertificate.label
    [outline a.round, outline a.digest, outline a.prepares]⟩

instance : Outlined Ballot :=
  ⟨fun a => record Ballot.label [outline a.target, outline a.prepared]⟩

instance : Outlined Certificate := ⟨fun c => record Certificate.label [outline c.votes]⟩

instance : Outlined HeightConfig :=
  ⟨fun c => record HeightConfig.label [outline c.height, outline c.validators]⟩

instance : Outlined ValidatorSet := ⟨fun s => set (s.members.map outline)⟩

instance : Outlined HeightContext :=
  ⟨fun ctx => record HeightContext.label
    [outline ctx.height, outline ctx.validators, atom (toString ctx.requiredPrepares)]⟩

/-- The text that is shown of a value. -/
def display {α : Type} [Outlined α] (x : α) : String := (outline x).text

end Outlined
end RoundChange
