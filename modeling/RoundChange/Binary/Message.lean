/-
# The binary form of messages

A message is written field by field in declaration order, with nothing between.
-/

import RoundChange.Binary.Form
import RoundChange.Height
import RoundChange.Message

namespace RoundChange
namespace BinaryForm

instance : BinaryForm Round where
  write a := write a.height ++ write a.number
  read := return ⟨← read, ← read⟩

instance : BinaryForm Signature where
  write s := write s.bytes
  read := return ⟨← read⟩

instance : BinaryForm Prepare where
  write a := write a.round ++ write a.digest
  read := return ⟨← read, ← read⟩

instance {α : Type} [BinaryForm α] : BinaryForm (Signed α) where
  write a := write a.payload ++ write a.author ++ write a.signature
  read := return ⟨← read, ← read, ← read⟩

instance : BinaryForm PreparedCertificate where
  write a := write a.round ++ write a.digest ++ write a.prepares
  read := return ⟨← read, ← read, ← read⟩

instance : BinaryForm Ballot where
  write a := write a.target ++ write a.prepared
  read := return ⟨← read, ← read⟩

instance : BinaryForm Certificate where
  write c := write c.votes
  read := return ⟨← read⟩

instance : BinaryForm HeightConfig where
  write c := write c.height ++ write c.validators
  read := return ⟨← read, ← read⟩

/-- A round takes twelve bytes. -/
example : write (⟨5, 1⟩ : Round) = [5, 0, 0, 0, 0, 0, 0, 0, 1, 0, 0, 0] := rfl

end BinaryForm
end RoundChange
