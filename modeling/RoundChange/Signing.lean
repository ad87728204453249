/-
# Signing

What `SignedData::sign` signs is not the payload alone: a tag that sets the protocol apart from
all others comes first (`SIGNING_DOMAIN`), then a code that sets the kinds of payload apart
(`MESSAGE_CODE`), then the binary form of the payload (`signingBytes`).

| payload | code |
| --- | ---: |
| prepare | 1 |
| ballot | 3 |

A message is known in reports by its digest, a hash of author and signature.
-/

import RoundChange.Binary.Message
import RoundChange.Hash.Blake3

namespace RoundChange

/-- The tag that every signed message starts with. -/
def signingDomain : List UInt8 :=
  Utf8.ascii ['N', 'O', 'V', 'A', '-', 'I', 'B', 'F', 'T', '-', 'v', '1']

/-- The payloads that can be signed. -/
class Signable (α : Type) extends BinaryForm α where
  /-- The code of this kind of payload. -/
  code : UInt8
  /-- The round that the payload is about. -/
  round : α → Round

instance : Signable Prepare := { code := 1, round := Prepare.round }

instance : Signable Ballot := { code := 3, round := Ballot.target }

/-- The bytes that are signed for a payload. -/
def signingBytes {α : Type} [Signable α] (payload : α) : List UInt8 :=
  BinaryForm.write signingDomain ++ BinaryForm.write (Signable.code α) ++ BinaryForm.write payload

namespace Signed

variable {α : Type}

/-- Signs a payload, in the name of the key that signs. -/
def sign [Signable α] (payload : α) (key : SecretKey) : Signed α :=
  ⟨payload, key.address, key.sign (signingBytes payload)⟩

/-- The signature is one of the payload by the author. -/
def verifies [Signable α] (m : Signed α) : Bool :=
  m.author.verifies (signingBytes m.payload) m.signature

/-- The round that the message is about. -/
def round [Signable α] (m : Signed α) : Round := Signable.round m.payload

/-- What the message is known by: a hash of author and signature. -/
def digest (m : Signed α) : Bytes32 :=
  ⟨Blake3.hash (m.author.bytes.toList ++ m.signature.bytes), Blake3.length_hash _⟩

end Signed
end RoundChange
