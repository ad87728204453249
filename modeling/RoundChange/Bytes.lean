/-
# Strings of bytes

Numbers written in bytes, the low byte first, and strings of exactly 32 bytes,
which are what an address, a secret seed and the digest of a proposal are made of.

Every string of bytes is the writing of the number it spells
(`littleEndian_ofLittleEndian`).
-/

namespace RoundChange

/-- A number in so many bytes, the low byte first. -/
def littleEndian : Nat → Nat → List UInt8
  | 0, _ => []
  | count + 1, n => UInt8.ofNat n :: littleEndian count (n / 256)

/-- The number that bytes spell, the low byte first. -/
def ofLittleEndian : List UInt8 → Nat
  | [] => 0
  | b :: bytes => b.toNat + 256 * ofLittleEndian bytes

/-- A number in so many bytes, the high byte first. -/
def bigEndian (count n : Nat) : List UInt8 := (littleEndian count n).reverse

/-- The number that bytes spell, the high byte first. -/
def ofBigEndian (bytes : List UInt8) : Nat := ofLittleEndian bytes.reverse

/-- A number is written in as many bytes as are asked for. -/
@[simp] theorem length_littleEndian (count n : Nat) : (littleEndian count n).length = count := by
  induction count generalizing n with
  | zero => rfl
  | succ count ih => simp [littleEndian, ih]

/-- **Bytes are the writing of the number they spell.** -/
theorem littleEndian_ofLittleEndian (bytes : List UInt8) :
    littleEndian bytes.length (ofLittleEndian bytes) = bytes := by
  induction bytes with
  | nil => rfl
  | cons b bytes ih =>
    have hb := b.toNat_lt
    have low : UInt8.ofNat (b.toNat + 256 * ofLittleEndian bytes) = b := by
      apply UInt8.toNat_inj.1
      rw [UInt8.toNat_ofNat']
      omega
    have high : (b.toNat + 256 * ofLittleEndian bytes) / 256 = ofLittleEndian bytes := by omega
    rw [List.length_cons, littleEndian, ofLittleEndian, low, high, ih]

/-- The first `count` pieces of `size` elements each; the last may be shorter. -/
def pieces {α : Type} (size : Nat) : Nat → List α → List (List α)
  | 0, _ => []
  | count + 1, xs => xs.take size :: pieces size count (xs.drop size)

/-- A string of exactly 32 bytes. -/
structure Bytes32 where
  toList : List UInt8
  length_toList : toList.length = 32
deriving DecidableEq

namespace Bytes32

/-- The string, if it has 32 bytes. -/
def ofList? (bytes : List UInt8) : Option Bytes32 :=
  if h : bytes.length = 32 then some ⟨bytes, h⟩ else none

/-- The same byte 32 times. -/
def fill (b : UInt8) : Bytes32 := ⟨List.replicate 32 b, List.length_replicate⟩

/-- Strings of 32 bytes with the same bytes are equal. -/
@[ext] theorem ext {a b : Bytes32} (h : a.toList = b.toList) : a = b := by
  cases a; cases b; cases h; rfl

/-- The bytes of a string of 32 make that string. -/
@[simp] theorem ofList?_toList (a : Bytes32) : ofList? a.toList = some a := by
  simp [ofList?, a.length_toList]

/-- Only its own bytes make a string of 32. -/
theorem ofList?_eq_some_iff {bytes : List UInt8} {a : Bytes32} :
    ofList? bytes = some a ↔ bytes = a.toList := by
  constructor
  · intro h
    unfold ofList? at h
    split at h
    · cases h; rfl
    · cases h
  · rintro rfl
    exact ofList?_toList a

end Bytes32
end RoundChange
