/-
# The places of a writing

What is written in bytes consists of places.  Most hold one byte, which has to stand there; the
digits of an address may stand there in either case (`Binary.Place`).  Bytes start with a
spelling of some places if each of their first bytes may stand at its place (`Binary.Spells`).

That can be seen by putting the letters of digits in lower case: bytes start with a spelling
just where they start with what is written at the places then (`Binary.exists_spells_iff`).
-/

import RoundChange.Bytes
import RoundChange.Proofs.HexSpelling

namespace RoundChange
namespace Binary

/-- What may stand at one place of a writing: a byte, or the digit of a half byte in either
case. -/
inductive Place where
  | byte (b : UInt8)
  | digit (half : Fin 16)
deriving DecidableEq

namespace Place

/-- What is written at the place. -/
def written : Place → UInt8
  | byte b => b
  | digit half => UInt8.ofNat (Hex.digit half).toNat

/-- What is written at the place, with the letters of digits in upper case. -/
def capital : Place → UInt8
  | byte b => b
  | digit half => UInt8.ofNat (Hex.digit half).toUpper.toNat

/-- The byte may stand at the place. -/
def Admits (p : Place) (b : UInt8) : Prop := b = p.written ∨ b = p.capital

/-- A byte that stands at the place, with the letters `A` to `F` of digits in lower case. -/
def lower : Place → UInt8 → UInt8
  | byte _, b => b
  | digit _, b => if 0x41 ≤ b ∧ b ≤ 0x46 then b + 0x20 else b

/-- A place for one byte admits that byte. -/
theorem admits_byte_iff {b c : UInt8} : (byte c).Admits b ↔ b = c := or_self_iff

/-- **A digit may stand at its place** in the form of any character that stands for it. -/
theorem admits_digit_iff {half : Fin 16} {b : UInt8} : (digit half).Admits b ↔
    b.toNat < 0x80 ∧ Hex.value? (Char.ofNat b.toNat) = some half.val := by
  constructor
  · rintro (rfl | rfl)
    · exact (by decide : ∀ k : Fin 16, (digit k).written.toNat < 0x80 ∧
        Hex.value? (Char.ofNat (digit k).written.toNat) = some k.val) half
    · exact (by decide : ∀ k : Fin 16, (digit k).capital.toNat < 0x80 ∧
        Hex.value? (Char.ofNat (digit k).capital.toNat) = some k.val) half
  · rintro ⟨hsmall, hvalue⟩
    have hb := Utf8.ofNat_toNat_ofNat hsmall
    rcases Hex.value?_eq_some_iff.1 hvalue with hc | hc
    · left
      rw [← hb, hc]
      rfl
    · right
      rw [← hb, hc]
      rfl

/-- **What may stand at a place** is what is written there, up to case. -/
theorem admits_iff_lower {p : Place} {b : UInt8} : p.Admits b ↔ p.lower b = p.written := by
  cases p with
  | byte c => exact admits_byte_iff
  | digit half =>
    constructor
    · rintro (rfl | rfl)
      · exact (by decide : ∀ k, (digit k).lower (digit k).written = (digit k).written) half
      · exact (by decide : ∀ k, (digit k).lower (digit k).capital = (digit k).written) half
    · intro h
      rw [lower] at h
      -- The byte is a letter in upper case, or it is what is written itself.
      split at h
      · rename_i hletter
        have hb : b = (digit half).written - 0x20 := by rw [← h, UInt8.add_sub_cancel]
        have hcapital : ∀ k : Fin 16, 0x41 ≤ (digit k).written - 0x20 →
            (digit k).written - 0x20 = (digit k).capital := by decide
        right
        rw [hb] at hletter ⊢
        exact hcapital half hletter.1
      · exact .inl h

end Place

/-- The bytes start with a spelling of the places, and `rest` stands behind it. -/
def Spells (places : List Place) (bytes rest : List UInt8) : Prop :=
  ∃ front, bytes = front ++ rest ∧ List.Forall₂ Place.Admits places front

/-- The bytes that stand at the places, with the letters of digits in lower case. -/
def lowered (places : List Place) (bytes : List UInt8) : List UInt8 :=
  List.zipWith Place.lower places bytes

section Spelling

variable {places places' : List Place} {bytes rest : List UInt8}

/-- No places spell nothing and leave everything. -/
@[simp] theorem spells_nil_iff : Spells [] bytes rest ↔ bytes = rest := by
  constructor
  · rintro ⟨front, rfl, h⟩
    rw [List.forall₂_nil_left_iff.1 h, List.nil_append]
  · rintro rfl
    exact ⟨[], rfl, .nil⟩

/-- The first place admits the first byte, and the others spell what is behind it. -/
theorem spells_cons_iff {p : Place} : Spells (p :: places) bytes rest ↔
    ∃ b behind, bytes = b :: behind ∧ p.Admits b ∧ Spells places behind rest := by
  constructor
  · rintro ⟨front, rfl, h⟩
    obtain ⟨b, front, hb, hfront, rfl⟩ := List.forall₂_cons_left_iff.1 h
    exact ⟨b, _, rfl, hb, front, rfl, hfront⟩
  · rintro ⟨b, _, rfl, hb, front, rfl, hfront⟩
    exact ⟨b :: front, rfl, .cons hb hfront⟩

/-- **Places are spelled one behind the other.** -/
theorem spells_append_iff : Spells (places ++ places') bytes rest ↔
    ∃ behind, Spells places bytes behind ∧ Spells places' behind rest := by
  induction places generalizing bytes with
  | nil => simp
  | cons p places ih =>
    simp only [List.cons_append, spells_cons_iff, ih]
    constructor
    · rintro ⟨b, mid, hbytes, hb, behind, h, h'⟩
      exact ⟨behind, ⟨b, mid, hbytes, hb, h⟩, h'⟩
    · rintro ⟨behind, ⟨b, mid, hbytes, hb, h⟩, h'⟩
      exact ⟨b, mid, hbytes, hb, behind, h, h'⟩

/-- **Bytes that have to stand there have one spelling.** -/
theorem spells_map_byte_iff {fixed : List UInt8} :
    Spells (fixed.map Place.byte) bytes rest ↔ bytes = fixed ++ rest := by
  induction fixed generalizing bytes with
  | nil => exact spells_nil_iff
  | cons b fixed ih => simp [spells_cons_iff, Place.admits_byte_iff, ih]

/-- **Digits are spelled with one character each** that stands for the half byte. -/
theorem spells_map_digit_iff {halves : List (Fin 16)} :
    Spells (halves.map Place.digit) bytes rest ↔ ∃ text, bytes = Utf8.ascii text ++ rest ∧
      List.Forall₂ (fun (n : Fin 16) c => Hex.value? c = some n.val) halves text := by
  induction halves generalizing bytes with
  | nil => simp [Utf8.ascii]
  | cons n halves ih =>
    simp only [List.map_cons, spells_cons_iff, Place.admits_digit_iff, ih]
    constructor
    · rintro ⟨b, _, rfl, ⟨hsmall, hb⟩, text, rfl, htext⟩
      refine ⟨Char.ofNat b.toNat :: text, ?_, .cons hb htext⟩
      show _ = UInt8.ofNat (Char.ofNat b.toNat).toNat :: (Utf8.ascii text ++ rest)
      rw [Utf8.ofNat_toNat_ofNat hsmall]
    · rintro ⟨_, rfl, h⟩
      obtain ⟨c, text, hc, htext, rfl⟩ := List.forall₂_cons_left_iff.1 h
      have hsmall : (UInt8.ofNat c.toNat).toNat = c.toNat := by
        have := Hex.lt_of_value? hc
        rw [UInt8.toNat_ofNat']
        omega
      refine ⟨UInt8.ofNat c.toNat, _, rfl, ?_, text, rfl, htext⟩
      rw [hsmall, Char.ofNat_toNat]
      exact ⟨Hex.lt_of_value? hc, hc⟩

/-- Bytes are lowered place by place. -/
theorem lowered_cons (p : Place) (b : UInt8) :
    lowered (p :: places) (b :: bytes) = p.lower b :: lowered places bytes := rfl

/-- **Bytes start with a spelling of places** just where they start with what is written there,
up to case. -/
theorem exists_spells_iff :
    (∃ rest, Spells places bytes rest) ↔ lowered places bytes = places.map Place.written := by
  induction places generalizing bytes with
  | nil => simp [lowered]
  | cons p places ih =>
    cases bytes with
    | nil => simp [lowered, spells_cons_iff]
    | cons b bytes =>
      rw [lowered_cons, List.map_cons, List.cons.injEq, ← ih, ← Place.admits_iff_lower]
      simp only [spells_cons_iff, List.cons.injEq]
      constructor
      · rintro ⟨rest, _, _, ⟨rfl, rfl⟩, hb, h⟩
        exact ⟨hb, rest, h⟩
      · rintro ⟨hb, rest, h⟩
        exact ⟨rest, b, bytes, ⟨rfl, rfl⟩, hb, h⟩

end Spelling

end Binary
end RoundChange
