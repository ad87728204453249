/-
# What the binary form accepts

Nothing is read but what is written, up to the case of letters in addresses.  The writing of a
value consists of places (`SpelledForm.places`); what a reader takes for the value is a spelling
of its places, and every spelling of a value that fits is taken for it
(`SpelledForm.run_read_iff`).

Each layout has one law, as for reading back: numbers, strings of 32 bytes, lists, options,
addresses, and records of one, two and three fields.  From the law it follows that the value can
be told from the bytes with the letters of addresses in lower case, which are its writing
(`SpelledForm.lowered_of_spells`, `SpelledForm.eq_of_lowered`).
-/

import RoundChange.Proofs.BinaryRoundTrip
import RoundChange.Proofs.Places

namespace RoundChange

open LawfulBinaryForm (Fits)

namespace Binary

open Reader (run_bind_eq_ok_iff run_map_eq_ok_iff run_bind_of_ok)

variable {bytes rest : List UInt8}

/-- **A word is read from its bytes**, and from no others. -/
theorem run_word_iff {α : Type} {ofNat : Nat → α} {toNat : α → Nat} (width : Nat)
    (hof : ∀ x, ofNat (toNat x) = x) (hto : ∀ n < 256 ^ width, toNat (ofNat n) = n)
    (hlt : ∀ x, toNat x < 256 ^ width) {x : α} :
    (ofNat <$> number width).run bytes = .ok (x, rest) ↔
      Spells ((littleEndian width (toNat x)).map Place.byte) bytes rest := by
  rw [run_map_eq_ok_iff, spells_map_byte_iff]
  constructor
  · rintro ⟨n, hnumber, rfl⟩
    obtain ⟨hn, rfl⟩ := run_number_iff.1 hnumber
    rw [hto n hn]
  · rintro rfl
    exact ⟨toNat x, run_number width (hlt x) rest, hof x⟩

end Binary

open Binary Reader

/-- The binary form is read from its spellings and from nothing else. -/
class SpelledForm (α : Type) [BinaryForm α] [LawfulBinaryForm α] where
  /-- The places of the writing of a value. -/
  places : α → List Place
  /-- **What is written at the places is the writing.** -/
  map_written : ∀ x, (places x).map Place.written = BinaryForm.write x
  /-- **Just the spellings of a value that fits are taken for it.** -/
  run_read_iff : ∀ {x : α} {bytes rest : List UInt8},
    (BinaryForm.read : Reader α).run bytes = .ok (x, rest) ↔ Fits x ∧ Spells (places x) bytes rest

namespace SpelledForm

/-- Places that allow one byte each are written as these bytes. -/
theorem map_written_map_byte (bytes : List UInt8) :
    (bytes.map Place.byte).map Place.written = bytes := by
  rw [List.map_map]
  exact List.map_id bytes

section Records

variable {α β γ δ : Type} [BinaryForm α] [BinaryForm β] [BinaryForm γ] [LawfulBinaryForm α]
  [LawfulBinaryForm β] [LawfulBinaryForm γ] [SpelledForm α] [SpelledForm β] [SpelledForm γ]
  {x : α} {y : β} {z : γ} {bytes rest : List UInt8}

/-- **The rest of a reader runs behind a spelling of its first value.** -/
theorem run_read_bind_iff {f : α → Reader δ} {w : δ} :
    (BinaryForm.read >>= f).run bytes = .ok (w, rest) ↔
      ∃ x behind, Fits x ∧ Spells (places x) bytes behind ∧ (f x).run behind = .ok (w, rest) := by
  simp only [run_bind_eq_ok_iff, run_read_iff, and_assoc]

/-- **A record of one field is read from its spellings.** -/
theorem run_one_iff {make : α → δ} (hmake : ∀ {x x'}, make x = make x' → x = x') :
    (do return make (← BinaryForm.read) : Reader δ).run bytes = .ok (make x, rest) ↔
      Fits x ∧ Spells (places x) bytes rest := by
  constructor
  · intro h
    obtain ⟨x', behind, hfx, hx, h⟩ := run_read_bind_iff.1 h
    obtain ⟨hmade, rfl⟩ := run_pure_eq_ok_iff.1 h
    obtain rfl := hmake hmade
    exact ⟨hfx, hx⟩
  · rintro ⟨hfx, hx⟩
    exact run_read_bind_iff.2 ⟨x, rest, hfx, hx, rfl⟩

/-- **A record of two fields is read from its spellings.** -/
theorem run_two_iff {make : α → β → δ}
    (hmake : ∀ {x x' y y'}, make x y = make x' y' → x = x' ∧ y = y') :
    (do return make (← BinaryForm.read) (← BinaryForm.read) : Reader δ).run bytes =
        .ok (make x y, rest) ↔
      (Fits x ∧ Fits y) ∧ Spells (places x ++ places y) bytes rest := by
  rw [spells_append_iff]
  constructor
  · intro h
    obtain ⟨x', behind, hfx, hx, h⟩ := run_read_bind_iff.1 h
    obtain ⟨y', last, hfy, hy, h⟩ := run_read_bind_iff.1 h
    obtain ⟨hmade, rfl⟩ := run_pure_eq_ok_iff.1 h
    obtain ⟨rfl, rfl⟩ := hmake hmade
    exact ⟨⟨hfx, hfy⟩, behind, hx, hy⟩
  · rintro ⟨⟨hfx, hfy⟩, behind, hx, hy⟩
    refine run_read_bind_iff.2 ⟨x, behind, hfx, hx, ?_⟩
    exact run_read_bind_iff.2 ⟨y, rest, hfy, hy, rfl⟩

/-- **A record of three fields is read from its spellings.** -/
theorem run_three_iff {make : α → β → γ → δ}
    (hmake : ∀ {x x' y y' z z'}, make x y z = make x' y' z' → x = x' ∧ y = y' ∧ z = z') :
    (do return make (← BinaryForm.read) (← BinaryForm.read) (← BinaryForm.read) : Reader δ).run
        bytes = .ok (make x y z, rest) ↔
      (Fits x ∧ Fits y ∧ Fits z) ∧ Spells (places x ++ places y ++ places z) bytes rest := by
  simp only [List.append_assoc, spells_append_iff]
  constructor
  · intro h
    obtain ⟨x', behind, hfx, hx, h⟩ := run_read_bind_iff.1 h
    obtain ⟨y', behind', hfy, hy, h⟩ := run_read_bind_iff.1 h
    obtain ⟨z', last, hfz, hz, h⟩ := run_read_bind_iff.1 h
    obtain ⟨hmade, rfl⟩ := run_pure_eq_ok_iff.1 h
    obtain ⟨rfl, rfl, rfl⟩ := hmake hmade
    exact ⟨⟨hfx, hfy, hfz⟩, behind, hx, behind', hy, hz⟩
  · rintro ⟨⟨hfx, hfy, hfz⟩, behind, hx, behind', hy, hz⟩
    refine run_read_bind_iff.2 ⟨x, behind, hfx, hx, ?_⟩
    refine run_read_bind_iff.2 ⟨y, behind', hfy, hy, ?_⟩
    exact run_read_bind_iff.2 ⟨z, rest, hfz, hz, rfl⟩

/-- **Values one behind the other are read from their spellings.** -/
theorem run_repeated_iff {count : Nat} {xs : List α} :
    (repeated (BinaryForm.read : Reader α) count).run bytes = .ok (xs, rest) ↔
      xs.length = count ∧ (∀ x ∈ xs, Fits x) ∧ Spells (xs.flatMap places) bytes rest := by
  induction count generalizing xs bytes with
  | zero =>
    constructor
    · intro h
      obtain ⟨rfl, rfl⟩ := run_pure_eq_ok_iff.1 h
      exact ⟨rfl, nofun, spells_nil_iff.2 rfl⟩
    · rintro ⟨hlength, -, h⟩
      obtain rfl := List.eq_nil_of_length_eq_zero hlength
      rw [spells_nil_iff.1 h]
      rfl
  | succ count ih =>
    rw [repeated, run_read_bind_iff]
    constructor
    · rintro ⟨x, behind, hfx, hx, h⟩
      obtain ⟨xs', last, hxs, h⟩ := run_bind_eq_ok_iff.1 h
      obtain ⟨rfl, rfl⟩ := run_pure_eq_ok_iff.1 h
      obtain ⟨rfl, hfits, hspells⟩ := ih.1 hxs
      exact ⟨rfl, List.forall_mem_cons.2 ⟨hfx, hfits⟩, spells_append_iff.2 ⟨behind, hx, hspells⟩⟩
    · rintro ⟨hlength, hfits, h⟩
      cases xs with
      | nil => cases hlength
      | cons x xs =>
        obtain ⟨hfx, hfits⟩ := List.forall_mem_cons.1 hfits
        obtain ⟨behind, hx, hspells⟩ := spells_append_iff.1 h
        have hxs := ih.2 ⟨Nat.succ.inj hlength, hfits, hspells⟩
        refine ⟨x, behind, hfx, hx, ?_⟩
        rw [run_bind_of_ok hxs]
        rfl

end Records

instance : SpelledForm UInt8 where
  places n := (littleEndian 1 n.toNat).map Place.byte
  map_written _ := map_written_map_byte _
  run_read_iff :=
    (run_word_iff 1 (fun _ => UInt8.ofNat_toNat) (fun _ h => UInt8.toNat_ofNat_of_lt h)
      UInt8.toNat_lt).trans (and_iff_right trivial).symm

instance : SpelledForm UInt32 where
  places n := (littleEndian 4 n.toNat).map Place.byte
  map_written _ := map_written_map_byte _
  run_read_iff :=
    (run_word_iff 4 (fun _ => UInt32.ofNat_toNat) (fun _ h => UInt32.toNat_ofNat_of_lt h)
      UInt32.toNat_lt).trans (and_iff_right trivial).symm

instance : SpelledForm UInt64 where
  places n := (littleEndian 8 n.toNat).map Place.byte
  map_written _ := map_written_map_byte _
  run_read_iff :=
    (run_word_iff 8 (fun _ => UInt64.ofNat_toNat) (fun _ h => UInt64.toNat_ofNat_of_lt h)
      UInt64.toNat_lt).trans (and_iff_right trivial).symm

instance : SpelledForm Bytes32 where
  places a := a.toList.map Place.byte
  map_written _ := map_written_map_byte _
  run_read_iff {a bytes rest} := by
    rw [spells_map_byte_iff]
    constructor
    · intro h
      have hread : (BinaryForm.read : Reader Bytes32) bytes = .ok (a, rest) := h
      simp only [BinaryForm.read] at hread
      split at hread
      · rename_i front behind hsplit
        obtain ⟨rfl, rfl⟩ := Prod.mk.inj (Except.ok.inj hread)
        exact ⟨trivial, (split?_eq_some_iff.1 hsplit).1⟩
      · cases hread
    · rintro ⟨hfits, rfl⟩
      exact LawfulBinaryForm.run_read hfits rest

/-- The count of a list has 8 bytes. -/
theorem size_eq_pow : UInt64.size = 256 ^ 8 := by decide

instance {α : Type} [BinaryForm α] [LawfulBinaryForm α] [SpelledForm α] :
    SpelledForm (List α) where
  places xs := (littleEndian 8 xs.length).map Place.byte ++ xs.flatMap places
  map_written xs := by
    simp only [List.map_append, map_written_map_byte, List.map_flatMap, map_written]
    rfl
  run_read_iff {xs bytes rest} := by
    show (do repeated BinaryForm.read (← number 8) : Reader (List α)).run bytes = _ ↔
      (xs.length < UInt64.size ∧ ∀ x ∈ xs, Fits x) ∧ _
    rw [spells_append_iff, size_eq_pow]
    constructor
    · intro h
      obtain ⟨count, behind, hcount, hitems⟩ := run_bind_eq_ok_iff.1 h
      obtain ⟨hlt, rfl⟩ := run_number_iff.1 hcount
      obtain ⟨hlength, hfits, hspells⟩ := run_repeated_iff.1 hitems
      rw [← hlength] at hlt ⊢
      exact ⟨⟨hlt, hfits⟩, behind, spells_map_byte_iff.2 rfl, hspells⟩
    · rintro ⟨⟨hlt, hfits⟩, behind, hcount, hspells⟩
      have hnumber := run_number_iff.2 ⟨hlt, spells_map_byte_iff.1 hcount⟩
      exact (run_bind_of_ok hnumber _).trans (run_repeated_iff.2 ⟨rfl, hfits, hspells⟩)

instance {α : Type} [BinaryForm α] [LawfulBinaryForm α] [SpelledForm α] :
    SpelledForm (Option α) where
  places
    | none => places (0 : UInt8)
    | some x => places (1 : UInt8) ++ places x
  map_written o := by
    cases o with
    | none => rfl
    | some x => exact List.map_append.trans (congrArg (1 :: ·) (map_written x))
  run_read_iff {o bytes rest} := by
    constructor
    · intro h
      obtain ⟨tag, behind, -, htag, hrest⟩ := run_read_bind_iff.1 h
      -- The tag says which value it is, and no third tag is read.
      split at hrest
      · obtain ⟨rfl, rfl⟩ := run_pure_eq_ok_iff.1 hrest
        exact ⟨nofun, htag⟩
      · obtain ⟨x, last, hfx, hx, hrest⟩ := run_read_bind_iff.1 hrest
        obtain ⟨rfl, rfl⟩ := run_pure_eq_ok_iff.1 hrest
        exact ⟨fun y hy => Option.some.inj hy ▸ hfx, spells_append_iff.2 ⟨behind, htag, hx⟩⟩
      · cases hrest
    · rintro ⟨hfits, h⟩
      cases o with
      | none => exact run_read_bind_iff.2 ⟨0, rest, trivial, h, rfl⟩
      | some x =>
        obtain ⟨behind, htag, hx⟩ := spells_append_iff.1 h
        refine run_read_bind_iff.2 ⟨1, behind, trivial, htag, ?_⟩
        exact run_read_bind_iff.2 ⟨x, rest, hfits x rfl, hx, rfl⟩

instance : SpelledForm Address where
  places a := (littleEndian 8 64).map Place.byte ++ (Hex.halves a.bytes.toList).map Place.digit
  map_written a := by
    rw [List.map_append, map_written_map_byte]
    show _ = littleEndian 8 a.hex.length ++ Utf8.ascii a.hex
    rw [Address.length_hex, Address.hex, Hex.encode_eq_map_halves, Utf8.ascii, List.map_map,
      List.map_map]
    rfl
  run_read_iff {a bytes rest} := by
    simp only [BinaryForm.run_read_address_iff, spells_append_iff, spells_map_byte_iff,
      spells_map_digit_iff, ← Hex.decode_eq_some_iff, Address.ofHex?_eq_some_iff]
    constructor
    · rintro ⟨digits, ha, rfl⟩
      exact ⟨trivial, _, rfl, digits, rfl, ha⟩
    · rintro ⟨-, _, rfl, digits, rfl, ha⟩
      exact ⟨digits, ha, rfl⟩

instance : SpelledForm Round where
  places a := places a.height ++ places a.number
  map_written a := by rw [List.map_append, map_written, map_written]; rfl
  run_read_iff := run_two_iff Round.mk.inj

instance : SpelledForm Signature where
  places s := places s.bytes
  map_written s := map_written s.bytes
  run_read_iff := run_one_iff Signature.mk.inj

instance : SpelledForm Prepare where
  places a := places a.round ++ places a.digest
  map_written a := by rw [List.map_append, map_written, map_written]; rfl
  run_read_iff := run_two_iff Prepare.mk.inj

instance {α : Type} [BinaryForm α] [LawfulBinaryForm α] [SpelledForm α] :
    SpelledForm (Signed α) where
  places a := places a.payload ++ places a.author ++ places a.signature
  map_written a := by simp only [List.map_append, map_written]; rfl
  run_read_iff := run_three_iff Signed.mk.inj

instance : SpelledForm PreparedCertificate where
  places a := places a.round ++ places a.digest ++ places a.prepares
  map_written a := by simp only [List.map_append, map_written]; rfl
  run_read_iff := run_three_iff PreparedCertificate.mk.inj

instance : SpelledForm Ballot where
  places a := places a.target ++ places a.prepared
  map_written a := by rw [List.map_append, map_written, map_written]; rfl
  run_read_iff := run_two_iff Ballot.mk.inj

instance : SpelledForm Certificate where
  places c := places c.votes
  map_written c := map_written c.votes
  run_read_iff := run_one_iff Certificate.mk.inj

instance : SpelledForm HeightConfig where
  places c := places c.height ++ places c.validators
  map_written a := by rw [List.map_append, map_written, map_written]; rfl
  run_read_iff := run_two_iff HeightConfig.mk.inj

section Decoding

variable {α : Type} [BinaryForm α] [LawfulBinaryForm α] [SpelledForm α] {x y : α}
  {front front' bytes rest rest' : List UInt8}

/-- **What is read from the front** fits, and its places admit just these bytes. -/
theorem run_read_append_iff :
    (BinaryForm.read : Reader α).run (front ++ rest) = .ok (x, rest) ↔
      Fits x ∧ List.Forall₂ Place.Admits (places x) front := by
  rw [run_read_iff, Spells]
  constructor
  · rintro ⟨hfits, front', hfront, hspells⟩
    rw [List.append_cancel_right hfront]
    exact ⟨hfits, hspells⟩
  · rintro ⟨hfits, hspells⟩
    exact ⟨hfits, front, rfl, hspells⟩

/-- **A spelling of a value is its writing** but for the case of letters in addresses. -/
theorem lowered_of_spells (h : Spells (places x) bytes rest) :
    lowered (places x) bytes = BinaryForm.write x :=
  (exists_spells_iff.1 ⟨rest, h⟩).trans (map_written x)

/-- Bytes that the places of a value admit are its written form, once letters are lowered. -/
theorem lowered_of_forall₂ (h : List.Forall₂ Place.Admits (places x) front) :
    lowered (places x) front = BinaryForm.write x :=
  lowered_of_spells ⟨front, (List.append_nil front).symm, h⟩

/-- **Bytes that start with a value's writing, up to the case of letters in its addresses,** are
read as that value. -/
theorem eq_of_lowered (hx : Fits x) (hlowered : lowered (places x) bytes = BinaryForm.write x)
    (hy : (BinaryForm.read : Reader α).run bytes = .ok (y, rest)) : y = x := by
  rw [← map_written] at hlowered
  obtain ⟨rest', hspells⟩ := exists_spells_iff.2 hlowered
  have hread := run_read_iff.2 ⟨hx, hspells⟩
  exact (Prod.mk.inj (Except.ok.inj (hy.symm.trans hread))).1

end Decoding

/-- A round has one spelling. -/
theorem places_round (r : Round) : places r = (BinaryForm.write r).map Place.byte :=
  List.map_append.symm

/-- A prepare has one spelling. -/
theorem places_prepare (p : Prepare) : places p = (BinaryForm.write p).map Place.byte := by
  show places p.round ++ p.digest.toList.map Place.byte = _
  rw [places_round]
  exact List.map_append.symm

/-- A signature has one spelling. -/
theorem places_signature (s : Signature) : places s = (BinaryForm.write s).map Place.byte := by
  show _ = List.map Place.byte (littleEndian 8 s.bytes.length ++ s.bytes.flatMap BinaryForm.write)
  rw [List.map_append, List.map_flatMap]
  rfl

end SpelledForm
end RoundChange
