/-
# Reading binary forms back

What a value is written as is read back as that value, whatever follows it, and exactly
its own bytes are taken (`LawfulBinaryForm.run_read`).  The counts of lists are written
in 8 bytes, so this holds of the values in which every list is shorter than `UInt64.size`
(`LawfulBinaryForm.Fits`).

Each layout has one law: numbers, strings of 32 bytes, lists, options, addresses, and
records of one, two and three fields.  The law of a message is that of its layout.

What is read back from its front tells how bytes start: with the writing of one value at most
(`LawfulBinaryForm.append_inj`), so that no writing is the start of another one.
-/

import Mathlib.Algebra.Group.Nat.Defs
import RoundChange.Binary.Message
import RoundChange.Proofs.HexSpelling
import RoundChange.Proofs.Readers

namespace RoundChange

/-- A string of bytes spells a number below the power of its length. -/
theorem ofLittleEndian_lt (bytes : List UInt8) : ofLittleEndian bytes < 256 ^ bytes.length := by
  induction bytes with
  | nil => decide
  | cons b bytes ih =>
    have hb := b.toNat_lt
    simp only [ofLittleEndian, List.length_cons, Nat.pow_succ]
    omega

/-- **Writing keeps the value that the bytes can hold.** -/
theorem ofLittleEndian_littleEndian (count n : Nat) :
    ofLittleEndian (littleEndian count n) = n % 256 ^ count := by
  induction count generalizing n with
  | zero => simp [littleEndian, ofLittleEndian, Nat.mod_one]
  | succ count ih =>
    have split : 256 ^ (count + 1) = 256 * 256 ^ count := by rw [Nat.pow_succ, Nat.mul_comm]
    rw [littleEndian, ofLittleEndian, ih, split, Nat.mod_mul]
    rfl

namespace Binary

open Reader (run_bind_of_ok run_bind_eq_ok_iff run_pure_eq_ok_iff)

/-- **So many bytes are taken as they are.** -/
theorem run_take_iff {count : Nat} {bytes front rest : List UInt8} :
    (take count).run bytes = .ok (front, rest) ↔ bytes = front ++ rest ∧ front.length = count := by
  rw [← split?_eq_some_iff]
  show take count bytes = _ ↔ _
  rw [take]
  cases split? count bytes with
  | none => simp
  | some read => simp

/-- **A number within its width is read back.** -/
theorem run_number (width : Nat) {n : Nat} (h : n < 256 ^ width) (rest : List UInt8) :
    (number width).run (littleEndian width n ++ rest) = .ok (n, rest) := by
  have htake : (take width).run (littleEndian width n ++ rest) = .ok (littleEndian width n, rest) :=
    run_take_iff.2 ⟨rfl, length_littleEndian width n⟩
  rw [number, run_bind_of_ok htake, ofLittleEndian_littleEndian, Nat.mod_eq_of_lt h]
  rfl

/-- **A number is read from its bytes**, and from no others. -/
theorem run_number_iff {width n : Nat} {bytes rest : List UInt8} :
    (number width).run bytes = .ok (n, rest) ↔
      n < 256 ^ width ∧ bytes = littleEndian width n ++ rest := by
  constructor
  · intro h
    obtain ⟨front, behind, htake, h⟩ := run_bind_eq_ok_iff.1 h
    obtain ⟨rfl, rfl⟩ := run_pure_eq_ok_iff.1 h
    obtain ⟨rfl, rfl⟩ := run_take_iff.1 htake
    exact ⟨ofLittleEndian_lt front, by rw [littleEndian_ofLittleEndian]⟩
  · rintro ⟨hn, rfl⟩
    exact run_number width hn rest

/-- **Values one behind the other are read back if each of them is.** -/
theorem run_repeated {α : Type} {read : Reader α} {write : α → List UInt8} {xs : List α}
    (h : ∀ x ∈ xs, ∀ rest, read.run (write x ++ rest) = .ok (x, rest)) (rest : List UInt8) :
    (repeated read xs.length).run (xs.flatMap write ++ rest) = .ok (xs, rest) := by
  induction xs with
  | nil => rfl
  | cons x xs ih =>
    have hx := h x (List.mem_cons_self ..) (xs.flatMap write ++ rest)
    have hxs := ih fun y hy => h y (List.mem_cons_of_mem _ hy)
    rw [List.flatMap_cons, List.append_assoc, List.length_cons, repeated, run_bind_of_ok hx,
      run_bind_of_ok hxs]
    rfl

end Binary

open Binary Reader

namespace BinaryForm

/-- An address takes 72 bytes, the count of its digits and the digits. -/
theorem write_address (a : Address) : write a = littleEndian 8 64 ++ Utf8.ascii a.hex :=
  congrArg (littleEndian 8 · ++ Utf8.ascii a.hex) a.length_hex

/-- **An address is read from 64 digits** behind their count, in either case. -/
theorem run_read_address_iff {a : Address} {bytes rest : List UInt8} :
    (read : Reader Address).run bytes = .ok (a, rest) ↔ ∃ digits,
      Address.ofHex? digits = some a ∧
        bytes = littleEndian 8 64 ++ (Utf8.ascii digits ++ rest) := by
  have hlength {digits : List Char} (ha : Address.ofHex? digits = some a) :
      (Utf8.ascii digits).length = 64 := by
    rw [Utf8.ascii, List.length_map, Address.length_of_ofHex? ha]
  have hsmall {digits : List Char} (ha : Address.ofHex? digits = some a) :
      ∀ c ∈ digits, c.toNat < 0x80 := Hex.lt_of_decode (Address.ofHex?_eq_some_iff.1 ha)
  constructor
  · intro h
    obtain ⟨count, behind, hcount, hbehind⟩ := run_bind_eq_ok_iff.1 h
    obtain ⟨front, last, htake, hlast⟩ := run_bind_eq_ok_iff.1 hbehind
    obtain ⟨-, rfl⟩ := run_number_iff.1 hcount
    obtain ⟨rfl, rfl⟩ := run_take_iff.1 htake
    split at hlast
    · cases hlast
    · rename_i digits hdigits
      split at hlast
      · cases hlast
      · rename_i ha
        obtain ⟨rfl, rfl⟩ := run_pure_eq_ok_iff.1 hlast
        obtain rfl := Utf8.eq_ascii_of_decode? hdigits (hsmall ha)
        exact ⟨digits, ha, by rw [hlength ha]⟩
  · rintro ⟨digits, ha, rfl⟩
    have htake : (take 64).run (Utf8.ascii digits ++ rest) = .ok (Utf8.ascii digits, rest) :=
      run_take_iff.2 ⟨rfl, hlength ha⟩
    refine (run_bind_of_ok (run_number 8 (by decide) _) _).trans ?_
    refine (run_bind_of_ok htake _).trans ?_
    simp only [Utf8.decode?_ascii (hsmall ha), ha]
    rfl

end BinaryForm

/-- The binary form is read back, of the values whose lists have counts of 8 bytes. -/
class LawfulBinaryForm (α : Type) [BinaryForm α] where
  /-- Every list in the value is shorter than `UInt64.size`. -/
  Fits : α → Prop
  /-- **Reading takes what was written and nothing more.** -/
  run_read : ∀ {x : α}, Fits x → ∀ rest : List UInt8,
    (BinaryForm.read : Reader α).run (BinaryForm.write x ++ rest) = .ok (x, rest)

namespace LawfulBinaryForm

section Records

variable {α β γ δ : Type} [BinaryForm α] [BinaryForm β] [BinaryForm γ] [LawfulBinaryForm α]
  [LawfulBinaryForm β] [LawfulBinaryForm γ] {x : α} {y : β} {z : γ}

/-- **A record of one field is read back.** -/
theorem run_one (make : α → δ) (hx : Fits x) (rest : List UInt8) :
    (do return make (← BinaryForm.read) : Reader δ).run (BinaryForm.write x ++ rest) =
      .ok (make x, rest) := by
  rw [run_bind_of_ok (run_read hx rest)]
  rfl

/-- **A record of two fields is read back.** -/
theorem run_two (make : α → β → δ) (hx : Fits x) (hy : Fits y) (rest : List UInt8) :
    (do return make (← BinaryForm.read) (← BinaryForm.read) : Reader δ).run
      (BinaryForm.write x ++ BinaryForm.write y ++ rest) = .ok (make x y, rest) := by
  rw [List.append_assoc, run_bind_of_ok (run_read hx _), run_bind_of_ok (run_read hy rest)]
  rfl

/-- **A record of three fields is read back.** -/
theorem run_three (make : α → β → γ → δ) (hx : Fits x) (hy : Fits y) (hz : Fits z)
    (rest : List UInt8) :
    (do return make (← BinaryForm.read) (← BinaryForm.read) (← BinaryForm.read) : Reader δ).run
      (BinaryForm.write x ++ BinaryForm.write y ++ BinaryForm.write z ++ rest) =
        .ok (make x y z, rest) := by
  rw [List.append_assoc, List.append_assoc, run_bind_of_ok (run_read hx _),
    run_bind_of_ok (run_read hy _), run_bind_of_ok (run_read hz rest)]
  rfl

end Records

instance : LawfulBinaryForm UInt8 where
  Fits _ := True
  run_read {n} _ rest := by
    have hn := run_map_of_ok (run_number 1 n.toNat_lt rest) UInt8.ofNat
    rwa [UInt8.ofNat_toNat] at hn

instance : LawfulBinaryForm UInt32 where
  Fits _ := True
  run_read {n} _ rest := by
    have hn := run_map_of_ok (run_number 4 n.toNat_lt rest) UInt32.ofNat
    rwa [UInt32.ofNat_toNat] at hn

instance : LawfulBinaryForm UInt64 where
  Fits _ := True
  run_read {n} _ rest := by
    have hn := run_map_of_ok (run_number 8 n.toNat_lt rest) UInt64.ofNat
    rwa [UInt64.ofNat_toNat] at hn

instance : LawfulBinaryForm Bytes32 where
  Fits _ := True
  run_read {a} _ rest := by
    have hsplit : split? 32 (a.toList ++ rest) = some (a.toList, rest) :=
      split?_eq_some_iff.2 ⟨rfl, a.length_toList⟩
    show (BinaryForm.read : Reader Bytes32) (a.toList ++ rest) = _
    simp only [BinaryForm.read]
    split
    · rename_i front rest' h
      rw [hsplit] at h
      obtain ⟨rfl, rfl⟩ := Prod.mk.inj (Option.some.inj h)
      rfl
    · rename_i h
      rw [hsplit] at h
      cases h

instance {α : Type} [BinaryForm α] [LawfulBinaryForm α] : LawfulBinaryForm (List α) where
  Fits xs := xs.length < UInt64.size ∧ ∀ x ∈ xs, Fits x
  run_read {xs} h rest := by
    have hcount := run_number 8 h.1 (xs.flatMap BinaryForm.write ++ rest)
    have hitems := run_repeated (fun x hx => run_read (h.2 x hx)) rest
    show StateT.run (do repeated BinaryForm.read (← number 8))
      (littleEndian 8 xs.length ++ xs.flatMap BinaryForm.write ++ rest) = _
    rw [List.append_assoc, run_bind_of_ok hcount, hitems]

instance {α : Type} [BinaryForm α] [LawfulBinaryForm α] : LawfulBinaryForm (Option α) where
  Fits o := ∀ x ∈ o, Fits x
  run_read {o} h rest := by
    cases o with
    | none => rfl
    | some x =>
      have htag : (BinaryForm.read : Reader UInt8).run (1 :: (BinaryForm.write x ++ rest)) =
        .ok (1, BinaryForm.write x ++ rest) := rfl
      simp only [BinaryForm.read, BinaryForm.write, List.cons_append]
      refine (run_bind_of_ok htag _).trans ?_
      refine (run_bind_of_ok (run_read (h x rfl) rest) _).trans ?_
      rfl

instance : LawfulBinaryForm Address where
  Fits _ := True
  run_read {a} _ rest := by
    rw [BinaryForm.write_address, List.append_assoc]
    exact BinaryForm.run_read_address_iff.2 ⟨a.hex, a.ofHex?_hex, rfl⟩

instance : LawfulBinaryForm Round where
  Fits a := Fits a.height ∧ Fits a.number
  run_read h := run_two Round.mk h.1 h.2

instance : LawfulBinaryForm Signature where
  Fits s := Fits s.bytes
  run_read h := run_one Signature.mk h

instance : LawfulBinaryForm Prepare where
  Fits a := Fits a.round ∧ Fits a.digest
  run_read h := run_two Prepare.mk h.1 h.2

instance {α : Type} [BinaryForm α] [LawfulBinaryForm α] : LawfulBinaryForm (Signed α) where
  Fits a := Fits a.payload ∧ Fits a.author ∧ Fits a.signature
  run_read h := run_three Signed.mk h.1 h.2.1 h.2.2

instance : LawfulBinaryForm PreparedCertificate where
  Fits a := Fits a.round ∧ Fits a.digest ∧ Fits a.prepares
  run_read h := run_three PreparedCertificate.mk h.1 h.2.1 h.2.2

instance : LawfulBinaryForm Ballot where
  Fits a := Fits a.target ∧ Fits a.prepared
  run_read h := run_two Ballot.mk h.1 h.2

instance : LawfulBinaryForm Certificate where
  Fits c := Fits c.votes
  run_read h := run_one Certificate.mk h

instance : LawfulBinaryForm HeightConfig where
  Fits c := Fits c.height ∧ Fits c.validators
  run_read h := run_two HeightConfig.mk h.1 h.2

section Unique

variable {α : Type} [BinaryForm α] [LawfulBinaryForm α] {x y : α}

/-- **Bytes start with the writing of one value at most.** -/
theorem append_inj (hx : Fits x) (hy : Fits y) {rest rest' : List UInt8}
    (h : BinaryForm.write x ++ rest = BinaryForm.write y ++ rest') : x = y ∧ rest = rest' := by
  have hread := run_read hx rest
  rw [h, run_read hy rest'] at hread
  obtain ⟨rfl, rfl⟩ := Prod.mk.inj (Except.ok.inj hread)
  exact ⟨rfl, rfl⟩

/-- **No writing is the start of another one.** -/
theorem prefix_iff (hx : Fits x) (hy : Fits y) :
    BinaryForm.write x <+: BinaryForm.write y ↔ x = y := by
  constructor
  · rintro ⟨rest, h⟩
    rw [← List.append_nil (BinaryForm.write y)] at h
    exact (append_inj hx hy h).1
  · rintro rfl
    exact List.prefix_rfl

end Unique

end LawfulBinaryForm

namespace BinaryForm

/-- **Decoding undoes encoding**, whatever stands behind the value. -/
theorem decode_write {α : Type} [BinaryForm α] [LawfulBinaryForm α] {x : α}
    (h : LawfulBinaryForm.Fits x) (rest : List UInt8) : decode (write x ++ rest) = .ok x := by
  rw [decode, LawfulBinaryForm.run_read h]
  rfl

end BinaryForm
end RoundChange
