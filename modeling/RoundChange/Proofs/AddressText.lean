/-
# The text of an address

An `Address` is spelled by 64 hexadecimal digits and by nothing else.  Every text of 64 digits
of either case spells one (`Address.exists_ofHex?_iff`), and it is the address whose digits
these are in lower case (`Address.ofHex?_eq_some_iff_toLower`).  Texts that differ in case
alone therefore spell one address (`Address.ofHex?_congr`).

Addresses are ordered byte by byte and their texts character by character, and the two orders
are one (`Address.text_lt_text_iff`).  A byte is less than another if its high half is, or its
low half where the high halves are equal, and the digits are in the order of the half bytes:
`9` comes before `a`.
-/

import Mathlib.Data.String.Basic
import RoundChange.Proofs.HexSpelling
import RoundChange.ValidatorSet

namespace RoundChange

namespace Hex

/-- The character is a hexadecimal digit, in either case. -/
def IsDigit (c : Char) : Prop :=
  '0' ≤ c ∧ c ≤ '9' ∨ 'a' ≤ c ∧ c ≤ 'f' ∨ 'A' ≤ c ∧ c ≤ 'F'

/-- The digits are three ranges of characters. -/
theorem isDigit_iff {c : Char} : IsDigit c ↔ 48 ≤ c.toNat ∧ c.toNat ≤ 57 ∨
    97 ≤ c.toNat ∧ c.toNat ≤ 102 ∨ 65 ≤ c.toNat ∧ c.toNat ≤ 70 := by
  simp only [IsDigit, Char.le_def, UInt32.le_iff_toNat_le]
  exact Iff.rfl

/-- **Case makes no difference** to what is a digit. -/
theorem isDigit_toLower_iff {c : Char} : IsDigit c.toLower ↔ IsDigit c := by
  rw [isDigit_iff, isDigit_iff]
  by_cases hupper : c.val ≥ 'A'.val ∧ c.val ≤ 'Z'.val
  · have hlow : 65 ≤ c.toNat := UInt32.le_iff_toNat_le.1 hupper.1
    have hhigh : c.toNat ≤ 90 := UInt32.le_iff_toNat_le.1 hupper.2
    have hlower : c.toLower.toNat = (c.val + 32).toNat := congrArg Char.toNat (dif_pos hupper)
    have hword : c.toNat + 32 < 2 ^ 32 :=
      Nat.lt_of_le_of_lt (Nat.add_le_add_right hhigh 32) (by decide)
    have hsum : c.toLower.toNat = c.toNat + 32 := by
      rw [hlower, UInt32.toNat_add]
      exact Nat.mod_eq_of_lt hword
    omega
  · have hsame : c.toLower = c := dif_neg hupper
    rw [hsame]

/-- **The digits are the characters that stand for a half byte.** -/
theorem exists_value?_iff {c : Char} : (∃ n, value? c = some n) ↔ IsDigit c := by
  rw [isDigit_iff]
  unfold value?
  dsimp only
  split
  · rename_i h
    exact iff_of_true ⟨_, rfl⟩ (.inl h)
  · rename_i hdecimal
    split
    · rename_i h
      exact iff_of_true ⟨_, rfl⟩ (.inr (.inl h))
    · rename_i hlower
      split
      · rename_i h
        exact iff_of_true ⟨_, rfl⟩ (.inr (.inr h))
      · rename_i hupper
        refine iff_of_false (by simp) ?_
        rintro (h | h | h)
        · exact hdecimal h
        · exact hlower h
        · exact hupper h

/-- **Pairs of digits are read**, and nothing else. -/
theorem exists_decode_iff {text : List Char} :
    (∃ bytes, decode text = some bytes) ↔ text.length % 2 = 0 ∧ ∀ c ∈ text, IsDigit c := by
  fun_induction decode text with
  | case1 => simp
  | case2 c => simp
  | case3 high low rest ih =>
    have hlength : (high :: low :: rest).length % 2 = rest.length % 2 := by
      simp only [List.length_cons]
      omega
    rw [hlength, List.forall_mem_cons, List.forall_mem_cons, ← exists_value?_iff,
      ← exists_value?_iff]
    simp only [Option.bind_eq_bind, Option.bind_eq_some_iff, Option.pure_def, Option.some.injEq]
    constructor
    · rintro ⟨_, h, hhigh, l, hlow, tail, htail, -⟩
      obtain ⟨heven, hdigits⟩ := ih.1 ⟨tail, htail⟩
      exact ⟨heven, ⟨h, hhigh⟩, ⟨l, hlow⟩, hdigits⟩
    · rintro ⟨heven, ⟨h, hhigh⟩, ⟨l, hlow⟩, hdigits⟩
      obtain ⟨tail, htail⟩ := ih.2 ⟨heven, hdigits⟩
      exact ⟨_, h, hhigh, l, hlow, tail, htail, rfl⟩

/-- **Digits are in the order of the half bytes.** -/
theorem digit_lt_digit_iff {m n : Nat} (hm : m < 16) (hn : n < 16) :
    digit m < digit n ↔ m < n :=
  (by decide : ∀ i j : Fin 16, digit i < digit j ↔ i.val < j.val) ⟨m, hm⟩ ⟨n, hn⟩

/-- Different half bytes have different digits. -/
theorem digit_inj {m n : Nat} (hm : m < 16) (hn : n < 16) : digit m = digit n ↔ m = n :=
  (by decide : ∀ i j : Fin 16, digit i = digit j ↔ i.val = j.val) ⟨m, hm⟩ ⟨n, hn⟩

/-- **What is written is in the order of the bytes**, of whatever lengths. -/
theorem encode_lt_encode_iff {l m : List UInt8} : encode l < encode m ↔ l < m := by
  induction l generalizing m with
  | nil =>
    cases m with
    | nil => exact iff_of_false (List.lt_irrefl _) (List.lt_irrefl _)
    | cons c m => exact iff_of_true (List.nil_lt_cons _ _) (List.nil_lt_cons _ _)
  | cons b l ih =>
    cases m with
    | nil => exact iff_of_false (List.not_lt_nil _) (List.not_lt_nil _)
    | cons c m =>
      have hb := b.toNat_lt
      have hc := c.toNat_lt
      -- Bytes are compared by their halves one after the other, as their digits are.
      have hlt : (b.toNat / 16 < c.toNat / 16 ∨
          b.toNat / 16 = c.toNat / 16 ∧ b.toNat % 16 < c.toNat % 16) ↔ b < c := by
        rw [UInt8.lt_iff_toNat_lt]
        omega
      have heq : b.toNat / 16 = c.toNat / 16 ∧ b.toNat % 16 = c.toNat % 16 ↔ b = c := by
        rw [← UInt8.toNat_inj]
        omega
      rw [encode_cons, encode_cons, List.cons_lt_cons_iff, List.cons_lt_cons_iff,
        List.cons_lt_cons_iff, digit_lt_digit_iff (by omega) (by omega),
        digit_lt_digit_iff (by omega) (by omega), digit_inj (by omega) (by omega),
        digit_inj (by omega) (by omega), ih, and_or_left, ← or_assoc, ← and_assoc, hlt, heq]

end Hex

namespace Address

/-- **Every 64 digits spell an address.** -/
theorem exists_ofHex?_iff {digits : List Char} :
    (∃ a, ofHex? digits = some a) ↔ digits.length = 64 ∧ ∀ c ∈ digits, Hex.IsDigit c := by
  constructor
  · rintro ⟨a, h⟩
    exact ⟨length_of_ofHex? h, (Hex.exists_decode_iff.1 ⟨_, ofHex?_eq_some_iff.1 h⟩).2⟩
  · rintro ⟨hlength, hdigits⟩
    obtain ⟨bytes, hbytes⟩ := Hex.exists_decode_iff.2 ⟨by rw [hlength], hdigits⟩
    have hcount : bytes.length = 32 := by
      have htwo := Hex.length_of_decode hbytes
      omega
    exact ⟨⟨bytes, hcount⟩, ofHex?_eq_some_iff.2 hbytes⟩

/-- **Which address is spelled** is read off the digits in lower case. -/
theorem ofHex?_eq_some_iff_toLower {digits : List Char} {a : Address} :
    ofHex? digits = some a ↔
      digits.length = 64 ∧ (∀ c ∈ digits, Hex.IsDigit c) ∧ digits.map Char.toLower = a.hex := by
  rw [← and_assoc, ← exists_ofHex?_iff]
  constructor
  · intro h
    exact ⟨⟨a, h⟩, map_toLower_of_ofHex? h⟩
  · rintro ⟨⟨b, hb⟩, hlower⟩
    have hsame : b.hex = a.hex := (map_toLower_of_ofHex? hb).symm.trans hlower
    rw [hb, hex_injective hsame]

/-- **Case makes no difference** to which address is spelled. -/
theorem ofHex?_congr {digits digits' : List Char}
    (h : digits.map Char.toLower = digits'.map Char.toLower) : ofHex? digits = ofHex? digits' := by
  have hdigits : ∀ text : List Char,
      (∀ c ∈ text, Hex.IsDigit c) ↔ ∀ c ∈ text.map Char.toLower, Hex.IsDigit c := fun text => by
    simp only [List.forall_mem_map, Hex.isDigit_toLower_iff]
  have hlength : digits.length = digits'.length := by
    rw [← List.length_map (f := Char.toLower), h, List.length_map]
  ext a
  rw [ofHex?_eq_some_iff_toLower, ofHex?_eq_some_iff_toLower, hlength, hdigits, h, ← hdigits]

/-- The text of an address is made of its digits. -/
theorem toList_text (a : Address) : a.text.toList = a.hex := String.toList_ofList

/-- **Texts are in the order of the addresses.** -/
theorem text_lt_text_iff {a b : Address} : a.text < b.text ↔ a < b := by
  rw [String.lt_iff_toList_lt, toList_text, toList_text]
  exact Hex.encode_lt_encode_iff

/-- **The text of an address is exact and keeps the order.**  A string spells an address just
where it is 64 hexadecimal digits of either case, and it is the address whose text is the string
in lower case.  So the text of an address is read back, two strings spell one address just
where one of them does and they agree in lower case, addresses and their texts are in one order,
and the validators of a set are shown in rising order. -/
theorem text_exact_and_ordered :
    (∀ (s : String) (a : Address), ofHex? s.toList = some a ↔
      s.length = 64 ∧ (∀ c ∈ s.toList, Hex.IsDigit c) ∧ a.text = s.toLower) ∧
    (∀ s : String, (∃ a, ofHex? s.toList = some a) ↔
      s.length = 64 ∧ ∀ c ∈ s.toList, Hex.IsDigit c) ∧
    (∀ a : Address, ofHex? a.text.toList = some a) ∧
    (∀ s t : String, (∃ a, ofHex? s.toList = some a ∧ ofHex? t.toList = some a) ↔
      (∃ a, ofHex? s.toList = some a) ∧ s.toLower = t.toLower) ∧
    (∀ a b : Address, a < b ↔ a.text < b.text) ∧
    ∀ set : ValidatorSet, (set.members.map text).Pairwise (· < ·) := by
  have hlower : ∀ s : String, s.toLower.toList = s.toList.map Char.toLower := fun s =>
    String.toList_map
  refine ⟨fun s a => ?_, fun s => ?_, fun a => ?_, fun s t => ?_, fun a b => text_lt_text_iff.symm,
    fun set => ?_⟩
  · rw [ofHex?_eq_some_iff_toLower, String.length_toList, ← String.toList_inj, toList_text, hlower,
      eq_comm (a := a.hex)]
  · rw [exists_ofHex?_iff, String.length_toList]
  · rw [toList_text, ofHex?_hex]
  · rw [← String.toList_inj, hlower, hlower]
    constructor
    · rintro ⟨a, hs, ht⟩
      exact ⟨⟨a, hs⟩, (map_toLower_of_ofHex? hs).trans (map_toLower_of_ofHex? ht).symm⟩
    · rintro ⟨⟨a, hs⟩, hst⟩
      exact ⟨a, hs, ofHex?_congr hst ▸ hs⟩
  · exact List.pairwise_map.2 (set.increasing.imp text_lt_text_iff.2)

end Address
end RoundChange
