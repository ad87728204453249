/-
# Digits in either case

Bytes are written as digits in lower case and read from digits of either case.  What is read
as some bytes are therefore their digits, each in one of its two cases, and nothing else
(`Hex.decode_eq_some_iff`).  Put in lower case, such a text is what is written for the bytes
(`Hex.map_toLower_of_decode`), so that texts which differ in case alone spell one address.

Where such a text stands in bytes, these are one for each character: a character below
`U+0080` has no other spelling in UTF-8 (`Utf8.eq_ascii_of_decode?`).
-/

import Mathlib.Data.List.Forall2
import RoundChange.Address
import RoundChange.Text.Utf8

namespace RoundChange

namespace Utf8

/-- A character is known by its number. -/
theorem toNat_ofNat_of_isValidChar {n : Nat} (h : n.isValidChar) : (Char.ofNat n).toNat = n := by
  rw [Char.ofNat, dif_pos h]
  rfl

/-- A byte below `80` is the number of a character. -/
theorem ofNat_toNat_ofNat {b : UInt8} (h : b.toNat < 0x80) :
    UInt8.ofNat (Char.ofNat b.toNat).toNat = b := by
  rw [toNat_ofNat_of_isValidChar (.inl (by omega)), UInt8.ofNat_toNat]

/-- A character is not below the least one of its form. -/
theorem le_of_scalar? {least n : Nat} {c : Char} (h : scalar? least n = some c) :
    least ≤ c.toNat := by
  unfold scalar? at h
  split at h
  · rename_i hn
    rw [← Option.some.inj h, toNat_ofNat_of_isValidChar hn.2]
    exact hn.1
  · cases h

/-- A spelling of several bytes is one of a character from `U+0080` on. -/
theorem not_forall_lt_of_scalar? {least n : Nat} {rest? : Option (List Char)} {text : List Char}
    (hleast : 0x80 ≤ least)
    (h : ((scalar? least n).bind fun c => rest?.map (c :: ·)) = some text) :
    ¬∀ c ∈ text, c.toNat < 0x80 := by
  obtain ⟨c, hc, hrest⟩ := Option.bind_eq_some_iff.1 h
  obtain ⟨rest, -, rfl⟩ := Option.map_eq_some_iff.1 hrest
  intro hsmall
  have hlow := le_of_scalar? hc
  have hhigh := hsmall c (List.mem_cons_self ..)
  omega

/-- **Characters below `U+0080` are spelled with one byte each.** -/
theorem eq_ascii_of_decode? {bytes : List UInt8} {text : List Char}
    (h : decode? bytes = some text) (hsmall : ∀ c ∈ text, c.toNat < 0x80) : bytes = ascii text := by
  fun_induction decode? bytes generalizing text with
  | case1 =>
    cases h
    rfl
  | case2 b rest lead hlead =>
    rename_i ih
    obtain ⟨tail, htail, rfl⟩ := Option.map_eq_some_iff.1 h
    rw [ih htail fun c hc => hsmall c (List.mem_cons_of_mem _ hc), ascii, ascii, List.map_cons,
      ofNat_toNat_ofNat hlead]
  | case3 => cases h
  | case4 =>
    -- The lead byte is not below `80`: each length that it may announce starts high enough.
    refine absurd hsmall ?_
    obtain ⟨b, -, h⟩ := Option.bind_eq_some_iff.1 h
    split at h
    · cases h
    split at h
    · exact not_forall_lt_of_scalar? (Nat.le_refl _) h
    split at h
    · cases h
    obtain ⟨c, -, h⟩ := Option.bind_eq_some_iff.1 h
    split at h
    · exact not_forall_lt_of_scalar? (by decide) h
    split at h
    · cases h
    obtain ⟨d, -, h⟩ := Option.bind_eq_some_iff.1 h
    exact not_forall_lt_of_scalar? (by decide) h

end Utf8

namespace Hex

/-- The half bytes of a string of bytes, the high half of each byte first. -/
def halves (bytes : List UInt8) : List (Fin 16) :=
  bytes.flatMap fun b => [⟨b.toNat / 16, Nat.div_lt_of_lt_mul b.toNat_lt⟩,
    ⟨b.toNat % 16, Nat.mod_lt _ (by decide)⟩]

/-- A byte is its two halves, the high one first. -/
theorem halves_cons (b : UInt8) (bytes : List UInt8) : halves (b :: bytes) =
    ⟨b.toNat / 16, Nat.div_lt_of_lt_mul b.toNat_lt⟩ ::
      ⟨b.toNat % 16, Nat.mod_lt _ (by decide)⟩ :: halves bytes := rfl

/-- **A digit for each half byte.** -/
theorem encode_eq_map_halves (bytes : List UInt8) :
    encode bytes = (halves bytes).map fun (n : Fin 16) => digit n.val := by
  rw [encode, halves, List.map_flatMap]
  rfl

/-- **A half byte is read from its digit**, in either case. -/
theorem value?_eq_some_iff {c : Char} {n : Fin 16} :
    value? c = some n.val ↔ c = digit n ∨ c = (digit n).toUpper := by
  constructor
  · intro h
    unfold value? at h
    dsimp only at h
    split at h
    · have hc : c.toNat = 48 + n := by injection h; omega
      left
      rw [← Char.ofNat_toNat c, hc, digit, if_pos (by omega)]
    · split at h
      · have hc : c.toNat = 87 + n := by injection h; omega
        left
        rw [← Char.ofNat_toNat c, hc, digit, if_neg (by omega)]
      · split at h
        · have hc : c.toNat = 55 + n := by injection h; omega
          have hupper : ∀ k : Fin 16, 10 ≤ k.val → (digit k).toUpper = Char.ofNat (55 + k) := by
            decide
          right
          rw [← Char.ofNat_toNat c, hc, hupper n (by omega)]
        · cases h
  · rintro (rfl | rfl)
    · exact value?_digit n.isLt
    · exact (by decide : ∀ k : Fin 16, value? (digit k).toUpper = some k.val) n

/-- A digit is a character of one byte. -/
theorem lt_of_value? {c : Char} {n : Nat} (h : value? c = some n) : c.toNat < 0x80 := by
  unfold value? at h
  dsimp only at h
  split at h
  · omega
  · split at h
    · omega
    · split at h
      · omega
      · cases h

/-- **Text is read as the bytes whose digits it holds**, in either case. -/
theorem decode_eq_some_iff {text : List Char} {bytes : List UInt8} :
    decode text = some bytes ↔
      List.Forall₂ (fun (n : Fin 16) c => value? c = some n.val) (halves bytes) text := by
  fun_induction decode text generalizing bytes with
  | case1 =>
    cases bytes with
    | nil => exact iff_of_true rfl .nil
    | cons b bytes => simp [halves_cons]
  | case2 c =>
    cases bytes with
    | nil => simp [halves]
    | cons b bytes => simp [halves_cons]
  | case3 high low rest ih =>
    simp only [Option.bind_eq_bind, Option.bind_eq_some_iff, Option.pure_def, Option.some.injEq]
    cases bytes with
    | nil => simp [halves]
    | cons b bytes =>
      rw [halves_cons, List.forall₂_cons, List.forall₂_cons, ← ih]
      simp only [List.cons.injEq]
      constructor
      · rintro ⟨h, hhigh, l, hlow, tail, htail, rfl, rfl⟩
        have hh := value?_lt hhigh
        have hl := value?_lt hlow
        have hb : (UInt8.ofNat (16 * h + l)).toNat = 16 * h + l := by
          rw [UInt8.toNat_ofNat']
          omega
        refine ⟨?_, ?_, htail⟩
        · rw [hhigh, hb]; congr 1; omega
        · rw [hlow, hb]; congr 1; omega
      · rintro ⟨hhigh, hlow, htail⟩
        refine ⟨_, hhigh, _, hlow, bytes, htail, ?_, rfl⟩
        rw [Nat.div_add_mod, UInt8.ofNat_toNat]

/-- **All characters that are read are digits**, in either case. -/
theorem exists_value?_of_decode {text : List Char} {bytes : List UInt8}
    (h : decode text = some bytes) : ∀ c ∈ text, ∃ n : Fin 16, value? c = some n.val := by
  rw [decode_eq_some_iff] at h
  generalize halves bytes = digits at h
  induction h with
  | nil => exact nofun
  | cons hc _ ih => exact List.forall_mem_cons.2 ⟨⟨_, hc⟩, ih⟩

/-- A text of digits has characters of one byte. -/
theorem lt_of_decode {text : List Char} {bytes : List UInt8} (h : decode text = some bytes)
    (c : Char) (hc : c ∈ text) : c.toNat < 0x80 :=
  have ⟨_, hvalue⟩ := exists_value?_of_decode h c hc
  lt_of_value? hvalue

/-- **In lower case the text is what is written for the bytes.** -/
theorem map_toLower_of_decode {text : List Char} {bytes : List UInt8}
    (h : decode text = some bytes) : text.map Char.toLower = encode bytes := by
  rw [encode_eq_map_halves]
  rw [decode_eq_some_iff] at h
  generalize halves bytes = digits at h ⊢
  induction h with
  | nil => rfl
  | @cons n c _ _ hc _ ih =>
    have hlower : c.toLower = digit n := by
      rcases value?_eq_some_iff.1 hc with rfl | rfl
      · exact (by decide : ∀ k : Fin 16, (digit k).toLower = digit k) n
      · exact (by decide : ∀ k : Fin 16, (digit k).toUpper.toLower = digit k) n
    rw [List.map_cons, List.map_cons, hlower, ih]

end Hex

namespace Address

/-- The digits of an address are those of its bytes. -/
theorem ofHex?_eq_some_iff {digits : List Char} {a : Address} :
    ofHex? digits = some a ↔ Hex.decode digits = some a.bytes.toList := by
  simp only [ofHex?, Option.bind_eq_some_iff, Option.map_eq_some_iff, Bytes32.ofList?_eq_some_iff]
  constructor
  · rintro ⟨bytes, hbytes, b, rfl, rfl⟩
    exact hbytes
  · intro h
    exact ⟨_, h, a.bytes, rfl, rfl⟩

/-- **An address is spelled by its digits**, in either case. -/
theorem map_toLower_of_ofHex? {digits : List Char} {a : Address} (h : ofHex? digits = some a) :
    digits.map Char.toLower = a.hex :=
  Hex.map_toLower_of_decode (ofHex?_eq_some_iff.1 h)

/-- **Different addresses have different digits.** -/
theorem hex_injective : Function.Injective hex := fun a b h =>
  Option.some.inj (by rw [← ofHex?_hex a, h, ofHex?_hex])

end Address
end RoundChange
