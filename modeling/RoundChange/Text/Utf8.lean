/-
# UTF-8

The characters that a string of bytes spells in UTF-8 (`Utf8.decode?`), or `none`
when the bytes are not well formed.

| lead byte | bytes | characters |
| --- | ---: | --- |
| `00`–`7F` | 1 | `U+0000`–`U+007F` |
| `C2`–`DF` | 2 | `U+0080`–`U+07FF` |
| `E0`–`EF` | 3 | `U+0800`–`U+FFFF` without the surrogates |
| `F0`–`F4` | 4 | `U+10000`–`U+10FFFF` |

Each byte after the lead holds six bits.  A character has one spelling only: one
that a shorter form could hold is refused in the longer.
-/

namespace RoundChange
namespace Utf8

/-- The six bits of a byte that continues a character. -/
def continuation? (b : UInt8) : Option Nat :=
  if 0x80 ≤ b.toNat ∧ b.toNat < 0xC0 then some (b.toNat - 0x80) else none

/-- The character numbered `n`, where a spelling of this length starts at `least`. -/
def scalar? (least n : Nat) : Option Char :=
  if least ≤ n ∧ n.isValidChar then some (Char.ofNat n) else none

/-- The characters that well-formed bytes spell. -/
def decode? : List UInt8 → Option (List Char)
  | [] => some []
  | a :: rest =>
    let lead := a.toNat
    if lead < 0x80 then (decode? rest).map (Char.ofNat lead :: ·)
    else match rest with
    | [] => none
    | b :: rest => (continuation? b).bind fun b =>
      if lead < 0xC0 then none
      else if lead < 0xE0 then
        (scalar? 0x80 ((lead - 0xC0) * 64 + b)).bind fun c => (decode? rest).map (c :: ·)
      else match rest with
      | [] => none
      | c :: rest => (continuation? c).bind fun c =>
        if lead < 0xF0 then
          (scalar? 0x800 (((lead - 0xE0) * 64 + b) * 64 + c)).bind fun c =>
            (decode? rest).map (c :: ·)
        else match rest with
        | [] => none
        | d :: rest => (continuation? d).bind fun d =>
          (scalar? 0x10000 ((((lead - 0xF0) * 64 + b) * 64 + c) * 64 + d)).bind fun c =>
            (decode? rest).map (c :: ·)

/-- The spelling of characters below `U+0080`: one byte each. -/
def ascii (text : List Char) : List UInt8 := text.map fun c => UInt8.ofNat c.toNat

/-- No bytes spell no characters. -/
@[simp] theorem decode?_nil : decode? [] = some [] := by simp [decode?]

/-- **A byte below `80` is the character of that number.** -/
theorem decode?_cons_of_lt {b : UInt8} (h : b.toNat < 0x80) (rest : List UInt8) :
    decode? (b :: rest) = (decode? rest).map (Char.ofNat b.toNat :: ·) := by
  rw [decode?.eq_def]; simp [h]

/-- **One byte each spells characters below `U+0080`.** -/
theorem decode?_ascii {text : List Char} (h : ∀ c ∈ text, c.toNat < 0x80) :
    decode? (ascii text) = some text := by
  induction text with
  | nil => exact decode?_nil
  | cons c text ih =>
    have hc : c.toNat < 0x80 := h c (List.mem_cons_self ..)
    have hbyte : (UInt8.ofNat c.toNat).toNat = c.toNat := by
      rw [UInt8.toNat_ofNat']
      omega
    have hrest : decode? (text.map fun c => UInt8.ofNat c.toNat) = some text :=
      ih fun d hd => h d (List.mem_cons_of_mem _ hd)
    rw [ascii, List.map_cons, decode?_cons_of_lt (by rw [hbyte]; exact hc), hbyte, hrest,
      Option.map_some, Char.ofNat_toNat]

/-- The bytes `C3 A9` spell `é`, `C1 A9` is a needlessly long spelling of `i`,
and `ED A0 80` would be a surrogate. -/
example : decode? [0xC3, 0xA9] = some ['é'] ∧ decode? [0xC1, 0xA9] = none ∧
    decode? [0xED, 0xA0, 0x80] = none := by decide

end Utf8
end RoundChange
