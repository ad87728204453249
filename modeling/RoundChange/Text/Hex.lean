/-
# Hexadecimal text

A byte is written as two hexadecimal digits, the high half first and in lower
case (`Hex.encode`), and read back from digits of either case (`Hex.decode`).
Reading undoes writing (`Hex.decode_encode`) and has no other result of the same
length: what is read from a text of `2 n` digits has `n` bytes
(`Hex.length_of_decode`).
-/

namespace RoundChange
namespace Hex

/-- The digit of a half byte: `0` to `9`, then `a` to `f`. -/
def digit (n : Nat) : Char := Char.ofNat (if n < 10 then 48 + n else 87 + n)

/-- The half byte that a digit of either case stands for. -/
def value? (c : Char) : Option Nat :=
  let n := c.toNat
  if 48 ≤ n ∧ n ≤ 57 then some (n - 48)
  else if 97 ≤ n ∧ n ≤ 102 then some (n - 87)
  else if 65 ≤ n ∧ n ≤ 70 then some (n - 55)
  else none

/-- The two digits of a byte. -/
def digits (b : UInt8) : List Char := [digit (b.toNat / 16), digit (b.toNat % 16)]

/-- The digits of a string of bytes. -/
def encode (bytes : List UInt8) : List Char := bytes.flatMap digits

/-- The digits of a string of bytes, as a `String`. -/
def text (bytes : List UInt8) : String := String.ofList (encode bytes)

/-- The bytes that pairs of digits stand for; `none` when a digit is left over or
a character is no digit. -/
def decode : List Char → Option (List UInt8)
  | [] => some []
  | [_] => none
  | high :: low :: rest => do
    let h ← value? high
    let l ← value? low
    let bytes ← decode rest
    return UInt8.ofNat (16 * h + l) :: bytes

/-- **A digit stands for the half byte it was written for.** -/
theorem value?_digit {n : Nat} (h : n < 16) : value? (digit n) = some n :=
  (by decide : ∀ k : Fin 16, value? (digit k) = some k.val) ⟨n, h⟩

/-- A digit is worth less than sixteen. -/
theorem value?_lt {c : Char} {n : Nat} (h : value? c = some n) : n < 16 := by
  unfold value? at h
  dsimp only at h
  split at h
  · injection h; omega
  · split at h
    · injection h; omega
    · split at h
      · injection h; omega
      · cases h

/-- No bytes, no digits. -/
@[simp] theorem encode_nil : encode [] = [] := rfl

/-- A byte is written before those behind it. -/
@[simp] theorem encode_cons (b : UInt8) (bytes : List UInt8) :
    encode (b :: bytes) = digit (b.toNat / 16) :: digit (b.toNat % 16) :: encode bytes := rfl

/-- **Two digits a byte.** -/
@[simp] theorem length_encode (bytes : List UInt8) : (encode bytes).length = 2 * bytes.length := by
  induction bytes with
  | nil => rfl
  | cons b bytes ih => simp only [encode_cons, List.length_cons, ih]; omega

/-- **Reading undoes writing.** -/
theorem decode_encode (bytes : List UInt8) : decode (encode bytes) = some bytes := by
  induction bytes with
  | nil => rfl
  | cons b bytes ih =>
    have hb := b.toNat_lt
    have high : value? (digit (b.toNat / 16)) = some (b.toNat / 16) := value?_digit (by omega)
    have low : value? (digit (b.toNat % 16)) = some (b.toNat % 16) := value?_digit (by omega)
    have whole : UInt8.ofNat (16 * (b.toNat / 16) + b.toNat % 16) = b := by
      rw [Nat.div_add_mod]; exact UInt8.ofNat_toNat
    rw [encode_cons, decode, high, low, ih]
    exact congrArg some (congrArg (· :: bytes) whole)

/-- **Two characters a byte are read.** -/
theorem length_of_decode {text : List Char} {bytes : List UInt8} (h : decode text = some bytes) :
    text.length = 2 * bytes.length := by
  fun_induction decode text generalizing bytes with
  | case1 => cases h; rfl
  | case2 => cases h
  | case3 high low rest ih =>
    simp only [Option.bind_eq_bind, Option.bind_eq_some_iff, Option.pure_def,
      Option.some.injEq] at h
    obtain ⟨a, _, b, _, tail, ht, rfl⟩ := h
    simp only [List.length_cons, ih ht]
    omega

/-- The hypothesis of `length_of_decode` is satisfiable, with digits of both cases. -/
example : decode ['0', 'A', 'f', 'F'] = some [10, 255] := by decide

end Hex
end RoundChange
