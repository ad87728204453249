/-
# Reading the parts of written JSON

Written JSON has no blanks, its numbers have no leading zeros, its strings no escapes,
and behind a value stands nothing, a comma or a closing bracket (`Json.Delimited`).  A
reader needs just that to find the end of a number.  Here the smallest readers are run
on such text: numbers (`Json.run_unsigned`), strings of plain characters
(`Json.run_string`), and lists of whatever can be read (`Json.run_list`,
`Json.run_itemsExactly`).
-/

import Mathlib.Data.List.Forall2
import RoundChange.Json.List
import RoundChange.Proofs.Readers

namespace RoundChange
namespace Json

open Reader (run_bind_of_ok)

/-- What may stand behind a value: nothing, a comma or a closing bracket. -/
def Delimited (rest : List Char) : Prop := ∀ c ∈ rest.head?, c = ',' ∨ c = ']' ∨ c = '\x7d'

/-- The text has a first character, which is no blank and does not close a list. -/
def StartsValue (text : List Char) : Prop :=
  ∃ c rest, text = c :: rest ∧ isBlank c = false ∧ c ≠ ']'

/-- A string may hold the character as it is. -/
def Plain (c : Char) : Prop := c ≠ '"' ∧ c ≠ '\\' ∧ 0x20 ≤ c.toNat

instance : DecidablePred Plain := fun c =>
  inferInstanceAs (Decidable (c ≠ '"' ∧ c ≠ '\\' ∧ 0x20 ≤ c.toNat))

/-- A character that is no blank is seen and left there. -/
theorem run_peek? {c : Char} (h : isBlank c = false) (rest : List Char) :
    peek?.run (c :: rest) = .ok (some c, c :: rest) := by
  show peek? (c :: rest) = _
  rw [peek?, List.dropWhile_cons_of_neg (by rw [h]; exact Bool.false_ne_true)]
  rfl

/-- The next character is taken. -/
theorem run_advance (c : Char) (rest : List Char) : advance.run (c :: rest) = .ok ((), rest) := rfl

section Numbers

variable {rest : List Char}

/-- **A written number has no leading zero.** -/
theorem head?_toDigits_ne_zero {n : Nat} (h : 0 < n) : (Nat.toDigits 10 n).head? ≠ some '0' := by
  induction n using Nat.strongRecOn with
  | ind n ih =>
    rw [Nat.toDigits_eq_if (by omega)]
    split
    · rename_i hn
      exact (by decide : ∀ k : Fin 10, 0 < k.val → [Nat.digitChar k].head? ≠ some '0') ⟨n, hn⟩ h
    · have hne : Nat.toDigits 10 (n / 10) ≠ [] := Nat.toDigits_ne_nil
      obtain ⟨c, ds, hds⟩ := List.exists_cons_of_ne_nil hne
      have hhead := ih (n / 10) (by omega) (by omega)
      rw [hds] at hhead ⊢
      exact hhead

/-- What stands behind a number is none of its digits. -/
theorem Delimited.takeWhile_isDigit (h : Delimited rest) : rest.takeWhile Char.isDigit = [] := by
  cases rest with
  | nil => rfl
  | cons c rest =>
    rcases h c rfl with rfl | rfl | rfl <;> rfl

/-- **All digits of a number are taken.** -/
theorem run_digits {ds : List Char} (h : Delimited rest) (hds : ∀ c ∈ ds, c.isDigit = true) :
    digits.run (ds ++ rest) = .ok (ds, rest) := by
  have htake := h.takeWhile_isDigit
  have hdrop : rest.dropWhile Char.isDigit = rest := by
    have hboth := List.takeWhile_append_dropWhile (p := Char.isDigit) (l := rest)
    rwa [htake, List.nil_append] at hboth
  show digits (ds ++ rest) = _
  rw [digits, List.takeWhile_append_of_pos hds, List.dropWhile_append_of_pos hds, htake, hdrop,
    List.append_nil]

/-- The digits of a number are read up to what limits them. -/
theorem run_integerDigits (h : Delimited rest) (n : Nat) :
    integerDigits.run (Nat.toDigits 10 n ++ rest) = .ok (Nat.toDigits 10 n, rest) := by
  have hdigits := run_digits h fun c hc =>
    Nat.isDigit_of_mem_toDigits (b := 10) (n := n) (by decide) (by decide) hc
  rw [integerDigits, run_bind_of_ok hdigits]
  rcases Nat.eq_zero_or_pos n with rfl | hn
  · rfl
  · have hzero := head?_toDigits_ne_zero hn
    split
    · exact absurd ‹_› Nat.toDigits_ne_nil
    · rename_i hds
      rw [hds] at hzero
      exact absurd rfl hzero
    · rename_i hds
      rw [hds] at hzero
      exact absurd rfl hzero
    · rfl

/-- Where a number ends there is no fraction. -/
theorem run_fraction? (h : Delimited rest) : fraction?.run rest = .ok (none, rest) := by
  cases rest with
  | nil => rfl
  | cons c rest => rcases h c rfl with rfl | rfl | rfl <;> rfl

/-- Where a number ends there is no exponent. -/
theorem run_exponent? (h : Delimited rest) : exponent?.run rest = .ok (none, rest) := by
  cases rest with
  | nil => rfl
  | cons c rest => rcases h c rfl with rfl | rfl | rfl <;> rfl

/-- **Digits are appended while the number fits in 64 bits.** -/
theorem append_eq {w : Nat} {ds : List Char} (h : Nat.ofDigitChars 10 ds w < UInt64.size) :
    append w ds = (Nat.ofDigitChars 10 ds w, 0) := by
  induction ds generalizing w with
  | nil => rw [append, Nat.ofDigitChars_nil]
  | cons c ds ih =>
    rw [Nat.ofDigitChars_cons] at h ⊢
    have hle : 10 * w + (c.toNat - '0'.toNat) ≤
        Nat.ofDigitChars 10 ds (10 * w + (c.toNat - '0'.toNat)) := by
      rw [Nat.ofDigitChars_eq_ofDigitChars_zero]
      exact Nat.le_trans (Nat.le_mul_of_pos_left _ (Nat.pow_pos (by decide))) (Nat.le_add_right _ _)
    rw [append]
    exact (if_pos (Nat.lt_of_le_of_lt hle h)).trans (ih h)

/-- **A number of one word** is read from its digits. -/
theorem run_number (h : Delimited rest) {n : Nat} (hn : n < UInt64.size) :
    (number false).run (Nat.toDigits 10 n ++ rest) = .ok (.integer n, rest) := by
  have happend : append 0 (Nat.toDigits 10 n) = (n, 0) := by
    have hvalue := Nat.ofDigitChars_ten_toDigits (n := n)
    rw [append_eq (by rwa [hvalue]), hvalue]
  rw [number, run_bind_of_ok (run_integerDigits h n), happend]
  refine (run_bind_of_ok (run_fraction? h) _).trans ?_
  refine (run_bind_of_ok (run_exponent? h) _).trans ?_
  rfl

/-- The first digit of a number. -/
theorem exists_toDigits_eq_cons (n : Nat) :
    ∃ c ds, Nat.toDigits 10 n = c :: ds ∧ c.isDigit = true := by
  have hne : Nat.toDigits 10 n ≠ [] := Nat.toDigits_ne_nil
  obtain ⟨c, ds, hds⟩ := List.exists_cons_of_ne_nil hne
  refine ⟨c, ds, hds, Nat.isDigit_of_mem_toDigits (b := 10) (n := n) (by decide) (by decide) ?_⟩
  rw [hds]
  exact List.mem_cons_self ..

/-- A digit differs from a character that is none. -/
theorem ne_of_isDigit {c d : Char} (hc : c.isDigit = true) (hd : d.isDigit = false) : c ≠ d := by
  rintro rfl
  rw [hc] at hd
  cases hd

/-- A digit is no blank. -/
theorem isBlank_of_isDigit {c : Char} (h : c.isDigit = true) : isBlank c = false := by
  simp [isBlank, ne_of_isDigit h]

/-- A value may start with the digits of a number. -/
theorem startsValue_toDigits (n : Nat) : StartsValue (Nat.toDigits 10 n) := by
  obtain ⟨c, ds, hds, hc⟩ := exists_toDigits_eq_cons n
  exact ⟨c, ds, hds, isBlank_of_isDigit hc, ne_of_isDigit hc rfl⟩

/-- **A number within its width is read back.** -/
theorem run_unsigned (h : Delimited rest) (bits : Nat) {n : Nat} (hn : n < 1 <<< bits)
    (hwide : n < UInt64.size) :
    (unsigned bits).run (Nat.toDigits 10 n ++ rest) = .ok (n, rest) := by
  have hnumber := run_number h hwide
  obtain ⟨c, ds, hds, hc⟩ := exists_toDigits_eq_cons n
  rw [hds, List.cons_append] at hnumber ⊢
  rw [unsigned, run_bind_of_ok (run_peek? (isBlank_of_isDigit hc) _)]
  split
  · rename_i hnone
    cases hnone
  · rename_i hminus
    exact absurd (Option.some.inj hminus) (ne_of_isDigit hc rfl)
  · rename_i d _ hd
    rw [← Option.some.inj hd, if_pos hc, run_bind_of_ok hnumber]
    have hfits : (0 : Int) ≤ n ∧ (n : Int) < (1 <<< bits : Nat) := by
      exact ⟨Int.natCast_nonneg n, Int.ofNat_lt.2 hn⟩
    simp only [if_pos hfits]
    rfl

end Numbers

section Strings

/-- **A string of plain characters is read back**, in more steps than it has characters. -/
theorem run_stringWithin {steps text : List Char} (h : ∀ c ∈ text, Plain c)
    (hsteps : text.length < steps.length) (rest : List Char) :
    (stringWithin steps).run (text ++ '"' :: rest) = .ok (text, rest) := by
  induction text generalizing steps with
  | nil =>
    cases steps with
    | nil => cases hsteps
    | cons s steps => rfl
  | cons c text ih =>
    cases steps with
    | nil => cases hsteps
    | cons s steps =>
      obtain ⟨hquote, hstroke, hcontrol⟩ := h c (List.mem_cons_self ..)
      have hrest := ih (fun d hd => h d (List.mem_cons_of_mem _ hd)) (Nat.lt_of_succ_lt_succ hsteps)
      show stringWithin (s :: steps) (c :: (text ++ '"' :: rest)) = _
      rw [stringWithin.eq_def]
      simp only
      rw [if_neg (by omega), run_bind_of_ok hrest]
      rfl

/-- **A plain text** is read up to its quotation mark. -/
theorem run_string {text : List Char} (h : ∀ c ∈ text, Plain c) (rest : List Char) :
    string.run (text ++ '"' :: rest) = .ok (text, rest) :=
  run_stringWithin h (by rw [List.length_append, List.length_cons]; omega) rest

end Strings

section Separated

/-- Some texts, each behind a comma. -/
def behindCommas (texts : List (List Char)) : List Char := texts.flatMap fun t => ',' :: t

/-- No texts, no commas. -/
@[simp] theorem behindCommas_nil : behindCommas [] = [] := rfl

/-- Every text stands behind a comma. -/
@[simp] theorem behindCommas_cons (text : List Char) (texts : List (List Char)) :
    behindCommas (text :: texts) = ',' :: (text ++ behindCommas texts) := rfl

/-- **Texts with commas between** are the first of them and the others behind commas. -/
theorem intercalate_cons (text : List Char) (texts : List (List Char)) :
    [','].intercalate (text :: texts) = text ++ behindCommas texts := by
  induction texts generalizing text with
  | nil => simp [List.intercalate]
  | cons t texts ih =>
    have hnext := ih t
    rw [List.intercalate] at hnext ⊢
    rw [List.intersperse_cons_cons, List.flatten_cons, List.flatten_cons, hnext]
    simp

/-- There is a comma for each of the texts. -/
theorem length_le_behindCommas (texts : List (List Char)) :
    texts.length ≤ (behindCommas texts).length := by
  induction texts with
  | nil => exact Nat.le_refl 0
  | cons t texts ih =>
    rw [behindCommas_cons, List.length_cons, List.length_cons, List.length_append]
    omega

/-- A list with what stands behind it. -/
theorem listText_append (items : List (List Char)) (rest : List Char) :
    listText items ++ rest = '[' :: ([','].intercalate items ++ ']' :: rest) := by
  rw [listText, List.cons_append, List.append_assoc]
  rfl

/-- The end of the text limits a number. -/
theorem delimited_nil : Delimited [] := fun _ hc => nomatch hc

/-- The end of a list limits a number. -/
theorem delimited_closeList (rest : List Char) : Delimited (']' :: rest) :=
  fun _ hc => .inr (.inl (Option.some.inj hc).symm)

/-- The end of an object limits a number. -/
theorem delimited_closeObject (rest : List Char) : Delimited ('\x7d' :: rest) :=
  fun _ hc => .inr (.inr (Option.some.inj hc).symm)

/-- What texts behind commas stand behind is delimited. -/
theorem delimited_behindCommas (texts : List (List Char)) {rest : List Char}
    (h : Delimited rest) : Delimited (behindCommas texts ++ rest) := by
  cases texts with
  | nil => exact h
  | cons t texts => exact fun c hc => .inl (Option.some.inj hc).symm

end Separated

section Lists

variable {α : Type} {read : Reader α} {texts : List (List Char)} {xs : List α}

/-- The text can stand in a list and is read as the value. -/
structure ReadsAs (read : Reader α) (text : List Char) (x : α) : Prop where
  starts : StartsValue text
  run : ∀ {rest : List Char}, Delimited rest → read.run (text ++ rest) = .ok (x, rest)

/-- The value is written so that it can stand in a list and be read back. -/
abbrev ReadsBack (read : Reader α) (write : α → List Char) (x : α) : Prop :=
  ReadsAs read (write x) x

/-- The first item of a list starts at once. -/
theorem StartsValue.run_nextItem {text : List Char} (h : StartsValue text) (rest : List Char) :
    (nextItem true).run (text ++ rest) = .ok (true, text ++ rest) := by
  obtain ⟨c, tail, rfl, hblank, hclose⟩ := h
  rw [nextItem, List.cons_append, run_bind_of_ok (run_peek? hblank _)]
  split
  · rename_i hnone
    cases hnone
  · rename_i hc
    exact absurd (Option.some.inj hc) hclose
  · rfl

/-- Every other item starts behind a comma. -/
theorem StartsValue.run_nextItem_comma {text : List Char} (h : StartsValue text)
    (rest : List Char) :
    (nextItem false).run (',' :: (text ++ rest)) = .ok (true, text ++ rest) := by
  obtain ⟨c, tail, rfl, hblank, hclose⟩ := h
  rw [nextItem, List.cons_append]
  refine (run_bind_of_ok (run_peek? rfl _) _).trans ?_
  refine (run_bind_of_ok (run_advance ..) _).trans ?_
  refine (run_bind_of_ok (run_peek? hblank _) _).trans ?_
  split
  · rename_i hnone
    cases hnone
  · rename_i hc
    exact absurd (Option.some.inj hc) hclose
  · rfl

/-- **The elements behind the first one are read**, in more steps than there are. -/
theorem run_itemsWithin (h : List.Forall₂ (ReadsAs read) texts xs) {steps : List Char}
    (hsteps : texts.length < steps.length) (rest : List Char) :
    (itemsWithin read steps false).run (behindCommas texts ++ ']' :: rest) =
      .ok (xs, ']' :: rest) := by
  induction h generalizing steps with
  | nil =>
    cases steps with
    | nil => cases hsteps
    | cons s steps => rfl
  | @cons text x texts xs hx _ ih =>
    cases steps with
    | nil => cases hsteps
    | cons s steps =>
      have hread := hx.run (delimited_behindCommas texts (delimited_closeList rest))
      have hxs := ih (Nat.lt_of_succ_lt_succ hsteps)
      rw [behindCommas_cons, List.cons_append, List.append_assoc, itemsWithin,
        run_bind_of_ok (hx.starts.run_nextItem_comma _)]
      refine (run_bind_of_ok hread _).trans ?_
      rw [run_bind_of_ok hxs]
      rfl

/-- **The elements of a list are read** in as many steps as their text has characters. -/
theorem run_items (h : List.Forall₂ (ReadsAs read) texts xs) (rest : List Char) :
    StateT.run (fun text => itemsWithin read text true text)
      ([','].intercalate texts ++ ']' :: rest) = .ok (xs, ']' :: rest) := by
  cases h with
  | nil => rfl
  | @cons text x texts xs hx htexts =>
    have hnext := hx.starts.run_nextItem (behindCommas texts ++ ']' :: rest)
    have hread := hx.run (delimited_behindCommas texts (delimited_closeList rest))
    obtain ⟨c, tail, rfl, -⟩ := hx.starts
    have hsteps : texts.length < (tail ++ (behindCommas texts ++ ']' :: rest)).length := by
      have hlength := length_le_behindCommas texts
      rw [List.length_append, List.length_append, List.length_cons]
      omega
    have hxs := run_itemsWithin htexts hsteps rest
    rw [intercalate_cons, List.append_assoc]
    rw [List.cons_append] at hnext hread ⊢
    show (itemsWithin read (c :: _) true).run _ = _
    rw [itemsWithin, run_bind_of_ok hnext]
    refine (run_bind_of_ok hread _).trans ?_
    rw [run_bind_of_ok hxs]
    rfl

/-- **A list is read if its elements are.** -/
theorem run_list (h : List.Forall₂ (ReadsAs read) texts xs) (rest : List Char) :
    (list read).run (listText texts ++ rest) = .ok (xs, rest) := by
  rw [listText_append, list, run_bind_of_ok (run_peek? rfl _)]
  refine (run_bind_of_ok (run_advance ..) _).trans ?_
  refine (run_bind_of_ok (run_items h rest) _).trans ?_
  rfl

/-- **Just so many elements behind the first one are read.** -/
theorem run_itemsExactly (h : List.Forall₂ (ReadsAs read) texts xs) (expected : Expected)
    {done : Nat} (hdone : 0 < done) (rest : List Char) :
    (itemsExactly read expected xs.length done).run (behindCommas texts ++ ']' :: rest) =
      .ok (xs, ']' :: rest) := by
  induction h generalizing done with
  | nil => rfl
  | @cons text x texts xs hx _ ih =>
    have hread := hx.run (delimited_behindCommas texts (delimited_closeList rest))
    have hxs := ih (Nat.succ_pos done)
    rw [behindCommas_cons, List.cons_append, List.append_assoc, List.length_cons,
      itemsExactly, decide_eq_false (by omega), run_bind_of_ok (hx.starts.run_nextItem_comma _)]
    refine (run_bind_of_ok hread _).trans ?_
    rw [run_bind_of_ok hxs]
    rfl

/-- **A list of the expected length is read**, its length being known beforehand. -/
theorem run_itemsExactly_zero (h : List.Forall₂ (ReadsAs read) texts xs) (expected : Expected)
    (rest : List Char) :
    (itemsExactly read expected xs.length 0).run ([','].intercalate texts ++ ']' :: rest) =
      .ok (xs, ']' :: rest) := by
  cases h with
  | nil => rfl
  | @cons text x texts xs hx htexts =>
    have hread := hx.run (delimited_behindCommas texts (delimited_closeList rest))
    have hxs := run_itemsExactly htexts expected (Nat.succ_pos 0) rest
    rw [intercalate_cons, List.append_assoc, List.length_cons, itemsExactly,
      decide_eq_true rfl, run_bind_of_ok (hx.starts.run_nextItem _)]
    refine (run_bind_of_ok hread _).trans ?_
    rw [run_bind_of_ok hxs]
    rfl

/-- **Elements are read from what they are written as** if each of them is read back. -/
theorem forall₂_readsAs {write : α → List Char} (h : ∀ x ∈ xs, ReadsBack read write x) :
    List.Forall₂ (ReadsAs read) (xs.map write) xs :=
  List.forall₂_map_left_iff.2 (List.forall₂_same.2 h)

end Lists

end Json
end RoundChange
