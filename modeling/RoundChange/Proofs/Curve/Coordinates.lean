/-
# The field of the coordinates

The numbers modulo the prime are a field, and what the program computes with coordinates is
what the field does with their residues (`residue`): powers by squaring are powers
(`residue_power`), so that `x ^ (p - 2)` is the inverse (`residue_inverse`).

By Euler's criterion the coefficient of the curve has no root, so the points of the curve
are a group.  And where a quotient has a root, the root is found up to its sign
(`exists_rootOfQuotient?`): the first candidate is one, or is one when it is multiplied by
a root of minus one.  What is found is a root (`mul_of_rootOfQuotient?`).
-/

import Mathlib.FieldTheory.Finite.Basic
import Mathlib.NumberTheory.LegendreSymbol.Basic
import RoundChange.Proofs.Curve.Group
import RoundChange.Proofs.Curve.Prime

namespace RoundChange
namespace Curve

instance : Fact p.Prime := ⟨prime_p⟩

/-- A coordinate takes no more than 255 bits. -/
theorem p_lt : p < 2 ^ 255 := by decide

/-- The residue that a coordinate is. -/
def residue (x : Field) : ZMod p := x.val

/-- The residue of a number does not depend on how it was reduced. -/
theorem residue_field (n : Nat) : residue (field n) = n := ZMod.natCast_mod n p

/-- A coordinate is the least number of its residue. -/
theorem val_residue (x : Field) : (residue x).val = x.val := ZMod.val_natCast_of_lt x.isLt

/-- **Coordinates are known by their residues.** -/
theorem residue_inj {x y : Field} : residue x = residue y ↔ x = y := by
  rw [← (ZMod.val_injective p).eq_iff, val_residue, val_residue, Fin.val_inj]

/-- Zero stands for zero. -/
theorem residue_zero : residue 0 = 0 := Nat.cast_zero

/-- One stands for one. -/
theorem residue_one : residue 1 = 1 := by
  rw [← Nat.cast_one]
  exact residue_field 1

section Operations

variable (x y : Field)

/-- Sums stand for sums. -/
theorem residue_add : residue (x + y) = residue x + residue y := by
  rw [residue, Fin.val_add, ZMod.natCast_mod, Nat.cast_add]
  rfl

/-- Products stand for products. -/
theorem residue_mul : residue (x * y) = residue x * residue y := by
  rw [residue, Fin.val_mul, ZMod.natCast_mod, Nat.cast_mul]
  rfl

/-- Opposites stand for opposites. -/
theorem residue_neg : residue (-x) = -residue x := by
  rw [residue, Fin.val_neg', ZMod.natCast_mod, Nat.cast_sub x.isLt.le, ZMod.natCast_self, zero_sub]
  rfl

/-- Differences stand for differences. -/
theorem residue_sub : residue (x - y) = residue x - residue y := by
  rw [residue, Fin.val_sub, ZMod.natCast_mod, Nat.cast_add, Nat.cast_sub y.isLt.le,
    ZMod.natCast_self, zero_sub, neg_add_eq_sub]
  rfl

/-- **A power by squaring is the power.** -/
theorem residue_power {bits n : Nat} (h : n < 2 ^ bits) :
    residue (power x bits n) = residue x ^ n := by
  induction bits generalizing n with
  | zero => rw [Nat.lt_one_iff.1 h, power, residue_one, pow_zero]
  | succ bits ih =>
    have hhalf : n / 2 < 2 ^ bits := by omega
    rw [power]
    simp only [apply_ite residue, residue_mul, ih hhalf, ← pow_add, ← pow_succ]
    split
    case isTrue hodd =>
      have hn : n / 2 + n / 2 + 1 = n := by omega
      rw [hn]
    case isFalse heven =>
      have hn : n / 2 + n / 2 = n := by omega
      rw [hn]

/-- **The power that inverts** stands for the inverse. -/
theorem residue_inverse : residue (inverse x) = (residue x)⁻¹ := by
  rw [inverse, residue_power x (by decide)]
  by_cases h : residue x = 0
  · rw [h, inv_zero, zero_pow (by decide)]
  · refine eq_inv_of_mul_eq_one_left ?_
    rw [← pow_succ]
    exact ZMod.pow_card_sub_one_eq_one h

end Operations

/-- **The coefficient of the curve has no root**, and minus one has. -/
instance : CompleteEdwards (ZMod p) where
  d := residue d
  root := residue rootOfMinusOne
  root_mul_root := by
    rw [← residue_mul, ← residue_one, ← residue_neg, residue_inj]
    decide +kernel
  d_ne_mul_self r h := by
    have hzero : residue d ≠ 0 := by
      rw [← residue_zero, Ne, residue_inj]
      decide +kernel
    have hhalf : p / 2 < 2 ^ 255 := by decide
    have hpower := (ZMod.euler_criterion p hzero).1 ⟨r, h⟩
    rw [← residue_power d hhalf, ← residue_one, residue_inj] at hpower
    revert hpower
    decide +kernel
  two_ne_zero := by
    rw [← one_add_one_eq_two, ← residue_one, ← residue_add, ← residue_zero, Ne, residue_inj]
    decide +kernel

/-- The first candidate for a root of `u / v`, squared and multiplied by `v`, is `u` or `-u`
if there is a root. -/
theorem mul_candidate_mul_candidate {u v x : ZMod p} (h : x * x * v = u) :
    let c := u * (v * v * v) * (u * (v * v * v) * (v * v * v) * v) ^ ((p - 5) / 8)
    v * c * c = u ∨ v * c * c = -u := by
  intro c
  have hexponent : p / 2 = 2 * (1 + 2 * ((p - 5) / 8)) := by decide
  have hsquare : u * (v * v * v) * (v * v * v) * v = (x * (v * v * v * v)) ^ 2 := by
    rw [← h]
    ring
  have hc : v * c * c = u * (x * (v * v * v * v)) ^ (p / 2) := by
    rw [hexponent, pow_mul, ← hsquare, pow_add, pow_mul]
    simp only [c]
    ring
  by_cases hzero : x * (v * v * v * v) = 0
  · have hu : u = 0 := by
      rcases mul_eq_zero.1 hzero with hx | hv
      · rw [← h, hx, zero_mul, zero_mul]
      · have hv : v = 0 := by simpa only [mul_eq_zero, or_self] using hv
        rw [← h, hv, mul_zero]
    left
    rw [hc, hu, zero_mul]
  · rcases ZMod.pow_div_two_eq_neg_one_or_one p hzero with hone | hone
    · left
      rw [hc, hone, mul_one]
    · right
      rw [hc, hone, mul_neg_one]

/-- **Where a quotient has a root, it is found**, up to its sign. -/
theorem exists_rootOfQuotient? {u v : Field} {x : ZMod p} (hv : residue v ≠ 0)
    (h : x * x * residue v = residue u) :
    ∃ r, rootOfQuotient? u v = some r ∧ (residue r = x ∨ residue r = -x) := by
  have hroot : ∀ r, residue v * r * r = residue u → r = x ∨ r = -x := by
    intro r hr
    apply mul_self_eq_mul_self_iff.1
    apply mul_left_cancel₀ hv
    rw [← mul_assoc, hr, ← h, mul_comm]
  have hexponent : (p - 5) / 8 < 2 ^ 252 := by decide
  let c := u * (v * v * v) * power (u * (v * v * v) * (v * v * v) * v) 252 ((p - 5) / 8)
  have hcandidate : v * c * c = u ∨ v * c * c = -u := by
    simpa only [← residue_power _ hexponent, ← residue_mul, ← residue_neg, residue_inj] using
      mul_candidate_mul_candidate h
  show ∃ r, (if v * c * c = u then some c
    else if v * c * c = -u then some (c * rootOfMinusOne) else none) = some r ∧ _
  by_cases hu : v * c * c = u
  · refine ⟨c, if_pos hu, hroot _ ?_⟩
    rw [← residue_mul, ← residue_mul, hu]
  · have hneg := hcandidate.resolve_left hu
    refine ⟨c * rootOfMinusOne, by rw [if_neg hu, if_pos hneg], hroot _ ?_⟩
    have hsquare := CompleteEdwards.root_mul_root (K := ZMod p)
    have hc : residue v * residue c * residue c = -residue u := by
      rw [← residue_mul, ← residue_mul, hneg, residue_neg]
    rw [residue_mul]
    linear_combination -hc + residue v * residue c * residue c * hsquare

/-- **What is found is a root** of the quotient. -/
theorem mul_of_rootOfQuotient? {u v r : Field} (h : rootOfQuotient? u v = some r) :
    residue v * (residue r * residue r) = residue u := by
  let c := u * (v * v * v) * power (u * (v * v * v) * (v * v * v) * v) 252 ((p - 5) / 8)
  have hfound : (if v * c * c = u then some c
    else if v * c * c = -u then some (c * rootOfMinusOne) else none) = some r := h
  split at hfound
  case isTrue hu =>
    rw [← Option.some.inj hfound, ← residue_mul, ← residue_mul, ← mul_assoc, hu]
  case isFalse =>
    obtain ⟨hneg, hr⟩ := Option.ite_none_right_eq_some.1 hfound
    have hsquare := CompleteEdwards.root_mul_root (K := ZMod p)
    have hc : residue v * residue c * residue c = -residue u := by
      rw [← residue_mul, ← residue_mul, hneg, residue_neg]
    have hroot : residue r = residue c * CompleteEdwards.root := by
      rw [← Option.some.inj hr, residue_mul]
      rfl
    rw [hroot]
    linear_combination -hc + residue v * residue c * residue c * hsquare

end Curve
end RoundChange
