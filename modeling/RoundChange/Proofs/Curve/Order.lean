/-
# The order of the group

The base point has a prime order, `Ed25519.order` (`addOrderOf_basePoint`).  The group is
eight times as large (`card_points`): there are at most two points for each `y`, less than
sixteen times the prime, and the prime and the order of a point of order eight both divide
their number.

So the order of a point divides eight or is a multiple of the prime
(`addOrderOf_dvd_eight_or`).  A point of the second sort has different multiples for
different numbers below the prime (`nsmul_eq_nsmul_iff`); a point of the first sort has the
same one for all numbers that agree modulo eight.  The public key of a seed is of the second
sort (`eight_nsmul_publicKey_ne_zero`).
-/

import Mathlib.GroupTheory.OrderOfElement
import RoundChange.Proofs.Curve.Signatures

namespace RoundChange
namespace Ed25519

open Curve

/-- **The order of the base point is prime.** -/
theorem prime_order : order.Prime := by
  have h₁ : Nat.Prime 3044861653679985063343 :=
    prime_of_lucasTest 5 [2, 3, 11, 30703, 82163, 132667, 137849] (by decide +kernel)
      (by norm_num)
  have h₂ : Nat.Prime 14741173 :=
    prime_of_lucasTest 2 [2, 2, 3, 3, 409477] (by decide +kernel) (by norm_num)
  have h₃ : Nat.Prime 58964693 :=
    prime_of_lucasTest 2 [2, 2, 14741173] (by decide +kernel)
      (by simp only [List.forall_mem_cons, h₂]; norm_num)
  have hleft : Nat.Prime 198211423230930754013084525763697 :=
    prime_of_lucasTest 5 [2, 2, 2, 2, 3, 23, 58964693, 3044861653679985063343]
      (by decide +kernel) (by simp only [List.forall_mem_cons, h₁, h₃]; norm_num)
  have h₄ : Nat.Prime 292386187 :=
    prime_of_lucasTest 2 [2, 3, 3, 3, 3, 307, 5879] (by decide +kernel) (by norm_num)
  have h₅ : Nat.Prime 213441916511 :=
    prime_of_lucasTest 13 [2, 5, 73, 292386187] (by decide +kernel)
      (by simp only [List.forall_mem_cons, h₄]; norm_num)
  have h₆ : Nat.Prime 1257559732178653 :=
    prime_of_lucasTest 2 [2, 2, 3, 7, 23, 531581, 1224481] (by decide +kernel) (by norm_num)
  have h₇ : Nat.Prime 4434155615661930479 :=
    prime_of_lucasTest 17 [2, 41, 43, 1257559732178653] (by decide +kernel)
      (by simp only [List.forall_mem_cons, h₆]; norm_num)
  have h₈ : Nat.Prime 172054593956031949258510691 :=
    prime_of_lucasTest 2 [2, 5, 1361, 2851, 4434155615661930479] (by decide +kernel)
      (by simp only [List.forall_mem_cons, h₇]; norm_num)
  have h₉ : Nat.Prime 19757330305831588566944191468367130476339 :=
    prime_of_lucasTest 2 [2, 269, 213441916511, 172054593956031949258510691]
      (by decide +kernel) (by simp only [List.forall_mem_cons, h₅, h₈]; norm_num)
  have hright : Nat.Prime 276602624281642239937218680557139826668747 :=
    prime_of_lucasTest 2 [2, 7, 19757330305831588566944191468367130476339] (by decide +kernel)
      (by simp only [List.forall_mem_cons, h₉]; norm_num)
  exact prime_of_lucasTest 2
    [2, 2, 3, 11, 198211423230930754013084525763697, 276602624281642239937218680557139826668747]
    (by decide +kernel) (by simp only [List.forall_mem_cons, hleft, hright]; norm_num)

/-- The order of the base point is odd. -/
theorem coprime_order : order.Coprime 8 := by decide

/-- **The base point has this order.** -/
theorem addOrderOf_basePoint : addOrderOf basePoint = order := by
  have : Fact order.Prime := ⟨prime_order⟩
  have hne : basePoint ≠ 0 := mt Point.denotes_base.eq_zero_iff.1 (by decide)
  exact addOrderOf_eq_prime order_nsmul_basePoint hne

/-- Coordinates of a point of order eight. -/
def octant : Point :=
  let x := field 14399317868200118260347934320527232580618823971194345261214217575416788799818
  let y := field 55188659117513257062467267217118295137698188065244968500265048394206261417927
  ⟨x, y, 1, x * y⟩

/-- **There is a point of order eight.** -/
theorem exists_addOrderOf_eq_eight : ∃ T : Affine (ZMod p), addOrderOf T = 8 := by
  have hcurve : Edwards.OnCurve (residue octant.x) (residue octant.y) := by
    simp only [Edwards.OnCurve, CompleteEdwards.d, ← residue_mul, ← residue_sub, ← residue_add,
      ← residue_one, residue_inj]
    decide +kernel
  let T : Affine (ZMod p) := ⟨residue octant.x, residue octant.y, hcurve⟩
  have hT : octant.Denotes T := Point.denotes_of_residue rfl rfl
  have hfour : 2 ^ 2 • T ≠ 0 := by
    have hmultiple : (octant.times 3 (2 ^ 2)).Denotes (2 ^ 2 • T) := hT.times (by decide)
    exact mt hmultiple.eq_zero_iff.1 (by decide +kernel)
  have height : 2 ^ (2 + 1) • T = 0 := by
    have hmultiple : (octant.times 4 (2 ^ (2 + 1))).Denotes (2 ^ (2 + 1) • T) :=
      hT.times (by decide)
    exact hmultiple.eq_zero_iff.2 (by decide +kernel)
  have : Fact (Nat.Prime 2) := ⟨Nat.prime_two⟩
  exact ⟨T, addOrderOf_eq_prime_pow hfour height⟩

/-- What a point is known by: its `y`, and the lowest bit of its `x`. -/
def mark (P : Affine (ZMod p)) : ZMod p × Fin 2 := (P.y, ⟨P.x.val % 2, Nat.mod_lt _ (by decide)⟩)

/-- Two points with the same mark are equal. -/
theorem mark_injective : Function.Injective mark := by
  intro P Q h
  obtain ⟨hy, hx⟩ := Prod.mk.inj h
  exact eq_of_y_of_parity hy (Fin.mk.inj hx)

instance : Finite (Affine (ZMod p)) := Finite.of_injective mark mark_injective

/-- **The group has eight times as many points** as the multiples of the base point are. -/
theorem card_points : Nat.card (Affine (ZMod p)) = 8 * order := by
  obtain ⟨T, hT⟩ := exists_addOrderOf_eq_eight
  have height : 8 ∣ Nat.card (Affine (ZMod p)) := hT ▸ addOrderOf_dvd_natCard T
  have horder : order ∣ Nat.card (Affine (ZMod p)) :=
    addOrderOf_basePoint ▸ addOrderOf_dvd_natCard basePoint
  obtain ⟨m, hm⟩ := coprime_order.symm.mul_dvd_of_dvd_of_dvd height horder
  have hle := Nat.card_le_card_of_injective mark mark_injective
  rw [Nat.card_prod, Nat.card_zmod, Nat.card_fin] at hle
  have hpos : 0 < Nat.card (Affine (ZMod p)) := Nat.card_pos
  have hsmall : p * 2 < 8 * order * 2 := by decide
  have hlt : m < 2 := by
    refine Nat.lt_of_mul_lt_mul_left (a := 8 * order) ?_
    rw [← hm]
    exact Nat.lt_of_le_of_lt hle hsmall
  have hone : m = 1 := by
    rcases Nat.eq_zero_or_pos m with hzero | hm'
    · rw [hm, hzero, Nat.mul_zero] at hpos
      exact absurd hpos (Nat.lt_irrefl 0)
    · omega
  rw [hm, hone, Nat.mul_one]

/-- **The order of a point divides eight or is a multiple of the prime.** -/
theorem addOrderOf_dvd_eight_or (P : Affine (ZMod p)) :
    addOrderOf P ∣ 8 ∨ order ∣ addOrderOf P := by
  by_cases hdvd : order ∣ addOrderOf P
  · exact .inr hdvd
  · have hcard : addOrderOf P ∣ 8 * order := card_points ▸ addOrderOf_dvd_natCard P
    exact .inl ((prime_order.coprime_iff_not_dvd.2 hdvd).symm.dvd_of_dvd_mul_right hcard)

section Multiples

variable {P : Affine (ZMod p)} {m n : Nat}

/-- **Below the prime different numbers have different multiples**, of a point that is not of
small order. -/
theorem nsmul_eq_nsmul_iff (hP : 8 • P ≠ 0) (hm : m < order) (hn : n < order) :
    m • P = n • P ↔ m = n := by
  refine ⟨fun h => ?_, fun h => h ▸ rfl⟩
  have horder : order ∣ addOrderOf P :=
    (addOrderOf_dvd_eight_or P).resolve_left fun hdvd =>
      hP (addOrderOf_dvd_iff_nsmul_eq_zero.1 hdvd)
  have hmod : m ≡ n [MOD order] := (nsmul_eq_nsmul_iff_modEq.1 h).of_dvd horder
  exact hmod.eq_of_lt_of_lt hm hn

/-- **Of a point of small order** the multiple depends on the remainder modulo eight alone. -/
theorem nsmul_eq_nsmul_of_mod_eight (hP : 8 • P = 0) (h : m % 8 = n % 8) : m • P = n • P := by
  rw [nsmul_eq_mod_nsmul m hP, h, ← nsmul_eq_mod_nsmul n hP]

end Multiples

/-- The order does not divide eight times the scalar of a seed, which is itself eight times a
number below the order. -/
theorem not_order_dvd_eight_mul_scalar (seed : Bytes32) : ¬order ∣ 8 * scalar seed := by
  have height : 8 ∣ scalar seed := by
    unfold scalar
    simp only [Nat.shiftLeft_eq]
    omega
  have hbounds : 2 ^ 254 ≤ scalar seed ∧ scalar seed < 2 ^ 255 := by
    unfold scalar
    simp only [Nat.shiftLeft_eq]
    omega
  have horder : 2 ^ 252 < order := by decide
  obtain ⟨m, hm⟩ := height
  rw [hm] at hbounds ⊢
  intro hdvd
  have hdvd := coprime_order.dvd_of_dvd_mul_left (coprime_order.dvd_of_dvd_mul_left hdvd)
  have hle := Nat.le_of_dvd (by omega) hdvd
  omega

/-- **The public key of a seed is not of small order.** -/
theorem eight_nsmul_publicKey_ne_zero (seed : Bytes32) : 8 • scalar seed • basePoint ≠ 0 := by
  rw [← mul_nsmul', Ne, ← addOrderOf_dvd_iff_nsmul_eq_zero, addOrderOf_basePoint]
  exact not_order_dvd_eight_mul_scalar seed

end Ed25519
end RoundChange
