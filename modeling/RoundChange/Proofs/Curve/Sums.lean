/-
# Sums and multiples of points

Coordinates `(x : y : z : t)` denote the point `(x / z, y / z)` of the curve, if `t` is right
(`Point.Denotes`).  Whatever they denote, the formulas for the sum and the opposite denote the
sum and the opposite in the group (`Point.Denotes.add`, `Point.Denotes.neg`), and doubling and
adding denotes the multiple (`Point.Denotes.times`).
-/

import RoundChange.Proofs.Curve.Coordinates

namespace RoundChange
namespace Curve
namespace Point

open CompleteEdwards

/-- The coordinates are those of a point of the curve. -/
structure Denotes (a : Point) (P : Affine (ZMod p)) : Prop where
  z_ne_zero : residue a.z ≠ 0
  x : residue a.x = P.x * residue a.z
  y : residue a.y = P.y * residue a.z
  t : residue a.t = P.x * P.y * residue a.z

variable {a b : Point} {P Q : Affine (ZMod p)}

/-- A point of the curve is denoted by its own coordinates. -/
theorem denotes_of_residue {x y : Field} (hx : residue x = P.x) (hy : residue y = P.y) :
    (⟨x, y, 1, x * y⟩ : Point).Denotes P where
  z_ne_zero := by
    rw [residue_one]
    exact one_ne_zero
  x := by rw [residue_one, mul_one, hx]
  y := by rw [residue_one, mul_one, hy]
  t := by rw [residue_one, mul_one, residue_mul, hx, hy]

/-- **The neutral point is known by its coordinates.** -/
theorem Denotes.eq_zero_iff (h : a.Denotes P) : P = 0 ↔ a.x = 0 ∧ a.y = a.z := by
  constructor
  · rintro rfl
    rw [← residue_inj, ← residue_inj, h.x, h.y, Affine.x_zero, Affine.y_zero, residue_zero,
      zero_mul, one_mul]
    exact ⟨rfl, rfl⟩
  · rintro ⟨hx, hy⟩
    have hproduct := h.x
    rw [hx, residue_zero] at hproduct
    ext
    case x => exact (mul_eq_zero.1 hproduct.symm).resolve_right h.z_ne_zero
    case y =>
      refine mul_right_cancel₀ h.z_ne_zero ?_
      rw [← h.y, hy, Affine.y_zero, one_mul]

/-- The neutral point stands for zero. -/
theorem denotes_zero : zero.Denotes 0 where
  z_ne_zero := by
    rw [zero, residue_one]
    exact one_ne_zero
  x := by rw [zero, residue_zero, Affine.x_zero, zero_mul]
  y := by rw [zero, Affine.y_zero, one_mul]
  t := by rw [zero, residue_zero, Affine.x_zero, zero_mul, zero_mul]

/-- The opposite point stands for the opposite. -/
theorem Denotes.neg (h : a.Denotes P) : a.neg.Denotes (-P) where
  z_ne_zero := h.z_ne_zero
  x := by rw [Point.neg, residue_neg, h.x, Affine.x_neg, neg_mul]
  y := h.y
  t := by rw [Point.neg, residue_neg, h.t, Affine.x_neg, Affine.y_neg, neg_mul, neg_mul]

/-- **The formula for the sum denotes the sum**, of equal points as well. -/
theorem Denotes.add (ha : a.Denotes P) (hb : b.Denotes Q) : (a.add b).Denotes (P + Q) := by
  -- the formula clears the denominators of both points, which are `z`, and of their sum
  let z := residue a.z * residue b.z
  have hz : 2 * z ≠ 0 := mul_ne_zero two_ne_zero (mul_ne_zero ha.z_ne_zero hb.z_ne_zero)
  let e := (a.y + a.x) * (b.y + b.x) - (a.y - a.x) * (b.y - b.x)
  let f := a.z * b.z + a.z * b.z - (a.t * b.t * d + a.t * b.t * d)
  let g := a.z * b.z + a.z * b.z + (a.t * b.t * d + a.t * b.t * d)
  let h := (a.y + a.x) * (b.y + b.x) + (a.y - a.x) * (b.y - b.x)
  have hf : residue f = 2 * z * (1 - P.skew Q) := by
    simp only [f, z, residue_sub, residue_add, residue_mul, ha.t, hb.t]
    simp only [Affine.skew, Edwards.skew, CompleteEdwards.d]
    ring
  have hg : residue g = 2 * z * (1 + P.skew Q) := by
    simp only [g, z, residue_add, residue_mul, ha.t, hb.t]
    simp only [Affine.skew, Edwards.skew, CompleteEdwards.d]
    ring
  have he : residue e = (P + Q).x * residue g := by
    rw [hg, mul_left_comm, Affine.x_add_mul]
    simp only [e, z, residue_sub, residue_add, residue_mul, ha.x, ha.y, hb.x, hb.y]
    ring
  have hh : residue h = (P + Q).y * residue f := by
    rw [hf, mul_left_comm, Affine.y_add_mul]
    simp only [h, z, residue_sub, residue_add, residue_mul, ha.x, ha.y, hb.x, hb.y]
    ring
  have hfz : residue f ≠ 0 := hf ▸ mul_ne_zero hz (Affine.one_sub_skew_ne_zero P Q)
  have hgz : residue g ≠ 0 := hg ▸ mul_ne_zero hz (Affine.one_add_skew_ne_zero P Q)
  constructor
  case z_ne_zero =>
    show residue (f * g) ≠ 0
    rw [residue_mul]
    exact mul_ne_zero hfz hgz
  case x =>
    show residue (e * f) = (P + Q).x * residue (f * g)
    rw [residue_mul, residue_mul, he]
    ring
  case y =>
    show residue (g * h) = (P + Q).y * residue (f * g)
    rw [residue_mul, residue_mul, hh]
    ring
  case t =>
    show residue (e * h) = (P + Q).x * (P + Q).y * residue (f * g)
    rw [residue_mul, residue_mul, he, hh]
    ring

/-- **Doubling and adding denotes the multiple.** -/
theorem Denotes.times {bits n : Nat} (ha : a.Denotes P) (h : n < 2 ^ bits) :
    (a.times bits n).Denotes (n • P) := by
  induction bits generalizing n with
  | zero =>
    rw [Nat.lt_one_iff.1 h, zero_nsmul]
    exact denotes_zero
  | succ bits ih =>
    have hhalf : n / 2 < 2 ^ bits := by omega
    have hdouble := (ih hhalf).add (ih hhalf)
    rw [← add_nsmul] at hdouble
    rw [Point.times]
    split
    case isTrue hodd =>
      have hn : n / 2 + n / 2 + 1 = n := by omega
      have hsum := hdouble.add ha
      rwa [← succ_nsmul, hn] at hsum
    case isFalse heven =>
      have hn : n / 2 + n / 2 = n := by omega
      rwa [hn] at hdouble

end Point

/-- The base point of the curve. -/
def basePoint : Affine (ZMod p) where
  x := residue Point.base.x
  y := residue Point.base.y
  onCurve := by
    simp only [Edwards.OnCurve, CompleteEdwards.d, ← residue_mul, ← residue_sub, ← residue_add,
      ← residue_one, residue_inj]
    decide +kernel

/-- The base point stands for the base point of the group. -/
theorem Point.denotes_base : Point.base.Denotes basePoint := denotes_of_residue rfl rfl

end Curve
end RoundChange
