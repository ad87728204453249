/-
# The group of a complete Edwards curve

`-x² + y² = 1 + d x² y²` over a field where `-1` is a square and `d` is none
(`CompleteEdwards`).  The sum of two points is

    x = (x₁ y₂ + y₁ x₂) / (1 + d x₁ x₂ y₁ y₂)
    y = (y₁ y₂ + x₁ x₂) / (1 - d x₁ x₂ y₁ y₂)

Neither denominator is ever zero, or `d` would be a square
(`Edwards.skew_mul_self_ne_one`), so every two points have a sum, which is a point again
(`Edwards.onCurve_sum`), and the points are a commutative group.

Of the law of associativity only the `x` are compared with their denominators cleared
(`Edwards.x_assoc`).  The `y` follow from them by a quarter turn, which swaps the two
coordinates and commutes with adding (`Affine.turn_add`).
-/

import Mathlib.Algebra.Field.Basic
import Mathlib.Tactic.FieldSimp
import Mathlib.Tactic.LinearCombination
import Mathlib.Tactic.Ring

namespace RoundChange

/-- A field with the coefficient of a curve on which every two points have a sum: `-1` has a
root, `d` has none, and two is not zero. -/
class CompleteEdwards (K : Type) [Field K] where
  d : K
  root : K
  root_mul_root : root * root = -1
  d_ne_mul_self : ∀ r, d ≠ r * r
  two_ne_zero : (2 : K) ≠ 0

namespace Edwards

open CompleteEdwards

variable {K : Type} [Field K] [CompleteEdwards K]

/-- The equation of the curve. -/
def OnCurve (x y : K) : Prop := y * y - x * x = 1 + d * (x * x) * (y * y)

/-- What the denominators of a sum differ from one by. -/
def skew (x₁ y₁ x₂ y₂ : K) : K := d * x₁ * x₂ * y₁ * y₂

/-- The opposite second point has the opposite skew. -/
theorem skew_neg (x₁ y₁ x₂ y₂ : K) : skew x₁ y₁ x₂ (-y₂) = -skew x₁ y₁ x₂ y₂ := mul_neg ..

/-- The root of `-1` is not zero. -/
theorem root_ne_zero : (root : K) ≠ 0 := by
  intro h
  have hroot := root_mul_root (K := K)
  rw [h, mul_zero] at hroot
  exact one_ne_zero (neg_eq_zero.1 hroot.symm)

/-- `d` times a square is no square but zero. -/
theorem eq_zero_of_d_mul_mul_self {r s : K} (h : d * (s * s) = r * r) : s = 0 := by
  by_contra hs
  refine d_ne_mul_self (r / s) ?_
  rw [div_mul_div_comm, eq_div_iff (mul_ne_zero hs hs), h]

/-- The denominator of the equation, solved for `x`, is not zero. -/
theorem d_mul_mul_self_add_one_ne_zero (y : K) : d * (y * y) + 1 ≠ 0 := by
  intro h
  have hy : y = 0 := by
    refine eq_zero_of_d_mul_mul_self (r := root) ?_
    rw [root_mul_root, eq_neg_of_add_eq_zero_left h]
  rw [hy, mul_zero, mul_zero, zero_add] at h
  exact one_ne_zero h

/-- The equation of the curve, solved for the square of `x`. -/
theorem OnCurve.mul_self_mul {x y : K} (h : OnCurve x y) :
    x * x * (d * (y * y) + 1) = y * y - 1 := by
  rw [OnCurve] at h
  linear_combination -h

variable {x₁ y₁ x₂ y₂ : K}

/-- Where the skew is one or minus one, `d` times this square is a square. -/
theorem d_mul_mul_self (h₁ : OnCurve x₁ y₁) (h₂ : OnCurve x₂ y₂)
    (h : skew x₁ y₁ x₂ y₂ * skew x₁ y₁ x₂ y₂ = 1) :
    let s := x₁ * y₁ * (root * x₂ + y₂)
    let r := root * x₁ + skew x₁ y₁ x₂ y₂ * y₁
    d * (s * s) = r * r := by
  intro s r
  have hroot := root_mul_root (K := K)
  simp only [OnCurve] at h₁ h₂
  simp only [s, r, skew] at h ⊢
  grind

/-- **The skew of two points is neither one nor minus one.** -/
theorem skew_mul_self_ne_one (h₁ : OnCurve x₁ y₁) (h₂ : OnCurve x₂ y₂) :
    skew x₁ y₁ x₂ y₂ * skew x₁ y₁ x₂ y₂ ≠ 1 := by
  intro h
  have h₂' : OnCurve x₂ (-y₂) := by simpa only [OnCurve, neg_mul_neg] using h₂
  have h' : skew x₁ y₁ x₂ (-y₂) * skew x₁ y₁ x₂ (-y₂) = 1 := by rw [skew_neg, neg_mul_neg, h]
  -- the square is that of zero, for the second point and for the one opposite to it
  have hplus := eq_zero_of_d_mul_mul_self (d_mul_mul_self h₁ h₂ h)
  have hminus := eq_zero_of_d_mul_mul_self (d_mul_mul_self h₁ h₂' h')
  have hdouble : 2 * (x₁ * y₁ * y₂) = 0 := by linear_combination hplus - hminus
  have hzero : x₁ * y₁ * y₂ = 0 := (mul_eq_zero.1 hdouble).resolve_left two_ne_zero
  have hskew : skew x₁ y₁ x₂ y₂ = 0 := by
    rw [skew]
    linear_combination d * x₂ * hzero
  rw [hskew, mul_zero] at h
  exact zero_ne_one h

/-- The denominator of the sum in `x` is not zero. -/
theorem one_add_skew_ne_zero (h₁ : OnCurve x₁ y₁) (h₂ : OnCurve x₂ y₂) :
    1 + skew x₁ y₁ x₂ y₂ ≠ 0 := by
  intro h
  refine skew_mul_self_ne_one h₁ h₂ ?_
  linear_combination (skew x₁ y₁ x₂ y₂ - 1) * h

/-- Nor is the denominator in `y`. -/
theorem one_sub_skew_ne_zero (h₁ : OnCurve x₁ y₁) (h₂ : OnCurve x₂ y₂) :
    1 - skew x₁ y₁ x₂ y₂ ≠ 0 := by
  intro h
  refine skew_mul_self_ne_one h₁ h₂ ?_
  linear_combination (-skew x₁ y₁ x₂ y₂ - 1) * h

/-- **The sum of two points is on the curve.** -/
theorem onCurve_sum (h₁ : OnCurve x₁ y₁) (h₂ : OnCurve x₂ y₂) :
    OnCurve ((x₁ * y₂ + y₁ * x₂) / (1 + skew x₁ y₁ x₂ y₂))
      ((y₁ * y₂ + x₁ * x₂) / (1 - skew x₁ y₁ x₂ y₂)) := by
  have hplus := one_add_skew_ne_zero h₁ h₂
  have hminus := one_sub_skew_ne_zero h₁ h₂
  simp only [OnCurve] at h₁ h₂ ⊢
  field_simp
  simp only [skew]
  grind

/-- The two ways to add three points agree in `x`, with the denominators cleared. -/
theorem x_assoc {x₃ y₃ : K} (h₁ : OnCurve x₁ y₁) (h₂ : OnCurve x₂ y₂) (h₃ : OnCurve x₃ y₃) :
    let s := skew x₁ y₁ x₂ y₂
    let x := x₁ * y₂ + y₁ * x₂
    let y := y₁ * y₂ + x₁ * x₂
    let s' := skew x₂ y₂ x₃ y₃
    let x' := x₂ * y₃ + y₂ * x₃
    let y' := y₂ * y₃ + x₂ * x₃
    (x * (1 - s) * y₃ + y * (1 + s) * x₃) * ((1 + s') * (1 - s') + skew x₁ y₁ x' y') =
      (x₁ * y' * (1 + s') + y₁ * x' * (1 - s')) * ((1 + s) * (1 - s) + skew x y x₃ y₃) := by
  intro s x y s' x' y'
  simp only [OnCurve] at h₁ h₂ h₃
  simp only [s, x, y, s', x', y', skew]
  grind

end Edwards

/-- A point of the curve. -/
@[ext]
structure Affine (K : Type) [Field K] [CompleteEdwards K] where
  x : K
  y : K
  onCurve : Edwards.OnCurve x y

namespace Affine

open CompleteEdwards Edwards

variable {K : Type} [Field K] [CompleteEdwards K]

/-- What the denominators of the sum of two points differ from one by. -/
def skew (a b : Affine K) : K := Edwards.skew a.x a.y b.x b.y

/-- The skew does not depend on the order of the points. -/
theorem skew_comm (a b : Affine K) : a.skew b = b.skew a := by
  simp only [skew, Edwards.skew]
  ring

/-- The denominator in `x` is not zero, for points of the curve. -/
theorem one_add_skew_ne_zero (a b : Affine K) : 1 + a.skew b ≠ 0 :=
  Edwards.one_add_skew_ne_zero a.onCurve b.onCurve

/-- Nor is the one in `y`. -/
theorem one_sub_skew_ne_zero (a b : Affine K) : 1 - a.skew b ≠ 0 :=
  Edwards.one_sub_skew_ne_zero a.onCurve b.onCurve

instance : Zero (Affine K) := ⟨⟨0, 1, by simp [OnCurve]⟩⟩

instance : Neg (Affine K) where
  neg a := ⟨-a.x, a.y, by simpa only [OnCurve, neg_mul_neg] using a.onCurve⟩

instance : Add (Affine K) where
  add a b := ⟨(a.x * b.y + a.y * b.x) / (1 + a.skew b), (a.y * b.y + a.x * b.x) / (1 - a.skew b),
    onCurve_sum a.onCurve b.onCurve⟩

/-- The neutral point is `(0, 1)`. -/
theorem x_zero : (0 : Affine K).x = 0 := rfl

theorem y_zero : (0 : Affine K).y = 1 := rfl

/-- The opposite point is the mirror image in `x`. -/
theorem x_neg (a : Affine K) : (-a).x = -a.x := rfl

theorem y_neg (a : Affine K) : (-a).y = a.y := rfl

/-- The law of addition in `x`, -/
theorem x_add (a b : Affine K) : (a + b).x = (a.x * b.y + a.y * b.x) / (1 + a.skew b) := rfl

/-- and in `y`. -/
theorem y_add (a b : Affine K) : (a + b).y = (a.y * b.y + a.x * b.x) / (1 - a.skew b) := rfl

/-- The law of addition in `x` without its denominator, -/
theorem x_add_mul (a b : Affine K) : (a + b).x * (1 + a.skew b) = a.x * b.y + a.y * b.x :=
  div_mul_cancel₀ _ (one_add_skew_ne_zero a b)

/-- and in `y`. -/
theorem y_add_mul (a b : Affine K) : (a + b).y * (1 - a.skew b) = a.y * b.y + a.x * b.x :=
  div_mul_cancel₀ _ (one_sub_skew_ne_zero a b)

/-- **Points may be added in either order.** -/
protected theorem add_comm (a b : Affine K) : a + b = b + a := by
  ext
  case x => rw [x_add, x_add, skew_comm, add_comm, mul_comm a.y, mul_comm a.x]
  case y => rw [y_add, y_add, skew_comm, mul_comm a.y, mul_comm a.x]

/-- The neutral point adds nothing. -/
protected theorem zero_add (a : Affine K) : 0 + a = a := by
  have hskew : (0 : Affine K).skew a = 0 := by
    rw [skew, Edwards.skew, x_zero]
    ring
  ext
  case x => rw [x_add, hskew, x_zero, y_zero, zero_mul, zero_add, one_mul, add_zero, div_one]
  case y => rw [y_add, hskew, x_zero, y_zero, zero_mul, add_zero, one_mul, sub_zero, div_one]

/-- A point and its opposite add up to the neutral point. -/
protected theorem neg_add_cancel (a : Affine K) : -a + a = 0 := by
  have hcurve := a.onCurve
  rw [OnCurve] at hcurve
  ext
  case x =>
    rw [x_add, x_neg, y_neg, x_zero, div_eq_zero_iff]
    left
    ring
  case y =>
    rw [y_add, y_zero, div_eq_one_iff_eq (one_sub_skew_ne_zero (-a) a), skew, Edwards.skew, x_neg,
      y_neg]
    linear_combination hcurve

/-- **The sum of three points has one `x`**, however they are grouped. -/
theorem x_add_assoc (a b c : Affine K) : (a + b + c).x = (a + (b + c)).x := by
  have hdenominators : (1 + a.skew b) * (1 - a.skew b) * ((1 + b.skew c) * (1 - b.skew c)) ≠ 0 :=
    mul_ne_zero (mul_ne_zero (one_add_skew_ne_zero a b) (one_sub_skew_ne_zero a b))
      (mul_ne_zero (one_add_skew_ne_zero b c) (one_sub_skew_ne_zero b c))
  rw [x_add (a + b) c, x_add a (b + c),
    div_eq_div_iff (one_add_skew_ne_zero (a + b) c) (one_add_skew_ne_zero a (b + c))]
  apply mul_right_cancel₀ hdenominators
  calc
    _ = ((a + b).x * (1 + a.skew b) * (1 - a.skew b) * c.y +
          (a + b).y * (1 - a.skew b) * (1 + a.skew b) * c.x) *
        ((1 + b.skew c) * (1 - b.skew c) +
          Edwards.skew a.x a.y ((b + c).x * (1 + b.skew c)) ((b + c).y * (1 - b.skew c))) := by
      simp only [skew, Edwards.skew]
      ring
    _ = (a.x * ((b + c).y * (1 - b.skew c)) * (1 + b.skew c) +
          a.y * ((b + c).x * (1 + b.skew c)) * (1 - b.skew c)) *
        ((1 + a.skew b) * (1 - a.skew b) +
          Edwards.skew ((a + b).x * (1 + a.skew b)) ((a + b).y * (1 - a.skew b)) c.x c.y) := by
      rw [x_add_mul, y_add_mul, x_add_mul, y_add_mul]
      exact x_assoc a.onCurve b.onCurve c.onCurve
    _ = _ := by
      simp only [skew, Edwards.skew]
      ring

/-- A quarter turn: the sum with the point `(root, 0)`. -/
def turn (a : Affine K) : Affine K where
  x := root * a.y
  y := root * a.x
  onCurve := by
    have hcurve := a.onCurve
    have hroot := root_mul_root (K := K)
    simp only [OnCurve] at hcurve ⊢
    grind

/-- A sum is turned where its first point is. -/
theorem turn_add (a b : Affine K) : a.turn + b = (a + b).turn := by
  have hskew : a.turn.skew b = -a.skew b := by
    have hroot := root_mul_root (K := K)
    simp only [skew, Edwards.skew, turn]
    grind
  have hx : (a.turn + b).x = root * (a + b).y := by
    rw [x_add, y_add, hskew, ← sub_eq_add_neg, ← mul_div_assoc]
    simp only [turn]
    ring
  have hy : (a.turn + b).y = root * (a + b).x := by
    rw [x_add, y_add, hskew, sub_neg_eq_add, ← mul_div_assoc]
    simp only [turn]
    ring
  exact Affine.ext hx hy

/-- **Points may be grouped in any way**: turned, the `y` of a sum is an `x`. -/
protected theorem add_assoc (a b c : Affine K) : a + b + c = a + (b + c) := by
  ext
  case x => exact x_add_assoc a b c
  case y =>
    have h := x_add_assoc a.turn b c
    rw [turn_add, turn_add, turn_add] at h
    exact mul_left_cancel₀ root_ne_zero h

/-- **The points of a complete curve are a commutative group.** -/
instance : AddCommGroup (Affine K) where
  add_assoc := Affine.add_assoc
  zero_add := Affine.zero_add
  add_zero a := (Affine.add_comm a 0).trans (Affine.zero_add a)
  neg_add_cancel := Affine.neg_add_cancel
  add_comm := Affine.add_comm
  nsmul := nsmulRec
  zsmul := zsmulRec

end Affine
end RoundChange
