/-
# The bytes of points

The bytes of a point spell a number that depends on the point alone, and not on the
coordinates it is kept in (`Point.Denotes.encode`), and no other point has these bytes
(`Point.Denotes.eq_of_encode`).  Reading them gives coordinates of the same point
(`Point.Denotes.exists_decode?`): the equation of the curve has two opposite solutions for
`x`, and since the modulus is odd their lowest bits differ (`eq_of_parity`).

Whatever else can be read stands for a point as well (`Point.exists_denotes_of_decode?`).
-/

import RoundChange.Proofs.BinaryRoundTrip
import RoundChange.Proofs.Curve.Sums

namespace RoundChange
namespace Curve

/-- The number that the bytes of a point spell: its `y`, and above it the lowest bit of its `x`. -/
def spelling (x y : Nat) : Nat := y + x % 2 * 2 ^ 255

section Spelling

variable {x y : Nat}

/-- The top bit of the spelling is the parity of `x`. -/
theorem spelling_div (hy : y < 2 ^ 255) : spelling x y >>> 255 = x % 2 := by
  rw [spelling, Nat.shiftRight_eq_div_pow, Nat.add_mul_div_right _ _ (Nat.two_pow_pos 255),
    Nat.div_eq_of_lt hy, Nat.zero_add]

/-- The lower bits of the spelling are `y`. -/
theorem spelling_mod (hy : y < 2 ^ 255) : spelling x y % 1 <<< 255 = y := by
  rw [spelling, Nat.shiftLeft_eq, Nat.one_mul, Nat.add_mul_mod_self_right, Nat.mod_eq_of_lt hy]

/-- The spelling fits into 32 bytes. -/
theorem spelling_lt (hy : y < 2 ^ 255) : spelling x y < 256 ^ 32 := by
  have hx : x % 2 ≤ 1 := by omega
  rw [spelling]
  calc
    _ < 2 ^ 255 + 1 * 2 ^ 255 := Nat.add_lt_add_of_lt_of_le hy (Nat.mul_le_mul_right _ hx)
    _ = 256 ^ 32 := by decide

end Spelling

/-- **Opposite numbers have different lowest bits**, but for zero. -/
theorem eq_of_parity {x y : ZMod p} (h : x = y ∨ x = -y) (hparity : x.val % 2 = y.val % 2) :
    x = y := by
  rcases h with h | h
  · exact h
  · by_cases hzero : y = 0
    · rw [h, hzero, neg_zero]
    · have hodd : p % 2 = 1 := by decide
      have hlt := ZMod.val_lt y
      have : NeZero y := ⟨hzero⟩
      rw [h, ZMod.val_neg_of_ne_zero] at hparity
      omega

/-- **Of two opposite roots, the lowest bit tells which is meant.** -/
theorem residue_of_parity {r : Field} {x : ZMod p} (h : residue r = x ∨ residue r = -x) :
    residue (if r.val % 2 = x.val % 2 then r else -r) = x := by
  split
  case isTrue hparity => exact eq_of_parity h (by rwa [val_residue])
  case isFalse hparity =>
    rcases h with h | h
    · exact absurd (by rw [← h, val_residue]) hparity
    · rw [residue_neg, h, neg_neg]

/-- **A point is known by its `y` and the lowest bit of its `x`.** -/
theorem eq_of_y_of_parity {P Q : Affine (ZMod p)} (hy : P.y = Q.y)
    (hx : P.x.val % 2 = Q.x.val % 2) : P = Q := by
  have hP := P.onCurve.mul_self_mul
  have hQ := Q.onCurve.mul_self_mul
  rw [hy, ← hQ] at hP
  have hsquare := mul_right_cancel₀ (Edwards.d_mul_mul_self_add_one_ne_zero Q.y) hP
  exact Affine.ext (eq_of_parity (mul_self_eq_mul_self_iff.1 hsquare) hx) hy

namespace Point

variable {a b : Point} {P Q : Affine (ZMod p)}

/-- **The bytes depend on the point alone**, not on the coordinates it is kept in. -/
theorem Denotes.encode (h : a.Denotes P) :
    a.encode = ⟨littleEndian 32 (spelling P.x.val P.y.val), length_littleEndian ..⟩ := by
  have hx : (a.x * inverse a.z).val = P.x.val := by
    rw [← val_residue (a.x * inverse a.z), residue_mul, residue_inverse, h.x,
      mul_inv_cancel_right₀ h.z_ne_zero]
  have hy : (a.y * inverse a.z).val = P.y.val := by
    rw [← val_residue (a.y * inverse a.z), residue_mul, residue_inverse, h.y,
      mul_inv_cancel_right₀ h.z_ne_zero]
  unfold Point.encode
  simp only [hx, hy, spelling, Nat.shiftLeft_eq]

/-- **Different points have different bytes.** -/
theorem Denotes.eq_of_encode (ha : a.Denotes P) (hb : b.Denotes Q) (h : a.encode = b.encode) :
    P = Q := by
  have hP : P.y.val < 2 ^ 255 := Nat.lt_trans (ZMod.val_lt P.y) p_lt
  have hQ : Q.y.val < 2 ^ 255 := Nat.lt_trans (ZMod.val_lt Q.y) p_lt
  rw [ha.encode, hb.encode, Bytes32.mk.injEq] at h
  have hnumber := congrArg ofLittleEndian h
  rw [ofLittleEndian_littleEndian, ofLittleEndian_littleEndian, Nat.mod_eq_of_lt (spelling_lt hP),
    Nat.mod_eq_of_lt (spelling_lt hQ)] at hnumber
  have hy := congrArg (· % 1 <<< 255) hnumber
  have hx := congrArg (· >>> 255) hnumber
  simp only [spelling_mod hP, spelling_mod hQ, spelling_div hP, spelling_div hQ] at hx hy
  exact eq_of_y_of_parity (ZMod.val_injective p hy) hx

/-- **Reading the bytes of a point gives it back**, in other coordinates perhaps. -/
theorem Denotes.exists_decode? (h : a.Denotes P) :
    ∃ b, decode? a.encode = some b ∧ b.Denotes P := by
  have hlt : P.y.val < 2 ^ 255 := Nat.lt_trans (ZMod.val_lt P.y) p_lt
  have hnumber : ofLittleEndian a.encode.toList = spelling P.x.val P.y.val := by
    rw [h.encode, ofLittleEndian_littleEndian, Nat.mod_eq_of_lt (spelling_lt hlt)]
  let y := field P.y.val
  have hy : residue y = P.y := by rw [residue_field, ZMod.natCast_zmod_val]
  have hv : residue (d * (y * y) + 1) = CompleteEdwards.d * (P.y * P.y) + 1 := by
    rw [residue_add, residue_mul, residue_mul, residue_one, hy]
    rfl
  have hdenominator : residue (d * (y * y) + 1) ≠ 0 := by
    rw [hv]
    exact Edwards.d_mul_mul_self_add_one_ne_zero P.y
  have hquotient : P.x * P.x * residue (d * (y * y) + 1) = residue (y * y - 1) := by
    rw [hv, residue_sub, residue_mul, residue_one, hy]
    exact P.onCurve.mul_self_mul
  obtain ⟨r, hr, hsign⟩ := exists_rootOfQuotient? hdenominator hquotient
  let x := if r.val % 2 = P.x.val % 2 then r else -r
  have hx : residue x = P.x := residue_of_parity hsign
  refine ⟨⟨x, y, 1, x * y⟩, ?_, denotes_of_residue hx hy⟩
  rw [decode?, hnumber, spelling_mod hlt, spelling_div hlt, hr]
  rfl

/-- **What can be read stands for a point.** -/
theorem exists_denotes_of_decode? {bytes : Bytes32} (h : decode? bytes = some a) :
    ∃ P, a.Denotes P := by
  unfold decode? at h
  obtain ⟨r, hr, ha⟩ := Option.map_eq_some_iff.1 h
  let n := ofLittleEndian bytes.toList
  let y := field (n % 1 <<< 255)
  let x := if r.val % 2 = n >>> 255 then r else -r
  have hsquare : residue x * residue x = residue r * residue r := by
    simp only [x]
    split
    case isTrue => rfl
    case isFalse => rw [residue_neg, neg_mul_neg]
  have hroot := mul_of_rootOfQuotient? hr
  simp only [residue_sub, residue_add, residue_mul, residue_one] at hroot
  have hcurve : Edwards.OnCurve (residue x) (residue y) := by
    simp only [Edwards.OnCurve, CompleteEdwards.d, hsquare]
    linear_combination -hroot
  refine ⟨⟨residue x, residue y, hcurve⟩, ?_⟩
  rw [← ha]
  exact denotes_of_residue rfl rfl

end Point
end Curve
end RoundChange
