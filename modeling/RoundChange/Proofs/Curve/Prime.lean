/-
# The modulus is prime

Lucas's test: a number `n` is prime if some `a` has the order `n - 1` modulo `n`, which is
the case if `a ^ (n - 1)` is one and `a ^ ((n - 1) / q)` is not, for every prime `q` that
divides `n - 1`.  The primes are tested in the same way, down to those that trial division
can tell (`Curve.prime_p`).
-/

import Mathlib.Data.List.Prime
import Mathlib.NumberTheory.LucasPrimality
import Mathlib.Tactic.NormNum.Prime
import RoundChange.Curve.Point

namespace RoundChange

/-- `a ^ n % m`, for `n < 2 ^ bits`, by squaring. -/
def powerMod (m a : Nat) : Nat → Nat → Nat
  | 0, _ => 1 % m
  | bits + 1, n =>
    let root := powerMod m a bits (n / 2)
    let square := root * root % m
    if n % 2 = 1 then square * a % m else square

/-- Squaring and multiplying along the bits computes the power. -/
theorem powerMod_eq {bits n : Nat} (m a : Nat) (h : n < 2 ^ bits) :
    powerMod m a bits n = a ^ n % m := by
  induction bits generalizing n with
  | zero => rw [Nat.lt_one_iff.1 h, powerMod, Nat.pow_zero]
  | succ bits ih =>
    have hhalf : n / 2 < 2 ^ bits := by omega
    rw [powerMod, ih hhalf, ← Nat.mul_mod, ← Nat.pow_add]
    split
    case isTrue hodd =>
      have hn : n / 2 + n / 2 + 1 = n := by omega
      rw [Nat.mod_mul_mod, ← Nat.pow_add_one, hn]
    case isFalse heven =>
      have hn : n / 2 + n / 2 = n := by omega
      rw [hn]

/-- The test of `n` with `a` and the prime factors of `n - 1`, each as often as it divides. -/
def lucasTest (n a : Nat) (factors : List Nat) : Bool :=
  1 < n && n < 2 ^ 256 && factors.prod == n - 1 && powerMod n a 256 (n - 1) == 1 &&
    factors.all fun q => powerMod n a 256 ((n - 1) / q) != 1

/-- **What passes the test is prime** if the factors are. -/
theorem prime_of_lucasTest {n : Nat} (a : Nat) (factors : List Nat)
    (h : lucasTest n a factors = true) (hprime : ∀ q ∈ factors, q.Prime) : n.Prime := by
  simp only [lucasTest, Bool.and_eq_true, decide_eq_true_eq, beq_iff_eq, List.all_eq_true,
    bne_iff_ne] at h
  obtain ⟨⟨⟨⟨hone, hsmall⟩, hprod⟩, hfull⟩, hpart⟩ := h
  have hpower {k : Nat} (hk : k ≤ n - 1) : (a : ZMod n) ^ k = 1 ↔ powerMod n a 256 k = 1 := by
    rw [powerMod_eq n a (by omega), ← Nat.cast_pow, ← Nat.cast_one, ZMod.natCast_eq_natCast_iff',
      Nat.mod_eq_of_lt hone]
  refine lucas_primality n a ((hpower le_rfl).2 hfull) fun q hq hdvd hpow => ?_
  rw [← hprod] at hdvd
  have hmem : q ∈ factors :=
    mem_list_primes_of_dvd_prod hq.prime (fun q h => (hprime q h).prime) hdvd
  exact hpart q hmem ((hpower (Nat.div_le_self _ _)).1 hpow)

namespace Curve

/-- **The modulus of the coordinates is prime.** -/
theorem prime_p : p.Prime := by
  have h₁ : Nat.Prime 2773320623 :=
    prime_of_lucasTest 5 [2, 2437, 569003] (by decide +kernel) (by norm_num)
  have h₂ : Nat.Prime 72106336199 :=
    prime_of_lucasTest 7 [2, 13, 2773320623] (by decide +kernel)
      (by simp only [List.forall_mem_cons, h₁]; norm_num)
  have h₃ : Nat.Prime 1919519569386763 :=
    prime_of_lucasTest 2 [2, 3, 7, 19, 47, 47, 127, 8574133] (by decide +kernel) (by norm_num)
  have h₄ : Nat.Prime 31757755568855353 :=
    prime_of_lucasTest 10 [2, 2, 2, 3, 31, 107, 223, 4153, 430751] (by decide +kernel)
      (by norm_num)
  have h₅ : Nat.Prime 75445702479781427272750846543864801 :=
    prime_of_lucasTest 7
      [2, 2, 2, 2, 2, 3, 3, 5, 5, 75707, 72106336199, 1919519569386763] (by decide +kernel)
      (by simp only [List.forall_mem_cons, h₂, h₃]; norm_num)
  have h₆ : Nat.Prime 74058212732561358302231226437062788676166966415465897661863160754340907 :=
    prime_of_lucasTest 2
      [2, 3, 353, 57467, 132049, 1923133, 31757755568855353,
        75445702479781427272750846543864801] (by decide +kernel)
      (by simp only [List.forall_mem_cons, h₄, h₅]; norm_num)
  exact prime_of_lucasTest 2
    [2, 2, 3, 65147, 74058212732561358302231226437062788676166966415465897661863160754340907]
    (by decide +kernel) (by simp only [List.forall_mem_cons, h₆]; norm_num)

end Curve
end RoundChange
