import Mathlib.Data.Int.ModEq
import Mathlib.Logic.Function.Iterate
import Mathlib.Tactic.Ring
import Mathlib.Tactic.LinearCombination

/-!
# Linear congruential generators

A generator steps by `x ↦ a * x + c` and is seen modulo a power of two.  When
`a` is one modulo four, `2 ^ k` steps change the state by an odd multiple of
`2 ^ (j + k)`, where `2 ^ j` is the power of two in `c`.  Bit after bit, every
state is reached from every state that agrees with it modulo `2 ^ j`.
-/

namespace ByteHub.Library.Congruential

/-- One step of a generator. -/
def affine (a c x : ℤ) : ℤ :=
  a * x + c

/-- The coefficients of `2 ^ k` steps. -/
def doubled (a c : ℤ) : ℕ → ℤ × ℤ
  | 0 => (a, c)
  | k + 1 =>
      let half := doubled a c k
      (half.1 * half.1, (half.1 + 1) * half.2)

theorem iterate_two_pow (a c : ℤ) (k : ℕ) (x : ℤ) :
    (affine a c)^[2 ^ k] x = (doubled a c k).1 * x + (doubled a c k).2 := by
  induction k generalizing x with
  | zero => rfl
  | succ k inductionHypothesis =>
      rw [pow_succ, mul_two, Function.iterate_add_apply,
        inductionHypothesis, inductionHypothesis]
      simp only [doubled]
      ring

/-- The multiplier stays near one, and the increment keeps its power of
two. -/
theorem doubled_modEq
    {a c : ℤ} {j : ℕ} (multiplier : a ≡ 1 [ZMOD 2 ^ (j + 2)])
    (increment : c ≡ 2 ^ j [ZMOD 2 ^ (j + 1)]) (k : ℕ) :
    (doubled a c k).1 ≡ 1 [ZMOD 2 ^ (j + k + 2)] ∧
      (doubled a c k).2 ≡ 2 ^ (j + k) [ZMOD 2 ^ (j + k + 1)] := by
  induction k with
  | zero => exact ⟨multiplier, increment⟩
  | succ k inductionHypothesis =>
      rcases inductionHypothesis.1.dvd with ⟨t, first⟩
      rcases inductionHypothesis.2.dvd with ⟨s, second⟩
      have one :
          (doubled a c k).1 = 1 - 2 ^ (j + k + 2) * t := by
        linear_combination -first
      have two :
          (doubled a c k).2 = 2 ^ (j + k) - 2 ^ (j + k + 1) * s := by
        linear_combination -second
      constructor
      · refine Int.modEq_iff_dvd.2 ⟨t - 2 ^ (j + k + 1) * t * t, ?_⟩
        simp only [doubled, one]
        ring
      · refine Int.modEq_iff_dvd.2
          ⟨s + 2 ^ (j + k) * t - 2 ^ (j + k + 1) * t * s, ?_⟩
        simp only [doubled, one, two]
        ring

/-- `2 ^ k` steps flip bit `j + k` and leave the bits below. -/
theorem iterate_two_pow_modEq
    {a c : ℤ} {j : ℕ} (multiplier : a ≡ 1 [ZMOD 2 ^ (j + 2)])
    (increment : c ≡ 2 ^ j [ZMOD 2 ^ (j + 1)]) (k : ℕ) (x : ℤ) :
    (affine a c)^[2 ^ k] x ≡ x + 2 ^ (j + k) [ZMOD 2 ^ (j + k + 1)] := by
  rcases doubled_modEq multiplier increment k with ⟨first, second⟩
  have near :
      (doubled a c k).1 ≡ 1 [ZMOD 2 ^ (j + k + 1)] :=
    first.of_dvd (pow_dvd_pow 2 (Nat.le_succ _))
  rw [iterate_two_pow]
  simpa using (near.mul_right x).add second

/-- Every state is reached, up to the bits below the increment. -/
theorem exists_iterate_modEq
    {a c : ℤ} {j : ℕ} (multiplier : a ≡ 1 [ZMOD 2 ^ (j + 2)])
    (increment : c ≡ 2 ^ j [ZMOD 2 ^ (j + 1)]) {x y : ℤ}
    (low : x ≡ y [ZMOD 2 ^ j]) (k : ℕ) :
    ∃ n, (affine a c)^[n] x ≡ y [ZMOD 2 ^ (j + k)] := by
  induction k with
  | zero => exact ⟨0, low⟩
  | succ k inductionHypothesis =>
      rcases inductionHypothesis with ⟨n, agrees⟩
      rcases agrees.dvd with ⟨q, difference⟩
      rcases Int.even_or_odd' q with ⟨r, even | odd⟩
      · refine ⟨n, Int.modEq_iff_dvd.2 ⟨r, ?_⟩⟩
        rw [difference, even]
        ring
      · refine ⟨2 ^ k + n, ?_⟩
        rw [Function.iterate_add_apply]
        refine (iterate_two_pow_modEq multiplier increment k _).trans
          (Int.modEq_iff_dvd.2 ⟨r, ?_⟩)
        rw [odd] at difference
        linear_combination difference

end ByteHub.Library.Congruential
