import ByteHub.Library.Congruential
import Mathlib.Tactic.NormNum

/-!
# The random numbers of the obfuscation header

A linear congruential generator on 64 bits, seeded by the clock.  A draw uses
the upper half of the state.  Ten draws keep the lowest bit of the state and
otherwise lead, round after round, from every state to every other.
-/

namespace ByteHub.Io

open ByteHub.Library

structure SimpleRng where
  state : UInt64
deriving DecidableEq, Repr

namespace SimpleRng

/-- Seed with the nanoseconds since the epoch. -/
def new (nanos : ℕ) : SimpleRng where
  state := UInt64.ofNat nanos

/-- The state behind the next draw. -/
def advance (rng : SimpleRng) : SimpleRng where
  state := rng.state * 6364136223846793005 + 1

def nextRange (rng : SimpleRng) (min max : UInt32) : UInt32 × SimpleRng :=
  let rng := rng.advance
  let val := (rng.state >>> 32).toUInt32
  (min + val % (max - min + 1), rng)

/-- Fill a buffer with random bytes. -/
def fill : ℕ → SimpleRng → List UInt8 × SimpleRng
  | 0, rng => ([], rng)
  | n + 1, rng =>
      let drawn := rng.nextRange 0 255
      let rest := fill n drawn.2
      (drawn.1.toUInt8 :: rest.1, rest.2)

theorem nextRange_rng (rng : SimpleRng) (min max : UInt32) :
    (rng.nextRange min max).2 = rng.advance :=
  rfl

theorem fill_succ (n : ℕ) (rng : SimpleRng) :
    fill (n + 1) rng =
      ((rng.nextRange 0 255).1.toUInt8 :: (fill n rng.advance).1,
        (fill n rng.advance).2) := by
  rw [fill, nextRange_rng]

theorem fill_length (n : ℕ) (rng : SimpleRng) :
    (fill n rng).1.length = n := by
  induction n generalizing rng with
  | zero => rfl
  | succ n inductionHypothesis =>
      rw [fill_succ, List.length_cons, inductionHypothesis]

theorem fill_rng (n : ℕ) (rng : SimpleRng) :
    (fill n rng).2 = advance^[n] rng := by
  induction n generalizing rng with
  | zero => rfl
  | succ n inductionHypothesis =>
      rw [fill_succ, Function.iterate_succ_apply]
      exact inductionHypothesis rng.advance

/-! ## Reaching a state -/

/-- A step of words is a step of numbers modulo the word size. -/
theorem affine_modEq (x a c : UInt64) :
    ((x * a + c).toNat : ℤ) ≡
      Congruential.affine a.toNat c.toNat x.toNat [ZMOD 2 ^ 64] := by
  have stepped :
      (x * a + c).toNat ≡ a.toNat * x.toNat + c.toNat [MOD 2 ^ 64] := by
    rw [UInt64.toNat_add, UInt64.toNat_mul, Nat.mod_add_mod,
      mul_comm a.toNat]
    exact Nat.mod_modEq _ _
  have cast := Int.natCast_modEq_iff.2 stepped
  simpa only [Congruential.affine, Nat.cast_add, Nat.cast_mul,
    Nat.cast_pow, Nat.cast_ofNat] using cast

theorem advance_modEq (rng : SimpleRng) :
    (rng.advance.state.toNat : ℤ) ≡
      Congruential.affine 6364136223846793005 1 rng.state.toNat
        [ZMOD 2 ^ 64] := by
  have multiplier :
      (6364136223846793005 : UInt64).toNat = 6364136223846793005 := by
    decide
  have stepped := affine_modEq rng.state 6364136223846793005 1
  rw [multiplier, UInt64.toNat_one] at stepped
  exact_mod_cast stepped

theorem iterate_advance_modEq (n : ℕ) (rng : SimpleRng) :
    ((advance^[n] rng).state.toNat : ℤ) ≡
      (Congruential.affine 6364136223846793005 1)^[n] rng.state.toNat
        [ZMOD 2 ^ 64] := by
  induction n with
  | zero => exact Int.ModEq.refl _
  | succ n inductionHypothesis =>
      rw [Function.iterate_succ_apply', Function.iterate_succ_apply']
      exact (advance_modEq _).trans
        ((inductionHypothesis.mul_left _).add_right _)

/-- Ten steps are one step of another generator. -/
theorem affine_ten :
    ∃ a c : ℤ, a ≡ 1 [ZMOD 2 ^ 3] ∧ c ≡ 2 [ZMOD 2 ^ 2] ∧
      (Congruential.affine 6364136223846793005 1)^[10] =
        Congruential.affine a c := by
  refine ⟨6364136223846793005 ^ 10,
    ((Congruential.affine 6364136223846793005 1)^[10]) 0, ?_, ?_, ?_⟩
  · norm_num [Int.ModEq]
  · norm_num [Int.ModEq, Congruential.affine]
  · funext x
    simp only [Function.iterate_succ, Function.iterate_zero,
      Function.comp_apply, id_eq, Congruential.affine]
    ring

theorem ext_of_modEq
    {left right : SimpleRng}
    (agree : (left.state.toNat : ℤ) ≡ right.state.toNat [ZMOD 2 ^ 64]) :
    left = right := by
  have equal :
      left.state.toNat = right.state.toNat := by
    have small := left.state.toNat_lt
    have small' := right.state.toNat_lt
    have := Int.natCast_modEq_iff.1 (by exact_mod_cast agree)
    rwa [Nat.ModEq, Nat.mod_eq_of_lt small, Nat.mod_eq_of_lt small'] at this
  cases left
  cases right
  exact congrArg SimpleRng.mk (UInt64.toNat_inj.1 equal)

/-- Rounds of ten draws reach every state with the same lowest bit. -/
theorem exists_rounds_eq
    {rng target : SimpleRng}
    (parity : rng.state.toNat % 2 = target.state.toNat % 2) :
    ∃ n, (advance^[10])^[n] rng = target := by
  rcases affine_ten with ⟨a, c, multiplier, increment, ten⟩
  have low :
      (rng.state.toNat : ℤ) ≡ target.state.toNat [ZMOD 2 ^ 1] := by
    exact_mod_cast Int.natCast_modEq_iff.2 parity
  rcases Congruential.exists_iterate_modEq multiplier increment low 63 with
    ⟨n, reached⟩
  refine ⟨n, ext_of_modEq ?_⟩
  rw [← Function.iterate_mul]
  refine (iterate_advance_modEq _ _).trans ?_
  rw [Function.iterate_mul, ten]
  exact reached

/-- A property of ten draws that holds after an even and after an odd state
holds after some round from every state. -/
theorem exists_round_satisfies
    (good : List UInt8 → Prop) (even odd : SimpleRng)
    (isEven : even.state.toNat % 2 = 0)
    (isOdd : odd.state.toNat % 2 = 1)
    (goodEven : good (fill 10 even).1) (goodOdd : good (fill 10 odd).1)
    (rng : SimpleRng) :
    ∃ n, good (fill 10 ((advance^[10])^[n] rng)).1 := by
  rcases Nat.mod_two_eq_zero_or_one rng.state.toNat with parity | parity
  · rcases exists_rounds_eq (parity.trans isEven.symm) with ⟨n, reached⟩
    exact ⟨n, reached ▸ goodEven⟩
  · rcases exists_rounds_eq (parity.trans isOdd.symm) with ⟨n, reached⟩
    exact ⟨n, reached ▸ goodOdd⟩

end SimpleRng

end ByteHub.Io
