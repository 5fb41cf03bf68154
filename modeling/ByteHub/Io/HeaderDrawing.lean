import ByteHub.Io.ObfsHeader
import Mathlib.Data.List.Iterate

/-!
# Drawing ends

The writer of a header draws ten bytes again and again until three of them
are letters or digits.  The generator is deterministic, so an end after
finitely many rounds is a fact about every one of its states.
-/

namespace ByteHub.Io

namespace SimpleRng

/-- Bits 32 to 39 of the state. -/
def upperByte (rng : SimpleRng) : UInt8 :=
  (rng.state >>> 32).toUInt8

theorem toNat_advance (rng : SimpleRng) :
    rng.advance.state.toNat =
      (6364136223846793005 * rng.state.toNat + 1) % 2 ^ 64 := by
  have multiplier :
      (6364136223846793005 : UInt64).toNat = 6364136223846793005 := by
    decide
  rw [advance, UInt64.toNat_add, UInt64.toNat_mul, multiplier,
    UInt64.toNat_one, Nat.mod_add_mod, Nat.mul_comm]

/-- A draw between 0 and 255 is a byte of the next state. -/
theorem nextRange_byte (rng : SimpleRng) :
    (rng.nextRange 0 255).1.toUInt8 = rng.advance.upperByte := by
  have width : (255 - 0 + 1 : UInt32) = 256 := by
    decide
  have modulus : (256 : UInt32).toNat = 256 := by
    decide
  apply UInt8.toNat_inj.1
  rw [nextRange, width, upperByte, UInt32.zero_add, UInt32.toNat_toUInt8,
    UInt32.toNat_mod, modulus, UInt64.toNat_toUInt32, UInt64.toNat_toUInt8]
  omega

/-- What is drawn are bytes of the states that follow. -/
theorem fill_eq_map (n : ℕ) (rng : SimpleRng) :
    (fill n rng).1 =
      (List.iterate advance rng.advance n).map upperByte := by
  induction n generalizing rng with
  | zero => rfl
  | succ n inductionHypothesis =>
      rw [fill_succ, nextRange_byte, inductionHypothesis, List.iterate,
        List.map_cons]

end SimpleRng

/-- The loop that draws, for a number of rounds at most; none if it has not
ended by then. -/
def drawRounds : ℕ → SimpleRng → Option (List UInt8 × SimpleRng)
  | 0, _ => none
  | rounds + 1, rng =>
      let drawn := rng.fill 10
      if 3 ≤ qualifying drawn.1 then some drawn
      else drawRounds rounds drawn.2

/-- The loop ends once a round qualifies, with what the writer draws. -/
theorem drawRounds_of_iterate
    {rng : SimpleRng} {n : ℕ}
    (qualifies : 3 ≤ qualifying
      (SimpleRng.fill 10 ((SimpleRng.advance^[10])^[n] rng)).1) :
    drawRounds (n + 1) rng = some (drawContent rng) := by
  induction n generalizing rng with
  | zero =>
      rw [Function.iterate_zero_apply] at qualifies
      rw [drawRounds, drawContent_eq]
      dsimp only
      rw [if_pos qualifies, if_pos qualifies]
  | succ n inductionHypothesis =>
      rw [Function.iterate_succ_apply, ← SimpleRng.fill_rng] at qualifies
      rw [drawRounds, drawContent_eq]
      dsimp only
      split
      · rfl
      · exact inductionHypothesis qualifies

/-- From every seed the loop ends.  Its rounds are ten bytes each, from bits
32 to 39 of the states that follow one another. -/
theorem drawing_ends (seed : UInt64) :
    (∃ rounds, drawRounds rounds ⟨seed⟩ = some (drawContent ⟨seed⟩)) ∧
      3 ≤ qualifying (drawContent ⟨seed⟩).1 ∧
      ∀ rng : SimpleRng,
        (rng.fill 10).1 =
            (List.iterate SimpleRng.advance rng.advance 10).map
              SimpleRng.upperByte ∧
          rng.advance.state.toNat =
            (6364136223846793005 * rng.state.toNat + 1) % 2 ^ 64 := by
  refine ⟨?_, drawContent_qualifying ⟨seed⟩, ?_⟩
  · rcases exists_qualifying ⟨seed⟩ with ⟨n, qualifies⟩
    exact ⟨n + 1, drawRounds_of_iterate qualifies⟩
  · intro rng
    exact ⟨SimpleRng.fill_eq_map 10 rng, rng.toNat_advance⟩

end ByteHub.Io
