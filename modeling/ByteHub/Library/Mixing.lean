import Mathlib.Data.List.Basic
import Mathlib.Logic.Function.Basic

/-!
# Mixing that loses nothing

A word is mixed by steps that can be undone: `xor` with a word, a product
with an odd word, and `xor` with the own upper half.  A chain of such steps
takes different states to different states, so two texts that differ in one
place only are never mixed to the same word.
-/

namespace ByteHub.Library.Mixing

/-! ## Steps that can be undone -/

/-- The upper half is folded into the lower one. -/
def foldHigh (x : UInt32) : UInt32 :=
  x ^^^ x >>> 16

theorem foldHigh_involutive : Function.Involutive foldHigh := by
  intro x
  have small := x.toNat_lt
  have gone : x.toNat >>> 16 >>> 16 = 0 := by
    rw [← Nat.shiftRight_add, Nat.shiftRight_eq_div_pow]
    exact Nat.div_eq_of_lt small
  apply UInt32.toNat_inj.1
  simp only [foldHigh, UInt32.toNat_xor, UInt32.toNat_shiftRight]
  change
    (x.toNat ^^^ x.toNat >>> 16) ^^^ (x.toNat ^^^ x.toNat >>> 16) >>> 16 =
      x.toNat
  rw [Nat.shiftRight_xor_distrib, gone, Nat.xor_zero, Nat.xor_assoc,
    Nat.xor_self, Nat.xor_zero]

/-- A product with a word that has an inverse can be undone. -/
theorem mul_leftInverse
    {a inverse : UInt32} (unit : a * inverse = 1) :
    Function.LeftInverse (fun x => x * inverse) (fun x => x * a) := by
  intro x
  change x * a * inverse = x
  rw [UInt32.mul_assoc, unit, UInt32.mul_one]

/-! ## One place -/

/-- Two texts of one length differ in one place, and in no other. -/
def DifferInOne {α : Type*} (text other : List α) : Prop :=
  ∃ (front back : List α) (x y : α), x ≠ y ∧
    text = front ++ x :: back ∧ other = front ++ y :: back

section DifferInOne

variable {α β State : Type*} {text other : List α}

theorem DifferInOne.ne (differ : DifferInOne text other) :
    text ≠ other := by
  rcases differ with ⟨front, back, x, y, different, rfl, rfl⟩
  intro equal
  exact different (List.cons.inj (List.append_cancel_left equal)).1

theorem DifferInOne.length_eq (differ : DifferInOne text other) :
    text.length = other.length := by
  rcases differ with ⟨front, back, x, y, _, rfl, rfl⟩
  simp

/-- The place is in front of a cut or behind it. -/
theorem DifferInOne.split
    (differ : DifferInOne text other) (n : ℕ) :
    DifferInOne (text.take n) (other.take n) ∧
        text.drop n = other.drop n ∨
      text.take n = other.take n ∧
        DifferInOne (text.drop n) (other.drop n) := by
  rcases differ with ⟨front, back, x, y, different, rfl, rfl⟩
  rcases Nat.lt_or_ge front.length n with inside | past
  · rcases Nat.exists_eq_add_of_lt inside with ⟨k, rfl⟩
    left
    have rest : front.length + k + 1 - front.length = k + 1 := by
      omega
    constructor
    · refine ⟨front, back.take k, x, y, different, ?_, ?_⟩
      · rw [List.take_append, rest, List.take_succ_cons,
          List.take_of_length_le (by omega)]
      · rw [List.take_append, rest, List.take_succ_cons,
          List.take_of_length_le (by omega)]
    · rw [List.drop_append, List.drop_append, rest, List.drop_succ_cons,
        List.drop_succ_cons]
  · right
    constructor
    · rw [List.take_append_of_le_length past,
        List.take_append_of_le_length past]
    · refine ⟨front.drop n, back, x, y, different, ?_, ?_⟩
      · exact List.drop_append_of_le_length past
      · exact List.drop_append_of_le_length past

/-- Steps that can be undone lead from different states to different
ones. -/
theorem foldl_injective
    {step : State → α → State}
    (undone : ∀ x, Function.Injective fun state => step state x)
    (text : List α) : Function.Injective fun state => text.foldl step state
    := by
  induction text with
  | nil => exact Function.injective_id
  | cons x text inductionHypothesis =>
      exact inductionHypothesis.comp (undone x)

/-- Texts that differ in one place lead to different states. -/
theorem DifferInOne.foldl_ne
    (differ : DifferInOne text other) {step : State → α → State}
    (undone : ∀ x, Function.Injective fun state => step state x)
    (told : ∀ state, Function.Injective fun x => step state x)
    (state : State) : text.foldl step state ≠ other.foldl step state := by
  rcases differ with ⟨front, back, x, y, different, rfl, rfl⟩
  rw [List.foldl_append, List.foldl_append, List.foldl_cons,
    List.foldl_cons]
  intro equal
  exact different (told _ (foldl_injective undone back equal))

/-- A change place by place keeps the only difference. -/
theorem DifferInOne.mapIdx
    (differ : DifferInOne text other) {f : ℕ → α → β}
    (told : ∀ i, Function.Injective (f i)) :
    DifferInOne (text.mapIdx f) (other.mapIdx f) := by
  rcases differ with ⟨front, back, x, y, different, rfl, rfl⟩
  refine ⟨front.mapIdx f, back.mapIdx fun i => f (i + 1 + front.length),
    f front.length x, f front.length y, ?_, ?_, ?_⟩
  · exact (told _).ne different
  · simp [List.mapIdx_append, List.mapIdx_cons]
  · simp [List.mapIdx_append, List.mapIdx_cons]

end DifferInOne

end ByteHub.Library.Mixing
