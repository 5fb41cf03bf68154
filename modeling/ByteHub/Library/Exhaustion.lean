import Mathlib.Algebra.Group.Action.Defs
import Mathlib.Algebra.Order.BigOperators.Group.Finset

/-!
# Exhaustion

Rounds in which one of finitely many items pays a part of what it owes, while
no debt grows, come to an end: there are no more of them than there is debt.
-/

namespace ByteHub.Library.Exhaustion

variable {Item : Type*} {items : Finset Item} {owed : ℕ → Item → ℕ}
variable {first rounds : ℕ}

/-- Each round lowers what all items owe together. -/
theorem rounds_add_sum_le
    (paid : ∀ k, first ≤ k → k < first + rounds →
      ∃ payer ∈ items, owed (k + 1) payer < owed k payer ∧
        ∀ item ∈ items, owed (k + 1) item ≤ owed k item) :
    rounds + ∑ item ∈ items, owed (first + rounds) item ≤
      ∑ item ∈ items, owed first item := by
  induction rounds with
  | zero => exact Nat.le_of_eq (Nat.zero_add _)
  | succ rounds inductionHypothesis =>
      have before :=
        inductionHypothesis fun k after upTo => paid k after (by omega)
      rcases paid (first + rounds) (by omega) (by omega) with
        ⟨payer, member, pays, kept⟩
      have falls :
          ∑ item ∈ items, owed (first + (rounds + 1)) item <
            ∑ item ∈ items, owed (first + rounds) item :=
        Finset.sum_lt_sum kept ⟨payer, member, pays⟩
      omega

/-- Where nobody owes more than a limit, the rounds are at most the number of
items that owe something times the limit. -/
theorem rounds_le
    {debtors : Finset Item} {limit : ℕ}
    (within : ∀ item ∈ items, owed first item ≤ limit)
    (part : debtors ⊆ items)
    (free : ∀ item ∈ items, item ∉ debtors → owed first item = 0)
    (paid : ∀ k, first ≤ k → k < first + rounds →
      ∃ payer ∈ items, owed (k + 1) payer < owed k payer ∧
        ∀ item ∈ items, owed (k + 1) item ≤ owed k item) :
    rounds ≤ debtors.card * limit := by
  have total :=
    Finset.sum_le_card_nsmul debtors (owed first) limit
      fun item member => within item (part member)
  rw [smul_eq_mul, Finset.sum_subset part free] at total
  exact Nat.le_trans (Nat.le_of_add_right_le (rounds_add_sum_le paid)) total

end ByteHub.Library.Exhaustion
