import Mathlib.Algebra.BigOperators.Ring.Finset
import Mathlib.Data.Nat.Choose.Basic
import Mathlib.Data.Set.Card
import Mathlib.Data.Set.Finite.List
import Mathlib.Order.CompletePartialOrder
import Mathlib.Order.Interval.Finset.Nat
import Mathlib.Tactic.Ring

/-!
# Counting words

The words of one length over a finite alphabet are counted by how many of
their letters are marked: the places of the marked letters are chosen, and
each place has the letters of its kind.
-/

namespace ByteHub.Library.Words

open Finset

variable {α : Type*}

/-- The words of a length with a number of marked letters. -/
def exactly (marked : α → Bool) (n k : ℕ) : Set (List α) :=
  {w | w.length = n ∧ w.countP marked = k}

/-- The words of a length with at least a number of marked letters. -/
def atLeast (marked : α → Bool) (n k : ℕ) : Set (List α) :=
  {w | w.length = n ∧ k ≤ w.countP marked}

/-- A letter of one kind in front of a word. -/
def consed (letters : Set α) (words : Set (List α)) : Set (List α) :=
  Set.image (fun pair : α × List α => pair.1 :: pair.2)
    (letters ×ˢ words)

theorem cons_mem_consed
    {letters : Set α} {words : Set (List α)} {x : α} {w : List α} :
    x :: w ∈ consed letters words ↔ x ∈ letters ∧ w ∈ words := by
  constructor
  · rintro ⟨⟨y, v⟩, ⟨letter, word⟩, equal⟩
    cases equal
    exact ⟨letter, word⟩
  · rintro ⟨letter, word⟩
    exact ⟨(x, w), ⟨letter, word⟩, rfl⟩

theorem nil_notMem_consed (letters : Set α) (words : Set (List α)) :
    [] ∉ consed letters words := by
  rintro ⟨pair, _, equal⟩
  cases equal

theorem ncard_consed (letters : Set α) (words : Set (List α)) :
    (consed letters words).ncard = letters.ncard * words.ncard := by
  have told : Function.Injective fun pair : α × List α =>
      pair.1 :: pair.2 := by
    rintro ⟨x, w⟩ ⟨y, v⟩ equal
    cases equal
    rfl
  rw [consed, told.injOn.ncard_image, Set.ncard_prod]

section Finite

variable [Finite α] (marked : α → Bool)

theorem finite_exactly (n k : ℕ) : (exactly marked n k).Finite :=
  (List.finite_length_eq α n).subset fun _ word => word.1

theorem finite_atLeast (n k : ℕ) : (atLeast marked n k).Finite :=
  (List.finite_length_eq α n).subset fun _ word => word.1

end Finite

section Steps

variable (marked : α → Bool)

theorem exactly_zero_zero : exactly marked 0 0 = {[]} := by
  ext w
  rw [Set.mem_singleton_iff]
  constructor
  · rintro ⟨none, _⟩
    exact List.eq_nil_of_length_eq_zero none
  · rintro rfl
    exact ⟨rfl, rfl⟩

theorem exactly_zero_succ (k : ℕ) : exactly marked 0 (k + 1) = ∅ := by
  rw [Set.eq_empty_iff_forall_notMem]
  rintro w ⟨none, some⟩
  rw [List.eq_nil_of_length_eq_zero none] at some
  cases some

/-- A longer word without a marked letter. -/
theorem exactly_succ_zero (n : ℕ) :
    exactly marked (n + 1) 0 =
      consed {x | marked x = false} (exactly marked n 0) := by
  ext w
  cases w with
  | nil =>
      exact iff_of_false (fun word => Nat.noConfusion word.1)
        (nil_notMem_consed _ _)
  | cons x w =>
      rw [cons_mem_consed]
      simp only [exactly, Set.mem_ofPred_eq, List.length_cons,
        List.countP_cons]
      cases marked x <;> simp

/-- A longer word begins with a marked letter, or with another one. -/
theorem exactly_succ_succ (n k : ℕ) :
    exactly marked (n + 1) (k + 1) =
      consed {x | marked x = true} (exactly marked n k) ∪
        consed {x | marked x = false} (exactly marked n (k + 1)) := by
  ext w
  cases w with
  | nil =>
      refine iff_of_false (fun word => Nat.noConfusion word.1) ?_
      rintro (word | word)
      · exact nil_notMem_consed _ _ word
      · exact nil_notMem_consed _ _ word
  | cons x w =>
      rw [Set.mem_union, cons_mem_consed, cons_mem_consed]
      simp only [exactly, Set.mem_ofPred_eq, List.length_cons,
        List.countP_cons]
      cases marked x <;> simp

theorem disjoint_consed (words others : Set (List α)) :
    Disjoint (consed {x | marked x = true} words)
      (consed {x | marked x = false} others) := by
  rw [Set.disjoint_left]
  rintro w ⟨⟨x, v⟩, ⟨letter, _⟩, rfl⟩ word
  have other := (cons_mem_consed.1 word).1
  have same : true = false := Eq.trans (Eq.symm letter) other
  cases same

end Steps

/-- The places of the marked letters are chosen, and each place has the
letters of its kind. -/
theorem ncard_exactly [Finite α] (marked : α → Bool) (n k : ℕ) :
    (exactly marked n k).ncard =
      n.choose k * {x | marked x = true}.ncard ^ k *
        {x | marked x = false}.ncard ^ (n - k) := by
  induction n generalizing k with
  | zero =>
      cases k with
      | zero => simp [exactly_zero_zero]
      | succ k => simp [exactly_zero_succ]
  | succ n inductionHypothesis =>
      cases k with
      | zero =>
          rw [exactly_succ_zero, ncard_consed, inductionHypothesis]
          rw [Nat.choose_zero_right, Nat.choose_zero_right, Nat.sub_zero,
            Nat.sub_zero]
          ring
      | succ k =>
          have first : (consed {x | marked x = true}
              (exactly marked n k)).Finite :=
            (Set.toFinite _).prod (finite_exactly marked n k) |>.image _
          have second : (consed {x | marked x = false}
              (exactly marked n (k + 1))).Finite :=
            (Set.toFinite _).prod (finite_exactly marked n (k + 1))
              |>.image _
          rw [exactly_succ_succ,
            Set.ncard_union_eq (disjoint_consed marked _ _) first second,
            ncard_consed, ncard_consed, inductionHypothesis,
            inductionHypothesis, Nat.choose_succ_succ,
            Nat.add_sub_add_right]
          rcases Nat.lt_or_ge n (k + 1) with short | long
          · rw [Nat.choose_eq_zero_of_lt short]
            ring
          · have whole : n - k = n - (k + 1) + 1 := by
              omega
            rw [whole]
            ring

/-- The words with at least a number of marked letters, by the exact
number. -/
theorem ncard_atLeast [Finite α] (marked : α → Bool) (n k : ℕ) :
    (atLeast marked n k).ncard =
      ∑ i ∈ Icc k n,
        n.choose i * {x | marked x = true}.ncard ^ i *
          {x | marked x = false}.ncard ^ (n - i) := by
  have finite := finite_atLeast marked n k
  have maps : Set.MapsTo (List.countP marked)
      (finite.toFinset : Set (List α)) (Icc k n : Set ℕ) := by
    intro w word
    rw [Set.Finite.coe_toFinset] at word
    rw [coe_Icc, Set.mem_Icc]
    exact ⟨word.2, word.1 ▸ List.countP_le_length⟩
  rw [Set.ncard_eq_toFinset_card _ finite,
    card_eq_sum_card_fiberwise maps]
  apply sum_congr rfl
  intro i between
  have fiber :
      (finite.toFinset.filter fun w => w.countP marked = i) =
        (finite_exactly marked n i).toFinset := by
    ext w
    rw [mem_filter, Set.Finite.mem_toFinset, Set.Finite.mem_toFinset]
    constructor
    · rintro ⟨word, many⟩
      exact ⟨word.1, many⟩
    · rintro ⟨long, many⟩
      exact ⟨⟨long, many ▸ (mem_Icc.1 between).1⟩, many⟩
  rw [fiber, ← Set.ncard_eq_toFinset_card _ (finite_exactly marked n i),
    ncard_exactly]

end ByteHub.Library.Words
