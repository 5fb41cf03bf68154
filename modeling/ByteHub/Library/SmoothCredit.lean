import Mathlib.Algebra.BigOperators.Intervals
import Mathlib.Algebra.BigOperators.Ring.Finset
import Mathlib.Algebra.Order.BigOperators.Group.Finset
import Mathlib.Data.Int.Order.Basic
import Mathlib.Tactic.Linarith
import Mathlib.Tactic.Ring

/-!
# Greedy credit selection

A finite set of members shares turns.  In every turn each eligible member
earns its share, one eligible member of maximal credit is chosen, and the
chosen member pays the sum of the shares earned in that turn.  Eligibility
and shares may change from turn to turn.

The total credit never changes.  The main bound limits the credit of every
subset of the members by a concave function of its size, whatever the
sequence of eligible sets and shares is.  For constant shares and no
exclusions the turns taken by each member are exactly proportional to its
share.
-/

namespace ByteHub.Library.SmoothCredit

open Finset

variable {ι : Type*} [DecidableEq ι]

/-- Credits after one turn in which `chosen` was selected. -/
def afterTurn
    (eligible : Finset ι) (share : ι → ℤ) (chosen : ι)
    (credit : ι → ℤ) : ι → ℤ :=
  fun member =>
    credit member
      + (if member ∈ eligible then share member else 0)
      - (if member = chosen then ∑ other ∈ eligible, share other else 0)

/-- `chosen` is eligible and has maximal credit once shares are earned. -/
structure IsLeader
    (eligible : Finset ι) (share credit : ι → ℤ) (chosen : ι) : Prop where
  mem : chosen ∈ eligible
  le : ∀ member ∈ eligible,
    credit member + share member ≤ credit chosen + share chosen

@[simp]
theorem afterTurn_chosen
    (eligible : Finset ι) (share credit : ι → ℤ) {chosen : ι}
    (member : chosen ∈ eligible) :
    afterTurn eligible share chosen credit chosen =
      credit chosen + share chosen - ∑ other ∈ eligible, share other := by
  simp [afterTurn, member]

theorem afterTurn_waiting
    (eligible : Finset ι) (share credit : ι → ℤ) {chosen member : ι}
    (waits : member ≠ chosen) (joined : member ∈ eligible) :
    afterTurn eligible share chosen credit member =
      credit member + share member := by
  simp [afterTurn, waits, joined]

theorem afterTurn_excluded
    (eligible : Finset ι) (share credit : ι → ℤ) {chosen member : ι}
    (mem : chosen ∈ eligible) (out : member ∉ eligible) :
    afterTurn eligible share chosen credit member = credit member := by
  have waits : member ≠ chosen := by
    rintro rfl
    exact out mem
  simp [afterTurn, waits, out]

/-- The credit of a set of members after one turn. -/
theorem sum_afterTurn
    (eligible members : Finset ι) (share credit : ι → ℤ) (chosen : ι) :
    ∑ member ∈ members, afterTurn eligible share chosen credit member =
      ∑ member ∈ members, credit member
        + ∑ member ∈ members ∩ eligible, share member
        - (if chosen ∈ members then ∑ other ∈ eligible, share other
            else 0) := by
  simp only [afterTurn, sum_sub_distrib, sum_add_distrib,
    sum_ite_mem, sum_ite_eq']

/-- Credit is moved between members, never created or destroyed. -/
theorem sum_afterTurn_members
    {eligible members : Finset ι} (share credit : ι → ℤ) {chosen : ι}
    (inside : eligible ⊆ members) (mem : chosen ∈ eligible) :
    ∑ member ∈ members, afterTurn eligible share chosen credit member =
      ∑ member ∈ members, credit member := by
  rw [sum_afterTurn, if_pos (inside mem), inter_eq_right.2 inside]
  ring

/-! ## The subset bound -/

/--
Every subset of `k` members holds at most `cap * k * (n - k)` credit, where
`n` is the number of members.
-/
def SubsetBounded (members : Finset ι) (cap : ℤ) (credit : ι → ℤ) : Prop :=
  ∀ part ⊆ members,
    ∑ member ∈ part, credit member ≤
      cap * part.card * (members.card - part.card)

omit [DecidableEq ι] in
theorem subsetBounded_zero
    (members : Finset ι) {cap : ℤ} (nonneg : 0 ≤ cap) :
    SubsetBounded members cap (fun _ => 0) := by
  intro part inside
  have fits : (part.card : ℤ) ≤ members.card := by
    exact_mod_cast card_le_card inside
  have partNonneg : (0 : ℤ) ≤ part.card := Int.natCast_nonneg _
  simpa using
    mul_nonneg (mul_nonneg nonneg partNonneg) (sub_nonneg.2 fits)

omit [DecidableEq ι] in
/--
A leader outside a subset is at least as rich as the average eligible
member of the subset.
-/
theorem leader_above_average
    {eligible : Finset ι} {share credit : ι → ℤ} {chosen : ι}
    (leader : IsLeader eligible share credit chosen)
    {part : Finset ι} (inside : part ⊆ eligible) :
    ∑ member ∈ part, (credit member + share member) ≤
      part.card * (credit chosen + share chosen) := by
  have bounded :
      ∑ member ∈ part, (credit member + share member) ≤
        part.card • (credit chosen + share chosen) :=
    sum_le_card_nsmul part _ _ fun member joined =>
      leader.le member (inside joined)
  simpa [nsmul_eq_mul] using bounded

omit [DecidableEq ι] in
theorem sum_share_le
    {eligible part : Finset ι} {share : ι → ℤ} {cap : ℤ}
    (below : ∀ member ∈ eligible, share member ≤ cap)
    (inside : part ⊆ eligible) :
    ∑ member ∈ part, share member ≤ part.card * cap := by
  have bounded :
      ∑ member ∈ part, share member ≤ part.card • cap :=
    sum_le_card_nsmul part _ _ fun member joined =>
      below member (inside joined)
  simpa [nsmul_eq_mul] using bounded

/--
The arithmetic heart of the subset bound: `k` members, `j` of them
eligible, `n` members in all, and a leader outside the subset whose topped
up credit is `lead`.
-/
private theorem concave_step
    {cap k j n away joined earned lead leadShare : ℤ}
    (jPos : 1 ≤ j)
    (awayBound : away ≤ cap * (k - j) * (n - (k - j)))
    (allBound :
      away + joined + (lead - leadShare) ≤
        cap * (k + 1) * (n - (k + 1)))
    (average : joined + earned ≤ j * lead)
    (earnedBound : earned ≤ j * cap)
    (leadShareBound : leadShare ≤ cap) :
    away + joined + earned ≤ cap * k * (n - k) := by
  have scaled :
      (j + 1) * (away + joined + earned) ≤
        (j + 1) * (cap * k * (n - k)) := by
    have scaledAll :
        j * (away + joined + (lead - leadShare)) ≤
          j * (cap * (k + 1) * (n - (k + 1))) :=
      mul_le_mul_of_nonneg_left allBound (by linarith)
    have scaledShare : j * leadShare ≤ j * cap :=
      mul_le_mul_of_nonneg_left leadShareBound (by linarith)
    have scaledEarned : j * earned ≤ j * (j * cap) :=
      mul_le_mul_of_nonneg_left earnedBound (by linarith)
    nlinarith
  exact le_of_mul_le_mul_left scaled (by linarith)

/-- What a subset without the leader holds once its shares are earned: as
the members that wait move no credit, only the average of the others
counts. -/
theorem SubsetBounded.sum_add_earned_le
    {eligible members part : Finset ι} {share credit : ι → ℤ} {cap : ℤ}
    {chosen : ι}
    (bounded : SubsetBounded members cap credit)
    (inside : eligible ⊆ members)
    (below : ∀ member ∈ eligible, share member ≤ cap)
    (leader : IsLeader eligible share credit chosen)
    (partInside : part ⊆ members) (chosenOut : chosen ∉ part)
    (busy : (part ∩ eligible).Nonempty) :
    ∑ member ∈ part, credit member
        + ∑ member ∈ part ∩ eligible, share member ≤
      cap * part.card * (members.card - part.card) := by
  have split :
      ∑ member ∈ part \ eligible, credit member
        + ∑ member ∈ part ∩ eligible, credit member =
      ∑ member ∈ part, credit member := by
    rw [add_comm, ← sum_union (disjoint_sdiff_inter part eligible).symm]
    rw [union_comm, sdiff_union_inter]
  have away :=
    bounded (part \ eligible) (sdiff_subset.trans partInside)
  have extended :=
    bounded (insert chosen part)
      (insert_subset (inside leader.mem) partInside)
  rw [sum_insert chosenOut, card_insert_of_notMem chosenOut] at extended
  have joinedInside : part ∩ eligible ⊆ eligible :=
    inter_subset_right
  have average := leader_above_average leader joinedInside
  rw [sum_add_distrib] at average
  have earned := sum_share_le below joinedInside
  have cards :
      ((part \ eligible).card : ℤ) =
        part.card - (part ∩ eligible).card := by
    have total := card_sdiff_add_card_inter part eligible
    omega
  have some : 1 ≤ ((part ∩ eligible).card : ℤ) := by
    have positive := card_pos.2 busy
    omega
  rw [cards] at away
  push_cast at extended
  have all :
      ∑ member ∈ part \ eligible, credit member
          + ∑ member ∈ part ∩ eligible, credit member
          + (credit chosen + share chosen - share chosen) ≤
        cap * (part.card + 1) * (members.card - (part.card + 1)) := by
    linarith
  have step :=
    concave_step some away all average earned
      (below chosen leader.mem)
  linarith

/-- The subset bound is preserved by every turn with shares in `0..cap`. -/
theorem SubsetBounded.afterTurn
    {eligible members : Finset ι} {share credit : ι → ℤ} {cap : ℤ}
    {chosen : ι}
    (bounded : SubsetBounded members cap credit)
    (inside : eligible ⊆ members)
    (nonneg : ∀ member ∈ eligible, 0 ≤ share member)
    (below : ∀ member ∈ eligible, share member ≤ cap)
    (leader : IsLeader eligible share credit chosen) :
    SubsetBounded members cap
      (afterTurn eligible share chosen credit) := by
  intro part partInside
  rw [sum_afterTurn]
  by_cases chosenIn : chosen ∈ part
  · have earnedLe :
        ∑ member ∈ part ∩ eligible, share member ≤
          ∑ member ∈ eligible, share member :=
      sum_le_sum_of_subset_of_nonneg inter_subset_right
        fun member joined _ => nonneg member joined
    have before := bounded part partInside
    rw [if_pos chosenIn]
    linarith
  · rw [if_neg chosenIn, sub_zero]
    by_cases idle : part ∩ eligible = ∅
    · simpa [idle] using bounded part partInside
    · exact
        bounded.sum_add_earned_le inside below leader partInside chosenIn
          (nonempty_iff_ne_empty.2 idle)

omit [DecidableEq ι] in
/-- No member is ever richer than `cap * (n - 1)`. -/
theorem SubsetBounded.le
    {members : Finset ι} {cap : ℤ} {credit : ι → ℤ}
    (bounded : SubsetBounded members cap credit)
    {member : ι} (joined : member ∈ members) :
    credit member ≤ cap * (members.card - 1) := by
  simpa using bounded {member} (singleton_subset_iff.2 joined)

/-- No member is ever poorer than `-(cap * (n - 1))`, if credits sum to 0. -/
theorem SubsetBounded.ge
    {members : Finset ι} {cap : ℤ} {credit : ι → ℤ}
    (bounded : SubsetBounded members cap credit)
    (zero : ∑ member ∈ members, credit member = 0)
    {member : ι} (joined : member ∈ members) :
    -(cap * (members.card - 1)) ≤ credit member := by
  have others := bounded (members.erase member) (erase_subset _ _)
  have split := add_sum_erase members credit joined
  have card : ((members.erase member).card : ℤ) = members.card - 1 := by
    have total := card_erase_add_one joined
    omega
  rw [card] at others
  have shape :
      cap * ((members.card : ℤ) - 1)
          * (members.card - (members.card - 1)) =
        cap * (members.card - 1) := by ring
  linarith

/-! ## Constant shares -/

/--
An infinite sequence of turns in which every member is eligible, the shares
never change, and the choice depends on the credits alone.
-/
structure ConstantRun (members : Finset ι) (share : ι → ℤ) where
  credit : ℕ → ι → ℤ
  chosen : ℕ → ι
  start : credit 0 = fun _ => 0
  leader : ∀ turn,
    IsLeader members share (credit turn) (chosen turn)
  next : ∀ turn,
    credit (turn + 1) =
      afterTurn members share (chosen turn) (credit turn)
  determined : ∀ {left right},
    credit left = credit right → chosen left = chosen right

namespace ConstantRun

variable {members : Finset ι} {share : ι → ℤ}
variable (run : ConstantRun members share)

/-- Turns taken by a member in the `length` turns from `start` on. -/
def turns (first length : ℕ) (member : ι) : ℕ :=
  ((range length).filter fun offset =>
    run.chosen (first + offset) = member).card

theorem turns_succ (first length : ℕ) (member : ι) :
    run.turns first (length + 1) member =
      run.turns first length member
        + (if run.chosen (first + length) = member then 1 else 0) := by
  unfold turns
  rw [range_add_one, filter_insert]
  split
  · rw [card_insert_of_notMem (by simp)]
  · simp

/-- Credit gained over a window is share earned minus totals paid. -/
theorem credit_window
    {member : ι} (joined : member ∈ members) (first length : ℕ) :
    run.credit (first + length) member =
      run.credit first member + length * share member
        - (∑ other ∈ members, share other)
          * run.turns first length member := by
  induction length with
  | zero => simp [turns]
  | succ length inductionHypothesis =>
      rw [← Nat.add_assoc, run.next, turns_succ]
      simp only [afterTurn, joined, if_true]
      rw [inductionHypothesis]
      by_cases taken : run.chosen (first + length) = member
      · rw [if_pos taken.symm, if_pos taken]
        push_cast
        ring
      · rw [if_neg (Ne.symm taken), if_neg taken]
        push_cast
        ring

theorem credit_eq
    {member : ι} (joined : member ∈ members) (turn : ℕ) :
    run.credit turn member =
      turn * share member
        - (∑ other ∈ members, share other) * run.turns 0 turn member := by
  have window := run.credit_window joined 0 turn
  rw [Nat.zero_add] at window
  rw [window, run.start]
  ring

theorem credit_outside
    {member : ι} (out : member ∉ members) (turn : ℕ) :
    run.credit turn member = 0 := by
  induction turn with
  | zero => rw [run.start]
  | succ turn inductionHypothesis =>
      rw [run.next,
        afterTurn_excluded _ _ _ (run.leader turn).mem out]
      exact inductionHypothesis

theorem sum_credit (turn : ℕ) :
    ∑ member ∈ members, run.credit turn member = 0 := by
  induction turn with
  | zero => simp [run.start]
  | succ turn inductionHypothesis =>
      rw [run.next,
        sum_afterTurn_members share _ (Subset.refl _)
          (run.leader turn).mem]
      exact inductionHypothesis

/-- The selected member has positive credit when it is selected. -/
theorem leader_positive
    (positive : 0 < ∑ other ∈ members, share other) (turn : ℕ) :
    0 < run.credit turn (run.chosen turn) + share (run.chosen turn) := by
  by_contra notPositive
  have allSmall :
      ∑ member ∈ members,
        (run.credit turn member + share member) ≤ 0 :=
    sum_nonpos fun member joined =>
      ((run.leader turn).le member joined).trans (not_lt.1 notPositive)
  rw [sum_add_distrib, run.sum_credit turn] at allSmall
  linarith

/-- Credits stay above the negated total share. -/
theorem credit_lower
    (positive : 0 < ∑ other ∈ members, share other)
    (nonneg : ∀ member ∈ members, 0 ≤ share member)
    {member : ι} (joined : member ∈ members) (turn : ℕ) :
    -(∑ other ∈ members, share other) < run.credit turn member := by
  induction turn with
  | zero => simpa [run.start] using positive
  | succ turn inductionHypothesis =>
      rw [run.next]
      by_cases taken : member = run.chosen turn
      · have rich := run.leader_positive positive turn
        rw [taken,
          afterTurn_chosen _ _ _ (run.leader turn).mem]
        linarith
      · rw [afterTurn_waiting _ _ _ taken joined]
        have earned := nonneg member joined
        linarith

theorem sum_turns (first length : ℕ) :
    ∑ member ∈ members, run.turns first length member = length := by
  induction length with
  | zero => simp [turns]
  | succ length inductionHypothesis =>
      simp only [turns_succ, sum_add_distrib, inductionHypothesis]
      rw [sum_ite_eq, if_pos (run.leader (first + length)).mem]

/-- After a full round every member has taken exactly its share of turns. -/
theorem turns_round
    {total : ℕ} (totalEq : ∑ other ∈ members, share other = total)
    (positive : 0 < total)
    (nonneg : ∀ member ∈ members, 0 ≤ share member)
    {member : ι} (joined : member ∈ members) :
    (run.turns 0 total member : ℤ) = share member := by
  have atMost :
      ∀ other ∈ members,
        (run.turns 0 total other : ℤ) ≤ share other := by
    intro other mem
    have lower :=
      run.credit_lower (by rw [totalEq]; exact_mod_cast positive)
        nonneg mem total
    rw [run.credit_eq mem, totalEq] at lower
    have factored :
        (total : ℤ) * run.turns 0 total other <
          total * (share other + 1) := by linarith
    have bounded :=
      lt_of_mul_lt_mul_left factored (Int.natCast_nonneg _)
    omega
  have sums :
      ∑ other ∈ members, (run.turns 0 total other : ℤ) =
        ∑ other ∈ members, share other := by
    rw [totalEq, ← Nat.cast_sum, run.sum_turns 0 total]
  exact (sum_eq_sum_iff_of_le atMost).1 sums member joined

/-- A full round returns all credits to zero. -/
theorem credit_round
    {total : ℕ} (totalEq : ∑ other ∈ members, share other = total)
    (positive : 0 < total)
    (nonneg : ∀ member ∈ members, 0 ≤ share member) :
    run.credit total = run.credit 0 := by
  rw [run.start]
  funext member
  by_cases joined : member ∈ members
  · rw [run.credit_eq joined, totalEq,
      run.turns_round totalEq positive nonneg joined]
    ring
  · exact run.credit_outside joined total

/-- The credits are periodic with the total share as a period. -/
theorem credit_periodic
    {total : ℕ} (totalEq : ∑ other ∈ members, share other = total)
    (positive : 0 < total)
    (nonneg : ∀ member ∈ members, 0 ≤ share member) (turn : ℕ) :
    run.credit (turn + total) = run.credit turn := by
  induction turn with
  | zero =>
      rw [Nat.zero_add]
      exact run.credit_round totalEq positive nonneg
  | succ turn inductionHypothesis =>
      rw [Nat.add_right_comm, run.next, run.next,
        inductionHypothesis, run.determined inductionHypothesis]

theorem credit_multiple
    {total : ℕ} (totalEq : ∑ other ∈ members, share other = total)
    (positive : 0 < total)
    (nonneg : ∀ member ∈ members, 0 ≤ share member) (rounds : ℕ) :
    run.credit (rounds * total) = fun _ => 0 := by
  induction rounds with
  | zero => rw [Nat.zero_mul, run.start]
  | succ rounds inductionHypothesis =>
      rw [Nat.succ_mul,
        run.credit_periodic totalEq positive nonneg,
        inductionHypothesis]

/-- Every window of one full round is shared out exactly. -/
theorem turns_window
    {total : ℕ} (totalEq : ∑ other ∈ members, share other = total)
    (positive : 0 < total)
    (nonneg : ∀ member ∈ members, 0 ≤ share member)
    {member : ι} (joined : member ∈ members) (first : ℕ) :
    (run.turns first total member : ℤ) = share member := by
  have window := run.credit_window joined first total
  rw [run.credit_periodic totalEq positive nonneg, totalEq] at window
  have factored :
      (total : ℤ) * run.turns first total member =
        total * share member := by linarith
  exact mul_left_cancel₀ (by exact_mod_cast positive.ne') factored

/-- No member is ever a full turn ahead of its proportional share. -/
theorem turns_lt
    {total : ℕ} (totalEq : ∑ other ∈ members, share other = total)
    (positive : 0 < total)
    (nonneg : ∀ member ∈ members, 0 ≤ share member)
    {member : ι} (joined : member ∈ members) (turn : ℕ) :
    (run.turns 0 turn member : ℤ) * total <
      turn * share member + total := by
  have lower :=
    run.credit_lower (by rw [totalEq]; exact_mod_cast positive)
      nonneg joined turn
  rw [run.credit_eq joined, totalEq] at lower
  linarith

end ConstantRun

end ByteHub.Library.SmoothCredit
