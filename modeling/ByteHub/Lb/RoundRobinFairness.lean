import ByteHub.Lb.RoundRobinCredit

/-!
# Exact fairness without health checks

Without a health configuration every position is eligible in every call and
effective weights never leave the configured ones, so the calls of `next`
form a constant run of the credit game.
-/

namespace ByteHub.Lb.RoundRobin

open Finset
open ByteHub.Library.SmoothCredit

/-! ## Runs of `next` -/

/-- The balancer after a number of `next` calls. -/
def afterNexts (rr : RoundRobin) (clock : ℕ → UInt32) : ℕ → RoundRobin
  | 0 => rr
  | calls + 1 => ((afterNexts rr clock calls).next (clock calls)).2

/-- The answer of a `next` call, counted from zero. -/
def served (rr : RoundRobin) (clock : ℕ → UInt32) (call : ℕ) :
    Option Token :=
  ((afterNexts rr clock call).next (clock call)).1

/-- How often a token is answered in `length` calls from `first` on. -/
def servedCount
    (rr : RoundRobin) (clock : ℕ → UInt32)
    (first length : ℕ) (token : Token) : ℕ :=
  ((range length).filter fun offset =>
    served rr clock (first + offset) = some token).card

section Fairness

variable {weights : Weights}

theorem shape_afterNexts
    {rr : RoundRobin} {config : Option HealthCheckConfig}
    (shape : Shape weights config rr) (two : 2 ≤ weights.count)
    (clock : ℕ → UInt32) (calls : ℕ) :
    Shape weights config (afterNexts rr clock calls) := by
  induction calls with
  | zero => exact shape
  | succ calls inductionHypothesis =>
      exact inductionHypothesis.perform two .next (clock calls)

theorem balanced_afterNexts
    {rr : RoundRobin} {config : Option HealthCheckConfig}
    (shape : Shape weights config rr) (balanced : Balanced weights rr)
    (two : 2 ≤ weights.count) (fits : FitsI16 weights)
    (clock : ℕ → UInt32) (calls : ℕ) :
    Balanced weights (afterNexts rr clock calls) := by
  induction calls with
  | zero => exact balanced
  | succ calls inductionHypothesis =>
      exact inductionHypothesis.perform
        (shape_afterNexts shape two clock calls) two fits .next
        (clock calls)

theorem rested_next
    {rr : RoundRobin} (unchecked : rr.config = none)
    (rested : Rested rr) (many : ¬ rr.total ≤ 1) (now : UInt32) :
    Rested (rr.next now).2 := by
  have kept :
      ∀ p ∈ rr.nodes.map (visited rr.config now),
        p.ew = p.weight ∧ p.fails = 0 ∧ p.checked = 0 := by
    intro q member
    rcases List.mem_map.1 member with ⟨p, old, rfl⟩
    rw [unchecked]
    exact rested p old
  rcases next_cases now rr many with
    ⟨position, _, _, _, _, _, _, nodes⟩ | ⟨_, _, same⟩
  · rw [nodes]
    intro q member
    rcases List.mem_iff_getElem?.1 member with ⟨other, there⟩
    rcases getElem?_modify_eq_some.1 there with ⟨p, here, rfl⟩
    have restedP := kept p (List.mem_of_getElem? here)
    split
    · refine ⟨?_, restedP.2.1, restedP.2.2⟩
      simp [Node.settled, restedP.1]
    · exact restedP
  · rw [same]
    exact rested

/-- The earliest leader of the game is unique. -/
theorem leader_unique
    {members : Finset ℕ} {share credit : ℕ → ℤ} {left right : ℕ}
    (leftLeads : IsLeader members share credit left)
    (leftFirst : ∀ other ∈ members, other < left →
      credit other + share other < credit left + share left)
    (rightLeads : IsLeader members share credit right)
    (rightFirst : ∀ other ∈ members, other < right →
      credit other + share other < credit right + share right) :
    left = right := by
  rcases Nat.lt_trichotomy left right with less | equal | more
  · have below := rightFirst left leftLeads.mem less
    have above := leftLeads.le right rightLeads.mem
    omega
  · exact equal
  · have below := leftFirst right rightLeads.mem more
    have above := rightLeads.le left leftLeads.mem
    omega

theorem sum_at_eq_sum (weights : Weights) :
    ∑ position ∈ range weights.count, weights.at position =
      weights.sum := by
  have general :
      ∀ values : List UInt8,
        ∑ position ∈ range values.length,
            (values.getD position 0).toNat =
          (values.map UInt8.toNat).sum := by
    intro values
    induction values with
    | nil => rfl
    | cons head tail inductionHypothesis =>
        rw [List.length_cons, sum_range_succ']
        simp only [List.getD_cons_succ, List.getD_cons_zero,
          List.map_cons, List.sum_cons]
        rw [inductionHypothesis, add_comm]
  exact general weights.values

theorem cap_le_sum
    (weights : Weights) (positive : 0 < weights.sum) :
    weights.cap ≤ weights.sum := by
  have general :
      ∀ values : List ℕ, values.foldr max 1 ≤ max 1 values.sum := by
    intro values
    induction values with
    | nil => exact le_max_left _ _
    | cons head tail inductionHypothesis =>
        rw [List.foldr_cons, List.sum_cons]
        omega
  have bound := general (weights.values.map UInt8.toNat)
  have atLeast : 1 ≤ weights.sum := positive
  unfold Weights.cap
  unfold Weights.sum at *
  omega

theorem rested_afterNexts
    (two : 2 ≤ weights.count) (clock : ℕ → UInt32) (calls : ℕ) :
    Rested (afterNexts (new weights none) clock calls) := by
  induction calls with
  | zero => exact rested_new weights none
  | succ calls inductionHypothesis =>
      have shape :=
        shape_afterNexts (shape_new weights none two) two clock calls
      exact rested_next shape.config_eq inductionHypothesis
        (shape.many two) (clock calls)

/-- Every call selects the earliest leader among all positions. -/
theorem unchecked_turn
    (two : 2 ≤ weights.count) (fits : FitsI16 weights)
    (clock : ℕ → UInt32) (calls : ℕ) :
    ∃ position,
      IsLeader (range weights.count)
        (fun position => (weights.at position : ℤ))
        (creditAt (afterNexts (new weights none) clock calls).nodes)
        position ∧
      (∀ other ∈ range weights.count, other < position →
        creditAt (afterNexts (new weights none) clock calls).nodes other
            + weights.at other <
          creditAt (afterNexts (new weights none) clock calls).nodes
              position + weights.at position) ∧
      served (new weights none) clock calls =
        some (Token.ofPosition position) ∧
      creditAt (afterNexts (new weights none) clock (calls + 1)).nodes =
        afterTurn (range weights.count)
          (fun position => (weights.at position : ℤ)) position
          (creditAt (afterNexts (new weights none) clock calls).nodes) := by
  have shape :=
    shape_afterNexts (shape_new weights none two) two clock calls
  have balanced :=
    balanced_afterNexts (shape_new weights none two)
      (balanced_new weights none two) two fits clock calls
  have share := shareAt_rested shape (rested_afterNexts two clock calls)
  have members :
      eligible none (clock calls)
          (afterNexts (new weights none) clock calls).nodes =
        range weights.count := by
    rw [eligible_of_passes fun _ => rfl, shape.length_eq]
  have turn := next_turn shape balanced two fits (clock calls)
  rw [members, share] at turn
  rcases turn with ⟨position, leads, first, token, credit, _⟩ | ⟨nobody, _⟩
  · exact ⟨position, leads, first, token, credit⟩
  · have inside : 0 ∈ range weights.count :=
      mem_range.2 (by omega)
    rw [nobody] at inside
    exact (notMem_empty 0 inside).elim

/-- The calls of `next` as a constant run of the credit game. -/
noncomputable def creditRun
    (two : 2 ≤ weights.count) (fits : FitsI16 weights)
    (clock : ℕ → UInt32) :
    ConstantRun (range weights.count)
      (fun position => (weights.at position : ℤ)) where
  credit calls :=
    creditAt (afterNexts (new weights none) clock calls).nodes
  chosen calls := (unchecked_turn two fits clock calls).choose
  start := creditAt_new weights none two
  leader calls := (unchecked_turn two fits clock calls).choose_spec.1
  next calls := (unchecked_turn two fits clock calls).choose_spec.2.2.2
  determined := by
    intro left right equal
    have leftSpec := (unchecked_turn two fits clock left).choose_spec
    have rightSpec := (unchecked_turn two fits clock right).choose_spec
    exact leader_unique leftSpec.1 leftSpec.2.1
      (by rw [equal]; exact rightSpec.1)
      (by rw [equal]; exact rightSpec.2.1)

theorem served_eq
    (two : 2 ≤ weights.count) (fits : FitsI16 weights)
    (clock : ℕ → UInt32) (calls : ℕ) :
    served (new weights none) clock calls =
      some (Token.ofPosition
        ((creditRun two fits clock).chosen calls)) :=
  (unchecked_turn two fits clock calls).choose_spec.2.2.1

theorem servedCount_eq_turns
    (two : 2 ≤ weights.count) (fits : FitsI16 weights)
    (clock : ℕ → UInt32) (first length : ℕ) {position : ℕ}
    (inside : position < weights.count) :
    servedCount (new weights none) clock first length
        (Token.ofPosition position) =
      (creditRun two fits clock).turns first length position := by
  unfold servedCount ConstantRun.turns
  congr 1
  apply filter_congr
  intro offset _
  have chosenInside :=
    mem_range.1 ((creditRun two fits clock).leader (first + offset)).mem
  have bound := weights.bounded
  unfold Weights.count at inside chosenInside
  rw [served_eq two fits, Option.some.injEq,
    Token.ofPosition_inj (by omega) (by omega)]

/-- A rested balancer with zero credits is the freshly built one. -/
theorem nodes_eq_of_rested
    {rr : RoundRobin} (two : 2 ≤ weights.count)
    (shape : Shape weights none rr) (rested : Rested rr)
    (zero : creditAt rr.nodes = fun _ => 0) :
    rr.nodes = (new weights none).nodes := by
  have freshShape := shape_new weights none two
  have freshRested := rested_new weights none
  apply List.ext_getElem?
  intro position
  by_cases inside : position < weights.count
  · rcases shape.exists_node inside with ⟨p, here⟩
    rcases freshShape.exists_node inside with ⟨q, there⟩
    have pRested := rested p (List.mem_of_getElem? here)
    have qRested := freshRested q (List.mem_of_getElem? there)
    have pCredit : p.cw.toInt = 0 := by
      have credit : creditAt rr.nodes position = p.cw.toInt :=
        valueAt_of_some here
      rw [← credit, zero]
    have qCredit : q.cw = 0 := by
      have several : ¬ weights.count ≤ 1 := by omega
      simp only [new, several, if_false, List.getElem?_mapIdx] at there
      cases found : weights.values[position]? with
      | none =>
          rw [found] at there
          cases there
      | some weight =>
          rw [found] at there
          cases there
          rfl
    have weight : p.weight = q.weight := by
      apply UInt8.toNat_inj.1
      rw [shape.weight_eq here, freshShape.weight_eq there]
    have token : p.token = q.token := by
      rw [shape.token_eq here, freshShape.token_eq there]
    rw [here, there, Option.some.injEq]
    have pZero : p.cw = 0 := Int16.toInt_inj.1 pCredit
    cases p
    cases q
    simp_all
  · rw [List.getElem?_eq_none, List.getElem?_eq_none]
    · rw [freshShape.length_eq]
      exact not_lt.1 inside
    · rw [shape.length_eq]
      exact not_lt.1 inside

/--
Smooth round robin is exactly fair.  In every window of as many calls as the
weights sum up to, each token is answered exactly as often as its weight
says; after any number of calls no token is a full turn ahead of its share;
and after every full round the nodes are the initial ones.
-/
theorem next_exactly_fair
    (weights : Weights) (two : 2 ≤ weights.count)
    (positive : 0 < weights.sum)
    (small : weights.count * weights.sum ≤ 32767)
    (clock : ℕ → UInt32) :
    (∀ first position, position < weights.count →
      servedCount (new weights none) clock first weights.sum
          (Token.ofPosition position) =
        weights.at position) ∧
    (∀ calls position, position < weights.count →
      servedCount (new weights none) clock 0 calls
            (Token.ofPosition position) * weights.sum <
        calls * weights.at position + weights.sum) ∧
    ∀ rounds,
      (afterNexts (new weights none) clock
          (rounds * weights.sum)).nodes =
        (new weights none).nodes := by
  have fits : FitsI16 weights :=
    (Nat.mul_le_mul_left _ (cap_le_sum weights positive)).trans small
  have total :
      ∑ position ∈ range weights.count, (weights.at position : ℤ) =
        weights.sum := by
    rw [← Nat.cast_sum, sum_at_eq_sum]
  have nonneg :
      ∀ position ∈ range weights.count,
        (0 : ℤ) ≤ weights.at position :=
    fun position _ => Int.natCast_nonneg _
  refine ⟨?_, ?_, ?_⟩
  · intro first position inside
    rw [servedCount_eq_turns two fits clock first _ inside]
    exact_mod_cast
      (creditRun two fits clock).turns_window total positive nonneg
        (mem_range.2 inside) first
  · intro calls position inside
    rw [servedCount_eq_turns two fits clock 0 _ inside]
    exact_mod_cast
      (creditRun two fits clock).turns_lt total positive nonneg
        (mem_range.2 inside) calls
  · intro rounds
    exact nodes_eq_of_rested two
      (shape_afterNexts (shape_new weights none two) two clock _)
      (rested_afterNexts two clock _)
      ((creditRun two fits clock).credit_multiple total positive
        nonneg rounds)

/-- Fairness at the weights `[5, 1, 1]`. -/
theorem next_exactly_fair_five_one_one :
    servedCount (new ⟨[5, 1, 1], by decide⟩ none) (fun _ => 0) 3 7
      (Token.ofPosition 0) = 5 :=
  (next_exactly_fair ⟨[5, 1, 1], by decide⟩ (by decide) (by decide)
    (by decide) (fun _ => 0)).1 3 0 (by decide)

end Fairness

end ByteHub.Lb.RoundRobin
