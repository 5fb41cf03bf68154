import ByteHub.Lb.RoundRobinShape
import ByteHub.Library.SmoothCredit

/-!
# Credits of the round robin balancer

The node list is read as a credit game between positions: the credit of a
position is its node's `cw`, its share is the node's `ew`, and the eligible
positions are those that pass the health gate.  As long as the number of
peers times the largest weight fits an `i16`, no operation overflows and one
`next` is one turn of the game, whatever happened to the peers' health
before.
-/

namespace ByteHub.Lb.RoundRobin

open Finset
open ByteHub.Library.SmoothCredit

/-! ## The credit game -/

/-- A quantity of the node at a position, zero past the end. -/
def valueAt (value : Node → ℤ) (nodes : List Node) (position : ℕ) : ℤ :=
  (nodes[position]?).elim 0 value

/-- The credit of a position. -/
def creditAt : List Node → ℕ → ℤ :=
  valueAt fun p => p.cw.toInt

/-- The share of a position. -/
def shareAt : List Node → ℕ → ℤ :=
  valueAt fun p => p.ew.toNat

/-- The positions whose nodes pass the health gate. -/
def eligible
    (config : Option HealthCheckConfig) (now : UInt32)
    (nodes : List Node) : Finset ℕ :=
  (range nodes.length).filter fun position =>
    (nodes[position]?).any fun p => (healthGate config now p).isSome

theorem valueAt_of_some
    {value : Node → ℤ} {nodes : List Node} {position : ℕ} {p : Node}
    (here : nodes[position]? = some p) :
    valueAt value nodes position = value p := by
  rw [valueAt, here, Option.elim_some]

theorem mem_eligible
    {config : Option HealthCheckConfig} {now : UInt32}
    {nodes : List Node} {position : ℕ} :
    position ∈ eligible config now nodes ↔
      ∃ p q, nodes[position]? = some p ∧
        healthGate config now p = some q := by
  rw [eligible, mem_filter, mem_range]
  constructor
  · rintro ⟨inside, passes⟩
    rw [List.getElem?_eq_getElem inside, Option.any_some,
      Option.isSome_iff_exists] at passes
    rcases passes with ⟨q, passed⟩
    exact ⟨_, q, List.getElem?_eq_getElem inside, passed⟩
  · rintro ⟨p, q, here, passed⟩
    refine ⟨(List.getElem?_eq_some_iff.1 here).1, ?_⟩
    rw [here, Option.any_some, passed]
    rfl

theorem eligible_subset
    (config : Option HealthCheckConfig) (now : UInt32)
    (nodes : List Node) :
    eligible config now nodes ⊆ range nodes.length :=
  filter_subset _ _

theorem eligible_of_passes
    {config : Option HealthCheckConfig} {now : UInt32}
    (passes : ∀ p, (healthGate config now p).isSome)
    (nodes : List Node) :
    eligible config now nodes = range nodes.length := by
  apply Subset.antisymm (eligible_subset config now nodes)
  intro position inside
  have within := mem_range.1 inside
  rcases Option.isSome_iff_exists.1 (passes nodes[position]) with
    ⟨q, passed⟩
  exact mem_eligible.2
    ⟨_, q, List.getElem?_eq_getElem within, passed⟩

/-- A sum over the list is the sum over its positions. -/
theorem sum_map_eq_sum_valueAt (value : Node → ℤ) (nodes : List Node) :
    (nodes.map value).sum =
      ∑ position ∈ range nodes.length, valueAt value nodes position := by
  induction nodes using List.reverseRecOn with
  | nil => rfl
  | append_singleton nodes p inductionHypothesis =>
      rw [List.map_append, List.sum_append, List.length_append,
        List.length_singleton, sum_range_succ, inductionHypothesis]
      congr 1
      · apply sum_congr rfl
        intro position inside
        rw [valueAt, valueAt,
          List.getElem?_append_left (mem_range.1 inside)]
      · simp [valueAt]

/-- The loop's total is the share of all eligible positions. -/
theorem sum_earned
    (config : Option HealthCheckConfig) (now : UInt32)
    (nodes : List Node) :
    (nodes.map (earned config now)).sum =
      ∑ position ∈ eligible config now nodes, shareAt nodes position := by
  rw [sum_map_eq_sum_valueAt, eligible, sum_filter]
  apply sum_congr rfl
  intro position inside
  rcases List.getElem?_eq_some_iff.2
      ⟨mem_range.1 inside, rfl⟩ with here
  rw [shareAt, valueAt_of_some here, valueAt_of_some here, here,
    Option.any_some]
  unfold earned
  cases gate : healthGate config now _ with
  | none => rfl
  | some q => simp [healthGate_ew gate]

/-- Credits sum to zero and obey the subset bound of the credit game. -/
structure Balanced (weights : Weights) (rr : RoundRobin) : Prop where
  bounded :
    SubsetBounded (range weights.count) weights.cap (creditAt rr.nodes)
  zero :
    ∑ position ∈ range weights.count, creditAt rr.nodes position = 0

/-- The number of peers times the largest weight fits an `i16`. -/
def FitsI16 (weights : Weights) : Prop :=
  weights.count * weights.cap ≤ 32767

instance (weights : Weights) : Decidable (FitsI16 weights) :=
  Nat.decLe _ _

section Turn

variable {weights : Weights} {config : Option HealthCheckConfig}
variable {rr : RoundRobin}

theorem Shape.share_le
    (shape : Shape weights config rr) (position : ℕ) :
    shareAt rr.nodes position ≤ weights.cap := by
  unfold shareAt valueAt
  cases here : rr.nodes[position]? with
  | none => simp
  | some p =>
      rw [Option.elim_some]
      exact_mod_cast shape.ew_le here

/-- The shares of rested nodes are the configured weights. -/
theorem shareAt_rested
    (shape : Shape weights config rr) (rested : Rested rr) :
    shareAt rr.nodes = fun position => (weights.at position : ℤ) := by
  funext position
  by_cases inside : position < weights.count
  · rcases shape.exists_node inside with ⟨p, here⟩
    rw [shareAt, valueAt_of_some here,
      (rested p (List.mem_of_getElem? here)).1, shape.weight_eq here]
  · have past : rr.nodes.length ≤ position := by
      rw [shape.length_eq]
      exact not_lt.1 inside
    rw [shareAt, valueAt, List.getElem?_eq_none past,
      weights.at_outside (not_lt.1 inside)]
    rfl

theorem share_nonneg (nodes : List Node) (position : ℕ) :
    0 ≤ shareAt nodes position := by
  unfold shareAt valueAt
  cases nodes[position]? <;> simp

theorem Balanced.credit_le
    (balanced : Balanced weights rr) {position : ℕ}
    (inside : position < weights.count) :
    creditAt rr.nodes position ≤ weights.cap * (weights.count - 1) := by
  simpa using balanced.bounded.le (mem_range.2 inside)

theorem Balanced.credit_ge
    (balanced : Balanced weights rr) {position : ℕ}
    (inside : position < weights.count) :
    -(weights.cap * (weights.count - 1)) ≤
      creditAt rr.nodes position := by
  simpa using
    balanced.bounded.ge balanced.zero (mem_range.2 inside)

theorem FitsI16.product
    (fits : FitsI16 weights) :
    (weights.cap : ℤ) * weights.count ≤ 32767 := by
  rw [mul_comm]
  exact_mod_cast fits

/-- Earning a share never overflows. -/
theorem credited_toInt
    (shape : Shape weights config rr) (balanced : Balanced weights rr)
    (fits : FitsI16 weights) {now : UInt32}
    {position : ℕ} {p q : Node}
    (here : rr.nodes[position]? = some p)
    (passed : healthGate config now p = some q) :
    q.credited.cw.toInt =
      creditAt rr.nodes position + shareAt rr.nodes position := by
  have inside := shape.inRange here
  have upper := balanced.credit_le inside
  have lower := balanced.credit_ge inside
  have shareUpper := shape.share_le position
  have shareLower := share_nonneg rr.nodes position
  have product := fits.product
  have capPos : (0 : ℤ) ≤ weights.cap := Int.natCast_nonneg _
  change (q.cw + q.share).toInt = _
  rw [Int16.toInt_add, share_toInt, healthGate_ew passed,
    healthGate_cw passed]
  have credit : creditAt rr.nodes position = p.cw.toInt :=
    valueAt_of_some here
  have share : shareAt rr.nodes position = p.ew.toNat :=
    valueAt_of_some here
  rw [credit] at upper lower ⊢
  rw [share] at shareUpper shareLower ⊢
  apply Int.bmod_eq_of_le <;> norm_num <;> linarith

/-- The loop's total never overflows. -/
theorem scanAll_tw_toInt
    (shape : Shape weights config rr) (fits : FitsI16 weights)
    (now : UInt32) :
    (scanAll config now rr.nodes).tw.toInt =
      ∑ position ∈ eligible config now rr.nodes,
        shareAt rr.nodes position := by
  have product := fits.product
  have cards :
      (eligible config now rr.nodes).card ≤ weights.count := by
    have inside := card_le_card (eligible_subset config now rr.nodes)
    rwa [card_range, shape.length_eq] at inside
  have upper :=
    sum_share_le
      (fun position _ => shape.share_le position)
      (Subset.refl (eligible config now rr.nodes))
  have lower :
      0 ≤ ∑ position ∈ eligible config now rr.nodes,
        shareAt rr.nodes position :=
    sum_nonneg fun position _ => share_nonneg rr.nodes position
  have scaled :
      ((eligible config now rr.nodes).card : ℤ) * weights.cap ≤
        weights.count * weights.cap :=
    mul_le_mul_of_nonneg_right (by exact_mod_cast cards)
      (Int.natCast_nonneg _)
  rw [scanAll_tw, sum_earned]
  apply Int.bmod_eq_of_le <;> norm_num <;> linarith

/-- The best node of the loop leads the credit game. -/
theorem leader_of_best
    (shape : Shape weights config rr) (balanced : Balanced weights rr)
    (fits : FitsI16 weights) {now : UInt32}
    {position : ℕ} {p q : Node}
    (here : rr.nodes[position]? = some p)
    (passed : healthGate config now p = some q)
    (best : IsBest config now rr.nodes
      (some (position, q.credited.cw))) :
    IsLeader (eligible config now rr.nodes) (shareAt rr.nodes)
        (creditAt rr.nodes) position ∧
      ∀ other ∈ eligible config now rr.nodes, other < position →
        creditAt rr.nodes other + shareAt rr.nodes other <
          creditAt rr.nodes position + shareAt rr.nodes position := by
  have chosen := credited_toInt shape balanced fits here passed
  rcases best with ⟨_, _, _, _, _, maximal⟩
  constructor
  · refine ⟨mem_eligible.2 ⟨p, q, here, passed⟩, ?_⟩
    intro other joined
    rcases mem_eligible.1 joined with ⟨r, s, there, rPassed⟩
    have below := (maximal other r s there rPassed).1
    rw [Int16.le_iff_toInt_le, chosen,
      credited_toInt shape balanced fits there rPassed] at below
    exact below
  · intro other joined earlier
    rcases mem_eligible.1 joined with ⟨r, s, there, rPassed⟩
    have below := (maximal other r s there rPassed).2 earlier
    rw [Int16.lt_iff_toInt_lt, chosen,
      credited_toInt shape balanced fits there rPassed] at below
    exact below

section Turn

variable {now : UInt32} {position : ℕ}

/-- A position that fails the gate, or is past the nodes, is left as it
was. -/
theorem creditAt_settled_of_out
    (leads : position ∈ eligible config now rr.nodes) {other : ℕ}
    (out : other ∉ eligible config now rr.nodes) (total : Int16) :
    creditAt
        ((rr.nodes.map (visited config now)).modify position
          (Node.settled total)) other =
      creditAt rr.nodes other := by
  have waits : position ≠ other := by
    rintro rfl
    exact out leads
  cases there : rr.nodes[other]? with
  | none => simp [creditAt, valueAt, List.getElem?_modify, there]
  | some r =>
      cases gate : healthGate config now r with
      | none => simp [creditAt, valueAt, there, visited, gate, waits]
      | some s => exact (out (mem_eligible.2 ⟨r, s, there, gate⟩)).elim

/-- The winner pays what the loop has counted, without overflow. -/
theorem creditAt_settled_winner
    (shape : Shape weights config rr) (balanced : Balanced weights rr)
    (fits : FitsI16 weights)
    (leads : position ∈ eligible config now rr.nodes)
    (lower : -32768 ≤
      afterTurn (eligible config now rr.nodes) (shareAt rr.nodes)
        position (creditAt rr.nodes) position) :
    creditAt
        ((rr.nodes.map (visited config now)).modify position
          (Node.settled (scanAll config now rr.nodes).tw)) position =
      afterTurn (eligible config now rr.nodes) (shareAt rr.nodes)
        position (creditAt rr.nodes) position := by
  rcases mem_eligible.1 leads with ⟨r, s, there, gate⟩
  rw [afterTurn_chosen _ _ _ leads] at lower ⊢
  have paid :
      creditAt
          ((rr.nodes.map (visited config now)).modify position
            (Node.settled (scanAll config now rr.nodes).tw)) position =
        (s.credited.cw - (scanAll config now rr.nodes).tw).toInt := by
    simp [creditAt, valueAt, there, visited, gate, Node.settled]
  have small := shape.share_le position
  have upper := balanced.credit_le (shape.inRange there)
  have product := fits.product
  have nonneg :
      0 ≤ ∑ position ∈ eligible config now rr.nodes,
        shareAt rr.nodes position :=
    sum_nonneg fun position _ => share_nonneg rr.nodes position
  rw [paid, Int16.toInt_sub, scanAll_tw_toInt shape fits now,
    credited_toInt shape balanced fits there gate]
  apply Int.bmod_eq_of_le <;> norm_num <;> linarith

/-- Credits after the winner has paid are those of one turn of the game. -/
theorem credit_after_turn
    (shape : Shape weights config rr) (balanced : Balanced weights rr)
    (fits : FitsI16 weights)
    (leader : IsLeader (eligible config now rr.nodes)
      (shareAt rr.nodes) (creditAt rr.nodes) position)
    (lower : -32768 ≤
      afterTurn (eligible config now rr.nodes) (shareAt rr.nodes)
        position (creditAt rr.nodes) position) :
    creditAt
        ((rr.nodes.map (visited config now)).modify position
          (Node.settled (scanAll config now rr.nodes).tw)) =
      afterTurn (eligible config now rr.nodes) (shareAt rr.nodes)
        position (creditAt rr.nodes) := by
  funext other
  by_cases joined : other ∈ eligible config now rr.nodes
  · by_cases won : other = position
    · subst won
      exact creditAt_settled_winner shape balanced fits joined lower
    · rcases mem_eligible.1 joined with ⟨r, s, there, gate⟩
      rw [afterTurn_waiting _ _ _ won joined,
        ← credited_toInt shape balanced fits there gate]
      simp [creditAt, valueAt, there, visited, gate, Ne.symm won]
  · rw [afterTurn_excluded _ _ _ leader.mem joined]
    exact creditAt_settled_of_out leader.mem joined _

end Turn

theorem Shape.eligible_subset
    (shape : Shape weights config rr) (now : UInt32) :
    eligible config now rr.nodes ⊆ range weights.count := by
  rw [← shape.length_eq]
  exact RoundRobin.eligible_subset config now rr.nodes

/-- A turn keeps the subset bound and the sum of the credits, and so no
position falls below the lowest credit. -/
theorem Balanced.afterTurn
    (balanced : Balanced weights rr) (shape : Shape weights config rr)
    {now : UInt32} {position : ℕ}
    (leader : IsLeader (eligible config now rr.nodes)
      (shareAt rr.nodes) (creditAt rr.nodes) position) :
    SubsetBounded (range weights.count) weights.cap
        (afterTurn (eligible config now rr.nodes) (shareAt rr.nodes)
          position (creditAt rr.nodes)) ∧
      ∑ other ∈ range weights.count,
          afterTurn (eligible config now rr.nodes) (shareAt rr.nodes)
            position (creditAt rr.nodes) other = 0 ∧
      ∀ other < weights.count,
        -(weights.cap * (weights.count - 1)) ≤
          afterTurn (eligible config now rr.nodes) (shareAt rr.nodes)
            position (creditAt rr.nodes) other := by
  have members := shape.eligible_subset now
  have bounded :=
    balanced.bounded.afterTurn members
      (fun position _ => share_nonneg rr.nodes position)
      (fun position _ => shape.share_le position) leader
  have zero :=
    sum_afterTurn_members (shareAt rr.nodes) (creditAt rr.nodes)
      members leader.mem
  rw [balanced.zero] at zero
  refine ⟨bounded, zero, ?_⟩
  intro other inside
  have lowest := bounded.ge zero (mem_range.2 inside)
  rwa [card_range] at lowest

/-- One `next` is one turn of the credit game, or finds nobody eligible. -/
theorem next_turn
    (shape : Shape weights config rr) (balanced : Balanced weights rr)
    (two : 2 ≤ weights.count) (fits : FitsI16 weights)
    (now : UInt32) :
    (∃ position,
      IsLeader (eligible config now rr.nodes) (shareAt rr.nodes)
        (creditAt rr.nodes) position ∧
      (∀ other ∈ eligible config now rr.nodes, other < position →
        creditAt rr.nodes other + shareAt rr.nodes other <
          creditAt rr.nodes position + shareAt rr.nodes position) ∧
      (rr.next now).1 = some (Token.ofPosition position) ∧
      creditAt (rr.next now).2.nodes =
        afterTurn (eligible config now rr.nodes) (shareAt rr.nodes)
          position (creditAt rr.nodes) ∧
      Balanced weights (rr.next now).2) ∨
    (eligible config now rr.nodes = ∅ ∧ (rr.next now).2 = rr) := by
  rcases next_cases now rr (shape.many two) with
    ⟨position, p, q, here, passed, best, token, nodes⟩ |
      ⟨nobody, _, same⟩
  · left
    rw [shape.config_eq] at passed best nodes
    have leads := leader_of_best shape balanced fits here passed best
    rcases balanced.afterTurn shape leads.1 with
      ⟨bounded, zero, lowestCredit⟩
    have lowest := lowestCredit position (shape.inRange here)
    have product := fits.product
    have capPos : (0 : ℤ) ≤ weights.cap := Int.natCast_nonneg _
    have after :=
      credit_after_turn shape balanced fits leads.1 (by linarith)
    refine ⟨position, leads.1, leads.2, ?_, ?_, ?_⟩
    · rw [token, shape.token_eq here]
    · rw [nodes]
      exact after
    · constructor
      · rw [nodes, after]
        exact bounded
      · rw [nodes, after]
        exact zero
  · right
    rw [shape.config_eq] at nobody
    refine ⟨?_, same⟩
    rw [eq_empty_iff_forall_notMem]
    intro position joined
    rcases mem_eligible.1 joined with ⟨p, q, here, passed⟩
    rw [nobody p (List.mem_of_getElem? here)] at passed
    cases passed

end Turn

/-! ## Credits over runs -/

section Runs

variable {weights : Weights} {config : Option HealthCheckConfig}
variable {rr : RoundRobin}

/-- A fresh balancer has no credit anywhere. -/
theorem creditAt_new
    (weights : Weights) (config : Option HealthCheckConfig)
    (two : 2 ≤ weights.count) :
    creditAt (new weights config).nodes = fun _ => 0 := by
  funext position
  have several : ¬ weights.count ≤ 1 := by omega
  unfold creditAt valueAt
  simp only [new, several, if_false, List.getElem?_mapIdx]
  cases weights.values[position]? <;> rfl

theorem balanced_new
    (weights : Weights) (config : Option HealthCheckConfig)
    (two : 2 ≤ weights.count) : Balanced weights (new weights config) := by
  constructor
  · rw [creditAt_new weights config two]
    exact subsetBounded_zero _ (Int.natCast_nonneg _)
  · rw [creditAt_new weights config two]
    exact sum_const_zero

/-- Health reports do not touch credits. -/
theorem creditAt_modify
    {nodes : List Node} {position : ℕ} {update : Node → Node}
    (keeps : ∀ p, (update p).cw = p.cw) :
    creditAt (nodes.modify position update) = creditAt nodes := by
  funext other
  unfold creditAt valueAt
  rw [List.getElem?_modify]
  cases nodes[other]? with
  | none => rfl
  | some p =>
      by_cases here : position = other <;> simp [here, keeps]

theorem failedNode_cw
    (cfg : HealthCheckConfig) (now : UInt32) (p : Node) :
    (failedNode cfg now p).cw = p.cw := by
  unfold failedNode
  dsimp only
  split <;> rfl

theorem creditAt_onSuccess
    (shape : Shape weights config rr) (token : Token) :
    creditAt (rr.onSuccess token).nodes = creditAt rr.nodes := by
  unfold onSuccess
  split
  · rfl
  · rw [shape.updateNode_eq]
    exact creditAt_modify fun _ => rfl

theorem creditAt_onFailure
    (shape : Shape weights config rr) (now : UInt32) (token : Token) :
    creditAt (rr.onFailure now token).nodes = creditAt rr.nodes := by
  unfold onFailure
  split
  · rfl
  · rw [shape.updateNode_eq]
    exact creditAt_modify fun p => failedNode_cw _ now p

theorem Balanced.perform
    (shape : Shape weights config rr) (balanced : Balanced weights rr)
    (two : 2 ≤ weights.count) (fits : FitsI16 weights)
    (call : Call) (now : UInt32) :
    Balanced weights (rr.perform call now) := by
  cases call with
  | next =>
      change Balanced weights (rr.next now).2
      rcases next_turn shape balanced two fits now with
        ⟨_, _, _, _, _, kept⟩ | ⟨_, same⟩
      · exact kept
      · rw [same]
        exact balanced
  | onSuccess token =>
      change Balanced weights (rr.onSuccess token)
      constructor
      · rw [creditAt_onSuccess shape]
        exact balanced.bounded
      · rw [creditAt_onSuccess shape]
        exact balanced.zero
  | onFailure token =>
      change Balanced weights (rr.onFailure now token)
      constructor
      · rw [creditAt_onFailure shape]
        exact balanced.bounded
      · rw [creditAt_onFailure shape]
        exact balanced.zero

theorem Balanced.performAll
    (shape : Shape weights config rr) (balanced : Balanced weights rr)
    (two : 2 ≤ weights.count) (fits : FitsI16 weights)
    (calls : List (Call × UInt32)) :
    Balanced weights (rr.performAll calls) := by
  induction calls using List.reverseRecOn with
  | nil => exact balanced
  | append_singleton calls call inductionHypothesis =>
      rw [performAll_concat]
      exact inductionHypothesis.perform (shape.performAll two calls)
        two fits call.1 call.2

end Runs

end ByteHub.Lb.RoundRobin
