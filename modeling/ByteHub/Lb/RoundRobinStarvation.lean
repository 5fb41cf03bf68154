import ByteHub.Lb.RoundRobinRecovery

/-!
# No peer starves

A peer that passes the health gate and is passed over earns its effective
weight, and its credit is bounded.  So the selections that pass it over are
bounded in number, whatever else is selected and reported meanwhile.
-/

namespace ByteHub.Lb.RoundRobin

open Finset
open ByteHub.Library.SmoothCredit

/-- The number of selections in a run. -/
def selections (calls : List (Call × UInt32)) : ℕ :=
  calls.countP fun call => call.1 = .next

/-- At every selection of the run the peer passes the health gate, and
another one is answered. -/
def PassedOver
    (rr : RoundRobin) (position : ℕ) (calls : List (Call × UInt32)) :
    Prop :=
  ∀ before now after, calls = before ++ (Call.next, now) :: after →
    position ∈ eligible rr.config now (rr.performAll before).nodes ∧
    ((rr.performAll before).next now).1 ≠
      some (Token.ofPosition position)

/-- At every selection of the run the peer has at least an effective
weight. -/
def Weighs
    (least : ℕ) (rr : RoundRobin) (position : ℕ)
    (calls : List (Call × UInt32)) : Prop :=
  ∀ before now after, calls = before ++ (Call.next, now) :: after →
    (least : ℤ) ≤ shareAt (rr.performAll before).nodes position

theorem selections_cons
    (call : Call × UInt32) (calls : List (Call × UInt32)) :
    selections (call :: calls) =
      selections calls + if call.1 = .next then 1 else 0 := by
  rw [selections, List.countP_cons]
  simp only [decide_eq_true_eq, selections]

theorem selections_concat
    (calls : List (Call × UInt32)) (call : Call × UInt32) :
    selections (calls ++ [call]) =
      selections calls + if call.1 = .next then 1 else 0 := by
  rw [selections, List.countP_append, List.countP_singleton]
  congr 1
  simp only [decide_eq_true_eq]

section Prefixes

variable {rr : RoundRobin} {position least : ℕ}
variable {calls : List (Call × UInt32)} {call : Call × UInt32}

theorem PassedOver.front
    (skipped : PassedOver rr position (calls ++ [call])) :
    PassedOver rr position calls := by
  intro before now after split
  apply skipped before now (after ++ [call])
  rw [split, List.append_assoc, List.cons_append]

theorem Weighs.front
    (weighs : Weighs least rr position (calls ++ [call])) :
    Weighs least rr position calls := by
  intro before now after split
  apply weighs before now (after ++ [call])
  rw [split, List.append_assoc, List.cons_append]

end Prefixes

section Waiting

variable {weights : Weights} {config : Option HealthCheckConfig}
variable {rr : RoundRobin} {position least : ℕ}

/-- A peer that passes the gate and is not answered earns its share. -/
theorem creditAt_next_of_passed
    (shape : Shape weights config rr) (balanced : Balanced weights rr)
    (two : 2 ≤ weights.count) (fits : FitsI16 weights) {now : UInt32}
    (joined : position ∈ eligible config now rr.nodes)
    (waits : (rr.next now).1 ≠ some (Token.ofPosition position)) :
    creditAt (rr.next now).2.nodes position =
      creditAt rr.nodes position + shareAt rr.nodes position := by
  rcases next_turn shape balanced two fits now with
    ⟨chosen, _, _, token, credit, _⟩ | ⟨nobody, _⟩
  · have other : position ≠ chosen := by
      rintro rfl
      exact waits token
    rw [credit, afterTurn_waiting _ _ _ other joined]
  · rw [nobody] at joined
    exact (notMem_empty position joined).elim

/-- In a run that passes a peer over its credit grows with the
selections. -/
theorem creditAt_passedOver
    (shape : Shape weights config rr) (balanced : Balanced weights rr)
    (two : 2 ≤ weights.count) (fits : FitsI16 weights)
    {calls : List (Call × UInt32)}
    (skipped : PassedOver rr position calls)
    (weighs : Weighs least rr position calls) :
    creditAt rr.nodes position + selections calls * least ≤
      creditAt (rr.performAll calls).nodes position := by
  induction calls using List.reverseRecOn with
  | nil => simp [selections, performAll]
  | append_singleton calls call inductionHypothesis =>
      have before := inductionHypothesis skipped.front weighs.front
      have shaped := shape.performAll two calls
      have balancedHere := balanced.performAll shape two fits calls
      rcases call with ⟨call, now⟩
      rw [selections_concat, performAll_concat]
      cases call with
      | next =>
          rcases skipped calls now [] rfl with ⟨joined, waits⟩
          have heavy := weighs calls now [] rfl
          rw [shape.config_eq] at joined
          change _ ≤ creditAt
            ((rr.performAll calls).next now).2.nodes position
          rw [creditAt_next_of_passed shaped balancedHere two fits joined
            waits, if_pos rfl]
          push_cast
          linarith
      | onSuccess token =>
          change _ ≤ creditAt
            ((rr.performAll calls).onSuccess token).nodes position
          rw [creditAt_onSuccess shaped, if_neg (by simp), Nat.add_zero]
          exact before
      | onFailure token =>
          change _ ≤ creditAt
            ((rr.performAll calls).onFailure now token).nodes position
          rw [creditAt_onFailure shaped, if_neg (by simp), Nat.add_zero]
          exact before

/-- A peer of positive weight always has an effective weight. -/
theorem weighs_one
    (shape : Shape weights config rr) (two : 2 ≤ weights.count)
    (earns : ∀ p ∈ rr.nodes, EarnsWeight p)
    (inside : position < weights.count)
    (positive : 1 ≤ weights.at position) (calls : List (Call × UInt32)) :
    Weighs 1 rr position calls := by
  intro before now after _
  have shaped := shape.performAll two before
  rcases shaped.exists_node inside with ⟨p, here⟩
  have earnsHere :=
    (keeps_earnsWeight config).performAll shape two earns before p
      (List.mem_of_getElem? here)
  rw [shareAt, valueAt_of_some here]
  exact_mod_cast earnsHere (by rw [shaped.weight_eq here]; exact positive)

/-- Nobody waits longer than its credit can grow. -/
theorem selections_mul_le
    (shape : Shape weights config rr) (balanced : Balanced weights rr)
    (two : 2 ≤ weights.count) (fits : FitsI16 weights)
    {calls : List (Call × UInt32)} (inside : position < weights.count)
    (skipped : PassedOver rr position calls)
    (weighs : Weighs least rr position calls) :
    selections calls * least ≤ 2 * weights.cap * (weights.count - 1) := by
  have growth := creditAt_passedOver shape balanced two fits skipped weighs
  have lower := balanced.credit_ge inside
  have upper :=
    (balanced.performAll shape two fits calls).credit_le inside
  have bound : (selections calls * least : ℤ) ≤
      2 * weights.cap * (weights.count - 1) := by
    linarith
  have one : 1 ≤ weights.count := by omega
  zify [one]
  exact bound

end Waiting

/-- Nobody starves.  After any run of selections and reports, a further run
that passes a peer over whenever it could be answered is short: the number
of its selections, times an effective weight that the peer keeps, is at most
twice the largest weight times the number of the other peers.  A peer of
positive weight keeps at least the effective weight one. -/
theorem next_starves_nobody
    (weights : Weights) (two : 2 ≤ weights.count)
    (fits : FitsI16 weights) (config : Option HealthCheckConfig)
    (earlier calls : List (Call × UInt32)) {position : ℕ}
    (inside : position < weights.count)
    (skipped : PassedOver ((new weights config).performAll earlier) position
      calls) :
    (∀ least,
      Weighs least ((new weights config).performAll earlier) position
          calls →
        selections calls * least ≤
          2 * weights.cap * (weights.count - 1)) ∧
    (1 ≤ weights.at position →
      selections calls ≤ 2 * weights.cap * (weights.count - 1)) := by
  have shape := (shape_new weights config two).performAll two earlier
  have balanced := (balanced_new weights config two).performAll
    (shape_new weights config two) two fits earlier
  have earns := (keeps_earnsWeight config).performAll
    (shape_new weights config two) two (earnsWeight_new weights config)
    earlier
  constructor
  · intro least weighs
    exact selections_mul_le shape balanced two fits inside skipped weighs
  · intro positive
    have bound := selections_mul_le shape balanced two fits inside skipped
      (weighs_one shape two earns inside positive calls)
    rwa [Nat.mul_one] at bound

/-- The weights of a heavy and a light peer. -/
def heavyLight : Weights :=
  ⟨[5, 1], by decide⟩

/-- The light peer is passed over in the first selection, and at most ten
times in a row. -/
theorem next_starves_nobody_five_one :
    PassedOver ((new heavyLight none).performAll []) 1 [(.next, 0)] ∧
      selections [(.next, 0)] ≤ 2 * heavyLight.cap * 1 := by
  have skipped :
      PassedOver ((new heavyLight none).performAll []) 1 [(.next, 0)] := by
    intro before now after split
    cases before with
    | nil =>
        cases split
        decide
    | cons call before =>
        rw [List.cons_append, List.cons.injEq] at split
        exact (List.cons_ne_nil _ _
          (List.append_eq_nil_iff.1 split.2.symm).2).elim
  exact ⟨skipped, (next_starves_nobody heavyLight (by decide) (by decide) none
    [] [(.next, 0)] (by decide) skipped).2 (by decide)⟩

end ByteHub.Lb.RoundRobin
