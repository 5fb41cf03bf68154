import Mathlib.Algebra.BigOperators.Group.Finset.Basic
import Mathlib.Algebra.Ring.Int.Defs
import Mathlib.Data.Int.Order.Basic
import ByteHub.Lb.RoundRobin

/-!
# What one operation of the round robin balancer does

The selection loop is a map over the nodes together with a sum and a first
maximum.  The lemmas below say so position by position; every result about
runs of the balancer rests on them and none unfolds the loop again.
-/

namespace ByteHub.Lb.RoundRobin

open Finset

variable (config : Option HealthCheckConfig) (now : UInt32)

/-- What the loop leaves in place of a node. -/
def visited (p : Node) : Node :=
  match healthGate config now p with
  | none => p
  | some q => q.credited

/-- The weight a node adds to the loop's total. -/
def earned (p : Node) : ℤ :=
  match healthGate config now p with
  | none => 0
  | some q => q.ew.toNat

@[simp]
theorem healthGate_none (p : Node) : healthGate none now p = some p :=
  rfl

/-- The gate changes nothing but the health fields. -/
theorem healthGate_eq_some
    {config : Option HealthCheckConfig} {now : UInt32} {p q : Node}
    (passed : healthGate config now p = some q) :
    q = p ∨ q = p.recovered := by
  cases config with
  | none =>
      left
      simpa using passed.symm
  | some cfg =>
      simp only [healthGate] at passed
      split at passed
      · split at passed
        · cases passed
        · right
          exact (Option.some.inj passed).symm
      · left
        exact (Option.some.inj passed).symm

theorem healthGate_ew
    {config : Option HealthCheckConfig} {now : UInt32} {p q : Node}
    (passed : healthGate config now p = some q) : q.ew = p.ew := by
  rcases healthGate_eq_some passed with rfl | rfl <;> rfl

theorem healthGate_cw
    {config : Option HealthCheckConfig} {now : UInt32} {p q : Node}
    (passed : healthGate config now p = some q) : q.cw = p.cw := by
  rcases healthGate_eq_some passed with rfl | rfl <;> rfl

theorem visited_token (p : Node) :
    (visited config now p).token = p.token := by
  unfold visited
  cases gate : healthGate config now p with
  | none => rfl
  | some q => rcases healthGate_eq_some gate with rfl | rfl <;> rfl

theorem visited_weight (p : Node) :
    (visited config now p).weight = p.weight := by
  unfold visited
  cases gate : healthGate config now p with
  | none => rfl
  | some q => rcases healthGate_eq_some gate with rfl | rfl <;> rfl

theorem visited_ew (p : Node) :
    (visited config now p).ew = p.ew := by
  unfold visited
  cases gate : healthGate config now p with
  | none => rfl
  | some q => rcases healthGate_eq_some gate with rfl | rfl <;> rfl

/-! ## The loop as a whole -/

theorem scanAll_concat (nodes : List Node) (p : Node) :
    scanAll config now (nodes ++ [p]) =
      Scan.step config now (scanAll config now nodes) p := by
  simp [scanAll, List.foldl_append]

theorem scanAll_nodes (nodes : List Node) :
    (scanAll config now nodes).nodes =
      nodes.map (visited config now) := by
  induction nodes using List.reverseRecOn with
  | nil => rfl
  | append_singleton nodes p inductionHypothesis =>
      rw [scanAll_concat, List.map_append, List.map_singleton,
        ← inductionHypothesis]
      unfold Scan.step visited
      cases healthGate config now p <;> rfl

theorem share_toInt (p : Node) : p.share.toInt = p.ew.toNat := by
  have small := p.ew.toNat_lt
  unfold Node.share
  rw [Int16.toInt_ofNat']
  apply Int.bmod_eq_of_le <;> simp only [Int16.size] <;> omega

/-- The loop's total is the earned weight, wrapped to 16 bits. -/
theorem scanAll_tw (nodes : List Node) :
    (scanAll config now nodes).tw.toInt =
      Int.bmod (nodes.map (earned config now)).sum (2 ^ 16) := by
  induction nodes using List.reverseRecOn with
  | nil => rfl
  | append_singleton nodes p inductionHypothesis =>
      rw [scanAll_concat, List.map_append, List.sum_append,
        List.map_singleton, List.sum_singleton]
      cases gate : healthGate config now p with
      | none => simpa [Scan.step, earned, gate] using inductionHypothesis
      | some q =>
          simp only [Scan.step, earned, gate, Int16.toInt_add,
            inductionHypothesis, share_toInt, Int.bmod_add_bmod]

/--
`best` is the position of the first node of maximal credit among those that
passed the gate, together with that credit.
-/
def IsBest (nodes : List Node) : Option (ℕ × Int16) → Prop
  | none => ∀ p ∈ nodes, healthGate config now p = none
  | some (position, cw) =>
      ∃ p q, nodes[position]? = some p ∧
        healthGate config now p = some q ∧ cw = q.credited.cw ∧
        ∀ other p' q', nodes[other]? = some p' →
          healthGate config now p' = some q' →
            q'.credited.cw ≤ cw ∧
              (other < position → q'.credited.cw < cw)

theorem getElem?_concat_eq_some
    {nodes : List Node} {p q : Node} {position : ℕ} :
    (nodes ++ [p])[position]? = some q ↔
      nodes[position]? = some q ∨
        position = nodes.length ∧ p = q := by
  rcases Nat.lt_trichotomy position nodes.length with less | equal | more
  · rw [List.getElem?_append_left less]
    simp [less.ne]
  · subst equal
    simp
  · have past : (nodes ++ [p]).length ≤ position := by
      simpa [Nat.succ_le_iff] using more
    rw [List.getElem?_eq_none past, List.getElem?_eq_none more.le]
    simp [more.ne']

theorem isBest_skip
    {nodes : List Node} {best : Option (ℕ × Int16)} {p : Node}
    (held : IsBest config now nodes best)
    (skipped : healthGate config now p = none) :
    IsBest config now (nodes ++ [p]) best := by
  cases best with
  | none =>
      intro q member
      rcases List.mem_append.1 member with old | last
      · exact held q old
      · rw [List.mem_singleton.1 last]
        exact skipped
  | some pair =>
      rcases held with ⟨p', q, here, passed, cwEq, maximal⟩
      refine ⟨p', q, getElem?_concat_eq_some.2 (Or.inl here), passed,
        cwEq, ?_⟩
      intro other r s there rPassed
      rcases getElem?_concat_eq_some.1 there with old | ⟨_, rfl⟩
      · exact maximal other r s old rPassed
      · rw [skipped] at rPassed
        cases rPassed

theorem isBest_visit
    {nodes : List Node} {best : Option (ℕ × Int16)} {p q : Node}
    (held : IsBest config now nodes best)
    (passed : healthGate config now p = some q) :
    IsBest config now (nodes ++ [p])
      (better best nodes.length q.credited.cw) := by
  have last : (nodes ++ [p])[nodes.length]? = some p := by simp
  have inRange :
      ∀ {other : ℕ} {r : Node}, nodes[other]? = some r →
        other < nodes.length := by
    intro other r there
    exact (List.getElem?_eq_some_iff.1 there).1
  cases best with
  | none =>
      refine ⟨p, q, last, passed, rfl, ?_⟩
      intro other r s there rPassed
      rcases getElem?_concat_eq_some.1 there with old | ⟨rfl, rfl⟩
      · have skipped := held r (List.mem_of_getElem? old)
        rw [skipped] at rPassed
        cases rPassed
      · rw [passed] at rPassed
        cases rPassed
        exact ⟨Int16.le_refl _, fun less => (lt_irrefl _ less).elim⟩
  | some pair =>
      rcases pair with ⟨position, cw⟩
      rcases held with ⟨p', q', here, passed', cwEq, maximal⟩
      unfold better
      by_cases replaced : cw < q.credited.cw
      · simp only [replaced, if_true]
        refine ⟨p, q, last, passed, rfl, ?_⟩
        intro other r s there rPassed
        rcases getElem?_concat_eq_some.1 there with old | ⟨rfl, rfl⟩
        · have below :=
            Int16.lt_of_le_of_lt (maximal other r s old rPassed).1
              replaced
          exact ⟨Int16.le_of_lt below, fun _ => below⟩
        · rw [passed] at rPassed
          cases rPassed
          exact ⟨Int16.le_refl _, fun less => (lt_irrefl _ less).elim⟩
      · simp only [replaced, if_false]
        refine ⟨p', q', getElem?_concat_eq_some.2 (Or.inl here),
          passed', cwEq, ?_⟩
        intro other r s there rPassed
        rcases getElem?_concat_eq_some.1 there with old | ⟨rfl, rfl⟩
        · exact maximal other r s old rPassed
        · rw [passed] at rPassed
          cases rPassed
          refine ⟨Int16.not_lt.1 replaced, fun less => ?_⟩
          exact (Nat.lt_asymm less (inRange here)).elim

theorem scanAll_best (nodes : List Node) :
    IsBest config now nodes (scanAll config now nodes).best := by
  induction nodes using List.reverseRecOn with
  | nil =>
      intro p member
      cases member
  | append_singleton nodes p inductionHypothesis =>
      rw [scanAll_concat]
      have walked :
          (scanAll config now nodes).nodes.length = nodes.length := by
        rw [scanAll_nodes, List.length_map]
      cases gate : healthGate config now p with
      | none =>
          simpa [Scan.step, gate] using
            isBest_skip config now inductionHypothesis gate
      | some q =>
          simpa [Scan.step, gate, walked] using
            isBest_visit config now inductionHypothesis gate

/-- Without a configuration no token is kept as the first one. -/
theorem scanAll_firstToken (nodes : List Node) :
    (scanAll config now nodes).firstToken =
      if config.isSome then nodes.head?.map Node.token else none := by
  induction nodes using List.reverseRecOn with
  | nil => cases config <;> rfl
  | append_singleton nodes p inductionHypothesis =>
      rw [scanAll_concat]
      have firstToken :
          (Scan.step config now (scanAll config now nodes) p).firstToken =
            if config.isSome then
              (scanAll config now nodes).firstToken.or (some p.token)
            else (scanAll config now nodes).firstToken := by
        unfold Scan.step
        cases healthGate config now p <;> rfl
      rw [firstToken, inductionHypothesis]
      cases config with
      | none => rfl
      | some cfg => cases nodes <;> rfl

/-! ## Inversion of `next` -/

theorem next_few (rr : RoundRobin) (few : rr.total ≤ 1) :
    rr.next now = (some ⟨0⟩, rr) := by
  simp [next, few]

/-- A `next` over more than one peer either selects the best eligible node or
finds no eligible node at all. -/
theorem next_cases
    (rr : RoundRobin) (many : ¬ rr.total ≤ 1) :
    (∃ position p q,
      rr.nodes[position]? = some p ∧
      healthGate rr.config now p = some q ∧
      IsBest rr.config now rr.nodes (some (position, q.credited.cw)) ∧
      (rr.next now).1 = some p.token ∧
      (rr.next now).2 =
        { rr with
          nodes :=
            (rr.nodes.map (visited rr.config now)).modify position
              (Node.settled (scanAll rr.config now rr.nodes).tw) }) ∨
    ((∀ p ∈ rr.nodes, healthGate rr.config now p = none) ∧
      (rr.next now).1 =
        (if rr.config.isSome then
          ((nearest rr.nodes).map Prod.snd).or
            (rr.nodes.head?.map Node.token)
        else none) ∧
      (rr.next now).2 = rr) := by
  have best := scanAll_best rr.config now rr.nodes
  have walked := scanAll_nodes rr.config now rr.nodes
  cases found : (scanAll rr.config now rr.nodes).best with
  | some pair =>
      left
      rcases pair with ⟨position, cw⟩
      rw [found] at best
      have best' := best
      rcases best' with ⟨p, q, here, passed, cwEq, maximal⟩
      subst cwEq
      refine ⟨position, p, q, here, passed, best, ?_, ?_⟩
      · simp [next, many, found, walked, here, visited_token]
      · simp [next, many, found, walked]
  | none =>
      right
      rw [found] at best
      have still : rr.nodes.map (visited rr.config now) = rr.nodes := by
        calc
          rr.nodes.map (visited rr.config now) = rr.nodes.map id := by
            apply List.map_congr_left
            intro p member
            simp [visited, best p member]
          _ = rr.nodes := List.map_id _
      have kept := scanAll_firstToken rr.config now rr.nodes
      cases configured : rr.config.isSome <;>
        exact ⟨best,
          by simp [next, many, found, walked, still, kept, configured],
          by simp [next, many, found, walked, still, configured]⟩

end ByteHub.Lb.RoundRobin
