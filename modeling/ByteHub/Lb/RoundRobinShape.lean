import ByteHub.Lb.RoundRobinStep

/-!
# Runs of the round robin balancer

A run is a list of calls with their clock readings.  No call changes the
configuration, the tokens or the configured weights, and none lifts an
effective weight above the cap.
-/

namespace ByteHub.Lb.RoundRobin

open Finset

/-! ## Operations as one step function -/

/-- A call on the balancer. -/
inductive Call where
  | next
  | onSuccess (token : Token)
  | onFailure (token : Token)
deriving DecidableEq, Repr

/-- The balancer after a call made at a clock reading. -/
def perform (rr : RoundRobin) (call : Call) (now : UInt32) : RoundRobin :=
  match call with
  | .next => (rr.next now).2
  | .onSuccess token => rr.onSuccess token
  | .onFailure token => rr.onFailure now token

/-- The balancer after a sequence of calls. -/
def performAll (rr : RoundRobin) (calls : List (Call × UInt32)) :
    RoundRobin :=
  calls.foldl (fun state call => state.perform call.1 call.2) rr

theorem performAll_concat
    (rr : RoundRobin) (calls : List (Call × UInt32))
    (call : Call) (now : UInt32) :
    rr.performAll (calls ++ [(call, now)]) =
      (rr.performAll calls).perform call now := by
  simp [performAll, List.foldl_append]

/-! ## Shape -/

/-- What no operation ever changes, and the cap on effective weights. -/
structure Shape
    (weights : Weights) (config : Option HealthCheckConfig)
    (rr : RoundRobin) : Prop where
  config_eq : rr.config = config
  total_eq : rr.total = UInt8.ofNat weights.count
  length_eq : rr.nodes.length = weights.count
  token_eq : ∀ {position : ℕ} {p : Node}, rr.nodes[position]? = some p →
    p.token = Token.ofPosition position
  weight_eq : ∀ {position : ℕ} {p : Node}, rr.nodes[position]? = some p →
    p.weight.toNat = weights.at position
  ew_le : ∀ {position : ℕ} {p : Node}, rr.nodes[position]? = some p →
    p.ew.toNat ≤ weights.cap

section Shape

variable {weights : Weights} {config : Option HealthCheckConfig}
variable {rr : RoundRobin}

theorem Shape.count_lt (shape : Shape weights config rr) :
    rr.nodes.length < 256 := by
  rw [shape.length_eq]
  exact Nat.lt_succ_of_le weights.bounded

theorem Shape.many
    (shape : Shape weights config rr) (two : 2 ≤ weights.count) :
    ¬ rr.total ≤ 1 := by
  have small : weights.count < 256 := Nat.lt_succ_of_le weights.bounded
  rw [shape.total_eq, UInt8.not_le, UInt8.lt_iff_toNat_lt,
    UInt8.toNat_ofNat_of_lt' small]
  exact two

theorem Shape.inRange
    (shape : Shape weights config rr) {position : ℕ} {p : Node}
    (here : rr.nodes[position]? = some p) : position < weights.count := by
  rw [← shape.length_eq]
  exact (List.getElem?_eq_some_iff.1 here).1

theorem Shape.exists_node
    (shape : Shape weights config rr) {position : ℕ}
    (inside : position < weights.count) :
    ∃ p, rr.nodes[position]? = some p := by
  rw [← shape.length_eq] at inside
  exact ⟨_, List.getElem?_eq_getElem inside⟩

/-- Replacing nodes one by one keeps the shape. -/
theorem Shape.map_nodes
    (shape : Shape weights config rr) {nodes : List Node}
    (length : nodes.length = rr.nodes.length)
    (same : ∀ {position : ℕ} {q : Node}, nodes[position]? = some q →
      ∃ p, rr.nodes[position]? = some p ∧ q.token = p.token ∧
        q.weight = p.weight ∧ q.ew.toNat ≤ weights.cap) :
    Shape weights config { rr with nodes := nodes } where
  config_eq := shape.config_eq
  total_eq := shape.total_eq
  length_eq := length.trans shape.length_eq
  token_eq := by
    intro position q here
    rcases same here with ⟨p, there, token, _, _⟩
    exact token.trans (shape.token_eq there)
  weight_eq := by
    intro position q here
    rcases same here with ⟨p, there, _, weight, _⟩
    rw [weight]
    exact shape.weight_eq there
  ew_le := by
    intro position q here
    rcases same here with ⟨p, _, _, _, ew⟩
    exact ew

end Shape

theorem shape_new
    (weights : Weights) (config : Option HealthCheckConfig)
    (two : 2 ≤ weights.count) : Shape weights config (new weights config) := by
  have nodes :
      (new weights config).nodes = weights.values.mapIdx freshNode := by
    have several : ¬ weights.count ≤ 1 := by omega
    simp [new, several]
  have fresh :
      ∀ {position : ℕ} {p : Node},
        (new weights config).nodes[position]? = some p →
          ∃ weight, weights.values[position]? = some weight ∧
            p = freshNode position weight := by
    intro position p here
    rw [nodes, List.getElem?_mapIdx] at here
    cases found : weights.values[position]? with
    | none =>
        rw [found] at here
        cases here
    | some weight =>
        rw [found] at here
        exact ⟨weight, rfl, (Option.some.inj here).symm⟩
  constructor
  · rfl
  · rfl
  · rw [nodes, List.length_mapIdx]
    rfl
  · intro position p here
    rcases fresh here with ⟨weight, _, rfl⟩
    rfl
  · intro position p here
    rcases fresh here with ⟨weight, found, rfl⟩
    rw [Weights.at, List.getD_eq_getElem?_getD, found]
    rfl
  · intro position p here
    rcases fresh here with ⟨weight, found, rfl⟩
    exact weights.le_cap (List.mem_of_getElem? found)

/-! ## Updates of a single node -/

/-- On aligned tokens, updating the first match is updating a position. -/
private theorem updateNode_offset
    (token : Token) (update : Node → Node) (nodes : List Node)
    (offset : ℕ) (small : offset + nodes.length ≤ 256)
    (aligned : ∀ {position : ℕ} {p : Node}, nodes[position]? = some p →
      p.token = Token.ofPosition (offset + position)) :
    offset ≤ token.index.toNat →
      updateNode token update nodes =
        nodes.modify (token.index.toNat - offset) update := by
  induction nodes generalizing offset with
  | nil =>
      intro _
      simp [updateNode]
  | cons head tail inductionHypothesis =>
      intro reached
      have headToken : head.token = Token.ofPosition offset :=
        @aligned 0 head rfl
      have headSmall : offset < 256 := by
        rw [List.length_cons] at small
        omega
      by_cases match_ : head.token = token
      · have index : token.index.toNat = offset := by
          rw [← match_, headToken, Token.ofPosition_toNat headSmall]
        simp [updateNode, match_, index]
      · have later : offset + 1 ≤ token.index.toNat := by
          rcases Nat.eq_or_lt_of_le reached with equal | less
          · have same : Token.ofPosition offset = token := by
              rw [equal]
              simp [Token.ofPosition]
            exact (match_ (headToken.trans same)).elim
          · exact less
        have tailUpdate :=
          inductionHypothesis (offset + 1)
            (by rw [List.length_cons] at small; omega)
            (by
              intro position p here
              have there := @aligned (position + 1) p here
              rw [there]
              congr 1
              omega)
            later
        have index :
            token.index.toNat - offset =
              (token.index.toNat - (offset + 1)) + 1 := by omega
        rw [index, List.modify_succ_cons, ← tailUpdate]
        simp [updateNode, match_]

theorem Shape.updateNode_eq
    {weights : Weights} {config : Option HealthCheckConfig}
    {rr : RoundRobin} (shape : Shape weights config rr)
    (token : Token) (update : Node → Node) :
    updateNode token update rr.nodes =
      rr.nodes.modify token.index.toNat update := by
  have whole :=
    updateNode_offset token update rr.nodes 0
      (by have small := shape.count_lt; omega)
      (by
        intro position p here
        rw [Nat.zero_add]
        exact shape.token_eq here)
      (Nat.zero_le _)
  simpa using whole

/-! ## The shape is kept -/

theorem getElem?_modify_eq_some
    {nodes : List Node} {position other : ℕ} {update : Node → Node}
    {q : Node} :
    (nodes.modify position update)[other]? = some q ↔
      ∃ p, nodes[other]? = some p ∧
        q = if position = other then update p else p := by
  rw [List.getElem?_modify]
  cases found : nodes[other]? with
  | none => simp
  | some p =>
      simp only [Option.map_eq_map, Option.map_some, Option.some.injEq]
      constructor
      · intro equal
        exact ⟨p, rfl, equal.symm⟩
      · rintro ⟨_, rfl, equal⟩
        exact equal.symm

/-- An update of node fields that the shape tolerates. -/
structure Tolerated (weights : Weights) (update : Node → Node) : Prop where
  token_eq : ∀ p, (update p).token = p.token
  weight_eq : ∀ p, (update p).weight = p.weight
  ew_le : ∀ p, p.weight.toNat ≤ weights.cap →
    p.ew.toNat ≤ weights.cap → (update p).ew.toNat ≤ weights.cap

theorem tolerated_visited
    (weights : Weights) (config : Option HealthCheckConfig)
    (now : UInt32) : Tolerated weights (visited config now) where
  token_eq := visited_token config now
  weight_eq := visited_weight config now
  ew_le := by
    intro p _ ew
    rw [visited_ew]
    exact ew

theorem tolerated_settled (weights : Weights) (tw : Int16) :
    Tolerated weights (Node.settled tw) where
  token_eq _ := rfl
  weight_eq _ := rfl
  ew_le := by
    intro p weight ew
    simp only [Node.settled]
    split
    · rename_i less
      have lessNat := UInt8.lt_iff_toNat_lt.1 less
      have bound := p.weight.toNat_lt
      have step : (p.ew + 1).toNat = p.ew.toNat + 1 := by
        rw [UInt8.toNat_add]
        exact Nat.mod_eq_of_lt (by change p.ew.toNat + 1 < 2 ^ 8; omega)
      omega
    · exact ew

theorem tolerated_recovered (weights : Weights) :
    Tolerated weights Node.recovered where
  token_eq _ := rfl
  weight_eq _ := rfl
  ew_le := by
    intro p _ ew
    exact ew

theorem tolerated_failedNode
    (weights : Weights) (cfg : HealthCheckConfig) (now : UInt32) :
    Tolerated weights (failedNode cfg now) where
  token_eq := by
    intro p
    unfold failedNode
    dsimp only
    split <;> rfl
  weight_eq := by
    intro p
    unfold failedNode
    dsimp only
    split <;> rfl
  ew_le := by
    intro p _ ew
    unfold failedNode
    dsimp only
    split
    · exact weights.one_le_cap
    · exact ew

section Tolerated

variable {weights : Weights} {config : Option HealthCheckConfig}
variable {rr : RoundRobin} {update : Node → Node}

theorem Shape.weight_le
    (shape : Shape weights config rr) {position : ℕ} {p : Node}
    (here : rr.nodes[position]? = some p) :
    p.weight.toNat ≤ weights.cap := by
  rw [shape.weight_eq here]
  exact weights.at_le_cap position

theorem Shape.map
    (shape : Shape weights config rr)
    (tolerated : Tolerated weights update) :
    Shape weights config { rr with nodes := rr.nodes.map update } := by
  refine shape.map_nodes (by simp) ?_
  intro other q there
  rw [List.getElem?_map, Option.map_eq_some_iff] at there
  rcases there with ⟨p, here, rfl⟩
  exact ⟨p, here, tolerated.token_eq p, tolerated.weight_eq p,
    tolerated.ew_le p (shape.weight_le here) (shape.ew_le here)⟩

theorem Shape.modify
    (shape : Shape weights config rr)
    (tolerated : Tolerated weights update) (position : ℕ) :
    Shape weights config
      { rr with nodes := rr.nodes.modify position update } := by
  refine shape.map_nodes (by simp) ?_
  intro other q there
  rcases getElem?_modify_eq_some.1 there with ⟨p, here, rfl⟩
  refine ⟨p, here, ?_⟩
  split
  · exact ⟨tolerated.token_eq p, tolerated.weight_eq p,
      tolerated.ew_le p (shape.weight_le here) (shape.ew_le here)⟩
  · exact ⟨rfl, rfl, shape.ew_le here⟩

theorem Shape.perform
    (shape : Shape weights config rr)
    (two : 2 ≤ weights.count) (call : Call) (now : UInt32) :
    Shape weights config (rr.perform call now) := by
  cases call with
  | next =>
      change Shape weights config (rr.next now).2
      rcases next_cases now rr (shape.many two) with
        ⟨position, _, _, _, _, _, _, nodes⟩ | ⟨_, _, same⟩
      · rw [nodes]
        exact (shape.map (tolerated_visited weights _ now)).modify
          (tolerated_settled weights _) position
      · rw [same]
        exact shape
  | onSuccess token =>
      change Shape weights config (rr.onSuccess token)
      unfold onSuccess
      split
      · exact shape
      · rw [shape.updateNode_eq]
        exact shape.modify (tolerated_recovered weights) _
  | onFailure token =>
      change Shape weights config (rr.onFailure now token)
      unfold onFailure
      split
      · exact shape
      · rw [shape.updateNode_eq]
        exact shape.modify (tolerated_failedNode weights _ now) _

end Tolerated

theorem Shape.performAll
    {weights : Weights} {config : Option HealthCheckConfig}
    {rr : RoundRobin} (shape : Shape weights config rr)
    (two : 2 ≤ weights.count) (calls : List (Call × UInt32)) :
    Shape weights config (rr.performAll calls) := by
  induction calls using List.reverseRecOn with
  | nil => exact shape
  | append_singleton calls call inductionHypothesis =>
      rw [performAll_concat]
      exact inductionHypothesis.perform two call.1 call.2

/-! ## Node properties kept by every operation -/

/-- A property of single nodes that no update of the balancer breaks. -/
structure Keeps
    (config : Option HealthCheckConfig) (kept : Node → Prop) : Prop where
  visited : ∀ {p : Node} now, kept p → kept (visited config now p)
  settled : ∀ {p : Node} tw, kept p → kept (p.settled tw)
  recovered : ∀ {p : Node}, kept p → kept p.recovered
  failed : ∀ {p : Node} cfg now, kept p → kept (failedNode cfg now p)

section Keeps

variable {weights : Weights} {config : Option HealthCheckConfig}
variable {rr : RoundRobin} {kept : Node → Prop}

theorem forall_modify
    (kept : Node → Prop) {nodes : List Node} {update : Node → Node}
    (updated : ∀ {p : Node}, kept p → kept (update p))
    (all : ∀ p ∈ nodes, kept p) (position : ℕ) :
    ∀ p ∈ nodes.modify position update, kept p := by
  intro q member
  rcases List.mem_iff_getElem?.1 member with ⟨other, there⟩
  rcases getElem?_modify_eq_some.1 there with ⟨p, here, rfl⟩
  have old := all p (List.mem_of_getElem? here)
  split
  · exact updated old
  · exact old

theorem Keeps.perform
    (keeps : Keeps config kept) (shape : Shape weights config rr)
    (two : 2 ≤ weights.count) (all : ∀ p ∈ rr.nodes, kept p)
    (call : Call) (now : UInt32) :
    ∀ p ∈ (rr.perform call now).nodes, kept p := by
  cases call with
  | next =>
      change ∀ p ∈ (rr.next now).2.nodes, kept p
      rcases next_cases now rr (shape.many two) with
        ⟨position, _, _, _, _, _, _, nodes⟩ | ⟨_, _, same⟩
      · rw [nodes, shape.config_eq]
        apply forall_modify kept (keeps.settled _)
        intro q member
        rcases List.mem_map.1 member with ⟨p, old, rfl⟩
        exact keeps.visited now (all p old)
      · rw [same]
        exact all
  | onSuccess token =>
      change ∀ p ∈ (rr.onSuccess token).nodes, kept p
      unfold onSuccess
      split
      · exact all
      · rw [shape.updateNode_eq]
        exact forall_modify kept keeps.recovered all _
  | onFailure token =>
      change ∀ p ∈ (rr.onFailure now token).nodes, kept p
      unfold onFailure
      split
      · exact all
      · rw [shape.updateNode_eq]
        exact forall_modify kept (keeps.failed _ now) all _

theorem Keeps.performAll
    (keeps : Keeps config kept) (shape : Shape weights config rr)
    (two : 2 ≤ weights.count) (all : ∀ p ∈ rr.nodes, kept p)
    (calls : List (Call × UInt32)) :
    ∀ p ∈ (rr.performAll calls).nodes, kept p := by
  induction calls using List.reverseRecOn with
  | nil => exact all
  | append_singleton calls call inductionHypothesis =>
      rw [performAll_concat]
      exact keeps.perform (shape.performAll two calls) two
        inductionHypothesis call.1 call.2

/-- A node of positive weight keeps a positive effective weight. -/
def EarnsWeight (p : Node) : Prop :=
  1 ≤ p.weight.toNat → 1 ≤ p.ew.toNat

theorem keeps_earnsWeight (config : Option HealthCheckConfig) :
    Keeps config EarnsWeight where
  visited := by
    intro p now earns
    unfold EarnsWeight
    rw [visited_weight, visited_ew]
    exact earns
  settled := by
    intro p tw earns positive
    simp only [Node.settled]
    split
    · rename_i less
      have lessNat := UInt8.lt_iff_toNat_lt.1 less
      have bound := p.weight.toNat_lt
      have step : (p.ew + 1).toNat = p.ew.toNat + 1 := by
        rw [UInt8.toNat_add]
        exact Nat.mod_eq_of_lt (by change p.ew.toNat + 1 < 2 ^ 8; omega)
      omega
    · exact earns positive
  recovered earns := earns
  failed := by
    intro p cfg now earns
    unfold EarnsWeight failedNode
    dsimp only
    split
    · exact fun _ => Nat.le_refl 1
    · exact earns

/-- Every node has its full weight and no failure on record. -/
def Rested (rr : RoundRobin) : Prop :=
  ∀ p ∈ rr.nodes, p.ew = p.weight ∧ p.fails = 0 ∧ p.checked = 0

theorem rested_new
    (weights : Weights) (config : Option HealthCheckConfig) :
    Rested (new weights config) := by
  intro p member
  simp only [new] at member
  split at member
  · cases member
  · rcases List.mem_mapIdx.1 member with ⟨position, inside, rfl⟩
    exact ⟨rfl, rfl, rfl⟩

theorem earnsWeight_new
    (weights : Weights) (config : Option HealthCheckConfig) :
    ∀ p ∈ (new weights config).nodes, EarnsWeight p := by
  intro p member positive
  rw [(rested_new weights config p member).1]
  exact positive

end Keeps

end ByteHub.Lb.RoundRobin
