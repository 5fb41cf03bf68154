import ByteHub.Lb.RoundRobinHealth

/-!
# Recovery of the effective weight

A failure at or past the limit sets the effective weight of a peer to one,
and each selection by credit gives one unit back, up to the configured
weight.  A peer of configured weight zero is lifted above its weight by such
a failure, and nothing ever takes the unit away again.
-/

namespace ByteHub.Lb.RoundRobin

open ByteHub.Library

/-! ## Nodes within their weight -/

/-- The effective weight stays within the configured one, and is positive
where that is. -/
structure Within (p : Node) : Prop where
  below : p.ew ≤ p.weight
  positive : 1 ≤ p.weight → 1 ≤ p.ew

section Node

variable {cfg : HealthCheckConfig} {now : UInt32} {p : Node}

theorem within_freshNode (position : ℕ) (weight : UInt8) :
    Within (freshNode position weight) where
  below := UInt8.le_refl _
  positive := id

theorem Within.visited
    (within : Within p) (config : Option HealthCheckConfig) :
    Within (visited config now p) where
  below := by
    rw [visited_ew, visited_weight]
    exact within.below
  positive := by
    rw [visited_ew, visited_weight]
    exact within.positive

/-- A selection gives one unit back. -/
theorem settled_ew_toNat (tw : Int16) (below : p.ew ≤ p.weight) :
    (p.settled tw).ew.toNat = min p.weight.toNat (p.ew.toNat + 1) := by
  have small := p.weight.toNat_lt
  rw [UInt8.le_iff_toNat_le] at below
  rw [Node.settled]
  dsimp only
  split
  · next less =>
    rw [UInt8.lt_iff_toNat_lt] at less
    have step : (p.ew + 1).toNat = p.ew.toNat + 1 := by
      rw [UInt8.toNat_add]
      exact Nat.mod_eq_of_lt (by change p.ew.toNat + 1 < 2 ^ 8; omega)
    omega
  · next full =>
    rw [UInt8.lt_iff_toNat_lt] at full
    omega

theorem Within.settled (within : Within p) (tw : Int16) :
    Within (p.settled tw) where
  below := by
    rw [UInt8.le_iff_toNat_le, settled_ew_toNat tw within.below]
    exact Nat.min_le_left _ _
  positive := by
    intro weighted
    change 1 ≤ p.weight at weighted
    rw [UInt8.le_iff_toNat_le] at weighted ⊢
    rw [settled_ew_toNat tw within.below]
    exact Nat.le_min.2 ⟨weighted, Nat.le_add_left _ _⟩

theorem Within.recovered (within : Within p) : Within p.recovered where
  below := within.below
  positive := within.positive

/-- A failure keeps a node within its weight unless it reaches the limit
and the weight is zero. -/
theorem within_failedNode_iff (within : Within p) :
    Within (failedNode cfg now p) ↔
      ¬(p.weight = 0 ∧ cfg.maxFails ≤ p.fails + 1) := by
  by_cases reached : cfg.maxFails ≤ p.fails + 1
  · have after : (failedNode cfg now p).ew = 1 ∧
        (failedNode cfg now p).weight = p.weight := by
      simp only [failedNode, if_pos reached, and_self]
    constructor
    · rintro kept ⟨none, _⟩
      have below := kept.below
      rw [after.1, after.2, none] at below
      exact absurd below (by decide)
    · intro allowed
      have weighted : 1 ≤ p.weight := by
        rw [UInt8.le_iff_toNat_le]
        apply Nat.pos_of_ne_zero
        intro none
        exact allowed ⟨UInt8.toNat_inj.1 none, reached⟩
      refine ⟨?_, fun _ => ?_⟩
      · rw [after.1, after.2]
        exact weighted
      · rw [after.1]
        exact UInt8.le_refl 1
  · have same : (failedNode cfg now p).ew = p.ew ∧
        (failedNode cfg now p).weight = p.weight := by
      simp only [failedNode, if_neg reached, and_self]
    refine ⟨fun _ lifted => reached lifted.2, fun _ => ⟨?_, ?_⟩⟩
    · rw [same.1, same.2]
      exact within.below
    · rw [same.1, same.2]
      exact within.positive

end Node

/-! ## Which calls lift a node above its weight -/

/-- A call that reports a failure at or past the limit for a peer of weight
zero. -/
def LiftsWeightless (rr : RoundRobin) (call : Call × UInt32) : Prop :=
  ∃ cfg token, rr.config = some cfg ∧ call.1 = .onFailure token ∧
    ∃ p ∈ rr.nodes, p.token = token ∧ p.weight = 0 ∧
      cfg.maxFails ≤ p.fails + 1

/-- The balancer as a machine. -/
def answering : Machine RoundRobin (Call × UInt32) :=
  .total fun rr call => rr.perform call.1 call.2

theorem answering_step
    {rr final : RoundRobin} {call : Call × UInt32}
    (step : answering.step rr call = some final) :
    final = rr.perform call.1 call.2 :=
  (Option.some.inj step).symm

theorem answering_run (rr : RoundRobin) (calls : List (Call × UInt32)) :
    answering.run rr calls = some (rr.performAll calls) :=
  Machine.run_total _ rr calls

section Steps

variable {weights : Weights} {config : Option HealthCheckConfig}
variable {rr : RoundRobin} {now : UInt32}

/-- A balancer over several peers, or one without nodes. -/
def Sized
    (weights : Weights) (config : Option HealthCheckConfig)
    (rr : RoundRobin) : Prop :=
  2 ≤ weights.count ∧ Shape weights config rr ∨
    rr.nodes = [] ∧ rr.total ≤ 1

theorem sized_new
    (weights : Weights) (config : Option HealthCheckConfig) :
    Sized weights config (new weights config) := by
  by_cases two : 2 ≤ weights.count
  · exact .inl ⟨two, shape_new weights config two⟩
  · have few : weights.count ≤ 1 := by omega
    refine .inr ⟨if_pos few, ?_⟩
    rw [UInt8.le_iff_toNat_le]
    change weights.count % 256 ≤ 1
    omega

theorem perform_of_empty
    (empty : rr.nodes = []) (few : rr.total ≤ 1) (call : Call)
    (now : UInt32) : rr.perform call now = rr := by
  rcases rr with ⟨nodes, total, config⟩
  cases empty
  cases call with
  | next =>
      rw [perform, next_few now _ few]
  | onSuccess token => cases config <;> rfl
  | onFailure token => cases config <;> rfl

theorem Sized.perform
    (sized : Sized weights config rr) (call : Call) (now : UInt32) :
    Sized weights config (rr.perform call now) := by
  rcases sized with ⟨two, shape⟩ | ⟨empty, few⟩
  · exact .inl ⟨two, shape.perform two call now⟩
  · rw [perform_of_empty empty few]
    exact .inr ⟨empty, few⟩

theorem Shape.within_next
    (shape : Shape weights config rr) (two : 2 ≤ weights.count)
    (within : ∀ p ∈ rr.nodes, Within p) :
    ∀ p ∈ (rr.next now).2.nodes, Within p := by
  rcases next_cases now rr (shape.many two) with
    ⟨position, _, _, _, _, _, _, left⟩ | ⟨_, _, same⟩
  · rw [left]
    apply forall_modify Within fun kept => kept.settled _
    intro q member
    rcases List.mem_map.1 member with ⟨p, old, rfl⟩
    exact (within p old).visited _
  · rw [same]
    exact within

/-- The node a report is about. -/
theorem Shape.mem_iff_getElem?
    (shape : Shape weights config rr) {p : Node} {token : Token} :
    p ∈ rr.nodes ∧ p.token = token ↔
      rr.nodes[token.index.toNat]? = some p := by
  constructor
  · rintro ⟨member, named⟩
    rcases List.mem_iff_getElem?.1 member with ⟨position, here⟩
    rw [← named, shape.token_eq here,
      weights.ofPosition_toNat (shape.inRange here), here]
  · intro here
    refine ⟨List.mem_of_getElem? here, ?_⟩
    rw [shape.token_eq here]
    exact ((Token.eq_ofPosition_iff token.index.toNat_lt).2 rfl).symm

theorem Shape.within_onSuccess
    (shape : Shape weights config rr)
    (within : ∀ p ∈ rr.nodes, Within p) (token : Token) :
    ∀ p ∈ (rr.onSuccess token).nodes, Within p := by
  cases configured : rr.config with
  | none =>
      rw [onSuccess, configured]
      exact within
  | some cfg =>
      rw [onSuccess, configured]
      dsimp only
      rw [shape.updateNode_eq]
      exact forall_modify Within Within.recovered within _

/-- A failure lifts a node above its weight if the peer it is about has none
and has reached the limit. -/
theorem Shape.within_failed_iff
    (shape : Shape weights config rr)
    (within : ∀ p ∈ rr.nodes, Within p) (cfg : HealthCheckConfig)
    (token : Token) :
    (∀ p ∈ rr.nodes.modify token.index.toNat (failedNode cfg now),
        Within p) ↔
      ∀ p ∈ rr.nodes, p.token = token →
        ¬(p.weight = 0 ∧ cfg.maxFails ≤ p.fails + 1) := by
  constructor
  · intro kept p member named
    have here := shape.mem_iff_getElem?.1 ⟨member, named⟩
    apply (within_failedNode_iff (within p member)).1
    apply kept
    apply List.mem_of_getElem?
    rw [List.getElem?_modify_eq, here]
    rfl
  · intro allowed q member
    rcases List.mem_iff_getElem?.1 member with ⟨other, there⟩
    rcases getElem?_modify_eq_some.1 there with ⟨p, here, rfl⟩
    have old := within p (List.mem_of_getElem? here)
    split
    · next named =>
      rw [← named] at here
      have found := shape.mem_iff_getElem?.2 here
      exact (within_failedNode_iff old).2 (allowed p found.1 found.2)
    · exact old

theorem Shape.within_onFailure_iff
    (shape : Shape weights config rr)
    (within : ∀ p ∈ rr.nodes, Within p) (token : Token) :
    (∀ p ∈ (rr.onFailure now token).nodes, Within p) ↔
      ¬LiftsWeightless rr (.onFailure token, now) := by
  cases configured : rr.config with
  | none =>
      apply iff_of_true
      · rw [onFailure, configured]
        exact within
      · rintro ⟨_, _, checked, _⟩
        rw [configured] at checked
        cases checked
  | some cfg =>
      rw [onFailure, configured]
      dsimp only
      rw [shape.updateNode_eq, shape.within_failed_iff within]
      constructor
      · rintro allowed ⟨cfg', token', checked, report, p, member, named,
          lifted⟩
        cases report
        cases configured.symm.trans checked
        exact allowed p member named lifted
      · intro allowed p member named lifted
        exact allowed
          ⟨cfg, token, configured, rfl, p, member, named, lifted⟩

/-- A call keeps all nodes within their weights exactly when it lifts no
weightless one. -/
theorem Sized.within_perform_iff
    (sized : Sized weights config rr)
    (within : ∀ p ∈ rr.nodes, Within p) (call : Call) :
    (∀ p ∈ (rr.perform call now).nodes, Within p) ↔
      ¬LiftsWeightless rr (call, now) := by
  rcases sized with ⟨two, shape⟩ | ⟨empty, few⟩
  · cases call with
    | next =>
        apply iff_of_true (shape.within_next two within)
        rintro ⟨_, _, _, report, _⟩
        cases report
    | onSuccess token =>
        apply iff_of_true (shape.within_onSuccess within token)
        rintro ⟨_, _, _, report, _⟩
        cases report
    | onFailure token => exact shape.within_onFailure_iff within token
  · rw [perform_of_empty empty few]
    apply iff_of_true within
    rintro ⟨_, _, _, _, p, member, _⟩
    rw [empty] at member
    cases member

end Steps

/-! ## Selections by credit -/

/-- The selection names the peer, and it is not the fallback that serves
while all peers are excluded. -/
def ByCredit (rr : RoundRobin) (now : UInt32) (token : Token) : Prop :=
  (rr.next now).1 = some token ∧
    ∃ p ∈ rr.nodes, (healthGate rr.config now p).isSome

instance (rr : RoundRobin) (now : UInt32) (token : Token) :
    Decidable (ByCredit rr now token) := by
  unfold ByCredit
  infer_instance

/-- How many calls of a run select a peer by credit. -/
def creditSelections
    (token : Token) : RoundRobin → List (Call × UInt32) → ℕ
  | _, [] => 0
  | rr, (call, now) :: rest =>
      (if call = .next ∧ ByCredit rr now token then 1 else 0) +
        creditSelections token (rr.perform call now) rest

section Selections

variable {weights : Weights} {config : Option HealthCheckConfig}
variable {rr : RoundRobin} {now : UInt32}

/-- A peer selected by credit is visited and settled. -/
theorem Shape.next_byCredit
    (shape : Shape weights config rr) (two : 2 ≤ weights.count)
    {position : ℕ} {p : Node} (here : rr.nodes[position]? = some p)
    (selected : ByCredit rr now (Token.ofPosition position)) :
    ∃ tw, (rr.next now).2.nodes[position]? =
      some ((visited rr.config now p).settled tw) := by
  rcases next_cases now rr (shape.many two) with
    ⟨chosen, p', _, here', _, _, token, left⟩ | ⟨none, _, _⟩
  · rw [selected.1, shape.token_eq here', Option.some.injEq] at token
    have same := (weights.ofPosition_inj (shape.inRange here)
      (shape.inRange here')).1 token
    refine ⟨(scanAll rr.config now rr.nodes).tw, ?_⟩
    rw [left, ← same, List.getElem?_modify_eq, List.getElem?_map, here]
    rfl
  · rcases selected.2 with ⟨p', member, passed⟩
    rw [none p' member] at passed
    cases passed

/-- Any other peer keeps its weights. -/
theorem Shape.next_not_byCredit
    (shape : Shape weights config rr) (two : 2 ≤ weights.count)
    {position : ℕ} {p : Node} (here : rr.nodes[position]? = some p)
    (other : ¬ByCredit rr now (Token.ofPosition position)) :
    ∃ q, (rr.next now).2.nodes[position]? = some q ∧
      q.weight = p.weight ∧ q.ew = p.ew := by
  rcases next_cases now rr (shape.many two) with
    ⟨chosen, p', q', here', passed, _, token, left⟩ | ⟨_, _, same⟩
  · have apart : chosen ≠ position := by
      rintro rfl
      apply other
      refine ⟨?_, p', List.mem_of_getElem? here',
        Option.isSome_iff_exists.2 ⟨q', passed⟩⟩
      rw [token, shape.token_eq here']
    refine ⟨visited rr.config now p, ?_, visited_weight _ _ p,
      visited_ew _ _ p⟩
    rw [left, List.getElem?_modify_ne _ _ apart, List.getElem?_map, here]
    rfl
  · exact ⟨p, by rw [same, here], rfl, rfl⟩

/-- A selection by credit gives one unit back, and no other one does. -/
theorem Shape.next_ew
    (shape : Shape weights config rr) (two : 2 ≤ weights.count)
    {position : ℕ} {p : Node} (here : rr.nodes[position]? = some p)
    (below : p.ew ≤ p.weight) :
    ∃ q, (rr.next now).2.nodes[position]? = some q ∧
      q.weight = p.weight ∧
      q.ew.toNat = min p.weight.toNat
        (p.ew.toNat +
          if ByCredit rr now (Token.ofPosition position) then 1
          else 0) := by
  by_cases selected : ByCredit rr now (Token.ofPosition position)
  · rcases shape.next_byCredit two here selected with ⟨tw, there⟩
    have kept : (visited rr.config now p).ew ≤
        (visited rr.config now p).weight := by
      rw [visited_ew, visited_weight]
      exact below
    refine ⟨_, there, visited_weight _ _ p, ?_⟩
    rw [if_pos selected, settled_ew_toNat tw kept, visited_ew,
      visited_weight]
  · rcases shape.next_not_byCredit two here selected with
      ⟨q, there, weight, ew⟩
    refine ⟨q, there, weight, ?_⟩
    rw [if_neg selected, ew, Nat.add_zero]
    exact (Nat.min_eq_right (UInt8.le_iff_toNat_le.1 below)).symm

/-- A report that is no failure of the peer leaves its weights alone. -/
theorem Shape.report_ew
    (shape : Shape weights config rr) {position : ℕ} {p : Node}
    (here : rr.nodes[position]? = some p) {call : Call}
    (report : call ≠ .next)
    (quiet : call ≠ .onFailure (Token.ofPosition position)) :
    ∃ q, (rr.perform call now).nodes[position]? = some q ∧
      q.weight = p.weight ∧ q.ew = p.ew := by
  have inside := shape.inRange here
  cases call with
  | next => exact (report rfl).elim
  | onSuccess token =>
      change ∃ q, (rr.onSuccess token).nodes[position]? = some q ∧ _
      cases configured : rr.config with
      | none =>
          rw [onSuccess, configured]
          exact ⟨p, here, rfl, rfl⟩
      | some cfg =>
          rw [onSuccess, configured]
          dsimp only
          rw [updateNode_node shape _ _ inside, here]
          refine ⟨_, rfl, ?_⟩
          split
          · exact ⟨rfl, rfl⟩
          · exact ⟨rfl, rfl⟩
  | onFailure token =>
      change ∃ q, (rr.onFailure now token).nodes[position]? = some q ∧ _
      have other : token ≠ Token.ofPosition position := by
        rintro rfl
        exact quiet rfl
      cases configured : rr.config with
      | none =>
          rw [onFailure, configured]
          exact ⟨p, here, rfl, rfl⟩
      | some cfg =>
          rw [onFailure, configured]
          dsimp only
          rw [updateNode_node shape _ _ inside, here]
          refine ⟨p, ?_, rfl, rfl⟩
          rw [Option.map_some, if_neg other]

/-- As long as a peer does not fail, it regains one unit a selection. -/
theorem Shape.performAll_ew
    (shape : Shape weights config rr) (two : 2 ≤ weights.count)
    {position : ℕ} {p : Node} (here : rr.nodes[position]? = some p)
    (below : p.ew ≤ p.weight) {calls : List (Call × UInt32)}
    (quiet : ∀ call ∈ calls,
      call.1 ≠ .onFailure (Token.ofPosition position)) :
    ∃ q, (rr.performAll calls).nodes[position]? = some q ∧
      q.weight = p.weight ∧
      q.ew.toNat = min p.weight.toNat
        (p.ew.toNat +
          creditSelections (Token.ofPosition position) rr calls) := by
  induction calls generalizing rr p with
  | nil =>
      exact ⟨p, here, rfl,
        (Nat.min_eq_right (UInt8.le_iff_toNat_le.1 below)).symm⟩
  | cons call calls inductionHypothesis =>
      rcases call with ⟨call, now⟩
      have first : ∃ q,
          (rr.perform call now).nodes[position]? = some q ∧
          q.weight = p.weight ∧
          q.ew.toNat = min p.weight.toNat
            (p.ew.toNat +
              if call = .next ∧
                  ByCredit rr now (Token.ofPosition position) then 1
              else 0) := by
        by_cases selection : call = .next
        · subst selection
          simp only [true_and]
          exact shape.next_ew two here below
        · rcases shape.report_ew here selection
              (quiet _ List.mem_cons_self) with ⟨q, there, weight, ew⟩
          refine ⟨q, there, weight, ?_⟩
          rw [if_neg (fun both => selection both.1), ew, Nat.add_zero]
          exact (Nat.min_eq_right
            (UInt8.le_iff_toNat_le.1 below)).symm
      rcases first with ⟨q, there, weight, ew⟩
      have kept : q.ew ≤ q.weight := by
        rw [UInt8.le_iff_toNat_le, weight, ew]
        exact Nat.min_le_left _ _
      rcases inductionHypothesis (shape.perform two call now) there kept
          (fun later member => quiet later (List.mem_cons_of_mem _ member))
        with ⟨r, final, weight', ew'⟩
      refine ⟨r, final, weight'.trans weight, ?_⟩
      rw [ew', weight, ew, creditSelections]
      omega

/-- After one selection less than its weight the peer has its weight back,
since it starts at one unit or more. -/
theorem Shape.regains
    (shape : Shape weights config rr) (two : 2 ≤ weights.count)
    {position : ℕ} {p : Node} (here : rr.nodes[position]? = some p)
    (within : Within p) {calls : List (Call × UInt32)}
    (quiet : ∀ call ∈ calls,
      call.1 ≠ .onFailure (Token.ofPosition position))
    (enough : p.weight.toNat - 1 ≤
      creditSelections (Token.ofPosition position) rr calls) :
    ∃ q, (rr.performAll calls).nodes[position]? = some q ∧
      q.weight = p.weight ∧ q.ew = q.weight := by
  rcases shape.performAll_ew two here within.below quiet with
    ⟨q, there, weight, ew⟩
  refine ⟨q, there, weight, ?_⟩
  have below := UInt8.le_iff_toNat_le.1 within.below
  have positive (weighted : 1 ≤ p.weight.toNat) : 1 ≤ p.ew.toNat :=
    UInt8.le_iff_toNat_le.1
      (within.positive (UInt8.le_iff_toNat_le.2 weighted))
  rw [← UInt8.toNat_inj, ew, weight]
  omega

end Selections

/-! ## Whole runs -/

/-- How the effective weights move in a run: they stay within the configured
ones, a peer without weight earns nothing, and a peer that fails no more has
its weight back after one selection less than that weight. -/
structure StaysWithin
    (weights : Weights) (config : Option HealthCheckConfig)
    (calls : List (Call × UInt32)) : Prop where
  within :
    answering.EachState (fun rr => ∀ p ∈ rr.nodes, Within p)
      (new weights config) calls
  weightless :
    answering.EachState
      (fun rr => ∀ p ∈ rr.nodes, p.weight = 0 →
        ∀ now, earned rr.config now p = 0)
      (new weights config) calls
  recovers : ∀ (before after : List (Call × UInt32)),
    calls = before ++ after →
      ∀ (position : ℕ) (p : Node),
        ((new weights config).performAll before).nodes[position]? =
          some p →
        (∀ call ∈ after,
          call.1 ≠ .onFailure (Token.ofPosition position)) →
        p.weight.toNat - 1 ≤
          creditSelections (Token.ofPosition position)
            ((new weights config).performAll before) after →
        ∃ q, ((new weights config).performAll calls).nodes[position]? =
          some q ∧ q.weight = p.weight ∧ q.ew = q.weight

theorem earned_of_weightless
    {config : Option HealthCheckConfig} {p : Node} (within : Within p)
    (none : p.weight = 0) (now : UInt32) : earned config now p = 0 := by
  have ew : p.ew.toNat = 0 := by
    have below := UInt8.le_iff_toNat_le.1 within.below
    rw [none] at below
    exact Nat.le_zero.1 below
  cases gate : healthGate config now p with
  | none => rw [earned, gate]
  | some q =>
      rw [earned, gate]
      dsimp only
      rw [healthGate_ew gate, ew]
      rfl

theorem sized_performAll
    (weights : Weights) (config : Option HealthCheckConfig)
    (calls : List (Call × UInt32)) :
    Sized weights config ((new weights config).performAll calls) := by
  induction calls using List.reverseRecOn with
  | nil => exact sized_new weights config
  | append_singleton calls call inductionHypothesis =>
      rw [performAll_concat]
      exact inductionHypothesis.perform call.1 call.2

theorem performAll_append
    (rr : RoundRobin) (before after : List (Call × UInt32)) :
    rr.performAll (before ++ after) =
      (rr.performAll before).performAll after :=
  List.foldl_append

theorem within_new
    (weights : Weights) (config : Option HealthCheckConfig) :
    ∀ p ∈ (new weights config).nodes, Within p := by
  intro p member
  simp only [new] at member
  split at member
  · cases member
  · rcases List.mem_mapIdx.1 member with ⟨position, inside, rfl⟩
    exact within_freshNode _ _

/-- The weights move as they should in just those runs that report no
failure at or past the limit for a peer of weight zero. -/
theorem staysWithin_iff
    (weights : Weights) (config : Option HealthCheckConfig)
    (calls : List (Call × UInt32)) :
    StaysWithin weights config calls ↔
      answering.EachStep (fun rr call => ¬LiftsWeightless rr call)
        (new weights config) calls := by
  have exactly :
      answering.EachState (fun rr => ∀ p ∈ rr.nodes, Within p)
          (new weights config) calls ↔
        answering.EachStep (fun rr call => ¬LiftsWeightless rr call)
          (new weights config) calls := by
    apply Machine.eachState_iff_eachStep (Sized weights config)
      (fun rr => ∀ p ∈ rr.nodes, Within p)
      (fun rr call => ¬LiftsWeightless rr call) _ _
      (sized_new weights config) (within_new weights config)
      (answering_run _ calls)
    · intro rr next call sized step
      rw [answering_step step]
      exact sized.perform call.1 call.2
    · intro rr next call sized within step
      rw [answering_step step]
      exact sized.within_perform_iff within call.1
  rw [← exactly]
  constructor
  · exact StaysWithin.within
  · intro within
    refine ⟨within, ?_, ?_⟩
    · intro before after rr split reached p member none now
      exact earned_of_weightless
        (within before after rr split reached p member) none now
    · intro before after split position p here quiet enough
      have kept := within before after _ split (answering_run _ before) p
        (List.mem_of_getElem? here)
      rcases sized_performAll weights config before with
        ⟨two, shape⟩ | ⟨empty, _⟩
      · rw [split, performAll_append]
        exact shape.regains two here kept quiet enough
      · rw [empty] at here
        cases here

theorem idle_length : [(0 : UInt8), 1].length ≤ 255 := by
  decide

/-- A peer without weight and one of weight one. -/
def idleWeights : Weights :=
  ⟨[0, 1], idle_length⟩

/-- One failure lifts a peer of weight zero to an effective weight of one,
which it earns once its window is over. -/
theorem staysWithin_fails :
    ¬∀ (weights : Weights) (config : Option HealthCheckConfig)
      (calls : List (Call × UInt32)),
      ∀ p ∈ ((new weights config).performAll calls).nodes,
        p.ew ≤ p.weight := by
  intro within
  have lifted :
      ((new idleWeights (some ⟨1, 10, none⟩)).performAll
        [(.onFailure ⟨0⟩, 0)]).nodes[0]? =
        some ⟨0, 1, 0, ⟨0⟩, 1, 10⟩ := by
    decide
  have below := within _ _ _ _ (List.mem_of_getElem? lifted)
  exact absurd below (by decide)

end ByteHub.Lb.RoundRobin
