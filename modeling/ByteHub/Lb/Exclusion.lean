import ByteHub.Lb.BalancerRuns
import ByteHub.Lb.RoundRobinHealth

/-!
# The exclusion of one peer

Both balancers keep two numbers for a peer, its failures and the deadline of
its exclusion, and both test them in the same way before they select.  What a
call does to them is the same as well, but for the failure that is reported
when the limit has been reached already.
-/

namespace ByteHub.Lb

open IpHash (excluded recovered failedBackend)

/-! ## The two numbers -/

/-- The health state of a round robin node. -/
def Node.counters (p : Node) : BackendHealth where
  fails := p.fails
  checked := p.checked

theorem excluded_iff
    {cfg : HealthCheckConfig} {now : UInt32} {health : BackendHealth} :
    excluded cfg now health = true ↔
      cfg.maxFails ≤ health.fails ∧ now < health.checked := by
  simp [excluded]

/-- The node is skipped by the selection loop exactly when it is excluded. -/
theorem healthGate_eq_none_iff
    {cfg : HealthCheckConfig} {now : UInt32} {p : Node} :
    RoundRobin.healthGate (some cfg) now p = none ↔
      excluded cfg now p.counters = true := by
  rw [excluded_iff, RoundRobin.healthGate]
  simp only [Node.counters]
  split
  · next failed =>
    split
    · next early => simp [failed, early]
    · next late => simp [failed, late]
  · next few => simp [few]

/-- What the selection loop leaves of a node that is not excluded. -/
theorem counters_visited
    {cfg : HealthCheckConfig} {now : UInt32} {p : Node} :
    (RoundRobin.visited (some cfg) now p).counters =
      if excluded cfg now p.counters then p.counters
      else recovered cfg p.counters := by
  by_cases skipped : excluded cfg now p.counters = true
  · rw [if_pos skipped, RoundRobin.visited,
      healthGate_eq_none_iff.2 skipped]
  · rw [if_neg skipped]
    rw [excluded_iff] at skipped
    by_cases failed : cfg.maxFails ≤ p.fails
    · have late : ¬now < p.checked := fun early => skipped ⟨failed, early⟩
      have left :
          RoundRobin.visited (some cfg) now p = p.recovered.credited := by
        simp only [RoundRobin.visited, RoundRobin.healthGate, if_pos failed,
          if_neg late]
      rw [left, recovered, if_pos]
      · rfl
      · exact failed
    · have left : RoundRobin.visited (some cfg) now p = p.credited := by
        simp only [RoundRobin.visited, RoundRobin.healthGate, if_neg failed]
      rw [left, recovered, if_neg]
      · rfl
      · exact failed

@[simp]
theorem counters_settled (tw : Int16) (p : Node) :
    (p.settled tw).counters = p.counters :=
  rfl

@[simp]
theorem counters_recovered (p : Node) :
    p.recovered.counters = BackendHealth.fresh :=
  rfl

/-- A failure report, as each of the balancers does it. -/
def Strategy.failed
    (strategy : Strategy) (cfg : HealthCheckConfig) (now : UInt32)
    (health : BackendHealth) : BackendHealth :=
  match strategy with
  | .off => health
  | .ipHash => failedBackend cfg now health
  | .roundRobin =>
      { fails := health.fails + 1
        checked :=
          if cfg.maxFails ≤ health.fails + 1 ∧
              health.fails < cfg.maxFails then
            now + cfg.failTimeoutSecs
          else health.checked }

theorem counters_failedNode
    (cfg : HealthCheckConfig) (now : UInt32) (p : Node) :
    (RoundRobin.failedNode cfg now p).counters =
      Strategy.failed .roundRobin cfg now p.counters := by
  simp only [RoundRobin.failedNode, Strategy.failed, Node.counters]
  split
  · next reached =>
    by_cases crossing : p.fails < cfg.maxFails
    · simp [reached, crossing]
    · simp [crossing]
  · next few => simp [few]

namespace Balancer

/-- The health state of the peer at a position. -/
def counters (balancer : Balancer) (position : ℕ) : BackendHealth :=
  match balancer with
  | .off => BackendHealth.fresh
  | .ipHash _ ih => ih.backend position
  | .roundRobin rr =>
      ((rr.nodes[position]?).map Node.counters).getD BackendHealth.fresh

/-- The test `next` makes on the peer at a position. -/
def excludes
    (balancer : Balancer) (cfg : HealthCheckConfig) (position : ℕ)
    (now : UInt32) : Bool :=
  excluded cfg now (balancer.counters position)

/-! ## What a call does -/

/-- What a call does to the health state of the peer at a position. -/
def Moves
    (strategy : Strategy) (cfg : HealthCheckConfig) (position : ℕ)
    (call : Call) (now : UInt32) (before after : BackendHealth) : Prop :=
  match call with
  | .next _ =>
      after = before ∨
        excluded cfg now before = false ∧ after = recovered cfg before
  | .onSuccess token =>
      after =
        if token = Token.ofPosition position then BackendHealth.fresh
        else before
  | .onFailure token =>
      after =
        if token = Token.ofPosition position then
          strategy.failed cfg now before
        else before

section Step

variable {weights : Weights} {cfg : HealthCheckConfig}
variable {strategy : Strategy} {balancer : Balancer} {position : ℕ}

theorem ipHash_moves
    {search : BinarySearch} {ih : IpHash}
    (shape : IpHash.Shape weights (some cfg) ih)
    (two : 2 ≤ weights.count) (inside : position < weights.count)
    (call : Call) (now : UInt32) :
    Moves .ipHash cfg position call now
      (counters (.ipHash search ih) position)
      (((Balancer.ipHash search ih).perform call now).counters
        position) := by
  cases call with
  | next client =>
      change _ = _ ∨ _
      rcases IpHash.next_cases shape two search client now with
        ⟨chosen, chosenInside, passes, next_eq, _⟩ | ⟨_, next_eq⟩
      · have after :
            ((Balancer.ipHash search ih).perform (.next client)
              now).counters position =
              (ih.alter chosen (recovered cfg)).backend position := by
          simp only [perform, Balancer.next, next_eq, counters]
        rw [after]
        by_cases this : position = chosen
        · subst this
          rw [IpHash.backend_alter_self (by rwa [shape.length_eq])]
          exact .inr ⟨passes, rfl⟩
        · rw [IpHash.backend_alter_of_ne this]
          exact .inl rfl
      · left
        simp only [perform, Balancer.next, next_eq, counters]
  | onSuccess token =>
      change (ih.onSuccess token).backend position = _
      rw [IpHash.onSuccess_eq_alter shape,
        IpHash.backend_alter_token shape inside]
      rfl
  | onFailure token =>
      change (ih.onFailure now token).backend position = _
      rw [IpHash.onFailure_eq_alter shape,
        IpHash.backend_alter_token shape inside]
      rfl

theorem roundRobin_moves
    {rr : RoundRobin} (shape : RoundRobin.Shape weights (some cfg) rr)
    (two : 2 ≤ weights.count) (inside : position < weights.count)
    (call : Call) (now : UInt32) :
    Moves .roundRobin cfg position call now
      (counters (.roundRobin rr) position)
      (((Balancer.roundRobin rr).perform call now).counters
        position) := by
  rcases shape.exists_node inside with ⟨p, here⟩
  have before : counters (.roundRobin rr) position = p.counters := by
    rw [counters, here]
    rfl
  rw [before]
  cases call with
  | next client =>
      rcases RoundRobin.next_node (shape.many two) now position with
        ⟨settle, settles, after⟩
      have left :
          ((Balancer.roundRobin rr).perform (.next client) now).counters
              position =
            (RoundRobin.visited (some cfg) now p).counters := by
        change
          (((rr.next now).2.nodes[position]?).map Node.counters).getD _ = _
        rw [after, here, shape.config_eq]
        rcases settles with rfl | ⟨tw, rfl⟩ <;> rfl
      rw [left, counters_visited]
      split
      · exact .inl rfl
      · next passes => exact .inr ⟨Bool.eq_false_iff.2 passes, rfl⟩
  | onSuccess token =>
      change
        (((rr.onSuccess token).nodes[position]?).map Node.counters).getD _ =
          _
      simp only [RoundRobin.onSuccess, shape.config_eq]
      rw [RoundRobin.updateNode_node shape _ _ inside, here]
      simp only [Option.map_some, Option.getD_some]
      split <;> rfl
  | onFailure token =>
      change
        (((rr.onFailure now token).nodes[position]?).map
          Node.counters).getD _ = _
      simp only [RoundRobin.onFailure, shape.config_eq]
      rw [RoundRobin.updateNode_node shape _ _ inside, here]
      simp only [Option.map_some, Option.getD_some]
      split
      · exact counters_failedNode cfg now p
      · rfl

/-- Every call moves the state of a peer as its strategy does. -/
theorem Shape.moves
    (shape : Shape weights (some cfg) strategy balancer)
    (selects : strategy ≠ .off) (two : 2 ≤ weights.count)
    (inside : position < weights.count) (call : Call) (now : UInt32) :
    Moves strategy cfg position call now (balancer.counters position)
      ((balancer.perform call now).counters position) := by
  cases shape with
  | off => exact (selects rfl).elim
  | ipHash _ shape => exact ipHash_moves (shape two) two inside call now
  | roundRobin _ shape =>
      exact roundRobin_moves (shape two) two inside call now

/-- A selection passes an excluded peer while another one is eligible. -/
theorem Shape.next_ne
    (shape : Shape weights (some cfg) strategy balancer)
    (selects : strategy ≠ .off) (two : 2 ≤ weights.count)
    (inside : position < weights.count) {other : ℕ}
    (otherInside : other < weights.count) {now : UInt32}
    (shut : balancer.excludes cfg position now = true)
    (passes : balancer.excludes cfg other now = false) (client : Client) :
    (balancer.next client now).1 ≠ some (Token.ofPosition position) := by
  intro named
  cases shape with
  | off => exact selects rfl
  | @ipHash search ih _ ringShape =>
      rcases IpHash.next_cases (ringShape two) two search client now with
        ⟨chosen, chosenInside, passed, next_eq, _⟩ | ⟨all, _⟩
      · simp only [Balancer.next, next_eq, Option.some.injEq,
          weights.ofPosition_inj chosenInside inside] at named
        subst named
        rw [excludes, counters, passed] at shut
        cases shut
      · rw [excludes, counters, all other otherInside] at passes
        cases passes
  | @roundRobin rr _ nodeShape =>
      have several := nodeShape two
      have verdict {position : ℕ} {p : Node}
          (here : rr.nodes[position]? = some p) :
          RoundRobin.healthGate rr.config now p = none ↔
            excludes (.roundRobin rr) cfg position now = true := by
        rw [several.config_eq, healthGate_eq_none_iff, excludes, counters,
          here]
        rfl
      rcases RoundRobin.next_cases now rr (several.many two) with
        ⟨chosen, p, q, here, gate, _, answered, _⟩ | ⟨all, _⟩
      · change (rr.next now).1 = _ at named
        rw [answered, several.token_eq here, Option.some.injEq,
          weights.ofPosition_inj (several.inRange here) inside] at named
        subst named
        rw [(verdict here).2 shut] at gate
        cases gate
      · rcases several.exists_node otherInside with ⟨p, here⟩
        have skipped :=
          (verdict here).1 (all p (List.mem_of_getElem? here))
        rw [passes] at skipped
        cases skipped

/-- A new balancer has no failures. -/
theorem counters_new
    {sort : UnstableSort} {search : BinarySearch} {values : List UInt8}
    (bounded : values.length ≤ 255) (two : 2 ≤ values.length)
    (built : new sort search strategy values (some cfg) = some balancer)
    (inside : position < values.length) :
    balancer.counters position = BackendHealth.fresh := by
  cases strategy with
  | off =>
      cases built
      rfl
  | ipHash =>
      rw [new, dif_pos bounded] at built
      cases built
      simp [counters, IpHash.backend, IpHash.new, List.getD_eq_getElem?_getD,
        Weights.count, inside]
  | roundRobin =>
      rw [new, dif_pos bounded] at built
      cases built
      have several : ¬values.length ≤ 1 := by omega
      simp [counters, RoundRobin.new, Weights.count, several, inside]
      rfl

end Step

end Balancer

end ByteHub.Lb
