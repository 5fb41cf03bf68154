import ByteHub.Lb.PeerHealth
import ByteHub.Lb.RoundRobinCredit
import ByteHub.Library.Machine

/-!
# Health tracking of the round robin balancer

A node keeps its health in two counters, `fails` and `checked`.  Read as a
`PeerHealth`, one operation of the balancer is one move of that automaton for
every peer, and so is a whole run as long as no deadline and no failure
counter leaves 32 bits.
-/

namespace ByteHub.Lb.RoundRobin

open ByteHub.Library

/-! ## Reading the two counters -/

/-- The health the counters of a node stand for. -/
def health (cfg : HealthCheckConfig) (p : Node) : PeerHealth :=
  if p.fails.toNat < cfg.maxFails.toNat then .healthy p.fails.toNat
  else .excluded p.checked.toNat

section Node

variable {cfg : HealthCheckConfig} {now : UInt32} {p : Node}

theorem health_of_lt (few : p.fails.toNat < cfg.maxFails.toNat) :
    health cfg p = .healthy p.fails.toNat :=
  if_pos few

theorem health_of_le (many : cfg.maxFails.toNat ≤ p.fails.toNat) :
    health cfg p = .excluded p.checked.toNat :=
  if_neg (not_lt.2 many)

theorem health_recovered (one : 1 ≤ cfg.maxFails.toNat) (p : Node) :
    health cfg p.recovered = .healthy 0 :=
  if_pos one

@[simp]
theorem health_credited (p : Node) : health cfg p.credited = health cfg p :=
  rfl

@[simp]
theorem health_settled (tw : Int16) (p : Node) :
    health cfg (p.settled tw) = health cfg p :=
  rfl

/-- Walking over a node is a selection of its peer. -/
theorem health_visited (one : 1 ≤ cfg.maxFails.toNat) :
    health cfg (visited (some cfg) now p) =
      (health cfg p).selection now.toNat := by
  unfold visited healthGate
  dsimp only
  by_cases failed : cfg.maxFails ≤ p.fails
  · have many := UInt32.le_iff_toNat_le.1 failed
    rw [if_pos failed, health_of_le many]
    by_cases waiting : now < p.checked
    · have early := UInt32.lt_iff_toNat_lt.1 waiting
      rw [if_pos waiting, PeerHealth.selection, if_neg (not_le.2 early)]
      exact health_of_le many
    · have late := not_lt.1 (mt UInt32.lt_iff_toNat_lt.2 waiting)
      rw [if_neg waiting, PeerHealth.selection, if_pos late]
      exact health_recovered one p
  · have few := not_le.1 (mt UInt32.le_iff_toNat_le.2 failed)
    rw [if_neg failed, health_of_lt few]
    exact health_of_lt few

/-- A failure report is a failure of the peer, inside 32 bits. -/
theorem health_failedNode
    (deadline : now.toNat + cfg.failTimeoutSecs.toNat < 2 ^ 32)
    (counter : p.fails.toNat + 1 < 2 ^ 32) :
    health cfg (failedNode cfg now p) =
      (health cfg p).failure cfg.maxFails.toNat
        cfg.failTimeoutSecs.toNat now.toNat := by
  have counted : (p.fails + 1).toNat = p.fails.toNat + 1 :=
    toNat_add_of_lt counter
  have added :
      (now + cfg.failTimeoutSecs).toNat =
        now.toNat + cfg.failTimeoutSecs.toNat :=
    toNat_add_of_lt deadline
  unfold failedNode
  dsimp only
  by_cases failed : cfg.maxFails ≤ p.fails + 1
  · have reached := UInt32.le_iff_toNat_le.1 failed
    rw [counted] at reached
    rw [if_pos failed]
    by_cases crossing : p.fails < cfg.maxFails
    · have few := UInt32.lt_iff_toNat_lt.1 crossing
      have exactly : p.fails.toNat + 1 = cfg.maxFails.toNat := by omega
      rw [if_pos crossing, health_of_lt few, PeerHealth.failure,
        if_pos exactly, ← added]
      exact health_of_le (by rw [counted]; exact reached)
    · have many := not_lt.1 (mt UInt32.lt_iff_toNat_lt.2 crossing)
      rw [if_neg crossing, health_of_le many, PeerHealth.failure]
      exact health_of_le (by rw [counted]; exact reached)
  · have below := not_le.1 (mt UInt32.le_iff_toNat_le.2 failed)
    rw [counted] at below
    have few : p.fails.toNat < cfg.maxFails.toNat := by omega
    rw [if_neg failed, health_of_lt few, PeerHealth.failure,
      if_neg below.ne]
    rw [← counted] at below ⊢
    exact health_of_lt below

end Node

/-! ## One operation -/

/-- The health of the peer at a position. -/
def healthAt
    (cfg : HealthCheckConfig) (rr : RoundRobin) (position : ℕ) :
    Option PeerHealth :=
  (rr.nodes[position]?).map (health cfg)

/-- What a call at a time does to the peer at a position. -/
def peerStep
    (cfg : HealthCheckConfig) (position : ℕ)
    (peer : PeerHealth) (call : Call × UInt32) : PeerHealth :=
  match call.1 with
  | .next => peer.selection call.2.toNat
  | .onSuccess token =>
      if token = Token.ofPosition position then peer.success else peer
  | .onFailure token =>
      if token = Token.ofPosition position then
        peer.failure cfg.maxFails.toNat cfg.failTimeoutSecs.toNat
          call.2.toNat
      else peer

/-- A failure report keeps its deadline and the counter inside 32 bits. -/
def InsideU32
    (cfg : HealthCheckConfig) (rr : RoundRobin)
    (call : Call × UInt32) : Prop :=
  match call.1 with
  | .next => True
  | .onSuccess _ => True
  | .onFailure token =>
      call.2.toNat + cfg.failTimeoutSecs.toNat < 2 ^ 32 ∧
        ∀ p ∈ rr.nodes, p.token = token → p.fails.toNat + 1 < 2 ^ 32

instance
    (cfg : HealthCheckConfig) (rr : RoundRobin) (call : Call × UInt32) :
    Decidable (InsideU32 cfg rr call) := by
  unfold InsideU32
  split <;> infer_instance

section Operation

variable {weights : Weights} {config : Option HealthCheckConfig}
variable {rr : RoundRobin}

/-- `next` walks over every node and settles at most one of them. -/
theorem next_node
    (many : ¬ rr.total ≤ 1) (now : UInt32) (position : ℕ) :
    ∃ settle : Node → Node,
      (settle = id ∨ ∃ tw, settle = Node.settled tw) ∧
      (rr.next now).2.nodes[position]? =
        (rr.nodes[position]?).map fun p =>
          settle (visited rr.config now p) := by
  rcases next_cases now rr many with
    ⟨chosen, _, _, _, _, _, _, nodes⟩ | ⟨nobody, _, same⟩
  · rw [nodes]
    dsimp only
    rw [List.getElem?_modify, List.getElem?_map]
    by_cases won : chosen = position
    · refine ⟨Node.settled (scanAll rr.config now rr.nodes).tw,
        Or.inr ⟨_, rfl⟩, ?_⟩
      simp [won, Function.comp_def]
    · refine ⟨id, Or.inl rfl, ?_⟩
      simp [won]
  · refine ⟨id, Or.inl rfl, ?_⟩
    rw [same]
    cases here : rr.nodes[position]? with
    | none => rfl
    | some p =>
        have skipped := nobody p (List.mem_of_getElem? here)
        simp [visited, skipped]

/-- A health report changes the node its token names and no other. -/
theorem updateNode_node
    (shape : Shape weights config rr) (token : Token)
    (update : Node → Node) {position : ℕ}
    (inside : position < weights.count) :
    (updateNode token update rr.nodes)[position]? =
      (rr.nodes[position]?).map fun p =>
        if token = Token.ofPosition position then update p else p := by
  have small := weights.lt_of_inside inside
  have addressed := @Token.eq_ofPosition_iff token position small
  rw [shape.updateNode_eq, List.getElem?_modify]
  by_cases named : token.index.toNat = position
  · simp only [named, if_true, if_pos (addressed.2 named)]
    rfl
  · simp [named, mt addressed.1 named]

variable {cfg : HealthCheckConfig}

/-- One operation moves every peer as its automaton says. -/
theorem healthAt_perform
    (shape : Shape weights (some cfg) rr) (two : 2 ≤ weights.count)
    (one : 1 ≤ cfg.maxFails.toNat) (call : Call × UInt32)
    (inside : InsideU32 cfg rr call) {position : ℕ}
    (here : position < weights.count) :
    healthAt cfg (rr.perform call.1 call.2) position =
      (healthAt cfg rr position).map fun peer =>
        peerStep cfg position peer call := by
  rcases call with ⟨call, now⟩
  unfold healthAt
  rcases shape.exists_node here with ⟨p, there⟩
  cases call with
  | next =>
      rcases next_node (shape.many two) now position with
        ⟨settle, settles, after⟩
      change ((rr.next now).2.nodes[position]?).map _ = _
      rw [after, there, shape.config_eq]
      simp only [Option.map_some, peerStep, Option.some.injEq]
      rcases settles with rfl | ⟨tw, rfl⟩
      · exact health_visited one
      · rw [health_settled]
        exact health_visited one
  | onSuccess token =>
      change ((rr.onSuccess token).nodes[position]?).map _ = _
      simp only [onSuccess, shape.config_eq]
      rw [updateNode_node shape _ _ here, there]
      simp only [Option.map_some, peerStep, Option.some.injEq]
      split
      · exact health_recovered one p
      · rfl
  | onFailure token =>
      change ((rr.onFailure now token).nodes[position]?).map _ = _
      simp only [onFailure, shape.config_eq]
      rw [updateNode_node shape _ _ here, there]
      simp only [Option.map_some, peerStep, Option.some.injEq]
      split
      · rename_i named
        have token_eq := shape.token_eq there
        exact health_failedNode inside.1
          (inside.2 p (List.mem_of_getElem? there)
            (token_eq.trans named.symm))
      · rfl

end Operation

/-! ## Runs -/

/-- The balancer as a machine that answers calls inside 32 bits. -/
def tracked (cfg : HealthCheckConfig) :
    Machine RoundRobin (Call × UInt32) where
  step rr call :=
    if InsideU32 cfg rr call then some (rr.perform call.1 call.2)
    else none

theorem tracked_step
    {cfg : HealthCheckConfig} {rr final : RoundRobin}
    {call : Call × UInt32} :
    (tracked cfg).step rr call = some final ↔
      InsideU32 cfg rr call ∧ rr.perform call.1 call.2 = final := by
  simp [tracked]

/-- A fresh balancer has only healthy peers. -/
theorem healthAt_new
    {weights : Weights} {cfg : HealthCheckConfig}
    (two : 2 ≤ weights.count) (one : 1 ≤ cfg.maxFails.toNat)
    {position : ℕ} (inside : position < weights.count) :
    healthAt cfg (new weights (some cfg)) position =
      some (.healthy 0) := by
  have several : ¬ weights.count ≤ 1 := by omega
  have member : weights.values[position]? = some weights.values[position] :=
    List.getElem?_eq_getElem inside
  simp only [healthAt, new, several, if_false, List.getElem?_mapIdx,
    member, Option.map_some, Option.some.injEq]
  exact health_of_lt one

/-- A health report leaves the node of every peer it does not name. -/
theorem report_elsewhere
    {weights : Weights} {cfg : HealthCheckConfig} {rr : RoundRobin}
    (shape : Shape weights (some cfg) rr) (token : Token) (now : UInt32)
    {position : ℕ} (inside : position < weights.count)
    (named : token ≠ Token.ofPosition position) :
    (rr.onSuccess token).nodes[position]? = rr.nodes[position]? ∧
      (rr.onFailure now token).nodes[position]? =
        rr.nodes[position]? := by
  rcases shape.exists_node inside with ⟨p, here⟩
  constructor
  · simp only [onSuccess, shape.config_eq]
    rw [updateNode_node shape _ _ inside, here]
    simp [named]
  · simp only [onFailure, shape.config_eq]
    rw [updateNode_node shape _ _ inside, here]
    simp [named]

theorem shape_tracked
    {weights : Weights} {cfg : HealthCheckConfig} (two : 2 ≤ weights.count)
    {state next : RoundRobin} {call : Call × UInt32}
    (shape : Shape weights (some cfg) state)
    (step : (tracked cfg).step state call = some next) :
    Shape weights (some cfg) next := by
  rw [← (tracked_step.1 step).2]
  exact shape.perform two call.1 call.2

/--
Health tracking refines the automaton of every peer.  Any run of calls whose
deadlines and counters stay inside 32 bits ends with each peer in the state
its automaton reaches on the same calls; and a health report leaves the nodes
of all other peers exactly as they were.
-/
theorem performAll_refines_peerHealth
    (weights : Weights) (cfg : HealthCheckConfig)
    (two : 2 ≤ weights.count) (one : 1 ≤ cfg.maxFails.toNat)
    (calls : List (Call × UInt32)) (rr : RoundRobin)
    (ran : (tracked cfg).run (new weights (some cfg)) calls = some rr) :
    rr = (new weights (some cfg)).performAll calls ∧
    (∀ position, position < weights.count →
      healthAt cfg rr position =
        some (calls.foldl (peerStep cfg position) (.healthy 0))) ∧
    ∀ token position now, position < weights.count →
      token ≠ Token.ofPosition position →
        (rr.onSuccess token).nodes[position]? = rr.nodes[position]? ∧
        (rr.onFailure now token).nodes[position]? =
          rr.nodes[position]? := by
  have fresh := shape_new weights (some cfg) two
  have shape := Machine.run_invariant _ (shape_tracked two) fresh ran
  refine ⟨?_, ?_, ?_⟩
  · have performed :=
      Machine.run_view
        (Machine.total fun (state : RoundRobin) (call : Call × UInt32) =>
          state.perform call.1 call.2)
        id id (shape_tracked two)
        (fun _ step => congrArg some (tracked_step.1 step).2) fresh ran
    rw [Machine.run_total, List.map_id] at performed
    exact (Option.some.inj performed).symm
  · intro position inside
    have moved :=
      Machine.run_view
        (Machine.total fun (peer : Option PeerHealth)
            (call : Call × UInt32) =>
          peer.map fun health => peerStep cfg position health call)
        (fun state => healthAt cfg state position) id (shape_tracked two)
        (fun shape step => by
          rcases tracked_step.1 step with ⟨within, rfl⟩
          exact congrArg some
            (healthAt_perform shape two one _ within inside).symm)
        fresh ran
    have lifted :
        calls.foldl
            (fun (peer : Option PeerHealth) call =>
              peer.map fun health => peerStep cfg position health call)
            (some (.healthy 0)) =
          some (calls.foldl (peerStep cfg position) (.healthy 0)) :=
      List.foldl_hom some fun _ _ => rfl
    rw [Machine.run_total, List.map_id, healthAt_new two one inside,
      lifted] at moved
    exact (Option.some.inj moved).symm
  · intro token position now inside named
    exact report_elsewhere shape token now inside named

/-- Two failures exclude a peer and a selection at the deadline readmits it. -/
theorem performAll_refines_peerHealth_readmitted :
    healthAt ⟨2, 30, none⟩
        ((new ⟨[1, 1], by decide⟩ (some ⟨2, 30, none⟩)).performAll
          [(.onFailure ⟨0⟩, 10), (.onFailure ⟨0⟩, 11), (.next, 40),
            (.next, 41)]) 0 =
      some (.healthy 0) :=
  (performAll_refines_peerHealth ⟨[1, 1], by decide⟩ ⟨2, 30, none⟩
    (by decide) (by decide)
    [(.onFailure ⟨0⟩, 10), (.onFailure ⟨0⟩, 11), (.next, 40), (.next, 41)]
    _ (by rfl)).2.1 0 (by decide)

end ByteHub.Lb.RoundRobin
