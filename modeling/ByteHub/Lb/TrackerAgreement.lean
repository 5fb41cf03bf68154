import ByteHub.Lb.DownstreamHealth
import ByteHub.Lb.Exclusion
import ByteHub.Lb.IpHashRing

/-!
# The tracker and the balancers

Passive health is kept in three places: in the tracker, and beside the peers
of each balancer.  An IP hash balancer is a ring over a tracker: a selection
asks the tracker about one virtual node after the other until a peer is
healthy, and the reports are those of the tracker.  A round robin balancer
asks about every peer at every selection; it agrees with a tracker for as long
as no failure moves a deadline of the tracker that the balancer keeps.
-/

namespace ByteHub.Lb

open IpHash (excluded recovered failedBackend)
open Library (Machine)

/-! ## Counters in a tracker -/

/-- The node of a tracker with the counters of a peer. -/
def BackendHealth.node (health : BackendHealth) : DownstreamNode where
  fails := health.fails
  checked := health.checked

theorem BackendHealth.node_inj {left right : BackendHealth} :
    left.node = right.node ↔ left = right := by
  rcases left with ⟨fails, checked⟩
  rcases right with ⟨fails', checked'⟩
  rw [node, node, DownstreamNode.mk.injEq, BackendHealth.mk.injEq]

namespace DownstreamHealth

/-- The tracker with the counters of some peers. -/
def holding
    (backends : List BackendHealth) (cfg : HealthCheckConfig) :
    DownstreamHealth where
  nodes := backends.map BackendHealth.node
  config := cfg

variable {backends others : List BackendHealth} {cfg : HealthCheckConfig}
variable {idx : ℕ} {now : UInt32} {health : BackendHealth}

theorem holding_inj :
    holding backends cfg = holding others cfg ↔ backends = others := by
  constructor
  · intro equal
    have nodes := congrArg DownstreamHealth.nodes equal
    have injective : Function.Injective BackendHealth.node :=
      fun _ _ same => BackendHealth.node_inj.1 same
    exact injective.list_map nodes
  · rintro rfl
    rfl

theorem holding_node (found : backends[idx]? = some health) :
    (holding backends cfg).nodes[idx]? = some health.node := by
  change (backends.map BackendHealth.node)[idx]? = _
  rw [List.getElem?_map, found]
  rfl

theorem holding_node_none (missing : backends[idx]? = none) :
    (holding backends cfg).nodes[idx]? = none := by
  change (backends.map BackendHealth.node)[idx]? = _
  rw [List.getElem?_map, missing]
  rfl

theorem holding_new (count : ℕ) (cfg : HealthCheckConfig) :
    holding (List.replicate count BackendHealth.fresh) cfg =
      new count cfg := by
  rw [holding, List.map_replicate]
  rfl

/-- Storing the counters of a peer. -/
theorem store_holding
    (found : backends[idx]? = some health)
    (change : BackendHealth → BackendHealth) :
    (holding backends cfg).store idx (change health).node =
      holding (backends.modify idx change) cfg := by
  have nodes :
      (backends.map BackendHealth.node).set idx (change health).node =
        (backends.modify idx change).map BackendHealth.node := by
    apply List.ext_getElem?
    intro other
    rw [List.getElem?_map, List.getElem?_modify]
    by_cases here : idx = other
    · subst here
      have inside : idx < (backends.map BackendHealth.node).length := by
        rw [List.length_map]
        exact (List.getElem?_eq_some_iff.1 found).1
      rw [List.getElem?_set_self inside, found]
      simp
    · rw [List.getElem?_set_ne here, List.getElem?_map]
      simp [here]
  rw [store, holding, nodes]
  rfl

/-- A question about a peer, answered by its counters. -/
theorem isHealthy_holding (found : backends[idx]? = some health) :
    (holding backends cfg).isHealthy idx now =
      if excluded cfg now health then (false, holding backends cfg)
      else (true, holding (backends.modify idx (recovered cfg)) cfg) := by
  have still (few : ¬ cfg.maxFails ≤ health.fails) :
      backends.modify idx (recovered cfg) = backends := by
    apply List.ext_getElem?
    intro other
    rw [List.getElem?_modify]
    by_cases here : idx = other
    · subst here
      rw [found]
      simp [recovered, few]
    · simp [here]
  simp only [isHealthy, holding_node found]
  by_cases failed : cfg.maxFails ≤ health.fails
  · have reached :
        ¬ health.node.fails < (holding backends cfg).config.maxFails :=
      UInt32.not_lt.2 failed
    rw [if_neg reached]
    by_cases early : now < health.checked
    · rw [if_neg ((ahead_iff health.node.checked).2 early),
        if_pos (excluded_iff.2 ⟨failed, early⟩)]
    · have late := not_not.1 (mt (ahead_iff health.node.checked).1 early)
      rw [if_pos late, if_neg fun shut => early (excluded_iff.1 shut).2]
      have reset : (recovered cfg health).node = ⟨0, 0⟩ := by
        rw [recovered, if_pos failed]
        rfl
      rw [← reset, store_holding found]
  · have below :
        health.node.fails < (holding backends cfg).config.maxFails :=
      UInt32.not_le.1 failed
    rw [if_pos below, if_neg fun shut => failed (excluded_iff.1 shut).1,
      still failed]

theorem reportSuccess_holding :
    (holding backends cfg).reportSuccess idx =
      holding (backends.modify idx fun _ => BackendHealth.fresh) cfg := by
  cases found : backends[idx]? with
  | none =>
      have outside := List.getElem?_eq_none_iff.1 found
      rw [reportSuccess, store, List.modify_eq_self outside, holding,
        List.set_eq_of_length_le]
      rw [List.length_map]
      exact outside
  | some health => exact store_holding found fun _ => BackendHealth.fresh

theorem reportFailure_holding :
    ((holding backends cfg).reportFailure idx now).2 =
      holding (backends.modify idx (failedBackend cfg now)) cfg := by
  cases found : backends[idx]? with
  | none =>
      have outside := List.getElem?_eq_none_iff.1 found
      simp only [reportFailure, holding_node_none found,
        List.modify_eq_self outside]
  | some health =>
      rw [← store_holding found]
      simp only [reportFailure, holding_node found, failedBackend]
      split
      · next reached =>
        have reached' : cfg.maxFails ≤ health.fails + 1 := reached
        rw [if_pos reached']
        rfl
      · next few =>
        have few' : ¬ cfg.maxFails ≤ health.fails + 1 := few
        rw [if_neg few']
        rfl

/-- Ask about the virtual nodes of a walk until a peer is healthy. -/
def firstHealthy (now : UInt32) :
    DownstreamHealth → List VirtualNode → Option Token × DownstreamHealth
  | health, [] => (none, health)
  | health, node :: rest =>
      let asked := health.isHealthy node.token.index.toNat now
      if asked.1 then (some node.token, asked.2)
      else firstHealthy now asked.2 rest

/-- The walk of the balancer asks the same questions. -/
theorem firstHealthy_holding
    {nodes : List VirtualNode}
    (inside : ∀ node ∈ nodes,
      node.token.index.toNat < backends.length) :
    firstHealthy now (holding backends cfg) nodes =
      (IpHash.probe cfg now backends nodes,
        (IpHash.probe cfg now backends nodes).elim (holding backends cfg)
          fun token =>
            holding (backends.modify token.index.toNat (recovered cfg))
              cfg) := by
  induction nodes with
  | nil => rfl
  | cons node rest inductionHypothesis =>
      have later := inductionHypothesis fun other member =>
        inside other (List.mem_cons_of_mem _ member)
      have here := inside node List.mem_cons_self
      have found := List.getElem?_eq_getElem here
      have counters :
          backends.getD node.token.index.toNat BackendHealth.fresh =
            backends[node.token.index.toNat] := by
        rw [List.getD_eq_getElem?_getD, found]
        rfl
      rw [firstHealthy, isHealthy_holding found, IpHash.probe, counters]
      split
      · exact later
      · rfl

end DownstreamHealth

/-! ## A ring over a tracker -/

/-- Virtual nodes, and a tracker for their peers. -/
structure TrackedRing where
  nodes : List VirtualNode
  health : DownstreamHealth

namespace TrackedRing

def new
    (sort : UnstableSort) (weights : Weights) (cfg : HealthCheckConfig) :
    TrackedRing where
  nodes := sort.sort (unsortedRing weights)
  health := .new weights.count cfg

/-- The first healthy peer of a client's walk, or the first one. -/
def next
    (search : BinarySearch) (state : TrackedRing) (client : Client)
    (now : UInt32) : Option Token × TrackedRing :=
  let walk :=
    state.nodes.rotate (IpHash.startOf search state.nodes client.hash)
  let asked := state.health.firstHealthy now walk
  (asked.1.or (walk.head?.map VirtualNode.token),
    { state with health := asked.2 })

/-- A call, and the answers given so far. -/
def serve
    (search : BinarySearch) (state : TrackedRing × List (Option Token))
    (call : Balancer.Call × UInt32) : TrackedRing × List (Option Token) :=
  match call.1 with
  | .next client =>
      let answered := state.1.next search client call.2
      (answered.2, state.2 ++ [answered.1])
  | .onSuccess token =>
      ({ state.1 with
          health := state.1.health.reportSuccess token.index.toNat },
        state.2)
  | .onFailure token =>
      ({ state.1 with
          health :=
            (state.1.health.reportFailure token.index.toNat call.2).2 },
        state.2)

end TrackedRing

namespace IpHash

/-- A call, and the answers given so far. -/
def serve
    (search : BinarySearch) (state : IpHash × List (Option Token))
    (call : Balancer.Call × UInt32) : IpHash × List (Option Token) :=
  match call.1 with
  | .next client =>
      let answered := state.1.next search client call.2
      (answered.2, state.2 ++ [answered.1])
  | .onSuccess token => (state.1.onSuccess token, state.2)
  | .onFailure token => (state.1.onFailure call.2 token, state.2)

/-- The ring of a balancer, with its counters in a tracker. -/
def tracked (cfg : HealthCheckConfig) (ih : IpHash) : TrackedRing where
  nodes := ih.nodes
  health := .holding ih.backends cfg

variable {weights : Weights} {cfg : HealthCheckConfig} {ih : IpHash}

theorem Shape.walk_inside
    (shape : Shape weights (some cfg) ih) (search : BinarySearch)
    (client : Client) {node : VirtualNode}
    (member : node ∈ ih.ring search client) :
    node.token.index.toNat < ih.backends.length := by
  rcases shape.inside_ring member with ⟨position, inside, named⟩
  rw [named, weights.ofPosition_toNat inside, shape.length_eq]
  exact inside

theorem tracked_next
    (shape : Shape weights (some cfg) ih) (two : 2 ≤ weights.count)
    (search : BinarySearch) (client : Client) (now : UInt32) :
    (ih.tracked cfg).next search client now =
      ((ih.next search client now).1,
        (ih.next search client now).2.tracked cfg) := by
  have asked :
      (DownstreamHealth.holding ih.backends cfg).firstHealthy now
          (ih.ring search client) = _ :=
    DownstreamHealth.firstHealthy_holding fun _ member =>
      shape.walk_inside search client member
  have walked :
      (ih.tracked cfg).next search client now =
        (((DownstreamHealth.holding ih.backends cfg).firstHealthy now
            (ih.ring search client)).1.or (ih.primary search client),
          { ih.tracked cfg with
            health :=
              ((DownstreamHealth.holding ih.backends cfg).firstHealthy now
                (ih.ring search client)).2 }) :=
    rfl
  rw [walked, asked, next_checked shape two]
  cases probe cfg now ih.backends (ih.ring search client) with
  | none => rfl
  | some token => rfl

theorem tracked_onSuccess
    (shape : Shape weights (some cfg) ih) (token : Token) :
    { ih.tracked cfg with
      health := (ih.tracked cfg).health.reportSuccess token.index.toNat } =
      (ih.onSuccess token).tracked cfg := by
  have reported :
      (ih.tracked cfg).health.reportSuccess token.index.toNat = _ :=
    DownstreamHealth.reportSuccess_holding
  rw [reported, onSuccess_eq_alter shape]
  rfl

theorem tracked_onFailure
    (shape : Shape weights (some cfg) ih) (now : UInt32) (token : Token) :
    { ih.tracked cfg with
      health :=
        ((ih.tracked cfg).health.reportFailure token.index.toNat now).2 } =
      (ih.onFailure now token).tracked cfg := by
  have reported :
      ((ih.tracked cfg).health.reportFailure token.index.toNat now).2 = _ :=
    DownstreamHealth.reportFailure_holding
  rw [reported, onFailure_eq_alter shape]
  rfl

/-- A call on the balancer is a call on the ring and its tracker. -/
theorem tracked_serve
    (shape : Shape weights (some cfg) ih) (two : 2 ≤ weights.count)
    (search : BinarySearch) (answers : List (Option Token))
    (call : Balancer.Call) (now : UInt32) :
    TrackedRing.serve search (ih.tracked cfg, answers) (call, now) =
      ((serve search (ih, answers) (call, now)).1.tracked cfg,
        (serve search (ih, answers) (call, now)).2) := by
  cases call with
  | next client =>
      change
        (((ih.tracked cfg).next search client now).2,
          answers ++ [((ih.tracked cfg).next search client now).1]) = _
      rw [tracked_next shape two]
      rfl
  | onSuccess token =>
      exact congrArg (fun ring => (ring, answers))
        (tracked_onSuccess shape token)
  | onFailure token =>
      exact congrArg (fun ring => (ring, answers))
        (tracked_onFailure shape now token)

theorem Shape.serve
    (shape : Shape weights (some cfg) ih) (two : 2 ≤ weights.count)
    (search : BinarySearch) (answers : List (Option Token))
    (call : Balancer.Call × UInt32) :
    Shape weights (some cfg)
      (IpHash.serve search (ih, answers) call).1 := by
  rcases call with ⟨call, now⟩
  cases call with
  | next client => exact shape.next two search client now
  | onSuccess token => exact shape.onSuccess token
  | onFailure token => exact shape.onFailure now token

theorem tracked_new
    (sort : UnstableSort) (two : 2 ≤ weights.count)
    (cfg : HealthCheckConfig) :
    (new sort weights (some cfg)).tracked cfg =
      TrackedRing.new sort weights cfg := by
  have several : ¬ weights.count ≤ 1 := Nat.not_le.2 two
  rw [tracked, TrackedRing.new, new, if_neg several,
    DownstreamHealth.holding_new]

end IpHash

/-- An IP hash balancer is a ring over a health tracker: in every run of calls
at any clock readings the two give the same answers, and the backends of the
balancer hold the counters of the tracker. -/
theorem ipHash_eq_trackedRing
    (sort : UnstableSort) (search : BinarySearch) (weights : Weights)
    (two : 2 ≤ weights.count) (cfg : HealthCheckConfig)
    (calls : List (Balancer.Call × UInt32)) :
    calls.foldl (TrackedRing.serve search)
        (TrackedRing.new sort weights cfg, []) =
      ((calls.foldl (IpHash.serve search)
          (IpHash.new sort weights (some cfg), [])).1.tracked cfg,
        (calls.foldl (IpHash.serve search)
          (IpHash.new sort weights (some cfg), [])).2) := by
  have kept :
      ∀ {state next : IpHash × List (Option Token)}
        {call : Balancer.Call × UInt32},
        IpHash.Shape weights (some cfg) state.1 →
          (Machine.total (IpHash.serve search)).step state call =
              some next →
            IpHash.Shape weights (some cfg) next.1 := by
    intro state next call shape stepped
    cases stepped
    exact shape.serve two search state.2 call
  have viewed :=
    Machine.run_view (Machine.total (TrackedRing.serve search))
      (fun state : IpHash × List (Option Token) =>
        (state.1.tracked cfg, state.2)) id kept
      (fun shape stepped => by
        cases stepped
        exact congrArg some
          (IpHash.tracked_serve shape two search _ _ _))
      (IpHash.shape_fresh sort weights (some cfg) two)
      (Machine.run_total (IpHash.serve search)
        (IpHash.new sort weights (some cfg), []) calls)
  rw [List.map_id, Machine.run_total, Option.some.injEq,
    IpHash.tracked_new sort two] at viewed
  exact viewed

/-- A failure, a selection while its peer may be excluded, and a later one. -/
def failureAndSelections : List (Balancer.Call × UInt32) :=
  [(.onFailure ⟨0⟩, 10), (.next ⟨.v4 fun _ => 127, 0⟩, 11),
    (.next ⟨.v4 fun _ => 127, 0⟩, 200)]

theorem ipHash_eq_trackedRing_pair :
    failureAndSelections.foldl (TrackedRing.serve BinarySearch.first)
        (TrackedRing.new UnstableSort.insertion Weights.pair
          ⟨1, 120, none⟩, []) =
      ((failureAndSelections.foldl (IpHash.serve BinarySearch.first)
          (IpHash.new UnstableSort.insertion Weights.pair
            (some ⟨1, 120, none⟩), [])).1.tracked ⟨1, 120, none⟩,
        (failureAndSelections.foldl (IpHash.serve BinarySearch.first)
          (IpHash.new UnstableSort.insertion Weights.pair
            (some ⟨1, 120, none⟩), [])).2) :=
  ipHash_eq_trackedRing UnstableSort.insertion BinarySearch.first
    Weights.pair (by decide) ⟨1, 120, none⟩ failureAndSelections

/-! ## Round robin beside a tracker -/

namespace DownstreamHealth

/-- Ask about the peers at some positions. -/
def ask (now : UInt32) (health : DownstreamHealth) (peers : List ℕ) :
    DownstreamHealth :=
  peers.foldl (fun health idx => (health.isHealthy idx now).2) health

/-- A call on the balancer, as the tracker sees it: every selection asks
about all the peers. -/
def follow (now : UInt32) (health : DownstreamHealth) :
    RoundRobin.Call → DownstreamHealth
  | .next => health.ask now (List.range health.nodes.length)
  | .onSuccess token => health.reportSuccess token.index.toNat
  | .onFailure token => (health.reportFailure token.index.toNat now).2

variable {backends : List BackendHealth} {cfg : HealthCheckConfig}
variable {now : UInt32}

/-- What a question leaves of a peer. -/
def refreshed
    (cfg : HealthCheckConfig) (now : UInt32) (health : BackendHealth) :
    BackendHealth :=
  if excluded cfg now health then health else recovered cfg health

theorem refreshed_fresh (cfg : HealthCheckConfig) (now : UInt32) :
    refreshed cfg now BackendHealth.fresh = BackendHealth.fresh := by
  rw [refreshed, recovered]
  split
  · rfl
  · split <;> rfl

theorem refreshed_refreshed
    (cfg : HealthCheckConfig) (now : UInt32) (health : BackendHealth) :
    refreshed cfg now (refreshed cfg now health) =
      refreshed cfg now health := by
  by_cases shut : excluded cfg now health = true
  · have same : refreshed cfg now health = health := if_pos shut
    rw [same, same]
  · have left : refreshed cfg now health = recovered cfg health :=
      if_neg shut
    rw [left, recovered]
    split
    · exact refreshed_fresh cfg now
    · next few =>
      rw [left, recovered, if_neg few]

theorem isHealthy_holding_left (idx : ℕ) :
    ((holding backends cfg).isHealthy idx now).2 =
      holding (backends.modify idx (refreshed cfg now)) cfg := by
  cases found : backends[idx]? with
  | none =>
      rw [List.modify_eq_self (List.getElem?_eq_none_iff.1 found)]
      simp only [isHealthy, holding_node_none found]
  | some health =>
      have alike {change : BackendHealth → BackendHealth}
          (same : refreshed cfg now health = change health) :
          backends.modify idx (refreshed cfg now) =
            backends.modify idx change := by
        apply List.ext_getElem?
        intro other
        rw [List.getElem?_modify, List.getElem?_modify]
        by_cases here : idx = other
        · subst here
          rw [found]
          simp [same]
        · simp [here]
      rw [isHealthy_holding found]
      split
      · next shut =>
        rw [@alike id (if_pos shut), List.modify_id]
      · next passes => rw [alike (if_neg passes)]

/-- The peers that are asked about are refreshed. -/
theorem ask_holding (peers : List ℕ) :
    ∃ left, (holding backends cfg).ask now peers = holding left cfg ∧
      ∀ idx, left[idx]? =
        (backends[idx]?).map fun health =>
          if idx ∈ peers then refreshed cfg now health else health := by
  induction peers generalizing backends with
  | nil =>
      refine ⟨backends, rfl, ?_⟩
      intro idx
      simp
  | cons peer peers inductionHypothesis =>
      rw [ask, List.foldl_cons, isHealthy_holding_left]
      rcases @inductionHypothesis
          (backends.modify peer (refreshed cfg now)) with
        ⟨left, asked, each⟩
      refine ⟨left, asked, ?_⟩
      intro idx
      rw [each, List.getElem?_modify, Option.map_eq_map, Option.map_map]
      congr 1
      funext health
      by_cases here : peer = idx
      · subst here
        simp [refreshed_refreshed]
      · have apart : idx ≠ peer := Ne.symm here
        simp [here, apart]

/-- Asking about all the peers refreshes each of them. -/
theorem ask_all_holding :
    (holding backends cfg).ask now
        (List.range (holding backends cfg).nodes.length) =
      holding (backends.map (refreshed cfg now)) cfg := by
  rcases @ask_holding backends cfg now
      (List.range (holding backends cfg).nodes.length) with
    ⟨left, asked, each⟩
  rw [asked, holding_inj]
  apply List.ext_getElem?
  intro idx
  rw [each, List.getElem?_map]
  cases found : backends[idx]? with
  | none => rfl
  | some health =>
      have member :
          idx ∈ List.range (holding backends cfg).nodes.length := by
        rw [List.mem_range, holding, List.length_map]
        exact (List.getElem?_eq_some_iff.1 found).1
      rw [Option.map_some, Option.map_some, if_pos member]

end DownstreamHealth

namespace RoundRobin

/-- The balancer and a tracker that sees the same calls. -/
def lockstep :
    Machine (RoundRobin × DownstreamHealth) (Call × UInt32) :=
  .total fun state call =>
    (state.1.perform call.1 call.2, state.2.follow call.2 call.1)

/-- The tracker holds the counters of the balancer. -/
def Agrees
    (cfg : HealthCheckConfig) (state : RoundRobin × DownstreamHealth) :
    Prop :=
  state.2 = .holding (state.1.nodes.map Node.counters) cfg

/-- A failure at the limit would set the deadline that is set already. -/
def Unmoved
    (cfg : HealthCheckConfig) (state : RoundRobin × DownstreamHealth)
    (call : Call × UInt32) : Prop :=
  ∀ p ∈ state.1.nodes, call.1 = .onFailure p.token →
    cfg.maxFails ≤ p.fails → cfg.maxFails ≤ p.fails + 1 →
      p.checked = call.2 + cfg.failTimeoutSecs

/-- Where the two ways to report a failure differ. -/
theorem failed_eq_failedBackend_iff
    (cfg : HealthCheckConfig) (now : UInt32) (health : BackendHealth) :
    Strategy.failed .roundRobin cfg now health =
        failedBackend cfg now health ↔
      (cfg.maxFails ≤ health.fails → cfg.maxFails ≤ health.fails + 1 →
        health.checked = now + cfg.failTimeoutSecs) := by
  rw [Strategy.failed, failedBackend]
  by_cases reached : cfg.maxFails ≤ health.fails + 1
  · rw [if_pos reached, BackendHealth.mk.injEq, and_iff_right rfl]
    by_cases before : cfg.maxFails ≤ health.fails
    · rw [if_neg fun both => UInt32.not_lt.2 before both.2]
      exact ⟨fun same _ _ => same, fun same => same before reached⟩
    · rw [if_pos ⟨reached, UInt32.not_le.1 before⟩]
      exact iff_of_true rfl fun past => absurd past before
  · rw [if_neg reached, if_neg fun both => reached both.1]
    exact iff_of_true rfl fun _ past => absurd past reached

theorem map_counters_modify
    {update : Node → Node} {change : BackendHealth → BackendHealth}
    (same : ∀ p, (update p).counters = change p.counters)
    (nodes : List Node) (idx : ℕ) :
    (nodes.modify idx update).map Node.counters =
      (nodes.map Node.counters).modify idx change := by
  apply List.ext_getElem?
  intro other
  rw [List.getElem?_map, List.getElem?_modify, List.getElem?_modify,
    List.getElem?_map]
  cases nodes[other]? with
  | none => rfl
  | some p =>
      by_cases here : idx = other
      · simp [here, same]
      · simp [here]

section Lockstep

variable {weights : Weights} {cfg : HealthCheckConfig} {rr : RoundRobin}

theorem counters_next
    (shape : Shape weights (some cfg) rr) (two : 2 ≤ weights.count)
    (now : UInt32) :
    (rr.next now).2.nodes.map Node.counters =
      (rr.nodes.map Node.counters).map
        (DownstreamHealth.refreshed cfg now) := by
  apply List.ext_getElem?
  intro position
  rcases next_node (shape.many two) now position with
    ⟨settle, settles, after⟩
  rw [List.getElem?_map, List.getElem?_map, List.getElem?_map, after,
    shape.config_eq]
  cases rr.nodes[position]? with
  | none => rfl
  | some p =>
      have left :
          (settle (visited (some cfg) now p)).counters =
            (visited (some cfg) now p).counters := by
        rcases settles with rfl | ⟨tw, rfl⟩ <;> rfl
      rw [Option.map_some, Option.map_some, Option.map_some,
        Option.map_some, left, counters_visited]
      rfl

theorem counters_onSuccess
    (shape : Shape weights (some cfg) rr) (token : Token) :
    (rr.onSuccess token).nodes.map Node.counters =
      (rr.nodes.map Node.counters).modify token.index.toNat
        fun _ => BackendHealth.fresh := by
  simp only [onSuccess, shape.config_eq]
  rw [shape.updateNode_eq]
  exact map_counters_modify (fun _ => rfl) _ _

theorem counters_onFailure
    (shape : Shape weights (some cfg) rr) (now : UInt32) (token : Token) :
    (rr.onFailure now token).nodes.map Node.counters =
      (rr.nodes.map Node.counters).modify token.index.toNat
        (Strategy.failed .roundRobin cfg now) := by
  simp only [onFailure, shape.config_eq]
  rw [shape.updateNode_eq]
  exact map_counters_modify (counters_failedNode cfg now) _ _

/-- After a failure the tracker agrees if the deadlines do. -/
theorem agrees_failed_iff
    (shape : Shape weights (some cfg) rr) (now : UInt32) (token : Token) :
    (rr.nodes.map Node.counters).modify token.index.toNat
          (failedBackend cfg now) =
        (rr.nodes.map Node.counters).modify token.index.toNat
          (Strategy.failed .roundRobin cfg now) ↔
      ∀ p ∈ rr.nodes, token = p.token → cfg.maxFails ≤ p.fails →
        cfg.maxFails ≤ p.fails + 1 →
          p.checked = now + cfg.failTimeoutSecs := by
  constructor
  · intro same p member named
    rcases List.mem_iff_getElem?.1 member with ⟨position, here⟩
    have inside := shape.inRange here
    have addressed : token.index.toNat = position := by
      rw [named, shape.token_eq here, weights.ofPosition_toNat inside]
    have counters := congrArg (fun list => list[position]?) same
    simp only [List.getElem?_modify, List.getElem?_map, here, addressed,
      if_true, Option.map_eq_map, Option.map_some,
      Option.some.injEq] at counters
    exact (failed_eq_failedBackend_iff cfg now p.counters).1 counters.symm
  · intro unmoved
    apply List.ext_getElem?
    intro position
    rw [List.getElem?_modify, List.getElem?_modify, List.getElem?_map]
    cases here : rr.nodes[position]? with
    | none => rfl
    | some p =>
        by_cases addressed : token.index.toNat = position
        · have inside := shape.inRange here
          have named : token = p.token := by
            rw [shape.token_eq here]
            exact (Token.eq_ofPosition_iff
              (weights.lt_of_inside inside)).2 addressed
          have same :=
            (failed_eq_failedBackend_iff cfg now p.counters).2
              (unmoved p (List.mem_of_getElem? here) named)
          simp [addressed, same]
        · simp [addressed]

/-- Agreement is kept by every call but a failure that would move a deadline
of the tracker. -/
theorem agrees_step_iff
    {state next : RoundRobin × DownstreamHealth} {call : Call × UInt32}
    (shape : Shape weights (some cfg) state.1) (two : 2 ≤ weights.count)
    (agrees : Agrees cfg state)
    (stepped : lockstep.step state call = some next) :
    Agrees cfg next ↔ Unmoved cfg state call := by
  rcases state with ⟨rr, health⟩
  rcases call with ⟨call, now⟩
  cases stepped
  have same : health = .holding (rr.nodes.map Node.counters) cfg := agrees
  subst same
  rw [Agrees]
  cases call with
  | next =>
      apply iff_of_true
      · change DownstreamHealth.ask _ _ _ = _
        rw [DownstreamHealth.ask_all_holding,
          DownstreamHealth.holding_inj]
        exact (counters_next shape two now).symm
      · intro p _ named
        cases named
  | onSuccess token =>
      apply iff_of_true
      · change DownstreamHealth.reportSuccess _ _ = _
        rw [DownstreamHealth.reportSuccess_holding,
          DownstreamHealth.holding_inj]
        exact (counters_onSuccess shape token).symm
      · intro p _ named
        cases named
  | onFailure token =>
      change (DownstreamHealth.reportFailure _ _ _).2 =
        DownstreamHealth.holding ((rr.onFailure now token).nodes.map _) _ ↔
          _
      rw [DownstreamHealth.reportFailure_holding,
        DownstreamHealth.holding_inj, counters_onFailure shape,
        agrees_failed_iff shape]
      constructor
      · intro unmoved p member named
        exact unmoved p member (Call.onFailure.inj named)
      · intro unmoved p member named
        exact unmoved p member (congrArg Call.onFailure named)

theorem counters_new
    (shape : Shape weights (some cfg) (new weights (some cfg))) :
    (new weights (some cfg)).nodes.map Node.counters =
      List.replicate weights.count BackendHealth.fresh := by
  rw [List.eq_replicate_iff, List.length_map, shape.length_eq]
  refine ⟨rfl, ?_⟩
  intro health member
  rcases List.mem_map.1 member with ⟨p, there, rfl⟩
  rcases rested_new weights (some cfg) p there with ⟨_, fails, checked⟩
  rw [Node.counters, fails, checked]
  rfl

end Lockstep

/-- A round robin balancer and a tracker that sees the same calls, and is
asked about every peer at every selection, hold the same counters in every
state of a run exactly if no failure of a peer at its limit comes at a time
that would move the deadline. -/
theorem agrees_iff_unmoved
    (weights : Weights) (two : 2 ≤ weights.count)
    (cfg : HealthCheckConfig) (calls : List (Call × UInt32)) :
    lockstep.EachState (Agrees cfg)
        (new weights (some cfg), .new weights.count cfg) calls ↔
      lockstep.EachStep (Unmoved cfg)
        (new weights (some cfg), .new weights.count cfg) calls := by
  refine Machine.eachState_iff_eachStep
    (fun state => Shape weights (some cfg) state.1) (Agrees cfg)
    (Unmoved cfg) ?_ ?_ (shape_new weights (some cfg) two) ?_
    (Machine.run_total _ _ calls)
  · intro state next call shape stepped
    cases stepped
    exact shape.perform two call.1 call.2
  · intro state next call shape agrees stepped
    exact agrees_step_iff shape two agrees stepped
  · rw [Agrees, counters_new (shape_new weights (some cfg) two),
      DownstreamHealth.holding_new]

/-- Two failures at one second, and a third one. -/
def failuresUntil (third : UInt32) : List (Call × UInt32) :=
  [(.onFailure ⟨0⟩, 10), (.onFailure ⟨0⟩, 10), (.onFailure ⟨0⟩, third)]

/-- A third failure in the same second changes nothing, and a third failure
in the next one moves the deadline of the tracker alone. -/
theorem agrees_iff_unmoved_pair :
    lockstep.EachState (Agrees ⟨2, 120, none⟩)
        (new Weights.pair (some ⟨2, 120, none⟩), .new 2 ⟨2, 120, none⟩)
        (failuresUntil 10) ∧
      ¬ lockstep.EachState (Agrees ⟨2, 120, none⟩)
        (new Weights.pair (some ⟨2, 120, none⟩), .new 2 ⟨2, 120, none⟩)
        (failuresUntil 11) := by
  constructor
  · refine (agrees_iff_unmoved Weights.pair (by decide) _ _).2 ?_
    refine (Machine.eachStep_cons_iff rfl).2 ⟨?_, ?_⟩
    · unfold Unmoved
      decide
    · refine (Machine.eachStep_cons_iff rfl).2 ⟨?_, ?_⟩
      · unfold Unmoved
        decide
      · refine (Machine.eachStep_cons_iff rfl).2
          ⟨?_, Machine.eachStep_nil _ _⟩
        unfold Unmoved
        decide
  · intro agrees
    have each :=
      (agrees_iff_unmoved Weights.pair (by decide) _ _).1 agrees
    have third := each ((failuresUntil 11).take 2) (.onFailure ⟨0⟩, 11) [] _
      rfl rfl
    revert third
    unfold Unmoved
    decide

end RoundRobin

end ByteHub.Lb
