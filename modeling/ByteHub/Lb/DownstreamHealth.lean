import ByteHub.Lb.Peer
import ByteHub.Library.Machine

/-!
# Downstream health

A tracker holds two counters for each node and no health: a node is unhealthy
while its failures reach the threshold and its deadline lies ahead, where the
deadline 0 stands for none.  Sums of counters and of times wrap as in a
release build.  The clock reading is an argument.
-/

namespace ByteHub.Lb

open ByteHub.Library

/-! ## The tracker -/

/-- Health state of a node. -/
structure DownstreamNode where
  /-- Consecutive failures. -/
  fails : UInt32
  /-- The second until which the node is excluded, or 0. -/
  checked : UInt32
deriving DecidableEq, Repr

/-- Health tracker of the nodes of an endpoint. -/
structure DownstreamHealth where
  nodes : List DownstreamNode
  config : HealthCheckConfig
deriving DecidableEq, Repr

/-- A call to the tracker. -/
inductive HealthCall where
  | isHealthy (idx : ℕ)
  | reportSuccess (idx : ℕ)
  | reportFailure (idx : ℕ)
deriving DecidableEq, Repr

/-- The node a call is about. -/
def HealthCall.idx : HealthCall → ℕ
  | .isHealthy idx => idx
  | .reportSuccess idx => idx
  | .reportFailure idx => idx

namespace DownstreamHealth

def new (count : ℕ) (config : HealthCheckConfig) : DownstreamHealth where
  nodes := List.replicate count ⟨0, 0⟩
  config := config

/-- Store the counters of a node. -/
def store (health : DownstreamHealth) (idx : ℕ) (node : DownstreamNode) :
    DownstreamHealth :=
  { health with nodes := health.nodes.set idx node }

/-- Whether a node is healthy; one whose timeout is over recovers. -/
def isHealthy (health : DownstreamHealth) (idx : ℕ) (now : UInt32) :
    Bool × DownstreamHealth :=
  match health.nodes[idx]? with
  | none => (false, health)
  | some node =>
      if node.fails < health.config.maxFails then (true, health)
      else if node.checked = 0 ∨ node.checked ≤ now then
        (true, health.store idx ⟨0, 0⟩)
      else (false, health)

/-- A connection to a node succeeded. -/
def reportSuccess (health : DownstreamHealth) (idx : ℕ) :
    DownstreamHealth :=
  health.store idx ⟨0, 0⟩

/-- A connection to a node failed; whether the threshold is reached. -/
def reportFailure (health : DownstreamHealth) (idx : ℕ) (now : UInt32) :
    Bool × DownstreamHealth :=
  match health.nodes[idx]? with
  | none => (false, health)
  | some node =>
      if health.config.maxFails ≤ node.fails + 1 then
        (true, health.store idx
          ⟨node.fails + 1, now + health.config.failTimeoutSecs⟩)
      else (false, health.store idx ⟨node.fails + 1, node.checked⟩)

/-! ## The health of a node -/

/-- The answer of `is_healthy`. -/
def healthy (health : DownstreamHealth) (idx : ℕ) (now : UInt32) : Bool :=
  (health.isHealthy idx now).1

variable {health : DownstreamHealth} {idx other : ℕ} {now later : UInt32}

theorem healthy_of_none (missing : health.nodes[idx]? = none) :
    health.healthy idx now = false := by
  simp only [healthy, isHealthy, missing]

theorem healthy_iff
    {node : DownstreamNode} (found : health.nodes[idx]? = some node) :
    health.healthy idx now = true ↔
      node.fails < health.config.maxFails ∨ node.checked = 0 ∨
        node.checked ≤ now := by
  simp only [healthy, isHealthy, found]
  split
  · next below => simp [below]
  · next reached =>
    split
    · next past => simp [past]
    · next ahead => simp [reached, ahead]

/-- The health of a node after its counters are stored. -/
theorem healthy_store_self
    (inside : idx < health.nodes.length) (node : DownstreamNode) :
    (health.store idx node).healthy idx now = true ↔
      node.fails < health.config.maxFails ∨ node.checked = 0 ∨
        node.checked ≤ now :=
  healthy_iff (List.getElem?_set_self inside)

/-- Storing the counters of a node leaves the health of every other. -/
theorem healthy_store_other (apart : other ≠ idx) (node : DownstreamNode) :
    (health.store idx node).healthy other now =
      health.healthy other now := by
  have same :
      (health.store idx node).nodes[other]? = health.nodes[other]? :=
    List.getElem?_set_ne apart.symm
  cases found : health.nodes[other]? with
  | none => rw [healthy_of_none (same.trans found), healthy_of_none found]
  | some node' =>
      rw [Bool.eq_iff_iff, healthy_iff (same.trans found),
        healthy_iff found]
      rfl

/-! ## Reports -/

/-- A failure is reported as what it is: `true` if the node was healthy
before it and is unhealthy after it. -/
def ReportsExactly
    (health : DownstreamHealth) (idx : ℕ) (now : UInt32) : Prop :=
  (health.reportFailure idx now).1 = true ↔
    health.healthy idx now = true ∧
      (health.reportFailure idx now).2.healthy idx now = false

/-- The failure stays below the threshold; or the node is healthy, and the
timeout ends later than now. -/
def CrossesOnce
    (health : DownstreamHealth) (idx : ℕ) (now : UInt32) : Prop :=
  ∀ node, health.nodes[idx]? = some node →
    node.fails + 1 < health.config.maxFails ∨
      health.healthy idx now = true ∧
        now < now + health.config.failTimeoutSecs

/-- A deadline that is ahead is not the deadline 0. -/
theorem ahead_iff (deadline : UInt32) :
    ¬ (deadline = 0 ∨ deadline ≤ now) ↔ now < deadline := by
  rw [not_or, UInt32.not_le]
  constructor
  · exact And.right
  · intro ahead
    refine ⟨?_, ahead⟩
    rintro rfl
    exact Nat.not_lt_zero _ (UInt32.lt_iff_toNat_lt.1 ahead)

theorem reportsExactly_iff
    (health : DownstreamHealth) (idx : ℕ) (now : UInt32) :
    health.ReportsExactly idx now ↔ health.CrossesOnce idx now := by
  rw [ReportsExactly, CrossesOnce, reportFailure]
  cases found : health.nodes[idx]? with
  | none => simp [healthy_of_none found]
  | some node =>
      have inside := (List.getElem?_eq_some_iff.1 found).1
      dsimp only
      split
      · next reached =>
        have after :
            (health.store idx ⟨node.fails + 1,
                now + health.config.failTimeoutSecs⟩).healthy idx now =
              false ↔ now < now + health.config.failTimeoutSecs := by
          rw [← Bool.not_eq_true, healthy_store_self inside,
            or_iff_right (UInt32.not_lt.2 reached), ahead_iff]
        simp [after, UInt32.not_lt.2 reached]
      · next below =>
        have low := UInt32.not_le.1 below
        have after :
            (health.store idx ⟨node.fails + 1, node.checked⟩).healthy idx
              now = true :=
          (healthy_store_self inside _).2 (.inl low)
        simp [after, low]

/-! ## Runs of calls -/

/-- The tracker after a call. -/
def after (health : DownstreamHealth) (now : UInt32) :
    HealthCall → DownstreamHealth
  | .isHealthy idx => (health.isHealthy idx now).2
  | .reportSuccess idx => health.reportSuccess idx
  | .reportFailure idx => (health.reportFailure idx now).2

/-- The tracker as a machine; time never runs backwards. -/
def machine : Machine (DownstreamHealth × UInt32) (HealthCall × UInt32) where
  step state label :=
    if state.2 ≤ label.2 then
      some (state.1.after label.2 label.1, label.2)
    else none

/-- No call changes the health of a node it is not about. -/
theorem healthy_after_other
    (call : HealthCall) (apart : other ≠ call.idx) :
    (health.after now call).healthy other later =
      health.healthy other later := by
  cases call with
  | isHealthy idx =>
      rw [after, isHealthy]
      cases health.nodes[idx]? with
      | none => rfl
      | some node =>
          dsimp only
          split
          · rfl
          · split
            · exact healthy_store_other apart _
            · rfl
  | reportSuccess idx => exact healthy_store_other apart _
  | reportFailure idx =>
      rw [after, reportFailure]
      cases health.nodes[idx]? with
      | none => rfl
      | some node =>
          dsimp only
          split
          · exact healthy_store_other apart _
          · exact healthy_store_other apart _

/-- What a call has to do: a failure is reported exactly, and the health of
all other nodes stays. -/
def Faithful
    (state : DownstreamHealth × UInt32) (label : HealthCall × UInt32) :
    Prop :=
  (∀ idx, label.1 = .reportFailure idx →
    state.1.ReportsExactly idx label.2) ∧
  ∀ other, other ≠ label.1.idx → ∀ later,
    (state.1.after label.2 label.1).healthy other later =
      state.1.healthy other later

/-- A failure is below the threshold, or crosses it for the first time. -/
def Crosses
    (state : DownstreamHealth × UInt32) (label : HealthCall × UInt32) :
    Prop :=
  ∀ idx, label.1 = .reportFailure idx → state.1.CrossesOnce idx label.2

/-- Every call of a run does what it has to do exactly if each failure stays
below the threshold, or meets a healthy node and a timeout that ends later
than now. -/
theorem downstreamHealth_faithful_iff
    (start final : DownstreamHealth × UInt32)
    (calls : List (HealthCall × UInt32))
    (ran : machine.run start calls = some final) :
    machine.EachStep Faithful start calls ↔
      machine.EachStep Crosses start calls := by
  refine Machine.eachStep_congr (fun _ => True) Faithful Crosses
    (fun _ _ _ => trivial) ?_ trivial ran
  intro state next label _ _
  constructor
  · rintro ⟨exact_, _⟩ idx failed
    exact (reportsExactly_iff _ _ _).1 (exact_ idx failed)
  · intro crosses
    refine ⟨?_, ?_⟩
    · intro idx failed
      exact (reportsExactly_iff _ _ _).2 (crosses idx failed)
    · intro other apart later
      exact healthy_after_other label.1 apart

/-- One node, excluded for an hour at its second failure. -/
def single : DownstreamHealth :=
  .new 1 ⟨2, 3600, none⟩

/-- Three failures in one second. -/
def threeFailures : List (HealthCall × UInt32) :=
  [(.reportFailure 0, 1000), (.reportFailure 0, 1000),
    (.reportFailure 0, 1000)]

/-- The third failure is reported as a transition of a node that is unhealthy
already. -/
theorem downstreamHealth_repeats :
    ∃ final state : DownstreamHealth × UInt32,
      machine.run (single, 1000) threeFailures = some final ∧
        machine.run (single, 1000) (threeFailures.take 2) = some state ∧
        state.1.healthy 0 1000 = false ∧
        (state.1.reportFailure 0 1000).1 = true ∧
        ¬ machine.EachStep Faithful (single, 1000) threeFailures := by
  refine ⟨_, _, rfl, rfl, by decide, by decide, ?_⟩
  intro each
  have third := (each (threeFailures.take 2) (.reportFailure 0, 1000) [] _
    rfl rfl).1 0 rfl
  exact absurd (third.1 (by decide)).1 (by decide)

theorem downstreamHealth_faithful_twice :
    ∃ final : DownstreamHealth × UInt32,
      machine.run (single, 1000) (threeFailures.take 2) = some final ∧
        machine.EachStep Faithful (single, 1000)
          (threeFailures.take 2) := by
  refine ⟨_, rfl, ?_⟩
  refine (downstreamHealth_faithful_iff (single, 1000) _ _ rfl).2 ?_
  refine (Machine.eachStep_cons_iff rfl).2 ⟨?_, ?_⟩
  · rintro idx ⟨⟩ node ⟨⟩
    exact .inl (by decide)
  · refine (Machine.eachStep_cons_iff rfl).2
      ⟨?_, Machine.eachStep_nil Crosses _⟩
    rintro idx ⟨⟩ node ⟨⟩
    exact .inr (by decide)

end DownstreamHealth

end ByteHub.Lb
