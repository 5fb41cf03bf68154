import ByteHub.Lb.Exclusion
import ByteHub.Lb.IpHashRing

/-!
# Whom a ring serves

The ring stays as it was built, so the peer whose virtual node a client meets
first is the same for ever.  While no failure of this peer is reported, every
selection for the client names it.
-/

namespace ByteHub.Lb.IpHash

/-- The ring is the one that was built, and the peer has no failure on record
and no deadline. -/
structure Unharmed
    (weights : Weights) (config : Option HealthCheckConfig)
    (built : IpHash) (position : ℕ) (ih : IpHash) : Prop where
  shape : Shape weights config ih
  nodes : ih.nodes = built.nodes
  clean : ih.backend position = BackendHealth.fresh

section Unharmed

variable {weights : Weights} {config : Option HealthCheckConfig}
variable {built ih : IpHash} {position : ℕ}

theorem unharmed_new
    (sort : UnstableSort) (weights : Weights)
    (config : Option HealthCheckConfig) (two : 2 ≤ weights.count)
    (position : ℕ) :
    Unharmed weights config (new sort weights config) position
      (new sort weights config) where
  shape := shape_fresh sort weights config two
  nodes := rfl
  clean := by
    change (List.replicate weights.count BackendHealth.fresh).getD position
      BackendHealth.fresh = BackendHealth.fresh
    rw [List.getD_eq_getElem?_getD, List.getElem?_replicate]
    split <;> rfl

/-- A peer that is as new is not excluded. -/
theorem excluded_fresh (cfg : HealthCheckConfig) (now : UInt32) :
    excluded cfg now BackendHealth.fresh = false := by
  have early : ¬ now < BackendHealth.fresh.checked := UInt32.not_lt_zero
  rw [excluded, decide_eq_false early, Bool.and_false]

theorem recovered_of_fresh (cfg : HealthCheckConfig) :
    recovered cfg BackendHealth.fresh = BackendHealth.fresh := by
  unfold recovered
  split <;> rfl

theorem Unharmed.next
    (unharmed : Unharmed weights config built position ih)
    (two : 2 ≤ weights.count) (search : BinarySearch) (client : Client)
    (now : UInt32) :
    Unharmed weights config built position
      (ih.next search client now).2 := by
  cases config with
  | none =>
      rw [next_unchecked unharmed.shape two]
      exact unharmed
  | some cfg =>
      rcases next_cases unharmed.shape two search client now with
        ⟨chosen, chosenInside, _, moved, _⟩ | ⟨_, moved⟩
      · rw [moved]
        refine ⟨unharmed.shape.alter _ _, unharmed.nodes, ?_⟩
        by_cases same : position = chosen
        · subst same
          rw [backend_alter_self (by rwa [unharmed.shape.length_eq]),
            unharmed.clean, recovered_of_fresh]
        · rw [backend_alter_of_ne same, unharmed.clean]
      · rw [moved]
        exact unharmed

theorem Unharmed.onSuccess
    (unharmed : Unharmed weights config built position ih)
    (inside : position < weights.count) (token : Token) :
    Unharmed weights config built position (ih.onSuccess token) := by
  cases config with
  | none =>
      rcases ih with ⟨nodes, backends, total, config⟩
      cases unharmed.shape.config_eq
      exact unharmed
  | some cfg =>
      rw [onSuccess_eq_alter unharmed.shape]
      refine ⟨unharmed.shape.alter _ _, unharmed.nodes, ?_⟩
      rw [backend_alter_token unharmed.shape inside, unharmed.clean,
        ite_self]

theorem Unharmed.onFailure
    (unharmed : Unharmed weights config built position ih)
    (inside : position < weights.count) {token : Token}
    (other : token ≠ Token.ofPosition position) (now : UInt32) :
    Unharmed weights config built position (ih.onFailure now token) := by
  cases config with
  | none =>
      rw [onFailure_unchecked unharmed.shape]
      exact unharmed
  | some cfg =>
      rw [onFailure_eq_alter unharmed.shape]
      refine ⟨unharmed.shape.alter _ _, unharmed.nodes, ?_⟩
      rw [backend_alter_token unharmed.shape inside, if_neg other,
        unharmed.clean]

/-- A call that reports no failure of the peer. -/
theorem Unharmed.perform
    (unharmed : Unharmed weights config built position ih)
    (two : 2 ≤ weights.count) (inside : position < weights.count)
    (search : BinarySearch) {call : Balancer.Call}
    (harmless : call ≠ .onFailure (Token.ofPosition position))
    (now : UInt32) :
    ∃ after, (Balancer.ipHash search ih).perform call now =
        .ipHash search after ∧
      Unharmed weights config built position after := by
  cases call with
  | next client => exact ⟨_, rfl, unharmed.next two search client now⟩
  | onSuccess token => exact ⟨_, rfl, unharmed.onSuccess inside token⟩
  | onFailure token =>
      refine ⟨_, rfl, unharmed.onFailure inside ?_ now⟩
      rintro rfl
      exact harmless rfl

/-- A client whose first virtual node is the peer's is given the peer. -/
theorem Unharmed.next_eq
    (unharmed : Unharmed weights config built position ih)
    (two : 2 ≤ weights.count) (inside : position < weights.count)
    {search : BinarySearch} {client : Client}
    (first : built.primary search client =
      some (Token.ofPosition position))
    (now : UInt32) :
    (ih.next search client now).1 = some (Token.ofPosition position) := by
  have primary : ih.primary search client =
      some (Token.ofPosition position) := by
    rw [IpHash.primary, ring, unharmed.nodes]
    exact first
  cases config with
  | none => rw [next_unchecked unharmed.shape two, primary]
  | some cfg =>
      rcases next_cases unharmed.shape two search client now with
        ⟨chosen, _, _, moved, nearest⟩ | ⟨_, moved⟩
      · have passes :
            excluded cfg now (ih.backend position) = false := by
          rw [unharmed.clean]
          exact excluded_fresh cfg now
        rw [moved, nearest position inside primary passes]
      · rw [moved, primary]

end Unharmed

end ByteHub.Lb.IpHash
