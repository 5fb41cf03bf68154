import ByteHub.Lb.IpHash

/-!
# Selections on the ring

The ring never changes, so every selection for a client walks along the same
virtual nodes.  It names the first peer that is not excluded, or, if all of
them are, the peer of the first virtual node.
-/

namespace ByteHub.Lb.IpHash

/-- The virtual nodes in the order of a client's walk. -/
def ring
    (ih : IpHash) (search : BinarySearch) (client : Client) :
    List VirtualNode :=
  ih.nodes.rotate (startOf search ih.nodes client.hash)

/-- The peer whose virtual node comes first. -/
def primary
    (ih : IpHash) (search : BinarySearch) (client : Client) :
    Option Token :=
  (ih.ring search client).head?.map VirtualNode.token

/-- Health of the peer at a position. -/
def backend (ih : IpHash) (position : ℕ) : BackendHealth :=
  ih.backends.getD position BackendHealth.fresh

/-- Change the health of one peer. -/
def alter
    (ih : IpHash) (position : ℕ) (change : BackendHealth → BackendHealth) :
    IpHash :=
  { ih with backends := ih.backends.modify position change }

@[simp]
theorem ring_alter
    (ih : IpHash) (search : BinarySearch) (client : Client)
    (position : ℕ) (change : BackendHealth → BackendHealth) :
    (ih.alter position change).ring search client =
      ih.ring search client :=
  rfl

@[simp]
theorem primary_alter
    (ih : IpHash) (search : BinarySearch) (client : Client)
    (position : ℕ) (change : BackendHealth → BackendHealth) :
    (ih.alter position change).primary search client =
      ih.primary search client :=
  rfl

theorem backend_alter_self
    {ih : IpHash} {position : ℕ} (inside : position < ih.backends.length)
    (change : BackendHealth → BackendHealth) :
    (ih.alter position change).backend position =
      change (ih.backend position) := by
  simp [backend, alter, List.getD_eq_getElem?_getD, inside]

theorem backend_alter_of_ne
    {position other : ℕ} (distinct : other ≠ position) (ih : IpHash)
    (change : BackendHealth → BackendHealth) :
    (ih.alter position change).backend other = ih.backend other := by
  simp [backend, alter, List.getD_eq_getElem?_getD, distinct.symm]

/-! ## Shape -/

/-- What no operation ever changes: the configuration, the number of peers,
and that the ring has virtual nodes of all of them and of nobody else. -/
structure Shape
    (weights : Weights) (config : Option HealthCheckConfig)
    (ih : IpHash) : Prop where
  config_eq : ih.config = config
  total_eq : ih.total = UInt8.ofNat weights.count
  length_eq : ih.backends.length = weights.count
  inside : ∀ node ∈ ih.nodes, ∃ position < weights.count,
    node.token = Token.ofPosition position
  covers : ∀ position < weights.count, ∃ node ∈ ih.nodes,
    node.token = Token.ofPosition position

section Shape

variable {weights : Weights} {config : Option HealthCheckConfig}
variable {ih : IpHash}

theorem mem_unsortedRing {node : VirtualNode} :
    node ∈ unsortedRing weights ↔
      ∃ (position : ℕ) (inside : position < weights.count),
        node ∈ replicas (replicaRatio weights.values) position
          (weights.values.get ⟨position, inside⟩) := by
  simp only [unsortedRing, List.mem_flatten, List.mem_mapIdx]
  constructor
  · rintro ⟨nodes, ⟨position, inside, rfl⟩, member⟩
    exact ⟨position, inside, member⟩
  · rintro ⟨position, inside, member⟩
    exact ⟨_, ⟨position, inside, rfl⟩, member⟩

/-- A balancer as it is built has its shape, whatever the health of its
peers. -/
theorem shape_new
    (sort : UnstableSort) (weights : Weights)
    (config : Option HealthCheckConfig) (two : 2 ≤ weights.count)
    {backends : List BackendHealth}
    (length_eq : backends.length = weights.count) :
    Shape weights config
      { new sort weights config with backends := backends } := by
  have sorted :
      (new sort weights config).nodes =
        sort.sort (unsortedRing weights) :=
    if_neg (by omega)
  refine ⟨rfl, rfl, length_eq, ?_, ?_⟩
  · intro node member
    dsimp only at member
    rw [sorted, (sort.perm _).mem_iff, mem_unsortedRing] at member
    rcases member with ⟨position, inside, member⟩
    rcases List.mem_map.1 member with ⟨vidx, _, rfl⟩
    exact ⟨position, inside, rfl⟩
  · intro position inside
    refine ⟨⟨Chash.chash (label 0), Token.ofPosition position⟩, ?_, rfl⟩
    dsimp only
    rw [sorted, (sort.perm _).mem_iff, mem_unsortedRing]
    exact ⟨position, inside,
      List.mem_map.2 ⟨0, List.mem_range.2 (Nat.succ_pos _), rfl⟩⟩

theorem shape_fresh
    (sort : UnstableSort) (weights : Weights)
    (config : Option HealthCheckConfig) (two : 2 ≤ weights.count) :
    Shape weights config (new sort weights config) :=
  shape_new sort weights config two (List.length_replicate ..)

theorem Shape.alter
    (shape : Shape weights config ih) (position : ℕ)
    (change : BackendHealth → BackendHealth) :
    Shape weights config (ih.alter position change) where
  config_eq := shape.config_eq
  total_eq := shape.total_eq
  length_eq := by
    rw [IpHash.alter, List.length_modify]
    exact shape.length_eq
  inside := shape.inside
  covers := shape.covers

theorem Shape.many
    (shape : Shape weights config ih) (two : 2 ≤ weights.count) :
    ¬ ih.total ≤ 1 := by
  have small : weights.count < 256 := Nat.lt_succ_of_le weights.bounded
  rw [shape.total_eq, UInt8.not_le, UInt8.lt_iff_toNat_lt,
    UInt8.toNat_ofNat_of_lt' small]
  exact two

theorem Shape.inside_ring
    (shape : Shape weights config ih) {search : BinarySearch}
    {client : Client} {node : VirtualNode}
    (member : node ∈ ih.ring search client) :
    ∃ position < weights.count, node.token = Token.ofPosition position :=
  shape.inside node (List.mem_rotate.1 member)

theorem Shape.covers_ring
    (shape : Shape weights config ih) (search : BinarySearch)
    (client : Client) {position : ℕ} (inside : position < weights.count) :
    ∃ node ∈ ih.ring search client,
      node.token = Token.ofPosition position := by
  rcases shape.covers position inside with ⟨node, member, named⟩
  exact ⟨node, List.mem_rotate.2 member, named⟩

theorem Shape.exists_primary
    (shape : Shape weights config ih) (two : 2 ≤ weights.count)
    (search : BinarySearch) (client : Client) :
    ∃ head < weights.count,
      ih.primary search client = some (Token.ofPosition head) := by
  rcases shape.covers_ring search client (Nat.lt_of_lt_of_le Nat.two_pos two)
    with ⟨node, member, _⟩
  cases walk : ih.ring search client with
  | nil =>
      rw [walk] at member
      cases member
  | cons first rest =>
      have front : first ∈ ih.ring search client := by
        rw [walk]
        exact List.mem_cons_self
      rcases shape.inside_ring front with ⟨head, inside, named⟩
      exact ⟨head, inside, by rw [primary, walk, ← named]; rfl⟩

end Shape

/-! ## The walk -/

section Probe

variable {cfg : HealthCheckConfig} {now : UInt32}
variable {backends : List BackendHealth} {nodes : List VirtualNode}

theorem probe_eq_some
    {token : Token} (found : probe cfg now backends nodes = some token) :
    ∃ node ∈ nodes, node.token = token ∧
      excluded cfg now
        (backends.getD node.token.index.toNat BackendHealth.fresh) =
          false := by
  induction nodes with
  | nil => cases found
  | cons node rest inductionHypothesis =>
      rw [probe] at found
      split at found
      · rcases inductionHypothesis found with ⟨other, member, there⟩
        exact ⟨other, List.mem_cons_of_mem _ member, there⟩
      · next passes =>
        cases found
        exact ⟨node, List.mem_cons_self, rfl, Bool.not_eq_true _ ▸ passes⟩

theorem probe_eq_none
    (found : probe cfg now backends nodes = none) :
    ∀ node ∈ nodes,
      excluded cfg now
        (backends.getD node.token.index.toNat BackendHealth.fresh) =
          true := by
  induction nodes with
  | nil =>
      intro node member
      cases member
  | cons first rest inductionHypothesis =>
      rw [probe] at found
      split at found
      · next skipped =>
        intro node member
        rcases List.mem_cons.1 member with rfl | later
        · exact skipped
        · exact inductionHypothesis found node later
      · cases found

end Probe

/-! ## One selection and one report -/

section Steps

variable {weights : Weights} {config : Option HealthCheckConfig}
variable {cfg : HealthCheckConfig} {ih : IpHash}

/-- Without health checks every selection names the first peer. -/
theorem next_unchecked
    (shape : Shape weights none ih) (two : 2 ≤ weights.count)
    (search : BinarySearch) (client : Client) (now : UInt32) :
    ih.next search client now = (ih.primary search client, ih) := by
  rcases ih with ⟨nodes, backends, total, config⟩
  cases shape.config_eq
  rw [next, if_neg (shape.many two)]
  rfl

/-- With health checks the walk decides. -/
theorem next_checked
    (shape : Shape weights (some cfg) ih) (two : 2 ≤ weights.count)
    (search : BinarySearch) (client : Client) (now : UInt32) :
    ih.next search client now =
      match probe cfg now ih.backends (ih.ring search client) with
      | some token =>
          (some token, ih.alter token.index.toNat (recovered cfg))
      | none => (ih.primary search client, ih) := by
  rcases ih with ⟨nodes, backends, total, config⟩
  cases shape.config_eq
  rw [next, if_neg (shape.many two)]
  rfl

/-- What a selection with health checks can do: name a peer that is not
excluded, the first one if it is such a peer, or fall back to the first one
because all are excluded. -/
theorem next_cases
    (shape : Shape weights (some cfg) ih) (two : 2 ≤ weights.count)
    (search : BinarySearch) (client : Client) (now : UInt32) :
    (∃ position < weights.count,
      excluded cfg now (ih.backend position) = false ∧
        ih.next search client now =
          (some (Token.ofPosition position),
            ih.alter position (recovered cfg)) ∧
        ∀ head < weights.count,
          ih.primary search client = some (Token.ofPosition head) →
            excluded cfg now (ih.backend head) = false →
              position = head) ∨
    ((∀ position < weights.count,
        excluded cfg now (ih.backend position) = true) ∧
      ih.next search client now = (ih.primary search client, ih)) := by
  have health {node : VirtualNode} {position : ℕ}
      (inside : position < weights.count)
      (named : node.token = Token.ofPosition position) :
      ih.backends.getD node.token.index.toNat BackendHealth.fresh =
        ih.backend position := by
    rw [named, weights.ofPosition_toNat inside, backend]
  rw [next_checked shape two]
  cases found : probe cfg now ih.backends (ih.ring search client) with
  | some token =>
      left
      rcases probe_eq_some found with ⟨node, member, rfl, passes⟩
      rcases shape.inside_ring member with ⟨position, inside, named⟩
      rw [health inside named] at passes
      refine ⟨position, inside, passes, ?_, ?_⟩
      · dsimp only
        rw [named, weights.ofPosition_toNat inside]
      · intro head headInside first open_
        rw [primary] at first
        cases walk : ih.ring search client with
        | nil =>
            rw [walk] at member
            cases member
        | cons front rest =>
            rw [walk] at first found
            have headNamed : front.token = Token.ofPosition head :=
              Option.some.inj first
            rw [probe, health headInside headNamed, open_,
              if_neg Bool.false_ne_true, Option.some.injEq, named,
              headNamed] at found
            exact ((weights.ofPosition_inj headInside inside).1 found).symm
  | none =>
      right
      refine ⟨?_, rfl⟩
      intro position inside
      rcases shape.covers_ring search client inside with
        ⟨node, member, named⟩
      rw [← health inside named]
      exact probe_eq_none found node member

theorem onFailure_unchecked
    (shape : Shape weights none ih) (now : UInt32) (token : Token) :
    ih.onFailure now token = ih := by
  rcases ih with ⟨nodes, backends, total, config⟩
  cases shape.config_eq
  rfl

theorem onFailure_eq_alter
    (shape : Shape weights (some cfg) ih) (now : UInt32) (token : Token) :
    ih.onFailure now token =
      ih.alter token.index.toNat (failedBackend cfg now) := by
  rcases ih with ⟨nodes, backends, total, config⟩
  cases shape.config_eq
  rfl

theorem onSuccess_eq_alter
    (shape : Shape weights (some cfg) ih) (token : Token) :
    ih.onSuccess token =
      ih.alter token.index.toNat fun _ => BackendHealth.fresh := by
  rcases ih with ⟨nodes, backends, total, config⟩
  cases shape.config_eq
  rfl

theorem onFailure_checked
    (shape : Shape weights (some cfg) ih) (now : UInt32) {position : ℕ}
    (inside : position < weights.count) :
    ih.onFailure now (Token.ofPosition position) =
      ih.alter position (failedBackend cfg now) := by
  rw [onFailure_eq_alter shape, weights.ofPosition_toNat inside]

/-- A change of the backend of a token is one of the peer it names. -/
theorem backend_alter_token
    (shape : Shape weights (some cfg) ih) {position : ℕ}
    (inside : position < weights.count) (token : Token)
    (change : BackendHealth → BackendHealth) :
    (ih.alter token.index.toNat change).backend position =
      if token = Token.ofPosition position then
        change (ih.backend position)
      else ih.backend position := by
  have named :
      token = Token.ofPosition position ↔ token.index.toNat = position :=
    Token.eq_ofPosition_iff (weights.lt_of_inside inside)
  by_cases this : token = Token.ofPosition position
  · rw [if_pos this, named.1 this,
      backend_alter_self (by rwa [shape.length_eq])]
  · rw [if_neg this, backend_alter_of_ne]
    exact fun equal => this (named.2 equal.symm)

end Steps

end ByteHub.Lb.IpHash
