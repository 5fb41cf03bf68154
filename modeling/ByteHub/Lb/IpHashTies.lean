import ByteHub.Lb.IpHashRing

/-!
# Ties on the ring

The virtual nodes of all peers carry the same labels, so nodes of different
peers meet at one hash.  Which of them a client gets is then left to the
unstable sort and to the binary search.  The choice is without effect just
where all nodes a client can land on belong to one peer.
-/

namespace ByteHub.Lb

/-- The order of a sort that puts one peer first among equal hashes. -/
def favours (token : Token) (left right : VirtualNode) : Prop :=
  left.hash < right.hash ∨
    left.hash = right.hash ∧ (left.token = token ∨ right.token ≠ token)

instance (token : Token) : DecidableRel (favours token) :=
  fun left right => by
    unfold favours
    infer_instance

theorem favours_total
    (token : Token) (left right : VirtualNode) :
    favours token left right ∨ favours token right left := by
  rcases Nat.lt_trichotomy left.hash.toNat right.hash.toNat with
    before | same | after
  · exact .inl (.inl (UInt32.lt_iff_toNat_lt.2 before))
  · have equal : left.hash = right.hash := UInt32.toNat_inj.1 same
    by_cases own : left.token = token
    · exact .inl (.inr ⟨equal, .inl own⟩)
    · exact .inr (.inr ⟨equal.symm, .inr own⟩)
  · exact .inr (.inl (UInt32.lt_iff_toNat_lt.2 after))

theorem favours_trans
    {token : Token} {first second third : VirtualNode}
    (before : favours token first second)
    (after : favours token second third) : favours token first third := by
  rcases before with before | ⟨same, own⟩
  · rcases after with after | ⟨same, _⟩
    · exact .inl (UInt32.lt_trans before after)
    · exact .inl (same ▸ before)
  · rcases after with after | ⟨same', own'⟩
    · exact .inl (same ▸ after)
    · refine .inr ⟨same.trans same', ?_⟩
      rcases own with own | other
      · exact .inl own
      · rcases own' with own' | other'
        · exact (other own').elim
        · exact .inr other'

instance (token : Token) : Std.Total (favours token) :=
  ⟨favours_total token⟩

instance (token : Token) : IsTrans VirtualNode (favours token) :=
  ⟨fun _ _ _ => favours_trans⟩

theorem favours.le
    {token : Token} {left right : VirtualNode}
    (before : favours token left right) : left.hash ≤ right.hash := by
  rcases before with before | ⟨same, _⟩
  · exact UInt32.le_of_lt before
  · exact UInt32.le_of_eq same

/-- A sort that puts the nodes of one peer first among equal hashes. -/
def UnstableSort.favouring (token : Token) : UnstableSort where
  sort := List.insertionSort (favours token)
  perm := List.perm_insertionSort _
  sorted nodes := (List.pairwise_insertionSort _ nodes).imp favours.le

theorem UnstableSort.pairwise_favouring
    (token : Token) (nodes : List VirtualNode) :
    ((favouring token).sort nodes).Pairwise (favours token) :=
  List.pairwise_insertionSort _ nodes

namespace IpHash

/-! ## Where a hash lands -/

/-- A virtual node a hash can land on: none is nearer clockwise. -/
structure Lands
    (nodes : List VirtualNode) (hash : UInt32) (node : VirtualNode) :
    Prop where
  member : node ∈ nodes
  nearest :
    (hash ≤ node.hash ∧
      ∀ other ∈ nodes, hash ≤ other.hash → node.hash ≤ other.hash) ∨
    ((∀ other ∈ nodes, other.hash < hash) ∧
      ∀ other ∈ nodes, node.hash ≤ other.hash)

section Lands

variable {nodes : List VirtualNode} {hash : UInt32}
variable {left right : VirtualNode}

theorem Lands.of_perm
    {others : List VirtualNode} (perm : nodes.Perm others)
    (lands : Lands nodes hash left) : Lands others hash left where
  member := perm.mem_iff.1 lands.member
  nearest := by
    rcases lands.nearest with ⟨after, first⟩ | ⟨all, first⟩
    · exact .inl ⟨after, fun other member =>
        first other (perm.mem_iff.2 member)⟩
    · exact .inr ⟨fun other member => all other (perm.mem_iff.2 member),
        fun other member => first other (perm.mem_iff.2 member)⟩

/-- All nodes a hash can land on have the same hash. -/
theorem Lands.hash_le
    (landsLeft : Lands nodes hash left)
    (landsRight : Lands nodes hash right) : left.hash ≤ right.hash := by
  rcases landsLeft.nearest with ⟨afterLeft, first⟩ | ⟨_, first⟩
  · rcases landsRight.nearest with ⟨after, _⟩ | ⟨all, _⟩
    · exact first right landsRight.member after
    · exact absurd afterLeft
        (UInt32.not_le.2 (all left landsLeft.member))
  · exact first right landsRight.member

/-- A node with the hash of one to land on can be landed on as well. -/
theorem Lands.twin
    (lands : Lands nodes hash left) (member : right ∈ nodes)
    (same : right.hash = left.hash) : Lands nodes hash right where
  member := member
  nearest := same ▸ lands.nearest

theorem Lands.hash_eq
    (landsLeft : Lands nodes hash left)
    (landsRight : Lands nodes hash right) : left.hash = right.hash :=
  UInt32.le_antisymm (landsLeft.hash_le landsRight)
    (landsRight.hash_le landsLeft)

private theorem getElem?_le
    (sorted : nodes.Pairwise fun left right => left.hash ≤ right.hash)
    {earlier later : ℕ} (order : earlier ≤ later)
    (here : nodes[earlier]? = some left)
    (there : nodes[later]? = some right) : left.hash ≤ right.hash := by
  rcases List.getElem?_eq_some_iff.1 here with ⟨inside, rfl⟩
  rcases List.getElem?_eq_some_iff.1 there with ⟨inside', rfl⟩
  rcases Nat.eq_or_lt_of_le order with rfl | before
  · exact UInt32.le_refl _
  · exact List.pairwise_iff_getElem.1 sorted _ _ inside inside' before

/-- Every search finds a node the hash can land on. -/
theorem startOf_lands
    (search : BinarySearch) (hash : UInt32)
    (sorted : nodes.Pairwise fun left right => left.hash ≤ right.hash)
    (nonempty : nodes ≠ []) :
    ∃ node, nodes[startOf search nodes hash]? = some node ∧
      Lands nodes hash node := by
  unfold startOf
  cases found : search.search nodes hash with
  | ok idx =>
      rcases search.ok_spec sorted found with ⟨node, here, same⟩
      refine ⟨node, here, List.mem_of_getElem? here, .inl ⟨?_, ?_⟩⟩
      · exact UInt32.le_of_eq same.symm
      · intro other _ after
        rw [same]
        exact after
  | err idx =>
      rcases search.err_spec sorted found with ⟨inside, before, after⟩
      dsimp only
      split
      · next past =>
        rw [List.take_of_length_le past] at before
        cases nodes with
        | nil => exact (nonempty rfl).elim
        | cons first rest =>
            refine ⟨first, rfl, List.mem_cons_self, .inr ⟨before, ?_⟩⟩
            intro other member
            rcases List.mem_iff_getElem?.1 member with ⟨place, there⟩
            exact getElem?_le sorted (Nat.zero_le place) rfl there
      · next within =>
        have short : idx < nodes.length := Nat.lt_of_not_le within
        have here := List.getElem?_eq_getElem short
        have dropped : nodes[idx] ∈ nodes.drop idx := by
          rw [List.drop_eq_getElem_cons short]
          exact List.mem_cons_self
        refine ⟨nodes[idx], here, List.getElem_mem short, .inl ⟨?_, ?_⟩⟩
        · exact UInt32.le_of_lt (after _ dropped)
        · intro other member later
          rcases List.mem_iff_getElem?.1 member with ⟨place, there⟩
          apply getElem?_le sorted ?_ here there
          by_contra early
          have taken : (nodes.take idx)[place]? = some other := by
            rw [List.getElem?_take, if_pos (Nat.lt_of_not_le early), there]
          exact UInt32.not_le.2
            (before other (List.mem_of_getElem? taken)) later

/-- The first match lies at or before every node the hash can land on. -/
theorem startOf_first_le
    {place : ℕ} {node : VirtualNode}
    (here : nodes[place]? = some node) (lands : Lands nodes hash node) :
    startOf .first nodes hash ≤ place := by
  have inside := (List.getElem?_eq_some_iff.1 here).1
  have idx_le (after : hash ≤ node.hash) :
      nodes.findIdx (fun node => hash ≤ node.hash) ≤ place := by
    by_contra past
    have smaller := List.not_of_lt_findIdx (Nat.lt_of_not_le past)
    rw [(List.getElem?_eq_some_iff.1 here).2] at smaller
    exact of_decide_eq_false smaller after
  have idx_eq (all : ∀ other ∈ nodes, other.hash < hash) :
      nodes.findIdx (fun node => hash ≤ node.hash) = nodes.length :=
    List.findIdx_eq_length.2 fun other member =>
      decide_eq_false (UInt32.not_le.2 (all other member))
  rcases lands.nearest with ⟨after, _⟩ | ⟨all, _⟩
  · unfold startOf BinarySearch.first
    dsimp only
    split
    · next found =>
      split at found
      · cases found
        exact idx_le after
      · cases found
    · next found =>
      split at found
      · cases found
      · cases found
        split
        · exact Nat.zero_le _
        · exact idx_le after
  · unfold startOf BinarySearch.first
    simp [idx_eq all]

end Lands

/-! ## The peer of a client -/

/-- No peer is excluded. -/
structure AllHealthy
    (weights : Weights) (config : Option HealthCheckConfig)
    (now : UInt32) (backends : List BackendHealth) : Prop where
  length_eq : backends.length = weights.count
  open_ : ∀ cfg, config = some cfg →
    ∀ backend ∈ backends, excluded cfg now backend = false

/-- The peer a client is routed to, under one choice of sort and search. -/
def routed
    (weights : Weights) (config : Option HealthCheckConfig)
    (backends : List BackendHealth) (client : Client) (now : UInt32)
    (sort : UnstableSort) (search : BinarySearch) : Option Token :=
  (({ new sort weights config with backends := backends } : IpHash).next
    search client now).1

/-- All virtual nodes a client can land on belong to one peer. -/
def OnePeer (weights : Weights) (client : Client) : Prop :=
  ∀ left right : VirtualNode,
    Lands (unsortedRing weights) client.hash left →
      Lands (unsortedRing weights) client.hash right →
        left.token = right.token

section Routed

variable {weights : Weights} {config : Option HealthCheckConfig}
variable {now : UInt32} {backends : List BackendHealth}

theorem unsortedRing_ne_nil (some_ : 1 ≤ weights.count) :
    unsortedRing weights ≠ [] := by
  intro empty
  have member :
      (⟨Chash.chash (label 0), Token.ofPosition 0⟩ : VirtualNode) ∈
        unsortedRing weights :=
    mem_unsortedRing.2 ⟨0, some_,
      List.mem_map.2 ⟨0, List.mem_range.2 (Nat.succ_pos _), rfl⟩⟩
  rw [empty] at member
  cases member

theorem sort_ne_nil (sort : UnstableSort) (some_ : 1 ≤ weights.count) :
    sort.sort (unsortedRing weights) ≠ [] := by
  intro empty
  have perm := sort.perm (unsortedRing weights)
  rw [empty] at perm
  exact unsortedRing_ne_nil some_ perm.nil_eq.symm

/-- A client gets the peer of the node its search finds. -/
theorem routed_eq
    (two : 2 ≤ weights.count)
    (healthy : AllHealthy weights config now backends) (client : Client)
    (sort : UnstableSort) (search : BinarySearch) {node : VirtualNode}
    (here : (sort.sort (unsortedRing weights))[startOf search
      (sort.sort (unsortedRing weights)) client.hash]? = some node) :
    routed weights config backends client now sort search =
      some node.token := by
  have shape := shape_new sort weights config two healthy.length_eq
  have primary :
      ({ new sort weights config with backends := backends } :
          IpHash).primary search client = some node.token := by
    have sorted :
        (new sort weights config).nodes =
          sort.sort (unsortedRing weights) :=
      if_neg (by omega)
    rw [IpHash.primary, ring]
    dsimp only
    rw [sorted, List.head?_rotate (List.getElem?_eq_some_iff.1 here).1,
      here]
    rfl
  cases config with
  | none => rw [routed, next_unchecked shape two, primary]
  | some cfg =>
      have passes (position : ℕ) (inside : position < weights.count) :
          excluded cfg now
            (({ new sort weights (some cfg) with backends := backends } :
              IpHash).backend position) = false := by
        rw [← healthy.length_eq] at inside
        rw [backend, List.getD_eq_getElem?_getD,
          List.getElem?_eq_getElem inside, Option.getD_some]
        exact healthy.open_ cfg rfl _ (List.getElem_mem inside)
      rcases shape.exists_primary two search client with
        ⟨head, headInside, headPrimary⟩
      rcases next_cases shape two search client now with
        ⟨position, inside, _, chosen, first⟩ | ⟨all, _⟩
      · rw [routed, chosen,
          first head headInside headPrimary (passes head headInside),
          ← headPrimary, primary]
      · have open_ := passes head headInside
        rw [all head headInside] at open_
        cases open_

/-- Whatever sort and search do, a client gets the peer of a node it can
land on. -/
theorem routed_lands
    (two : 2 ≤ weights.count)
    (healthy : AllHealthy weights config now backends) (client : Client)
    (sort : UnstableSort) (search : BinarySearch) :
    ∃ node, Lands (unsortedRing weights) client.hash node ∧
      routed weights config backends client now sort search =
        some node.token := by
  have perm := sort.perm (unsortedRing weights)
  rcases startOf_lands search client.hash
      (sort.sorted (unsortedRing weights))
      (sort_ne_nil sort (Nat.le_of_succ_le two)) with
    ⟨node, here, lands⟩
  exact ⟨node, lands.of_perm perm, routed_eq two healthy client _ _ here⟩

/-- Every node a client can land on is landed on under some sort. -/
theorem routed_favouring
    (two : 2 ≤ weights.count)
    (healthy : AllHealthy weights config now backends) {client : Client}
    {node : VirtualNode}
    (lands : Lands (unsortedRing weights) client.hash node) :
    routed weights config backends client now (.favouring node.token)
      .first = some node.token := by
  have perm := (UnstableSort.favouring node.token).perm
    (unsortedRing weights)
  have landsSorted := lands.of_perm perm.symm
  have nonempty :
      (UnstableSort.favouring node.token).sort (unsortedRing weights) ≠
        [] := by
    intro empty
    have member := landsSorted.member
    rw [empty] at member
    cases member
  rcases startOf_lands .first client.hash
      ((UnstableSort.favouring node.token).sorted (unsortedRing weights))
      nonempty with ⟨start, here, landsStart⟩
  rcases List.mem_iff_getElem?.1 landsSorted.member with ⟨place, there⟩
  have same := landsStart.hash_eq landsSorted
  have token : start.token = node.token := by
    rcases Nat.eq_or_lt_of_le (startOf_first_le there landsSorted) with
      equal | before
    · rw [equal, there, Option.some.injEq] at here
      rw [here]
    · rcases List.getElem?_eq_some_iff.1 here with ⟨inside, hereEq⟩
      rcases List.getElem?_eq_some_iff.1 there with ⟨inside', thereEq⟩
      have ordered := List.pairwise_iff_getElem.1
        (UnstableSort.pairwise_favouring node.token
          (unsortedRing weights)) _ _ inside inside' before
      rw [hereEq, thereEq] at ordered
      rcases ordered with smaller | ⟨_, own | other⟩
      · rw [same] at smaller
        exact absurd smaller (UInt32.lt_irrefl _)
      · exact own
      · exact absurd rfl other
  rw [routed_eq two healthy client _ _ here, token]

/-- Routing a client is invariant under the choices of sort and search. -/
def RoutingInvariant
    (weights : Weights) (config : Option HealthCheckConfig)
    (backends : List BackendHealth) (client : Client) (now : UInt32) :
    Prop :=
  ∀ (sort sort' : UnstableSort) (search search' : BinarySearch),
    routed weights config backends client now sort search =
      routed weights config backends client now sort' search'

theorem onePeer_of_routingInvariant
    (two : 2 ≤ weights.count)
    (healthy : AllHealthy weights config now backends) {client : Client}
    (invariant :
      RoutingInvariant weights config backends client now) :
    OnePeer weights client := by
  intro left right landsLeft landsRight
  have same := invariant (.favouring left.token) (.favouring right.token)
    .first .first
  rw [routed_favouring two healthy landsLeft,
    routed_favouring two healthy landsRight, Option.some.injEq] at same
  exact same

/--
With all peers healthy, the peer of a client depends on the weights and the
client alone if and only if all virtual nodes the client can land on belong
to one peer.
-/
theorem routingInvariant_iff
    (two : 2 ≤ weights.count)
    (healthy : AllHealthy weights config now backends)
    (client : Client) :
    RoutingInvariant weights config backends client now ↔
      OnePeer weights client := by
  constructor
  · exact onePeer_of_routingInvariant two healthy
  · intro onePeer sort sort' search search'
    rcases routed_lands two healthy client sort search with
      ⟨left, landsLeft, routedLeft⟩
    rcases routed_lands two healthy client sort' search' with
      ⟨right, landsRight, routedRight⟩
    rw [routedLeft, routedRight, onePeer left right landsLeft landsRight]

end Routed

/-! ## Peers of equal weight -/

/-- Replicas are labelled alike for all peers, so a peer of at least the
same weight has a node wherever another one has. -/
theorem exists_twin
    {weights : Weights} {node : VirtualNode}
    (member : node ∈ unsortedRing weights) :
    ∃ position < weights.count,
      node.token = Token.ofPosition position ∧
      ∀ other < weights.count,
        weights.at position ≤ weights.at other →
          ⟨node.hash, Token.ofPosition other⟩ ∈ unsortedRing weights := by
  rcases mem_unsortedRing.1 member with ⟨position, inside, replica⟩
  rcases List.mem_map.1 replica with ⟨vidx, below, rfl⟩
  refine ⟨position, inside, rfl, ?_⟩
  intro other otherInside heavier
  refine mem_unsortedRing.2
    ⟨other, otherInside, List.mem_map.2 ⟨vidx, ?_, rfl⟩⟩
  have atPlace {place : ℕ} (within : place < weights.count) :
      weights.at place = (weights.values.get ⟨place, within⟩).toNat := by
    rw [Weights.at, List.getD_eq_getElem?_getD,
      List.getElem?_eq_getElem within]
    rfl
  rw [atPlace inside, atPlace otherInside] at heavier
  rw [List.mem_range] at below ⊢
  exact Nat.lt_of_lt_of_le below
    (Nat.succ_le_succ (Nat.mul_le_mul_right _ heavier))

/-- Between peers of equal weight the choices of sort and search decide for
every client. -/
theorem not_routingInvariant_of_equal
    {weights : Weights} {config : Option HealthCheckConfig}
    {now : UInt32} {backends : List BackendHealth}
    (two : 2 ≤ weights.count)
    (healthy : AllHealthy weights config now backends) (client : Client)
    (equal : ∀ position < weights.count, ∀ other < weights.count,
      weights.at position ≤ weights.at other) :
    ¬ RoutingInvariant weights config backends client now := by
  intro invariant
  have onePeer := onePeer_of_routingInvariant two healthy invariant
  rcases routed_lands two healthy client .insertion .first with
    ⟨node, lands, _⟩
  rcases exists_twin lands.member with ⟨position, inside, named, twins⟩
  have everywhere (other : ℕ) (otherInside : other < weights.count) :
      node.token = Token.ofPosition other :=
    onePeer node _ lands
      (lands.twin
        (twins other otherInside (equal position inside other otherInside))
        rfl)
  have same :=
    (everywhere 0 (Nat.lt_of_lt_of_le Nat.two_pos two)).symm.trans
      (everywhere 1 two)
  rw [Token.ofPosition_inj (by decide) (by decide)] at same
  cases same

/-- Two peers of weight one. -/
def evenWeights : Weights where
  values := [1, 1]
  bounded := by decide

/-- The local host. -/
def localhost : Client where
  ip := .v4 fun place => [127, 0, 0, 1].getD place 0
  address := 0

theorem evenWeights_healthy :
    AllHealthy evenWeights none 0
      (List.replicate 2 BackendHealth.fresh) where
  length_eq := rfl
  open_ := by
    intro cfg configured
    cases configured

/-- Two healthy peers, and the sort decides which one serves a client. -/
theorem evenWeights_not_invariant :
    AllHealthy evenWeights none 0 (List.replicate 2 BackendHealth.fresh) ∧
      ¬ RoutingInvariant evenWeights none
        (List.replicate 2 BackendHealth.fresh) localhost 0 := by
  refine ⟨evenWeights_healthy,
    not_routingInvariant_of_equal (by decide) evenWeights_healthy
      localhost ?_⟩
  decide

/-- What decides for the two peers. -/
theorem routingInvariant_iff_evenWeights :
    RoutingInvariant evenWeights none
        (List.replicate 2 BackendHealth.fresh) localhost 0 ↔
      OnePeer evenWeights localhost :=
  routingInvariant_iff (by decide) evenWeights_healthy localhost

end IpHash

end ByteHub.Lb
