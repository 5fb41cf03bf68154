import ByteHub.Lb.ChashWords
import ByteHub.Lb.IpHashTies
import ByteHub.Library.Circle
import Mathlib.Data.Fin.VecNotation
import Mathlib.Tactic.FinCases

/-!
# Arcs of the ring

An aligned address of four bytes is hashed by steps that can be undone, so
each hash is that of just one address.  A search starts at the nearest hash
clockwise that a virtual node carries.  So as many addresses start at a hash
as there are hashes on the arc that ends at it.
-/

namespace ByteHub.Lb

open ByteHub.Library

/-! ## The hash of an address -/

namespace Chash

theorem word_bijective :
    Function.Bijective fun octets : Fin 4 → UInt8 =>
      word (octets 0) (octets 1) (octets 2) (octets 3) := by
  constructor
  · intro octets others same
    rcases word_inj.1 same with ⟨first, second, third, fourth⟩
    funext place
    fin_cases place
    · exact first
    · exact second
    · exact third
    · exact fourth
  · intro w
    exact
      ⟨![w.toUInt8, (w >>> 8).toUInt8, (w >>> 16).toUInt8,
        (w >>> 24).toUInt8], word_bytes w⟩

/-- Each hash is that of one address of four bytes. -/
theorem chash_v4_bijective :
    Function.Bijective fun octets : Fin 4 → UInt8 =>
      chash (IpAddr.v4 octets).octets := by
  simp only [chash_v4]
  exact (mix_bijective (start 4)).comp word_bijective

end Chash

/-- At an aligned place the hash of a client is that of its bytes. -/
theorem Client.hash_v4
    {address : ℕ} (aligned : address % 4 = 0) (octets : Fin 4 → UInt8) :
    Client.hash ⟨.v4 octets, address⟩ =
      Chash.chash (IpAddr.v4 octets).octets := by
  apply Chash.chashForIp_aligned aligned
  simp [IpAddr.octets]

/-! ## The circle of hashes -/

/-- The hashes around the ring. -/
def hashCircle : Circle UInt32 where
  size := 2 ^ 32
  steps a b := (b - a).toNat
  steps_lt a b := (b - a).toNat_lt
  eq_of_steps := by
    intro a b none
    have smallA := a.toNat_lt
    have smallB := b.toNat_lt
    rw [UInt32.toNat_sub] at none
    apply UInt32.toNat_inj.1
    omega
  steps_via a b c := by
    have smallA := a.toNat_lt
    have smallB := b.toNat_lt
    have smallC := c.toNat_lt
    simp only [UInt32.toNat_sub]
    omega
  exists_steps := by
    intro count small b
    refine ⟨b - UInt32.ofNat count, ?_⟩
    have smallB := b.toNat_lt
    rw [UInt32.toNat_sub, UInt32.toNat_sub,
      UInt32.toNat_ofNat_of_lt' small]
    omega

section Steps

variable {start left right : UInt32}

theorem steps_of_le (after : start ≤ left) :
    hashCircle.steps start left = left.toNat - start.toNat := by
  have small := left.toNat_lt
  have order := UInt32.le_iff_toNat_le.1 after
  change (left - start).toNat = _
  rw [UInt32.toNat_sub]
  omega

/-- The way to a smaller hash leads past the largest one. -/
theorem steps_of_lt (before : left < start) :
    hashCircle.steps start left =
      left.toNat + 2 ^ 32 - start.toNat := by
  have small := start.toNat_lt
  have order := UInt32.lt_iff_toNat_lt.1 before
  change (left - start).toNat = _
  rw [UInt32.toNat_sub]
  omega

theorem steps_lt_of_lt (after : start ≤ left) (before : right < start) :
    hashCircle.steps start left < hashCircle.steps start right := by
  have small := left.toNat_lt
  have order := UInt32.le_iff_toNat_le.1 after
  rw [steps_of_le after, steps_of_lt before]
  omega

theorem steps_le_iff_of_le
    (after : start ≤ left) (after' : start ≤ right) :
    hashCircle.steps start left ≤ hashCircle.steps start right ↔
      left ≤ right := by
  rw [steps_of_le after, steps_of_le after']
  rw [UInt32.le_iff_toNat_le] at *
  omega

theorem steps_le_iff_of_lt
    (before : left < start) (before' : right < start) :
    hashCircle.steps start left ≤ hashCircle.steps start right ↔
      left ≤ right := by
  have small := start.toNat_lt
  rw [steps_of_lt before, steps_of_lt before', UInt32.le_iff_toNat_le]
  omega

end Steps

/-! ## Where a search starts -/

/-- Virtual nodes in the order of their hashes. -/
structure HashRing where
  nodes : List VirtualNode
  sorted : nodes.Pairwise fun left right => left.hash ≤ right.hash

namespace HashRing

/-- The ring of a new balancer. -/
def new
    (sort : UnstableSort) (weights : Weights)
    (config : Option HealthCheckConfig) : HashRing where
  nodes := (IpHash.new sort weights config).nodes
  sorted := by
    rw [IpHash.new]
    dsimp only
    split
    · exact List.Pairwise.nil
    · exact sort.sorted _

variable (ring : HashRing)

/-- The hashes that are carried by a virtual node. -/
def occupied : Set UInt32 :=
  {hash | ∃ node ∈ ring.nodes, node.hash = hash}

theorem finite_occupied : ring.occupied.Finite :=
  (List.finite_toSet ring.nodes).image VirtualNode.hash

/-- The hash of the virtual node that the search for a client starts at. -/
def startsAt (search : BinarySearch) (client : Client) : Option UInt32 :=
  ring.nodes[IpHash.startOf search ring.nodes client.hash]?.map
    VirtualNode.hash

/-- A hash lands on the nodes that are nearest clockwise. -/
theorem lands_iff_nearest
    {nodes : List VirtualNode} {hash : UInt32} {node : VirtualNode} :
    IpHash.Lands nodes hash node ↔
      node ∈ nodes ∧ ∀ other ∈ nodes,
        hashCircle.steps hash node.hash ≤
          hashCircle.steps hash other.hash := by
  constructor
  · rintro ⟨member, ⟨after, first⟩ | ⟨all, first⟩⟩
    · refine ⟨member, ?_⟩
      intro other there
      by_cases later : hash ≤ other.hash
      · rw [steps_le_iff_of_le after later]
        exact first other there later
      · exact Nat.le_of_lt
          (steps_lt_of_lt after (UInt32.not_le.1 later))
    · refine ⟨member, ?_⟩
      intro other there
      rw [steps_le_iff_of_lt (all node member) (all other there)]
      exact first other there
  · rintro ⟨member, nearest⟩
    refine ⟨member, ?_⟩
    by_cases after : hash ≤ node.hash
    · refine .inl ⟨after, ?_⟩
      intro other there later
      exact (steps_le_iff_of_le after later).1 (nearest other there)
    · have before := UInt32.not_le.1 after
      -- A node at or after the hash would be nearer than this one.
      have all : ∀ other ∈ nodes, other.hash < hash := by
        intro other there
        by_contra later
        exact Nat.not_lt.2 (nearest other there)
          (steps_lt_of_lt (UInt32.not_lt.1 later) before)
      refine .inr ⟨all, ?_⟩
      intro other there
      exact (steps_le_iff_of_lt before (all other there)).1
        (nearest other there)

theorem lands_iff_nearest_occupied
    {hash : UInt32} {node : VirtualNode} (member : node ∈ ring.nodes) :
    IpHash.Lands ring.nodes hash node ↔
      hashCircle.Nearest ring.occupied hash node.hash := by
  rw [lands_iff_nearest]
  constructor
  · rintro ⟨_, nearest⟩
    refine ⟨⟨node, member, rfl⟩, ?_⟩
    rintro _ ⟨other, there, rfl⟩
    exact nearest other there
  · rintro ⟨_, nearest⟩
    refine ⟨member, ?_⟩
    intro other there
    exact nearest other.hash ⟨other, there, rfl⟩

/-- The search starts at the nearest hash clockwise, whichever of the nodes
with that hash it finds. -/
theorem startsAt_eq_some_iff
    (search : BinarySearch) (client : Client) (position : UInt32) :
    ring.startsAt search client = some position ↔
      hashCircle.Nearest ring.occupied client.hash position := by
  by_cases nonempty : ring.nodes = []
  · constructor
    · intro starts
      simp [startsAt, nonempty] at starts
    · rintro ⟨⟨node, member, _⟩, _⟩
      rw [nonempty] at member
      exact (List.not_mem_nil member).elim
  · rcases IpHash.startOf_lands search client.hash ring.sorted nonempty with
      ⟨node, here, lands⟩
    rw [startsAt, here, Option.map_some, Option.some_inj]
    constructor
    · rintro rfl
      exact (ring.lands_iff_nearest_occupied lands.member).1 lands
    · intro nearest
      rcases nearest.1 with ⟨other, member, rfl⟩
      exact lands.hash_eq
        ((ring.lands_iff_nearest_occupied member).2 nearest)

/--
Each hash is that of one address of four bytes.  So the search starts at an
occupied hash for as many addresses as there are hashes on the arc that ends
there, and begins just after the occupied hash before it.
-/
theorem ncard_startsAt
    {place : (Fin 4 → UInt8) → ℕ}
    (aligned : ∀ octets, place octets % 4 = 0) :
    (∀ order : Chash.ByteOrder,
      Function.Bijective fun octets : Fin 4 → UInt8 =>
        order.chashForIp (place octets) (IpAddr.v4 octets).octets) ∧
    ∀ (ring : HashRing) (search : BinarySearch),
      ∀ position ∈ ring.occupied,
        (∃! previous,
          hashCircle.Precedes ring.occupied previous position) ∧
        ∀ previous,
          hashCircle.Precedes ring.occupied previous position →
            {octets : Fin 4 → UInt8 |
              ring.startsAt search ⟨.v4 octets, place octets⟩ =
                some position}.ncard =
              hashCircle.length previous position := by
  refine ⟨?_, ?_⟩
  · intro order
    have hashed :
        (fun octets : Fin 4 → UInt8 =>
          order.chashForIp (place octets) (IpAddr.v4 octets).octets) =
          fun octets => Chash.chash (IpAddr.v4 octets).octets := by
      funext octets
      rw [order.chashForIp_eq]
      exact Client.hash_v4 (aligned octets) octets
    rw [hashed]
    exact Chash.chash_v4_bijective
  · intro ring search position isTaken
    refine ⟨Circle.existsUnique_precedes ring.finite_occupied isTaken, ?_⟩
    intro previous precedes
    have starting :
        {octets : Fin 4 → UInt8 |
            ring.startsAt search ⟨.v4 octets, place octets⟩ =
              some position} =
          Set.preimage
            (fun octets => Chash.chash (IpAddr.v4 octets).octets)
            (hashCircle.arc previous position) := by
      ext octets
      rw [Set.mem_ofPred_eq, startsAt_eq_some_iff,
        precedes.nearest_iff isTaken, Client.hash_v4 (aligned octets)]
      rfl
    rw [starting, Set.ncard_preimage_of_injective_subset_range
      Chash.chash_v4_bijective.injective, Circle.ncard_arc]
    rw [Chash.chash_v4_bijective.surjective.range_eq]
    exact Set.subset_univ _

/-- Two virtual nodes ten hashes apart. -/
def tenApart : HashRing where
  nodes := [⟨10, ⟨0⟩⟩, ⟨20, ⟨1⟩⟩]
  sorted := by
    decide

/-- Ten addresses start at the second node. -/
theorem ncard_startsAt_tenApart :
    {octets : Fin 4 → UInt8 |
      tenApart.startsAt .first ⟨.v4 octets, 0⟩ = some 20}.ncard = 10 := by
  have isTaken : (20 : UInt32) ∈ tenApart.occupied :=
    ⟨⟨20, ⟨1⟩⟩, by decide, rfl⟩
  have precedes : hashCircle.Precedes tenApart.occupied 10 20 := by
    refine ⟨⟨⟨10, ⟨0⟩⟩, by decide, rfl⟩, ?_⟩
    rintro _ ⟨node, member, rfl⟩ inside
    change node ∈ [(⟨10, ⟨0⟩⟩ : VirtualNode), ⟨20, ⟨1⟩⟩] at member
    simp only [List.mem_cons, List.not_mem_nil, or_false] at member
    rcases member with rfl | rfl
    · change hashCircle.steps 10 20 < hashCircle.length 10 20 at inside
      rw [Circle.length_of_ne (by decide)] at inside
      exact (Nat.lt_irrefl _ inside).elim
    · rfl
  exact
    ((ncard_startsAt (fun _ => rfl)).2 tenApart .first 20 isTaken).2 10
      precedes

end HashRing

end ByteHub.Lb
