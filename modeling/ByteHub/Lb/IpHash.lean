import Mathlib.Data.List.Rotate
import Mathlib.Data.List.Sort
import ByteHub.Lb.Peer

/-!
# The IP hash balancer

Every peer owns a number of virtual nodes on a ring of 32-bit hashes.  A
selection starts at the first virtual node at or after the client's hash and
walks clockwise to the first one whose peer is not excluded.  Health is kept
per peer, beside the ring.

Two choices are left open by the standard library: the order in which the
unstable sort leaves equal hashes, and which of several matching positions
the binary search reports.  Both are parameters with their documented
contracts.  All `u32` arithmetic wraps as in a release build.
-/

namespace ByteHub.Lb

/-! ## Hashing -/

namespace Chash

def seed : UInt32 := 0xbc9f1d34

def multiplier : UInt32 := 0xc6a4a793

/-- Four bytes, the least significant one first. -/
def word (b0 b1 b2 b3 : UInt8) : UInt32 :=
  UInt32.ofNat b0.toNat ||| UInt32.ofNat b1.toNat <<< 8 |||
    UInt32.ofNat b2.toNat <<< 16 ||| UInt32.ofNat b3.toNat <<< 24

/-- Fold one word into the hash. -/
def mix (h w : UInt32) : UInt32 :=
  let product := (h + w) * multiplier
  product ^^^ product >>> 16

/-- The state before the first word. -/
def start (length : ℕ) : UInt32 :=
  seed ^^^ UInt32.ofNat length * multiplier

/-- The last one to three bytes. -/
def finish (h : UInt32) (tail : List UInt8) : UInt32 :=
  match tail with
  | [b0] => last (h + UInt32.ofNat b0.toNat)
  | [b0, b1] =>
      last (h + UInt32.ofNat b1.toNat <<< 8 + UInt32.ofNat b0.toNat)
  | [b0, b1, b2] =>
      last (h + UInt32.ofNat b2.toNat <<< 16 +
        UInt32.ofNat b1.toNat <<< 8 + UInt32.ofNat b0.toNat)
  | _ => h
where
  last (h : UInt32) : UInt32 :=
    let product := h * multiplier
    product ^^^ product >>> 24

/-- The word loop. -/
def absorb (h : UInt32) : List UInt8 → UInt32
  | b0 :: b1 :: b2 :: b3 :: rest => absorb (mix h (word b0 b1 b2 b3)) rest
  | tail => finish h tail

/-- Hash of a byte slice. -/
def chash (buf : List UInt8) : UInt32 :=
  absorb (start buf.length) buf

/-- The whole words of a slice, the part `align_to` calls the middle. -/
def words : List UInt8 → List UInt32
  | b0 :: b1 :: b2 :: b3 :: rest => word b0 b1 b2 b3 :: words rest
  | _ => []

/--
Hash of an address through `align_to`.  The bytes before the first aligned
address and after the last whole word are not looked at.
-/
def chashForIp (address : ℕ) (buf : List UInt8) : UInt32 :=
  (words (buf.drop ((4 - address % 4) % 4))).foldl mix (start buf.length)

end Chash

/-- Client address. -/
inductive IpAddr where
  | v4 (octets : Fin 4 → UInt8)
  | v6 (octets : Fin 16 → UInt8)

def IpAddr.octets : IpAddr → List UInt8
  | .v4 octets => List.ofFn octets
  | .v6 octets => List.ofFn octets

/--
The client of a call: its address and where in memory the octets of the
address are placed when they are hashed.
-/
structure Client where
  ip : IpAddr
  address : ℕ

/-- The hash a selection starts from. -/
def Client.hash (client : Client) : UInt32 :=
  Chash.chashForIp client.address client.ip.octets

/-! ## The ring -/

/-- Virtual node. -/
structure VirtualNode where
  hash : UInt32
  token : Token
deriving DecidableEq, Repr

/-- Replicas per unit of weight. -/
def replicaRatio (weights : List UInt8) : ℕ :=
  let max := (weights.map UInt8.toNat).foldr max 0
  if 128 ≤ max then 1
  else if max = 0 then 255
  else (128 + max - 1) / max

/-- The bytes `"{vidx} 114514"`, a virtual node's label. -/
def label (vidx : ℕ) : List UInt8 :=
  (Nat.toDigits 10 vidx ++ " 114514".toList).map fun c =>
    UInt8.ofNat c.toNat

/-- The virtual nodes of one peer, replica `0..=weight * ratio`. -/
def replicas (ratio position : ℕ) (weight : UInt8) : List VirtualNode :=
  (List.range (weight.toNat * ratio + 1)).map fun vidx =>
    ⟨Chash.chash (label vidx), Token.ofPosition position⟩

/-- The virtual nodes in the order they are pushed. -/
def unsortedRing (weights : Weights) : List VirtualNode :=
  (weights.values.mapIdx (replicas (replicaRatio weights.values))).flatten

/-- Contract of `sort_unstable_by_key` on the hash. -/
structure UnstableSort where
  sort : List VirtualNode → List VirtualNode
  perm : ∀ nodes, List.Perm (sort nodes) nodes
  sorted : ∀ nodes, (sort nodes).Pairwise fun left right =>
    left.hash ≤ right.hash

/-- Answer of a binary search: a match, or where one could be inserted. -/
inductive Found where
  | ok (idx : ℕ)
  | err (idx : ℕ)
deriving DecidableEq, Repr

/-- Contract of `binary_search_by_key` on the hash. -/
structure BinarySearch where
  search : List VirtualNode → UInt32 → Found
  ok_spec : ∀ {nodes : List VirtualNode} {hash : UInt32} {idx : ℕ},
    (nodes.Pairwise fun left right => left.hash ≤ right.hash) →
      search nodes hash = .ok idx →
        ∃ node, nodes[idx]? = some node ∧ node.hash = hash
  err_spec : ∀ {nodes : List VirtualNode} {hash : UInt32} {idx : ℕ},
    (nodes.Pairwise fun left right => left.hash ≤ right.hash) →
      search nodes hash = .err idx →
        idx ≤ nodes.length ∧
        (∀ node ∈ nodes.take idx, node.hash < hash) ∧
        ∀ node ∈ nodes.drop idx, hash < node.hash

/-- A sort that meets its contract. -/
def UnstableSort.insertion : UnstableSort where
  sort := List.insertionSort fun left right => left.hash ≤ right.hash
  perm := List.perm_insertionSort _
  sorted nodes := by
    have total :
        Std.Total fun left right : VirtualNode =>
          left.hash ≤ right.hash :=
      ⟨fun left right => UInt32.le_total left.hash right.hash⟩
    have trans :
        IsTrans VirtualNode fun left right => left.hash ≤ right.hash :=
      ⟨fun _ _ _ => UInt32.le_trans⟩
    exact List.pairwise_insertionSort _ nodes

/-- A search that meets its contract: it looks for the first virtual node at
or after the hash. -/
def BinarySearch.first : BinarySearch where
  search nodes hash :=
    let idx := nodes.findIdx fun node => hash ≤ node.hash
    if nodes[idx]?.any fun node => node.hash = hash then .ok idx
    else .err idx
  ok_spec := by
    intro nodes hash idx _ found
    dsimp only at found
    split at found
    · next matched =>
      cases found
      rcases (Option.any_eq_true _ _).1 matched with ⟨node, here, equal⟩
      exact ⟨node, here, of_decide_eq_true equal⟩
    · cases found
  err_spec := by
    intro nodes hash idx sorted found
    dsimp only at found
    split at found
    · cases found
    · next unmatched =>
      cases found
      refine ⟨List.findIdx_le_length, ?_, ?_⟩
      · intro node member
        rcases List.mem_take_iff_getElem.1 member with ⟨i, before, rfl⟩
        have smaller := List.not_of_lt_findIdx
          (Nat.lt_of_lt_of_le before (Nat.min_le_left _ _))
        exact UInt32.not_le.1 (of_decide_eq_false smaller)
      · intro node member
        rcases List.mem_drop_iff_getElem.1 member with ⟨i, inside, rfl⟩
        rw [Nat.add_comm] at inside
        have here : nodes.findIdx (fun node => hash ≤ node.hash) <
            nodes.length :=
          Nat.lt_of_le_of_lt (Nat.le_add_right _ i) inside
        have reached :
            hash ≤ (nodes[nodes.findIdx fun node => hash ≤ node.hash]).hash :=
          of_decide_eq_true (@List.findIdx_getElem _ _ _ here)
        rw [List.getElem?_eq_getElem here, Option.any_some,
          decide_eq_true_iff] at unmatched
        have past :=
          UInt32.lt_of_le_of_ne reached (Ne.symm unmatched)
        rcases Nat.eq_zero_or_pos i with rfl | later
        · exact past
        · exact UInt32.lt_of_lt_of_le past
            (List.pairwise_iff_getElem.1 sorted _ _ here inside
              (Nat.lt_add_of_pos_right later))

/-- Health state of a backend. -/
structure BackendHealth where
  fails : UInt32
  checked : UInt32
deriving DecidableEq, Repr

def BackendHealth.fresh : BackendHealth where
  fails := 0
  checked := 0

/-- IP hash balancer. -/
structure IpHash where
  nodes : List VirtualNode
  backends : List BackendHealth
  total : UInt8
  config : Option HealthCheckConfig
deriving DecidableEq, Repr

namespace IpHash

/-- Constructor: lists of at most one weight get no ring at all. -/
def new
    (sort : UnstableSort) (weights : Weights)
    (config : Option HealthCheckConfig) : IpHash where
  nodes :=
    if weights.count ≤ 1 then [] else sort.sort (unsortedRing weights)
  backends := List.replicate weights.count BackendHealth.fresh
  total := UInt8.ofNat weights.count
  config := config

/-! ## Selection -/

/-- The ring position a hash starts from. -/
def startOf
    (search : BinarySearch) (nodes : List VirtualNode) (hash : UInt32) :
    ℕ :=
  match search.search nodes hash with
  | .ok idx => idx
  | .err idx => if nodes.length ≤ idx then 0 else idx

/-- Whether a backend is inside its exclusion window. -/
def excluded
    (cfg : HealthCheckConfig) (now : UInt32) (backend : BackendHealth) :
    Bool :=
  cfg.maxFails ≤ backend.fails && now < backend.checked

/-- What a selection leaves of the selected backend. -/
def recovered
    (cfg : HealthCheckConfig) (backend : BackendHealth) : BackendHealth :=
  if cfg.maxFails ≤ backend.fails then BackendHealth.fresh else backend

/-- Clockwise walk to the first virtual node of a backend not excluded. -/
def probe
    (cfg : HealthCheckConfig) (now : UInt32)
    (backends : List BackendHealth) : List VirtualNode → Option Token
  | [] => none
  | node :: rest =>
      if excluded cfg now
          (backends.getD node.token.index.toNat BackendHealth.fresh) then
        probe cfg now backends rest
      else some node.token

/-- Select the next peer. -/
def next
    (ih : IpHash) (search : BinarySearch) (client : Client)
    (now : UInt32) : Option Token × IpHash :=
  if ih.total ≤ 1 then (some ⟨0⟩, ih)
  else
    let start := startOf search ih.nodes client.hash
    let ring := ih.nodes.rotate start
    match ih.config with
    | none => (ring.head?.map VirtualNode.token, ih)
    | some cfg =>
        match probe cfg now ih.backends ring with
        | some token =>
            (some token,
              { ih with
                backends :=
                  ih.backends.modify token.index.toNat (recovered cfg) })
        | none => (ring.head?.map VirtualNode.token, ih)

/-! ## Health reports -/

/-- Record success for a peer. -/
def onSuccess (ih : IpHash) (token : Token) : IpHash :=
  match ih.config with
  | none => ih
  | some _ =>
      { ih with
        backends :=
          ih.backends.modify token.index.toNat fun _ =>
            BackendHealth.fresh }

/--
The failure update of a backend.  Every failure at or past `max_fails` sets
the deadline anew.
-/
def failedBackend
    (cfg : HealthCheckConfig) (now : UInt32) (backend : BackendHealth) :
    BackendHealth :=
  let fails := backend.fails + 1
  if cfg.maxFails ≤ fails then
    { fails := fails, checked := now + cfg.failTimeoutSecs }
  else { backend with fails := fails }

/-- Record failure for a peer. -/
def onFailure (ih : IpHash) (now : UInt32) (token : Token) : IpHash :=
  match ih.config with
  | none => ih
  | some cfg =>
      { ih with
        backends :=
          ih.backends.modify token.index.toNat (failedBackend cfg now) }

end IpHash

end ByteHub.Lb
