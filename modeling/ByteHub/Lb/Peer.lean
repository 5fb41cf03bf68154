import Mathlib.Algebra.Ring.Nat
import Mathlib.Data.List.Basic

/-!
# Peers, weights and the health-check configuration

The types every balancing strategy shares: peer tokens, the health-check
configuration of an endpoint, and the weights list a balancer is built from.
-/

namespace ByteHub.Lb

/-- A sum of 32-bit numbers that does not wrap. -/
theorem toNat_add_of_lt
    {left right : UInt32} (fits : left.toNat + right.toNat < 2 ^ 32) :
    (left + right).toNat = left.toNat + right.toNat := by
  rw [UInt32.toNat_add]
  exact Nat.mod_eq_of_lt fits

/-- Peer token. -/
structure Token where
  index : UInt8
deriving DecidableEq, Repr

/-- The token of the peer at a position of the weights list, cast to `u8`. -/
def Token.ofPosition (position : ℕ) : Token :=
  ⟨UInt8.ofNat position⟩

theorem Token.ofPosition_toNat
    {position : ℕ} (small : position < 256) :
    (Token.ofPosition position).index.toNat = position := by
  simpa [Token.ofPosition] using Nat.mod_eq_of_lt small

theorem Token.ofPosition_inj
    {left right : ℕ} (leftSmall : left < 256) (rightSmall : right < 256) :
    Token.ofPosition left = Token.ofPosition right ↔ left = right := by
  constructor
  · intro equal
    rw [← Token.ofPosition_toNat leftSmall, equal,
      Token.ofPosition_toNat rightSmall]
  · rintro rfl
    rfl

theorem Token.eq_ofPosition_iff
    {token : Token} {position : ℕ} (small : position < 256) :
    token = Token.ofPosition position ↔ token.index.toNat = position := by
  constructor
  · rintro rfl
    exact Token.ofPosition_toNat small
  · rintro rfl
    simp [Token.ofPosition]

/-- Health check configuration for downstream node failover. -/
structure HealthCheckConfig where
  /-- Consecutive failures before a node is marked unhealthy. -/
  maxFails : UInt32
  /-- Seconds an unhealthy node stays excluded. -/
  failTimeoutSecs : UInt32
  /-- Connect latency in milliseconds above which an attempt has failed. -/
  maxLatencyMs : Option UInt32
deriving DecidableEq, Repr

/--
A weights list a balancer accepts.  The bound is the assertion at the head
of both constructors, `weights.len() <= u8::MAX as usize`.
-/
structure Weights where
  values : List UInt8
  bounded : values.length ≤ 255

/-- The number of peers. -/
def Weights.count (weights : Weights) : ℕ :=
  weights.values.length

theorem pair_length : [(1 : UInt8), 1].length ≤ 255 := by
  decide

/-- Two peers of equal weight. -/
def Weights.pair : Weights :=
  ⟨[1, 1], pair_length⟩

/-- A `u8` holds the position of every peer. -/
theorem Weights.lt_of_inside
    (weights : Weights) {position : ℕ} (inside : position < weights.count) :
    position < 256 :=
  Nat.lt_of_lt_of_le inside (Nat.le_succ_of_le weights.bounded)

theorem Weights.ofPosition_toNat
    (weights : Weights) {position : ℕ} (inside : position < weights.count) :
    (Token.ofPosition position).index.toNat = position :=
  Token.ofPosition_toNat (weights.lt_of_inside inside)

theorem Weights.ofPosition_inj
    (weights : Weights) {left right : ℕ}
    (leftInside : left < weights.count)
    (rightInside : right < weights.count) :
    Token.ofPosition left = Token.ofPosition right ↔ left = right :=
  Token.ofPosition_inj (weights.lt_of_inside leftInside)
    (weights.lt_of_inside rightInside)

/-- The configured weight at a position, zero past the end. -/
def Weights.at (weights : Weights) (position : ℕ) : ℕ :=
  (weights.values.getD position 0).toNat

/-- The largest weight, or one if every weight is zero. -/
def Weights.cap (weights : Weights) : ℕ :=
  (weights.values.map UInt8.toNat).foldr max 1

private theorem one_le_foldr_max (values : List ℕ) :
    1 ≤ values.foldr max 1 := by
  induction values with
  | nil => exact Nat.le_refl 1
  | cons head tail inductionHypothesis =>
      exact Nat.le_trans inductionHypothesis (Nat.le_max_right _ _)

private theorem le_foldr_max
    {values : List ℕ} {value : ℕ} (member : value ∈ values) :
    value ≤ values.foldr max 1 := by
  induction values with
  | nil => cases member
  | cons head tail inductionHypothesis =>
      rcases List.mem_cons.1 member with rfl | there
      · exact Nat.le_max_left _ _
      · exact Nat.le_trans (inductionHypothesis there) (Nat.le_max_right _ _)

private theorem foldr_max_le
    {values : List ℕ} {bound : ℕ}
    (below : ∀ value ∈ values, value ≤ bound) :
    values.foldr max 1 ≤ max bound 1 := by
  induction values with
  | nil => exact Nat.le_max_right _ _
  | cons head tail inductionHypothesis =>
      apply Nat.max_le.2
      constructor
      · exact Nat.le_trans (below head List.mem_cons_self)
          (Nat.le_max_left _ _)
      · exact inductionHypothesis fun value member =>
          below value (List.mem_cons_of_mem _ member)

theorem Weights.one_le_cap (weights : Weights) : 1 ≤ weights.cap :=
  one_le_foldr_max _

theorem Weights.le_cap
    (weights : Weights) {weight : UInt8}
    (member : weight ∈ weights.values) : weight.toNat ≤ weights.cap :=
  le_foldr_max (List.mem_map_of_mem member)

theorem Weights.cap_le
    (weights : Weights) {bound : ℕ}
    (below : ∀ weight ∈ weights.values, weight.toNat ≤ bound) :
    weights.cap ≤ max bound 1 := by
  apply foldr_max_le
  intro value member
  rcases List.mem_map.1 member with ⟨weight, there, rfl⟩
  exact below weight there

theorem Weights.at_le_cap (weights : Weights) (position : ℕ) :
    weights.at position ≤ weights.cap := by
  unfold Weights.at
  rw [List.getD_eq_getElem?_getD]
  cases here : weights.values[position]? with
  | none => exact Nat.zero_le _
  | some weight => exact weights.le_cap (List.mem_of_getElem? here)

theorem Weights.at_outside
    (weights : Weights) {position : ℕ} (past : weights.count ≤ position) :
    weights.at position = 0 := by
  unfold Weights.at
  rw [List.getD_eq_getElem?_getD, List.getElem?_eq_none past]
  rfl

/-- The sum of all weights. -/
def Weights.sum (weights : Weights) : ℕ :=
  (weights.values.map UInt8.toNat).sum

end ByteHub.Lb
