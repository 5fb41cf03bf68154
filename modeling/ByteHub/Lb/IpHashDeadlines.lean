import ByteHub.Lb.Exclusion
import ByteHub.Lb.PeerHealth
import ByteHub.Library.Machine

/-!
# Deadlines of the IP hash balancer

The rule for a peer is the one of `PeerHealth`: a failure that comes while
the peer is excluded does not move its deadline.  The balancer keeps to the
rule in every state of a run exactly when no failure of an excluded peer is
reported in a later second than the one in which its exclusion began.
-/

namespace ByteHub.Lb

open IpHash (excluded recovered failedBackend)
open Library (Machine)

/-! ## Reading the two numbers -/

/-- The health that a pair of numbers stands for. -/
def BackendHealth.peer
    (cfg : HealthCheckConfig) (health : BackendHealth) : PeerHealth :=
  if health.fails.toNat < cfg.maxFails.toNat then
    .healthy health.fails.toNat
  else .excluded health.checked.toNat

namespace BackendHealth

variable {cfg : HealthCheckConfig} {health : BackendHealth} {now : UInt32}

theorem peer_of_lt
    (few : health.fails.toNat < cfg.maxFails.toNat) :
    health.peer cfg = .healthy health.fails.toNat :=
  if_pos few

theorem peer_of_le
    (many : cfg.maxFails.toNat ≤ health.fails.toNat) :
    health.peer cfg = .excluded health.checked.toNat :=
  if_neg (Nat.not_lt.2 many)

theorem peer_fresh (one : 1 ≤ cfg.maxFails.toNat) :
    fresh.peer cfg = .healthy 0 :=
  if_pos one

/-- The test of the numbers is a test of the deadline. -/
theorem excluded_iff_peer :
    excluded cfg now health = true ↔
      ∃ deadline, health.peer cfg = .excluded deadline ∧
        now.toNat < deadline := by
  rw [excluded_iff, UInt32.le_iff_toNat_le, UInt32.lt_iff_toNat_lt]
  constructor
  · rintro ⟨many, early⟩
    exact ⟨_, peer_of_le many, early⟩
  · rintro ⟨deadline, equal, early⟩
    by_cases few : health.fails.toNat < cfg.maxFails.toNat
    · rw [peer_of_lt few] at equal
      cases equal
    · rw [peer_of_le (Nat.not_lt.1 few)] at equal
      cases equal
      exact ⟨Nat.not_lt.1 few, early⟩

/-- A selection that takes the peer follows the rule. -/
theorem peer_recovered
    (one : 1 ≤ cfg.maxFails.toNat)
    (passes : excluded cfg now health = false) :
    (recovered cfg health).peer cfg =
      (health.peer cfg).selection now.toNat := by
  by_cases failed : cfg.maxFails ≤ health.fails
  · have many := UInt32.le_iff_toNat_le.1 failed
    have late : health.checked.toNat ≤ now.toNat := by
      apply Nat.not_lt.1
      intro early
      rw [excluded_iff.2 ⟨failed, UInt32.lt_iff_toNat_lt.2 early⟩] at passes
      cases passes
    rw [recovered, if_pos failed, peer_fresh one, peer_of_le many,
      PeerHealth.selection, if_pos late]
  · have few := Nat.not_le.1 (mt UInt32.le_iff_toNat_le.2 failed)
    rw [recovered, if_neg failed, peer_of_lt few]
    rfl

/-- So does one that names the peer although it is excluded. -/
theorem selection_of_excluded
    (shut : excluded cfg now health = true) :
    (health.peer cfg).selection now.toNat = health.peer cfg := by
  rcases excluded_iff_peer.1 shut with ⟨deadline, equal, early⟩
  rw [equal, PeerHealth.selection, if_neg (Nat.not_le.2 early)]

/-- A failure follows the rule unless it moves a deadline. -/
theorem peer_failed_iff
    (deadline : now.toNat + cfg.failTimeoutSecs.toNat < 2 ^ 32)
    (counter : health.fails.toNat + 1 < 2 ^ 32) :
    (failedBackend cfg now health).peer cfg =
        (health.peer cfg).failure cfg.maxFails.toNat
          cfg.failTimeoutSecs.toNat now.toNat ↔
      ∀ due, health.peer cfg = .excluded due →
        due = now.toNat + cfg.failTimeoutSecs.toNat := by
  have counted : (health.fails + 1).toNat = health.fails.toNat + 1 :=
    toNat_add_of_lt counter
  have added :
      (now + cfg.failTimeoutSecs).toNat =
        now.toNat + cfg.failTimeoutSecs.toNat :=
    toNat_add_of_lt deadline
  have reading :
      (failedBackend cfg now health).peer cfg =
        if cfg.maxFails.toNat ≤ health.fails.toNat + 1 then
          .excluded (now.toNat + cfg.failTimeoutSecs.toNat)
        else .healthy (health.fails.toNat + 1) := by
    unfold failedBackend
    by_cases failed : cfg.maxFails ≤ health.fails + 1
    · have reached := UInt32.le_iff_toNat_le.1 failed
      rw [if_pos failed, peer_of_le reached, added, if_pos (counted ▸ reached)]
    · have below := Nat.not_le.1 (mt UInt32.le_iff_toNat_le.2 failed)
      rw [if_neg failed, peer_of_lt below, if_neg, counted]
      rw [← counted]
      exact Nat.not_le.2 below
  rw [reading]
  by_cases few : health.fails.toNat < cfg.maxFails.toNat
  · rw [peer_of_lt few, PeerHealth.failure]
    have same :
        cfg.maxFails.toNat ≤ health.fails.toNat + 1 ↔
          health.fails.toNat + 1 = cfg.maxFails.toNat := by omega
    constructor
    · intro _ due equal
      cases equal
    · intro _
      simp only [same]
  · have many := Nat.not_lt.1 few
    rw [peer_of_le many, PeerHealth.failure, if_pos (by omega)]
    constructor
    · intro equal due named
      cases named
      injection equal with moved
      exact moved.symm
    · intro kept
      rw [kept _ rfl]

end BackendHealth

namespace Balancer

/-! ## The balancer beside the rule -/

/-- The peer a call is answered with. -/
def answer
    (balancer : Balancer) (call : Call) (now : UInt32) : Option Token :=
  match call with
  | .next client => (balancer.next client now).1
  | .onSuccess _ => none
  | .onFailure _ => none

/-- What the rule makes of a call for the peer at a position. -/
def peerMove
    (cfg : HealthCheckConfig) (position : ℕ) (call : Call)
    (answer : Option Token) (now : UInt32) (peer : PeerHealth) :
    PeerHealth :=
  match call with
  | .next _ =>
      if answer = some (Token.ofPosition position) then
        peer.selection now.toNat
      else peer
  | .onSuccess token =>
      if token = Token.ofPosition position then peer.success else peer
  | .onFailure token =>
      if token = Token.ofPosition position then
        peer.failure cfg.maxFails.toNat cfg.failTimeoutSecs.toNat now.toNat
      else peer

/-- A balancer with the state the rule gives to each peer. -/
structure Watched where
  balancer : Balancer
  peers : ℕ → PeerHealth

/-- The sums of a failure report do not wrap. -/
def SumsInside
    (cfg : HealthCheckConfig) (balancer : Balancer)
    (call : Call × UInt32) : Prop :=
  match call.1 with
  | .next _ => True
  | .onSuccess _ => True
  | .onFailure token =>
      call.2.toNat + cfg.failTimeoutSecs.toNat < 2 ^ 32 ∧
        (balancer.counters token.index.toNat).fails.toNat + 1 < 2 ^ 32

instance
    (cfg : HealthCheckConfig) (balancer : Balancer)
    (call : Call × UInt32) : Decidable (SumsInside cfg balancer call) := by
  unfold SumsInside
  split <;> infer_instance

/-- The balancer and the rule take each call together. -/
def watched
    (cfg : HealthCheckConfig) : Machine Watched (Call × UInt32) where
  step state call :=
    if SumsInside cfg state.balancer call then
      some {
        balancer := state.balancer.perform call.1 call.2
        peers := fun position =>
          peerMove cfg position call.1
            (state.balancer.answer call.1 call.2) call.2
            (state.peers position) }
    else none

/-- The balancer keeps to the rule for the peers at the first positions. -/
structure Keeps
    (cfg : HealthCheckConfig) (count : ℕ) (state : Watched) : Prop where
  peer_eq : ∀ position < count,
    (state.balancer.counters position).peer cfg = state.peers position
  excludes_iff : ∀ position < count, ∀ now,
    state.balancer.excludes cfg position now = true ↔
      ∃ deadline, state.peers position = .excluded deadline ∧
        now.toNat < deadline

/-- A failure of an excluded peer, reported in another second than the one
its exclusion began in. -/
def Late
    (cfg : HealthCheckConfig) (count : ℕ) (state : Watched)
    (call : Call × UInt32) : Prop :=
  ∃ position < count, ∃ deadline,
    call.1 = .onFailure (Token.ofPosition position) ∧
      state.peers position = .excluded deadline ∧
        deadline ≠ call.2.toNat + cfg.failTimeoutSecs.toNat

theorem keeps_iff {cfg : HealthCheckConfig} {count : ℕ} {state : Watched} :
    Keeps cfg count state ↔
      ∀ position < count,
        (state.balancer.counters position).peer cfg =
          state.peers position := by
  constructor
  · exact Keeps.peer_eq
  · intro equal
    refine ⟨equal, ?_⟩
    intro position inside now
    rw [← equal position inside]
    exact BackendHealth.excluded_iff_peer

/-! ## One call -/

section Step

variable {weights : Weights} {cfg : HealthCheckConfig}
variable {search : BinarySearch} {ih : IpHash}
variable {position : ℕ} {now : UInt32}

/-- A selection follows the rule. -/
theorem ipHash_next_peer
    (shape : IpHash.Shape weights (some cfg) ih)
    (two : 2 ≤ weights.count) (one : 1 ≤ cfg.maxFails.toNat)
    (inside : position < weights.count) (client : Client) :
    (((Balancer.ipHash search ih).perform (.next client) now).counters
        position).peer cfg =
      peerMove cfg position (.next client)
        ((Balancer.ipHash search ih).answer (.next client) now) now
        (((Balancer.ipHash search ih).counters position).peer cfg) := by
  rcases IpHash.next_cases shape two search client now with
    ⟨chosen, chosenInside, passes, next_eq, _⟩ | ⟨shut, next_eq⟩
  · simp only [perform, answer, Balancer.next, next_eq, counters, peerMove]
    by_cases this : position = chosen
    · subst this
      rw [if_pos rfl, IpHash.backend_alter_self (by rwa [shape.length_eq])]
      exact BackendHealth.peer_recovered one passes
    · have other :
          some (Token.ofPosition chosen) ≠
            some (Token.ofPosition position) := by
        intro equal
        exact this ((weights.ofPosition_inj chosenInside inside).1
          (Option.some.inj equal)).symm
      rw [if_neg other, IpHash.backend_alter_of_ne this]
  · simp only [perform, answer, Balancer.next, next_eq, counters, peerMove]
    split
    · exact (BackendHealth.selection_of_excluded (shut position inside)).symm
    · rfl

/-- A call follows the rule unless it is a failure that moves a deadline. -/
theorem ipHash_peer_iff
    (shape : IpHash.Shape weights (some cfg) ih)
    (two : 2 ≤ weights.count) (one : 1 ≤ cfg.maxFails.toNat)
    (inside : position < weights.count) (call : Call)
    (sums : SumsInside cfg (.ipHash search ih) (call, now)) :
    (((Balancer.ipHash search ih).perform call now).counters
          position).peer cfg =
        peerMove cfg position call
          ((Balancer.ipHash search ih).answer call now) now
          (((Balancer.ipHash search ih).counters position).peer cfg) ↔
      ∀ deadline, call = .onFailure (Token.ofPosition position) →
        ((Balancer.ipHash search ih).counters position).peer cfg =
            .excluded deadline →
          deadline = now.toNat + cfg.failTimeoutSecs.toNat := by
  have moves :=
    @ipHash_moves weights cfg position search ih shape two inside call now
  cases call with
  | next client =>
      constructor
      · intro _ deadline named
        cases named
      · intro _
        exact ipHash_next_peer shape two one inside client
  | onSuccess token =>
      constructor
      · intro _ deadline named
        cases named
      · intro _
        rw [Moves] at moves
        rw [moves, peerMove]
        split
        · exact BackendHealth.peer_fresh one
        · rfl
  | onFailure token =>
      rw [Moves] at moves
      rw [moves, peerMove]
      by_cases this : token = Token.ofPosition position
      · subst this
        have index :
            (Token.ofPosition position).index.toNat = position :=
          weights.ofPosition_toNat inside
        rcases sums with ⟨deadline, counter⟩
        rw [index] at counter
        rw [if_pos rfl, if_pos rfl]
        apply (BackendHealth.peer_failed_iff deadline counter).trans
        simp
      · rw [if_neg this, if_neg this]
        constructor
        · intro _ deadline named
          injection named with same
          exact (this same).elim
        · intro _
          rfl

/-- The balancer goes on keeping to the rule exactly when a call is not
late. -/
theorem keeps_watched_iff
    {state next : Watched} {call : Call × UInt32}
    (shape : Shape weights (some cfg) .ipHash state.balancer)
    (two : 2 ≤ weights.count) (one : 1 ≤ cfg.maxFails.toNat)
    (keeps : Keeps cfg weights.count state)
    (step : (watched cfg).step state call = some next) :
    Keeps cfg weights.count next ↔ ¬Late cfg weights.count state call := by
  rcases state with ⟨balancer, peers⟩
  rcases call with ⟨call, now⟩
  cases shape with
  | @ipHash search ih _ ringShape =>
  have ring := ringShape two
  simp only [watched, Option.ite_none_right_eq_some] at step
  rcases step with ⟨sums, stepped⟩
  cases stepped
  have each (position : ℕ) (inside : position < weights.count) :=
    ipHash_peer_iff ring two one inside call sums
  rw [keeps_iff]
  constructor
  · rintro kept ⟨position, inside, deadline, named, excluded, late⟩
    apply late
    have here := keeps.peer_eq position inside
    apply (each position inside).1 _ deadline named (here.trans excluded)
    rw [here]
    exact kept position inside
  · intro timely position inside
    have here := keeps.peer_eq position inside
    dsimp only at here ⊢
    rw [← here]
    apply (each position inside).2
    intro deadline named excluded
    by_contra late
    exact timely ⟨position, inside, deadline, named,
      here.symm.trans excluded, late⟩

end Step

/-! ## Runs -/

theorem watched_step
    {cfg : HealthCheckConfig} {state next : Watched}
    {call : Call × UInt32}
    (step : (watched cfg).step state call = some next) :
    next.balancer = state.balancer.perform call.1 call.2 := by
  simp only [watched, Option.ite_none_right_eq_some] at step
  rcases step with ⟨_, stepped⟩
  cases stepped
  rfl

/-- A built balancer with every peer healthy. -/
def Watched.start (balancer : Balancer) : Watched where
  balancer := balancer
  peers _ := .healthy 0

/-- In a run the balancer keeps to the rule in every state exactly when no
failure of an excluded peer is reported after the second its exclusion began
in. -/
theorem ipHash_keeps_deadlines_iff
    {sort : UnstableSort} {search : BinarySearch} {values : List UInt8}
    {cfg : HealthCheckConfig} {balancer : Balancer}
    (built : new sort search .ipHash values (some cfg) = some balancer)
    (two : 2 ≤ values.length) (one : 1 ≤ cfg.maxFails.toNat)
    {calls : List (Call × UInt32)} {final : Watched}
    (ran : (watched cfg).run (.start balancer) calls = some final) :
    (watched cfg).EachState (Keeps cfg values.length) (.start balancer)
        calls ↔
      (watched cfg).EachStep
        (fun state call => ¬Late cfg values.length state call)
        (.start balancer) calls := by
  have bounded : values.length ≤ 255 := by
    by_contra many
    rw [new, dif_neg many] at built
    cases built
  have fresh :
      Keeps cfg values.length (.start balancer) := by
    apply keeps_iff.2
    intro position inside
    change (balancer.counters position).peer cfg = .healthy 0
    rw [counters_new bounded two built inside]
    exact BackendHealth.peer_fresh one
  apply Machine.eachState_iff_eachStep
    (fun state => Shape ⟨values, bounded⟩ (some cfg) .ipHash state.balancer)
    (Keeps cfg values.length)
    (fun state call => ¬Late cfg values.length state call) _ _
    (shape_new bounded built) fresh ran
  · intro state next call shape step
    rw [watched_step step]
    exact shape.perform call.1 call.2
  · intro state next call shape keeps step
    exact keeps_watched_iff shape two one keeps step

/-- Two peers of equal weight under a limit of one failure and a timeout of
ten seconds. -/
def shortPair : Balancer :=
  .ipHash .first (IpHash.new .insertion .pair (some ⟨1, 10, none⟩))

theorem new_shortPair :
    new .insertion .first .ipHash [1, 1] (some ⟨1, 10, none⟩) =
      some shortPair :=
  rfl

theorem ipHash_keeps_deadlines_twice :
    (watched ⟨1, 10, none⟩).EachState (Keeps ⟨1, 10, none⟩ 2)
        (.start shortPair)
        [(.onFailure (Token.ofPosition 0), 7),
          (.onFailure (Token.ofPosition 0), 7),
          (.onFailure (Token.ofPosition 1), 9)] ↔
      (watched ⟨1, 10, none⟩).EachStep
        (fun state call => ¬Late ⟨1, 10, none⟩ 2 state call)
        (.start shortPair)
        [(.onFailure (Token.ofPosition 0), 7),
          (.onFailure (Token.ofPosition 0), 7),
          (.onFailure (Token.ofPosition 1), 9)] :=
  ipHash_keeps_deadlines_iff new_shortPair (by decide) (by decide) rfl

/-- A peer excluded until ten stays excluded at ten, since another failure of
it was reported at five. -/
theorem ipHash_moves_the_deadline :
    ∃ state,
      (watched ⟨1, 10, none⟩).run (.start shortPair)
          [(.onFailure (Token.ofPosition 0), 0),
            (.onFailure (Token.ofPosition 0), 5)] = some state ∧
        state.peers 0 = .excluded 10 ∧
        state.balancer.excludes ⟨1, 10, none⟩ 0 10 = true ∧
        ¬Keeps ⟨1, 10, none⟩ 2 state := by
  refine ⟨_, rfl, rfl, rfl, ?_⟩
  intro keeps
  have equal := keeps.peer_eq 0 (by decide)
  cases equal

end Balancer

end ByteHub.Lb
