import ByteHub.Lb.Exclusion
import ByteHub.Lb.IpHashService

/-!
# Failures within one time-out

The clock is read within one `fail_timeout`.  A peer that is reported nothing
but failures counts them, and from `max_fails` on it is excluded at all of
these readings.  A peer that no failure is reported for passes at each of
them.
-/

namespace ByteHub.Lb.Balancer

open IpHash (excluded recovered failedBackend)

/-- A reading within one `fail_timeout` of a start.  A deadline that is set at
it does not wrap around. -/
structure Timely (cfg : HealthCheckConfig) (start now : UInt32) : Prop where
  after : start.toNat ≤ now.toNat
  before : now.toNat < start.toNat + cfg.failTimeoutSecs.toNat
  fits : now.toNat + cfg.failTimeoutSecs.toNat < 2 ^ 32

/-- The peer has failed so often since the start, and has been excluded if
that is often enough. -/
structure Tallied
    (cfg : HealthCheckConfig) (start : UInt32) (position failures : ℕ)
    (balancer : Balancer) : Prop where
  fails : (balancer.counters position).fails.toNat = failures
  many : cfg.maxFails.toNat ≤ failures →
    start.toNat + cfg.failTimeoutSecs.toNat ≤
      (balancer.counters position).checked.toNat

section Tallied

variable {weights : Weights} {cfg : HealthCheckConfig} {start : UInt32}
variable {strategy : Strategy} {balancer : Balancer}
variable {position failures : ℕ}

theorem tallied_zero
    (one : 1 ≤ cfg.maxFails.toNat) (start : UInt32)
    (fresh : balancer.counters position = BackendHealth.fresh) :
    Tallied cfg start position 0 balancer where
  fails := by
    rw [fresh]
    rfl
  many reached := absurd one (Nat.not_le.2 (Nat.lt_succ_of_le reached))

/-- A peer with enough failures is excluded. -/
theorem Tallied.excludes
    (tallied : Tallied cfg start position failures balancer)
    (reached : cfg.maxFails.toNat ≤ failures) {now : UInt32}
    (window : Timely cfg start now) :
    balancer.excludes cfg position now = true := by
  rw [Balancer.excludes, excluded_iff, UInt32.le_iff_toNat_le,
    UInt32.lt_iff_toNat_lt, tallied.fails]
  exact ⟨reached, window.before.trans_le (tallied.many reached)⟩

/-- A call that does not report on the peer leaves its counters. -/
theorem Tallied.kept
    (shape : Shape weights (some cfg) strategy balancer)
    (selects : strategy ≠ .off) (two : 2 ≤ weights.count)
    (inside : position < weights.count)
    (tallied : Tallied cfg start position failures balancer)
    {call : Call} {now : UInt32} (window : Timely cfg start now)
    (noSuccess : call ≠ .onSuccess (Token.ofPosition position))
    (noFailure : call ≠ .onFailure (Token.ofPosition position)) :
    Tallied cfg start position failures (balancer.perform call now) := by
  have same : (balancer.perform call now).counters position =
      balancer.counters position := by
    have moves := shape.moves selects two inside call now
    cases call with
    | next client =>
        rcases moves with same | ⟨passes, moved⟩
        · exact same
        · by_cases reached : cfg.maxFails.toNat ≤ failures
          · have shut := tallied.excludes reached window
            rw [Balancer.excludes, passes] at shut
            cases shut
          · rw [moved, recovered, if_neg]
            rw [UInt32.le_iff_toNat_le, tallied.fails]
            exact reached
    | onSuccess token =>
        have other : token ≠ Token.ofPosition position := by
          rintro rfl
          exact noSuccess rfl
        rw [Moves, if_neg other] at moves
        exact moves
    | onFailure token =>
        have other : token ≠ Token.ofPosition position := by
          rintro rfl
          exact noFailure rfl
        rw [Moves, if_neg other] at moves
        exact moves
  constructor
  · rw [same]
    exact tallied.fails
  · rw [same]
    exact tallied.many

/-- The deadline that is set at a reading of the window ends after it. -/
theorem Timely.deadline
    {now : UInt32} (window : Timely cfg start now) :
    start.toNat + cfg.failTimeoutSecs.toNat ≤
      (now + cfg.failTimeoutSecs).toNat := by
  rw [UInt32.toNat_add, Nat.mod_eq_of_lt window.fits]
  exact Nat.add_le_add_right window.after _

/-- A failure that reaches the limit sets the deadline. -/
theorem failed_cases
    (selects : strategy ≠ .off) (now : UInt32) (health : BackendHealth) :
    (strategy.failed cfg now health).fails = health.fails + 1 ∧
      ((strategy.failed cfg now health).checked =
          now + cfg.failTimeoutSecs ∨
        (cfg.maxFails ≤ health.fails + 1 → cfg.maxFails ≤ health.fails) ∧
          (strategy.failed cfg now health).checked = health.checked) := by
  cases strategy with
  | off => exact (selects rfl).elim
  | ipHash =>
      by_cases reached : cfg.maxFails ≤ health.fails + 1
      · have after : Strategy.failed .ipHash cfg now health =
            ⟨health.fails + 1, now + cfg.failTimeoutSecs⟩ :=
          if_pos reached
        rw [after]
        exact ⟨rfl, .inl rfl⟩
      · have after : Strategy.failed .ipHash cfg now health =
            ⟨health.fails + 1, health.checked⟩ :=
          if_neg reached
        rw [after]
        exact ⟨rfl, .inr ⟨fun met => absurd met reached, rfl⟩⟩
  | roundRobin =>
      refine ⟨rfl, ?_⟩
      by_cases crosses : cfg.maxFails ≤ health.fails + 1 ∧
          health.fails < cfg.maxFails
      · exact .inl (if_pos crosses)
      · refine .inr ⟨?_, if_neg crosses⟩
        intro met
        exact UInt32.not_lt.1 fun below => crosses ⟨met, below⟩

/-- A failure of the peer is one more. -/
theorem Tallied.failed
    (shape : Shape weights (some cfg) strategy balancer)
    (selects : strategy ≠ .off) (two : 2 ≤ weights.count)
    (inside : position < weights.count)
    (tallied : Tallied cfg start position failures balancer)
    {now : UInt32} (window : Timely cfg start now)
    (small : failures + 1 < 2 ^ 32) :
    Tallied cfg start position (failures + 1)
      (balancer.perform (.onFailure (Token.ofPosition position)) now) := by
  have moved := shape.moves selects two inside
    (.onFailure (Token.ofPosition position)) now
  rw [Moves, if_pos rfl] at moved
  have grown : ((balancer.counters position).fails + 1).toNat =
      failures + 1 := by
    rw [UInt32.toNat_add, tallied.fails]
    exact Nat.mod_eq_of_lt small
  rcases failed_cases selects now (balancer.counters position) with
    ⟨fails, deadline | ⟨early, kept⟩⟩
  · rw [← moved] at fails deadline
    constructor
    · rw [fails, grown]
    · intro _
      rw [deadline]
      exact window.deadline
  · rw [UInt32.le_iff_toNat_le, UInt32.le_iff_toNat_le, grown,
      tallied.fails] at early
    rw [← moved] at fails kept
    constructor
    · rw [fails, grown]
    · intro met
      rw [kept]
      exact tallied.many (early met)

/-- A peer that no failure is reported for stays as it was built. -/
theorem fresh_of_perform
    (shape : Shape weights (some cfg) strategy balancer)
    (selects : strategy ≠ .off) (two : 2 ≤ weights.count)
    (inside : position < weights.count)
    (fresh : balancer.counters position = BackendHealth.fresh)
    {call : Call} (now : UInt32)
    (noFailure : call ≠ .onFailure (Token.ofPosition position)) :
    (balancer.perform call now).counters position =
      BackendHealth.fresh := by
  have moves := shape.moves selects two inside call now
  rw [fresh] at moves
  cases call with
  | next client =>
      rcases moves with same | ⟨_, moved⟩
      · exact same
      · rw [moved, IpHash.recovered_of_fresh]
  | onSuccess token =>
      rw [Moves, ite_self] at moves
      exact moves
  | onFailure token =>
      have other : token ≠ Token.ofPosition position := by
        rintro rfl
        exact noFailure rfl
      rw [Moves, if_neg other] at moves
      exact moves

end Tallied

end ByteHub.Lb.Balancer
