import ByteHub.Lb.Exclusion

/-!
# How long a peer stays excluded

The failure that makes a peer reach the limit sets the deadline of its
exclusion, a `u32` sum of the truncated clock and the timeout.  The peer is
excluded up to the true deadline, and not at it, when the sum does not wrap,
and when what is reported about the peer in between neither wraps the counter
of its failures nor sets the deadline anew.
-/

namespace ByteHub.Lb

open IpHash (excluded failedBackend)

/-- `now_secs` at a time in seconds. -/
def clockAt (time : ℕ) : UInt32 :=
  UInt32.ofNat time

theorem clockAt_toNat (time : ℕ) : (clockAt time).toNat = time % 2 ^ 32 :=
  UInt32.toNat_ofNat'

/-- The clock goes on with the time as long as it does not wrap. -/
theorem clockAt_later
    {start time timeout : ℕ} (after : start ≤ time)
    (before : time ≤ start + timeout)
    (fits : (clockAt start).toNat + timeout < 2 ^ 32) :
    (clockAt time).toNat = (clockAt start).toNat + (time - start) := by
  rw [clockAt_toNat] at fits ⊢
  rw [clockAt_toNat]
  omega

namespace Balancer

/-- Calls with the times at which they are made. -/
abbrev Timed := List (Call × ℕ)

/-- Whether a call reports a failure of the peer at a position. -/
def Call.failsPeer (position : ℕ) : Call → Bool
  | .onFailure token => token = Token.ofPosition position
  | _ => false

/-- Calls at times from `start` on, before a deadline, without a success of
the peer. -/
structure Window
    (position start deadline : ℕ) (calls : Timed) : Prop where
  ordered : (start :: calls.map Prod.snd).Pairwise (· ≤ ·)
  early : ∀ call ∈ calls, call.2 < deadline
  unreported : ∀ call ∈ calls,
    call.1 ≠ .onSuccess (Token.ofPosition position)

/-- The peer is excluded at the times from `start` on up to the deadline, and
not at it, whatever calls have been made until then. -/
def ExcludedUntil
    (cfg : HealthCheckConfig) (position deadline : ℕ) :
    ℕ → Balancer → Timed → Prop
  | start, balancer, [] =>
      ∀ time, start ≤ time → time ≤ deadline →
        (balancer.excludes cfg position (clockAt time) = true ↔
          time < deadline)
  | start, balancer, call :: calls =>
      (∀ time, start ≤ time → time ≤ deadline →
        (balancer.excludes cfg position (clockAt time) = true ↔
          time < deadline)) ∧
      ExcludedUntil cfg position deadline call.2
        (balancer.perform call.1 (clockAt call.2)) calls

/-- The failures reported for the peer neither wrap their counter nor, where
the strategy sets the deadline anew, come later than the first one. -/
def Harmless
    (strategy : Strategy) (position start counted : ℕ) (calls : Timed) :
    Prop :=
  counted + calls.countP (fun call => call.1.failsPeer position) <
      2 ^ 32 ∧
    (strategy = .ipHash →
      ∀ call ∈ calls, call.1.failsPeer position = true → call.2 = start)

theorem Window.tail
    {position start deadline : ℕ} {call : Call × ℕ} {calls : Timed}
    (window : Window position start deadline (call :: calls)) :
    Window position call.2 deadline calls where
  ordered := (List.pairwise_cons.1 window.ordered).2
  early other member := window.early other (List.mem_cons_of_mem _ member)
  unreported other member :=
    window.unreported other (List.mem_cons_of_mem _ member)

theorem Window.start_le
    {position start deadline : ℕ} {call : Call × ℕ} {calls : Timed}
    (window : Window position start deadline (call :: calls)) :
    start ≤ call.2 :=
  (List.pairwise_cons.1 window.ordered).1 call.2 (by simp)

/-! ## A peer that is excluded -/

section Held

variable {weights : Weights} {cfg : HealthCheckConfig}
variable {strategy : Strategy} {balancer : Balancer}
variable {position start counted : ℕ}

/-- The state of a peer excluded since `start`, with a count of failures. -/
structure Held
    (cfg : HealthCheckConfig) (start counted : ℕ)
    (health : BackendHealth) : Prop where
  counted_eq : health.fails.toNat = counted
  reached : cfg.maxFails.toNat ≤ counted
  checked_eq : health.checked.toNat =
    (clockAt start).toNat + cfg.failTimeoutSecs.toNat

theorem Held.counts
    {health : BackendHealth} (held : Held cfg start counted health)
    (small : counted + 1 < 2 ^ 32) :
    (health.fails + 1).toNat = counted + 1 := by
  rw [UInt32.toNat_add, held.counted_eq]
  exact Nat.mod_eq_of_lt small

/-- A failure that is counted is past the limit. -/
theorem Held.past
    {health : BackendHealth} (held : Held cfg start counted health)
    (small : counted + 1 < 2 ^ 32) :
    cfg.maxFails ≤ health.fails + 1 := by
  rw [UInt32.le_iff_toNat_le, held.counts small]
  exact Nat.le_succ_of_le held.reached

/-- The deadline is a sum that does not wrap. -/
theorem Held.fits
    {health : BackendHealth} (held : Held cfg start counted health) :
    (clockAt start).toNat + cfg.failTimeoutSecs.toNat < 2 ^ 32 := by
  rw [← held.checked_eq]
  exact health.checked.toNat_lt

theorem Held.excluded_iff
    {health : BackendHealth} (held : Held cfg start counted health)
    {time : ℕ} (after : start ≤ time)
    (before : time ≤ start + cfg.failTimeoutSecs.toNat) :
    excluded cfg (clockAt time) health = true ↔
      time < start + cfg.failTimeoutSecs.toNat := by
  have clock := clockAt_later after before held.fits
  rw [Lb.excluded_iff, UInt32.le_iff_toNat_le, UInt32.lt_iff_toNat_lt,
    held.counted_eq, held.checked_eq, clock]
  have reached := held.reached
  omega

/-- A peer that is held is excluded from any later time on up to the
deadline. -/
theorem Held.excludes
    {balancer : Balancer} {position now : ℕ}
    (held : Held cfg start counted (balancer.counters position))
    (after : start ≤ now) :
    ∀ time, now ≤ time → time ≤ start + cfg.failTimeoutSecs.toNat →
      (balancer.excludes cfg position (clockAt time) = true ↔
        time < start + cfg.failTimeoutSecs.toNat) := by
  intro time later before
  exact held.excluded_iff (after.trans later) before

/-- A call that reports neither success nor failure of the peer leaves it. -/
theorem moves_of_held
    {health after : BackendHealth} {call : Call} {now : UInt32}
    (moves : Moves strategy cfg position call now health after)
    (shut : excluded cfg now health = true)
    (unreported : call ≠ .onSuccess (Token.ofPosition position))
    (unfailed : call.failsPeer position = false) :
    after = health := by
  cases call with
  | next client =>
      rcases moves with same | ⟨passes, -⟩
      · exact same
      · rw [shut] at passes
        cases passes
  | onSuccess token =>
      have other : token ≠ Token.ofPosition position := by
        rintro rfl
        exact unreported rfl
      rw [Moves, if_neg other] at moves
      exact moves
  | onFailure token =>
      have other : token ≠ Token.ofPosition position := by
        simpa [Call.failsPeer] using unfailed
      rw [Moves, if_neg other] at moves
      exact moves

theorem moves_of_failsPeer
    {health after : BackendHealth} {call : Call} {now : UInt32}
    (moves : Moves strategy cfg position call now health after)
    (fails : call.failsPeer position = true) :
    after = strategy.failed cfg now health := by
  cases call with
  | next client => cases fails
  | onSuccess token => cases fails
  | onFailure token =>
      have this : token = Token.ofPosition position := by
        simpa [Call.failsPeer] using fails
      rw [Moves, if_pos this] at moves
      exact moves

/-- A failure that is counted leaves the peer excluded until the same
deadline, if the strategy does not set it anew or sets it to the same. -/
theorem Held.failed
    {health : BackendHealth} (held : Held cfg start counted health)
    (selects : strategy ≠ .off) (small : counted + 1 < 2 ^ 32) {time : ℕ}
    (same : strategy = .ipHash → time = start) :
    Held cfg start (counted + 1)
      (strategy.failed cfg (clockAt time) health) := by
  have counts := held.counts small
  have reached := held.reached
  have crossed : ¬health.fails < cfg.maxFails := by
    rw [UInt32.lt_iff_toNat_lt, held.counted_eq]
    omega
  cases strategy with
  | off => exact (selects rfl).elim
  | ipHash =>
      have result :
          Strategy.failed .ipHash cfg (clockAt time) health =
            ⟨health.fails + 1, clockAt start + cfg.failTimeoutSecs⟩ := by
        rw [same rfl]
        exact if_pos (held.past small)
      rw [result]
      exact {
        counted_eq := counts
        reached := by omega
        checked_eq := toNat_add_of_lt held.fits }
  | roundRobin =>
      have result :
          Strategy.failed .roundRobin cfg (clockAt time) health =
            ⟨health.fails + 1, health.checked⟩ := by
        simp only [Strategy.failed, crossed, and_false, if_false]
      rw [result]
      exact {
        counted_eq := counts
        reached := by omega
        checked_eq := held.checked_eq }

/-- The failure that reaches the limit counts and sets the deadline. -/
theorem failed_reaches
    {health : BackendHealth} (selects : strategy ≠ .off)
    (reaches : health.fails.toNat + 1 = cfg.maxFails.toNat)
    (now : UInt32) :
    strategy.failed cfg now health =
      ⟨cfg.maxFails, now + cfg.failTimeoutSecs⟩ := by
  have bounded := cfg.maxFails.toNat_lt
  have counts : health.fails + 1 = cfg.maxFails := by
    apply UInt32.toNat_inj.1
    rw [toNat_add_of_lt (by change health.fails.toNat + 1 < _; omega)]
    exact reaches
  have crossed : health.fails < cfg.maxFails := by
    rw [UInt32.lt_iff_toNat_lt]
    omega
  have past : cfg.maxFails ≤ cfg.maxFails := UInt32.le_refl _
  cases strategy with
  | off => exact (selects rfl).elim
  | ipHash =>
      simp only [Strategy.failed, failedBackend, counts, past, if_true]
  | roundRobin =>
      simp only [Strategy.failed, counts, past, crossed, and_self, if_true]

/-- A counter that wraps makes the peer eligible. -/
theorem failed_wraps
    {health : BackendHealth} (held : Held cfg start counted health)
    (selects : strategy ≠ .off) (one : 1 ≤ cfg.maxFails.toNat)
    (wraps : counted + 1 = 2 ^ 32) (now later : UInt32) :
    excluded cfg later (strategy.failed cfg now health) = false := by
  have zero : health.fails + 1 = 0 := by
    apply UInt32.toNat_inj.1
    rw [UInt32.toNat_add, held.counted_eq]
    change (counted + 1) % 2 ^ 32 = 0
    rw [wraps]
    exact Nat.mod_self _
  have few : ¬cfg.maxFails ≤ (0 : UInt32) := by
    rw [UInt32.le_iff_toNat_le]
    change ¬_ ≤ 0
    omega
  cases strategy with
  | off => exact (selects rfl).elim
  | ipHash => simp [Strategy.failed, failedBackend, excluded, zero, few]
  | roundRobin => simp [Strategy.failed, excluded, zero, few]

/-- A deadline set anew in a later second is not kept to. -/
theorem failed_later
    {health : BackendHealth} (held : Held cfg start counted health)
    (small : counted + 1 < 2 ^ 32) {time : ℕ} (later : start < time)
    (early : time < start + cfg.failTimeoutSecs.toNat) :
    excluded cfg (clockAt time)
          (Strategy.failed .ipHash cfg (clockAt time) health) = false ∨
      excluded cfg (clockAt (start + cfg.failTimeoutSecs.toNat))
          (Strategy.failed .ipHash cfg (clockAt time) health) = true := by
  have past := held.past small
  have result :
      Strategy.failed .ipHash cfg (clockAt time) health =
        ⟨health.fails + 1, clockAt time + cfg.failTimeoutSecs⟩ :=
    if_pos past
  have fits := held.fits
  have present := clockAt_later later.le early.le fits
  have ending := clockAt_later (Nat.le_add_right start _) le_rfl fits
  have timeout := cfg.failTimeoutSecs.toNat_lt
  rw [result]
  by_cases wraps :
      (clockAt time).toNat + cfg.failTimeoutSecs.toNat < 2 ^ 32
  · right
    refine excluded_iff.2 ⟨past, ?_⟩
    rw [UInt32.lt_iff_toNat_lt, toNat_add_of_lt wraps]
    omega
  · left
    rw [Bool.eq_false_iff, Ne, excluded_iff]
    rintro ⟨-, before⟩
    rw [UInt32.lt_iff_toNat_lt, UInt32.toNat_add] at before
    omega

end Held

/-! ## The calls of the window -/

section Calls

variable {position start counted : ℕ} {strategy : Strategy}
variable {call : Call × ℕ} {calls : Timed}

theorem harmless_cons_of_not
    (unfailed : call.1.failsPeer position = false) :
    Harmless strategy position start counted (call :: calls) ↔
      Harmless strategy position start counted calls := by
  simp [Harmless, unfailed]

theorem harmless_cons_of_same
    (fails : call.1.failsPeer position = true)
    (same : strategy = .ipHash → call.2 = start) :
    Harmless strategy position start counted (call :: calls) ↔
      Harmless strategy position start (counted + 1) calls := by
  constructor
  · rintro ⟨few, once⟩
    simp only [List.countP_cons, fails, if_true] at few
    exact ⟨by omega, fun this other member =>
      once this other (List.mem_cons_of_mem _ member)⟩
  · rintro ⟨few, once⟩
    constructor
    · simp only [List.countP_cons, fails, if_true]
      omega
    · intro this other member
      rcases List.mem_cons.1 member with rfl | member
      · exact fun _ => same this
      · exact once this other member

theorem Harmless.small
    (harmless : Harmless strategy position start counted (call :: calls))
    (fails : call.1.failsPeer position = true) :
    counted + 1 < 2 ^ 32 := by
  have few := harmless.1
  simp only [List.countP_cons, fails, if_true] at few
  omega

end Calls

/-! ## The window -/

section Run

variable {weights : Weights} {cfg : HealthCheckConfig}
variable {strategy : Strategy} {balancer : Balancer}
variable {position start counted : ℕ}

/-- The verdict holds at the time it is asked for first. -/
theorem ExcludedUntil.now
    {deadline time : ℕ} {calls : Timed}
    (excluded : ExcludedUntil cfg position deadline start balancer calls)
    (after : start ≤ time) (before : time ≤ deadline) :
    balancer.excludes cfg position (clockAt time) = true ↔
      time < deadline := by
  cases calls with
  | nil => exact excluded time after before
  | cons call calls => exact excluded.1 time after before

variable {call : Call × ℕ} {calls : Timed} {next : Balancer}

/-- A counter that comes round to zero lets the peer in. -/
theorem not_excludedUntil_of_wraps
    (held : Held cfg start counted (balancer.counters position))
    (selects : strategy ≠ .off) (one : 1 ≤ cfg.maxFails.toNat)
    (wraps : counted + 1 = 2 ^ 32)
    (early : call.2 < start + cfg.failTimeoutSecs.toNat)
    (failed : next.counters position =
      strategy.failed cfg (clockAt call.2) (balancer.counters position)) :
    ¬ExcludedUntil cfg position (start + cfg.failTimeoutSecs.toNat) call.2
      next calls := by
  intro verdicts
  have passed := failed_wraps held selects one wraps
    (clockAt call.2) (clockAt call.2)
  have closed := (verdicts.now le_rfl early.le).2 early
  rw [excludes, failed, passed] at closed
  cases closed

/-- A deadline set anew in a later second ends the exclusion early or
late. -/
theorem not_excludedUntil_of_later
    (held : Held cfg start counted (balancer.counters position))
    (small : counted + 1 < 2 ^ 32) (later : start < call.2)
    (early : call.2 < start + cfg.failTimeoutSecs.toNat)
    (failed : next.counters position =
      Strategy.failed .ipHash cfg (clockAt call.2)
        (balancer.counters position)) :
    ¬ExcludedUntil cfg position (start + cfg.failTimeoutSecs.toNat) call.2
      next calls := by
  intro verdicts
  have stays := (verdicts.now le_rfl early.le).2 early
  have ends := (verdicts.now early.le le_rfl).not.2 (Nat.lt_irrefl _)
  rw [excludes, failed] at stays ends
  rcases failed_later held small later early with shortened | prolonged
  · rw [shortened] at stays
    cases stays
  · exact ends prolonged

/-- For a peer that is excluded the calls decide how long. -/
theorem excludedUntil_iff_of_held
    (shape : Shape weights (some cfg) strategy balancer)
    (selects : strategy ≠ .off) (two : 2 ≤ weights.count)
    (inside : position < weights.count) (one : 1 ≤ cfg.maxFails.toNat)
    (held : Held cfg start counted (balancer.counters position))
    {now : ℕ} (after : start ≤ now)
    (window :
      Window position now (start + cfg.failTimeoutSecs.toNat) calls) :
    ExcludedUntil cfg position (start + cfg.failTimeoutSecs.toNat) now
        balancer calls ↔
      Harmless strategy position start counted calls := by
  induction calls generalizing balancer now counted with
  | nil =>
      have few := (balancer.counters position).fails.toNat_lt
      rw [held.counted_eq] at few
      constructor
      · intro _
        exact ⟨by simpa using few, by simp⟩
      · intro _
        exact held.excludes after
  | cons call calls ih =>
      have later : start ≤ call.2 := after.trans window.start_le
      have early := window.early call (by simp)
      have moves := shape.moves selects two inside call.1 (clockAt call.2)
      have kept := shape.perform call.1 (clockAt call.2)
      have shut := (held.excluded_iff later early.le).2 early
      rw [ExcludedUntil, and_iff_right (held.excludes after)]
      cases fails : call.1.failsPeer position with
      | false =>
          have unreported := window.unreported call (by simp)
          have same := moves_of_held moves shut unreported fails
          rw [harmless_cons_of_not fails]
          have next : Held cfg start counted
              ((balancer.perform call.1 (clockAt call.2)).counters
                position) := by
            rw [same]
            exact held
          exact ih kept next later window.tail
      | true =>
          have failed := moves_of_failsPeer moves fails
          by_cases wraps : counted + 1 = 2 ^ 32
          · apply iff_of_false
            · exact not_excludedUntil_of_wraps held selects one wraps early
                failed
            · intro harmless
              have small := harmless.small fails
              omega
          have bounded := (balancer.counters position).fails.toNat_lt
          rw [held.counted_eq] at bounded
          have small : counted + 1 < 2 ^ 32 := by omega
          by_cases same : strategy = .ipHash → call.2 = start
          · rw [harmless_cons_of_same fails same]
            have next := held.failed selects small same
            rw [← failed] at next
            exact ih kept next later window.tail
          · obtain ⟨rfl, different⟩ := Classical.not_imp.1 same
            apply iff_of_false
            · exact not_excludedUntil_of_later held small
                (lt_of_le_of_ne later (Ne.symm different)) early failed
            · intro harmless
              exact different (harmless.2 rfl call (by simp) fails)

/-- A deadline that wraps is in the past already. -/
theorem failed_past
    {health : BackendHealth} (selects : strategy ≠ .off)
    (reaches : health.fails.toNat + 1 = cfg.maxFails.toNat)
    (wraps : 2 ^ 32 ≤ (clockAt start).toNat + cfg.failTimeoutSecs.toNat) :
    excluded cfg (clockAt start)
      (strategy.failed cfg (clockAt start) health) = false := by
  have clock := (clockAt start).toNat_lt
  have timeout := cfg.failTimeoutSecs.toNat_lt
  have past : ¬clockAt start < clockAt start + cfg.failTimeoutSecs := by
    rw [UInt32.lt_iff_toNat_lt, UInt32.toNat_add]
    omega
  rw [Bool.eq_false_iff, Ne, excluded_iff, failed_reaches selects reaches]
  exact fun both => past both.2

variable {sort : UnstableSort} {search : BinarySearch}
variable {values : List UInt8} {first : Balancer}

/-- After the failure that reaches the limit the peer is excluded for the
configured time exactly when the deadline does not wrap and the failures
reported in between are harmless. -/
theorem window_excluded_iff
    (built : new sort search strategy values (some cfg) = some first)
    (selects : strategy ≠ .off) (two : 2 ≤ values.length)
    (inside : position < values.length)
    (earlier : List (Call × UInt32))
    (reaches :
      ((first.performAll earlier).counters position).fails.toNat + 1 =
        cfg.maxFails.toNat)
    (calls : Timed)
    (window :
      Window position start (start + cfg.failTimeoutSecs.toNat) calls) :
    ExcludedUntil cfg position (start + cfg.failTimeoutSecs.toNat) start
        ((first.performAll earlier).perform
          (.onFailure (Token.ofPosition position)) (clockAt start)) calls ↔
      (clockAt start).toNat + cfg.failTimeoutSecs.toNat < 2 ^ 32 ∧
        Harmless strategy position start cfg.maxFails.toNat calls := by
  obtain ⟨weights, shape, count⟩ := shape_of_new built selects
  rw [← count] at two inside
  have reached := shape.performAll earlier
  have moves := reached.moves selects two inside
    (.onFailure (Token.ofPosition position)) (clockAt start)
  have failed := moves_of_failsPeer moves (by simp [Call.failsPeer])
  have kept := reached.perform (.onFailure (Token.ofPosition position))
    (clockAt start)
  by_cases fits :
      (clockAt start).toNat + cfg.failTimeoutSecs.toNat < 2 ^ 32
  · rw [and_iff_right fits]
    refine excludedUntil_iff_of_held kept selects two inside (by omega) ?_
      le_rfl window
    rw [failed, failed_reaches selects reaches]
    exact {
      counted_eq := rfl
      reached := le_rfl
      checked_eq := toNat_add_of_lt fits }
  · constructor
    · intro verdicts
      have clock := (clockAt start).toNat_lt
      have closed := (verdicts.now le_rfl (by omega)).2 (by omega)
      rw [excludes, failed,
        failed_past selects reaches (not_lt.1 fits)] at closed
      cases closed
    · rintro ⟨small, -⟩
      exact (fits small).elim

end Run

/-! ## A timeout for good -/

/-- A limit and a timeout, without a bound on the latency. -/
def limitOf (maxFails failTimeoutSecs : UInt32) : HealthCheckConfig where
  maxFails := maxFails
  failTimeoutSecs := failTimeoutSecs
  maxLatencyMs := none

/-- Two peers of equal weight. -/
def pairOf (cfg : HealthCheckConfig) : Balancer :=
  .roundRobin (RoundRobin.new .pair (some cfg))

theorem new_pairOf (cfg : HealthCheckConfig) :
    new .insertion .first .roundRobin [1, 1] (some cfg) =
      some (pairOf cfg) :=
  rfl

theorem window_excluded_twice :
    ExcludedUntil (limitOf 2 10) 0 1700000010 1700000000
      (((pairOf (limitOf 2 10)).performAll
          [(.onFailure (Token.ofPosition 0), 1699999999)]).perform
        (.onFailure (Token.ofPosition 0)) (clockAt 1700000000))
      [(.next ⟨.v4 fun _ => 0, 0⟩, 1700000001),
        (.onFailure (Token.ofPosition 0), 1700000003)] :=
  (window_excluded_iff (new_pairOf (limitOf 2 10)) (by decide) (by decide)
    (by decide) [(.onFailure (Token.ofPosition 0), 1699999999)] (by decide)
    [(.next ⟨.v4 fun _ => 0, 0⟩, 1700000001),
      (.onFailure (Token.ofPosition 0), 1700000003)]
    ⟨by decide, by decide, by simp⟩).2
    ⟨by decide, by decide, by simp⟩

/-- The largest timeout the config admits excludes the peer not even in the
second of the failure. -/
theorem window_wraps_for_good :
    ¬ExcludedUntil (limitOf 1 4294967295) 0 (1700000000 + 4294967295)
      1700000000
      ((pairOf (limitOf 1 4294967295)).perform
        (.onFailure (Token.ofPosition 0)) (clockAt 1700000000)) [] := by
  intro verdicts
  have closed := (verdicts 1700000000 le_rfl (by decide)).2 (by decide)
  revert closed
  decide

end Balancer

end ByteHub.Lb
