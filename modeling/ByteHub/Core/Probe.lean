import ByteHub.Conf.Endpoint
import ByteHub.Lb.Exclusion
import ByteHub.Library.Machine

/-!
# The active probe of a peer

A probe loop counts the failed probes of its peer in a row and reports to the
balancer when the count reaches the limit, and again when the peer has
recovered.  The balancer counts these reports on its own and excludes the
peer for the timeout when it has as many of them as the limit, so that the
verdict of the loop takes effect for a limit of one failure only, and for no
longer than the timeout.
-/

namespace ByteHub.Core

open ByteHub.Conf
open ByteHub.Lb
open ByteHub.Lb.IpHash (excluded recovered)
open ByteHub.Library

/-! ## The loop -/

/-- What a probe loop remembers of its peer. -/
structure ProbeLoop where
  consecutiveFails : UInt32
  probeMarkedUnhealthy : Bool
deriving DecidableEq, Repr

namespace ProbeLoop

def start : ProbeLoop where
  consecutiveFails := 0
  probeMarkedUnhealthy := false

/-- The seconds the loop sleeps before the next probe. -/
def interval (config : ProbeConfig) (loop : ProbeLoop) : UInt64 :=
  if loop.probeMarkedUnhealthy then config.probeUnhealthyIntervalSecs
  else config.probeIntervalSecs

/-- The loop after one probe, and what it reports to the balancer. -/
def probed
    (config : ProbeConfig) (token : Token) (loop : ProbeLoop)
    (reached : Bool) : ProbeLoop × Option Balancer.Call :=
  if reached then
    (⟨0, false⟩,
      if loop.probeMarkedUnhealthy then some (.onSuccess token) else none)
  else
    let consecutiveFails := loop.consecutiveFails + 1
    if config.probeMaxFails ≤ consecutiveFails &&
        !loop.probeMarkedUnhealthy then
      (⟨consecutiveFails, true⟩, some (.onFailure token))
    else (⟨consecutiveFails, loop.probeMarkedUnhealthy⟩, none)

end ProbeLoop

/-! ## The loop beside the balancer -/

/-- A probe by the loop, or a call that others make on the balancer. -/
inductive ProbeEvent where
  | probe (reached : Bool)
  | call (call : Balancer.Call)

/-- Whether a call reports about the peer of a token. -/
def reportsOn (token : Token) : Balancer.Call → Prop
  | .next _ => False
  | .onSuccess other => other = token
  | .onFailure other => other = token

instance (token : Token) (call : Balancer.Call) :
    Decidable (reportsOn token call) := by
  cases call <;> unfold reportsOn <;> infer_instance

/-- A balancer, the probe loop of one of its peers, and the time of the last
failure the loop has reported. -/
structure Probing where
  balancer : Balancer
  loop : ProbeLoop
  markedAt : UInt32

namespace Probing

def start (balancer : Balancer) : Probing where
  balancer := balancer
  loop := .start
  markedAt := 0

/-- The state after a probe and the report that follows from it. -/
def afterProbe
    (config : ProbeConfig) (token : Token) (state : Probing)
    (reached : Bool) (now : UInt32) : Probing :=
  let (loop, report) := state.loop.probed config token reached
  { balancer :=
      match report with
      | none => state.balancer
      | some call => state.balancer.perform call now
    loop := loop
    markedAt :=
      if loop.probeMarkedUnhealthy && !state.loop.probeMarkedUnhealthy then
        now
      else state.markedAt }

section AfterProbe

variable {config : ProbeConfig} {token : Token} {state : Probing}
variable (now : UInt32)

theorem afterProbe_recovered
    (flagged : state.loop.probeMarkedUnhealthy = true) :
    state.afterProbe config token true now =
      { state with
        balancer := state.balancer.perform (.onSuccess token) now
        loop := .start } := by
  simp [afterProbe, ProbeLoop.probed, ProbeLoop.start, flagged]

theorem afterProbe_reached
    (clear : state.loop.probeMarkedUnhealthy = false) :
    state.afterProbe config token true now =
      { state with loop := .start } := by
  simp [afterProbe, ProbeLoop.probed, ProbeLoop.start, clear]

theorem afterProbe_marked
    (limit : config.probeMaxFails ≤ state.loop.consecutiveFails + 1)
    (clear : state.loop.probeMarkedUnhealthy = false) :
    state.afterProbe config token false now =
      { balancer := state.balancer.perform (.onFailure token) now
        loop := ⟨state.loop.consecutiveFails + 1, true⟩
        markedAt := now } := by
  simp [afterProbe, ProbeLoop.probed, limit, clear]

theorem afterProbe_unreported
    (quiet : config.probeMaxFails ≤ state.loop.consecutiveFails + 1 →
      state.loop.probeMarkedUnhealthy = true) :
    state.afterProbe config token false now =
      { state with
        loop := ⟨state.loop.consecutiveFails + 1,
          state.loop.probeMarkedUnhealthy⟩ } := by
  have silent :
      (config.probeMaxFails ≤ state.loop.consecutiveFails + 1 &&
        !state.loop.probeMarkedUnhealthy) = false := by
    simpa [Bool.and_eq_false_iff, Classical.or_iff_not_imp_left] using quiet
  simp [afterProbe, ProbeLoop.probed, silent]

end AfterProbe

/-- The sums of a failed probe do not wrap. -/
def SumsInside
    (cfg : HealthCheckConfig) (state : Probing) (reached : Bool)
    (now : UInt32) : Prop :=
  reached = false →
    state.loop.consecutiveFails.toNat + 1 < 2 ^ 32 ∧
      now.toNat + cfg.failTimeoutSecs.toNat < 2 ^ 32

instance
    (cfg : HealthCheckConfig) (state : Probing) (reached : Bool)
    (now : UInt32) : Decidable (SumsInside cfg state reached now) := by
  unfold SumsInside
  infer_instance

/-- The loop is the only one to report about its peer. -/
def machine
    (cfg : HealthCheckConfig) (config : ProbeConfig) (token : Token) :
    Machine Probing (ProbeEvent × UInt32) where
  step state event :=
    match event.1 with
    | .probe reached =>
        if SumsInside cfg state reached event.2 then
          some (state.afterProbe config token reached event.2)
        else none
    | .call call =>
        if reportsOn token call then none
        else some { state with
          balancer := state.balancer.perform call event.2 }

/-! ## Verdicts that take effect -/

/-- A selection does not name the marked peer while another one is
eligible. -/
def PassesOver
    (cfg : HealthCheckConfig) (count position : ℕ) (state : Probing)
    (event : ProbeEvent × UInt32) : Prop :=
  match event.1 with
  | .call (.next client) =>
      state.loop.probeMarkedUnhealthy = true →
        (∃ other < count, other ≠ position ∧
          state.balancer.excludes cfg other event.2 = false) →
        (state.balancer.next client event.2).1 ≠
          some (Token.ofPosition position)
  | _ => True

/-- A selection finds the marked peer excluded. -/
def FindsExcluded
    (cfg : HealthCheckConfig) (position : ℕ) (state : Probing)
    (event : ProbeEvent × UInt32) : Prop :=
  match event.1 with
  | .call (.next _) =>
      state.loop.probeMarkedUnhealthy = true →
        state.balancer.excludes cfg position event.2 = true
  | _ => True

/-- A selection finds the peer marked by a limit of one failure, and within
the timeout. -/
def Timely
    (cfg : HealthCheckConfig) (state : Probing)
    (event : ProbeEvent × UInt32) : Prop :=
  match event.1 with
  | .call (.next _) =>
      state.loop.probeMarkedUnhealthy = true →
        cfg.maxFails = 1 ∧
          event.2.toNat < state.markedAt.toNat + cfg.failTimeoutSecs.toNat
  | _ => True

/-- A probe that reaches the marked peer makes it eligible at all times. -/
def Recovers
    (cfg : HealthCheckConfig) (config : ProbeConfig) (position : ℕ)
    (state : Probing) (event : ProbeEvent × UInt32) : Prop :=
  match event.1 with
  | .probe true =>
      state.loop.probeMarkedUnhealthy = true →
        ∀ later,
          (state.afterProbe config (Token.ofPosition position) true
            event.2).balancer.excludes cfg position later = false
  | _ => True

/-- What the loop has marked and what the balancer has counted. -/
structure Marks
    (strategy : Strategy) (cfg : HealthCheckConfig) (position : ℕ)
    (state : Probing) : Prop where
  unmarked : state.loop.probeMarkedUnhealthy = false →
    state.balancer.counters position = BackendHealth.fresh
  marked : state.loop.probeMarkedUnhealthy = true →
    state.balancer.counters position =
      strategy.failed cfg state.markedAt BackendHealth.fresh
  fits : state.loop.probeMarkedUnhealthy = true →
    state.markedAt.toNat + cfg.failTimeoutSecs.toNat < 2 ^ 32

section Steps

variable {weights : Weights} {cfg : HealthCheckConfig}
variable {config : ProbeConfig} {strategy : Strategy}
variable {position : ℕ} {state next : Probing}
variable {event : ProbeEvent × UInt32}

/-- One failure excludes a peer only under a limit of one. -/
theorem excluded_failed_iff
    {markedAt now : UInt32} (selects : strategy ≠ .off)
    (one : 1 ≤ cfg.maxFails.toNat)
    (fits : markedAt.toNat + cfg.failTimeoutSecs.toNat < 2 ^ 32) :
    excluded cfg now
        (strategy.failed cfg markedAt BackendHealth.fresh) = true ↔
      cfg.maxFails = 1 ∧
        now.toNat < markedAt.toNat + cfg.failTimeoutSecs.toNat := by
  have least : cfg.maxFails ≤ 1 ↔ cfg.maxFails = 1 := by
    rw [UInt32.le_iff_toNat_le, ← UInt32.toNat_inj]
    change _ ≤ 1 ↔ _ = 1
    omega
  have crossing : (0 : UInt32) < cfg.maxFails :=
    UInt32.lt_iff_toNat_lt.2 one
  have failed :
      strategy.failed cfg markedAt BackendHealth.fresh =
        ⟨1, if cfg.maxFails = 1 then markedAt + cfg.failTimeoutSecs
          else 0⟩ := by
    cases strategy with
    | off => exact (selects rfl).elim
    | ipHash =>
        by_cases limit : cfg.maxFails = 1 <;>
          simp [Strategy.failed, IpHash.failedBackend, BackendHealth.fresh,
            least, limit]
    | roundRobin =>
        by_cases limit : cfg.maxFails = 1 <;>
          simp [Strategy.failed, BackendHealth.fresh, least, limit, crossing]
  rw [failed, excluded_iff]
  dsimp only
  rw [least]
  apply and_congr_right
  intro limit
  rw [if_pos limit, UInt32.lt_iff_toNat_lt, toNat_add_of_lt fits]

/-- A loop starts with nothing marked. -/
theorem marks_start
    {balancer : Balancer}
    (clean : balancer.counters position = BackendHealth.fresh) :
    Marks strategy cfg position (start balancer) :=
  ⟨fun _ => clean, nofun, nofun⟩

/-- For marks that hold, the tests of a selection agree. -/
theorem Marks.findsExcluded_iff
    (marks : Marks strategy cfg position state)
    (selects : strategy ≠ .off) (one : 1 ≤ cfg.maxFails.toNat) :
    FindsExcluded cfg position state event ↔ Timely cfg state event := by
  rcases event with ⟨event, now⟩
  cases event with
  | probe reached => exact Iff.rfl
  | call call =>
      cases call with
      | onSuccess token => exact Iff.rfl
      | onFailure token => exact Iff.rfl
      | next client =>
          apply forall_congr'
          intro flagged
          rw [Balancer.excludes, marks.marked flagged]
          exact excluded_failed_iff selects one (marks.fits flagged)

/-- A report of success leaves no failure behind. -/
theorem recovers
    (shape : Balancer.Shape weights (some cfg) strategy state.balancer)
    (selects : strategy ≠ .off) (two : 2 ≤ weights.count)
    (inside : position < weights.count) (one : 1 ≤ cfg.maxFails.toNat) :
    Recovers cfg config position state event := by
  rcases event with ⟨event, now⟩
  cases event with
  | call call => trivial
  | probe reached =>
      cases reached with
      | false => trivial
      | true =>
          intro flagged later
          have moves := shape.moves selects two inside
            (.onSuccess (Token.ofPosition position)) now
          rw [Balancer.Moves, if_pos rfl] at moves
          have few : ¬cfg.maxFails ≤ (0 : UInt32) := by
            rw [UInt32.le_iff_toNat_le]
            exact Nat.not_le.2 one
          rw [afterProbe_recovered now flagged, Balancer.excludes, moves,
            Bool.eq_false_iff, Ne, excluded_iff]
          exact fun both => few both.1

theorem recovered_fresh (one : 1 ≤ cfg.maxFails.toNat) :
    recovered cfg BackendHealth.fresh = BackendHealth.fresh := by
  have few : ¬cfg.maxFails ≤ BackendHealth.fresh.fails := by
    rw [UInt32.le_iff_toNat_le]
    exact Nat.not_le.2 one
  rw [recovered, if_neg few]

/-- A call of others leaves the counters of the peer, unless it selects the
marked peer. -/
theorem Marks.counters_call
    (marks : Marks strategy cfg position state)
    (shape : Balancer.Shape weights (some cfg) strategy state.balancer)
    (selects : strategy ≠ .off) (two : 2 ≤ weights.count)
    (inside : position < weights.count) (one : 1 ≤ cfg.maxFails.toNat)
    {call : Balancer.Call} {now : UInt32}
    (others : ¬reportsOn (Token.ofPosition position) call)
    (shut : FindsExcluded cfg position state (.call call, now)) :
    (state.balancer.perform call now).counters position =
      state.balancer.counters position := by
  have moves := shape.moves selects two inside call now
  cases call with
  | onSuccess token =>
      have other : token ≠ Token.ofPosition position := others
      rw [Balancer.Moves, if_neg other] at moves
      exact moves
  | onFailure token =>
      have other : token ≠ Token.ofPosition position := others
      rw [Balancer.Moves, if_neg other] at moves
      exact moves
  | next client =>
      rcases moves with same | ⟨passes, moved⟩
      · exact same
      cases flagged : state.loop.probeMarkedUnhealthy with
      | true =>
          have closed := shut flagged
          rw [Balancer.excludes, passes] at closed
          cases closed
      | false =>
          rw [moved, marks.unmarked flagged]
          exact recovered_fresh one

/-- A step keeps the marks, unless a selection finds the marked peer
eligible. -/
theorem Marks.step
    (marks : Marks strategy cfg position state)
    (shape : Balancer.Shape weights (some cfg) strategy state.balancer)
    (selects : strategy ≠ .off) (two : 2 ≤ weights.count)
    (inside : position < weights.count) (one : 1 ≤ cfg.maxFails.toNat)
    (shut : FindsExcluded cfg position state event)
    (step : (machine cfg config (Token.ofPosition position)).step state
      event = some next) :
    Marks strategy cfg position next := by
  rcases event with ⟨event, now⟩
  cases event with
  | call call =>
      simp only [machine, Option.ite_none_left_eq_some] at step
      rcases step with ⟨others, stepped⟩
      cases stepped
      have same :=
        marks.counters_call shape selects two inside one others shut
      exact {
        unmarked := fun clear => same.trans (marks.unmarked clear)
        marked := fun flagged => same.trans (marks.marked flagged)
        fits := marks.fits }
  | probe reached =>
      simp only [machine, Option.ite_none_right_eq_some] at step
      rcases step with ⟨sums, stepped⟩
      cases stepped
      cases reached with
      | true =>
          -- Either way the loop ends up with nothing marked.
          cases flagged : state.loop.probeMarkedUnhealthy with
          | false =>
              rw [afterProbe_reached now flagged]
              exact ⟨fun _ => marks.unmarked flagged, nofun, nofun⟩
          | true =>
              have moves := shape.moves selects two inside
                (.onSuccess (Token.ofPosition position)) now
              rw [Balancer.Moves, if_pos rfl] at moves
              rw [afterProbe_recovered now flagged]
              exact ⟨fun _ => moves, nofun, nofun⟩
      | false =>
          by_cases quiet :
              config.probeMaxFails ≤ state.loop.consecutiveFails + 1 →
                state.loop.probeMarkedUnhealthy = true
          · rw [afterProbe_unreported now quiet]
            exact ⟨marks.unmarked, marks.marked, marks.fits⟩
          · -- The failure that marks the peer.
            obtain ⟨limit, unflagged⟩ := Classical.not_imp.1 quiet
            have clear := Bool.eq_false_iff.2 unflagged
            have moves := shape.moves selects two inside
              (.onFailure (Token.ofPosition position)) now
            rw [Balancer.Moves, if_pos rfl, marks.unmarked clear] at moves
            rw [afterProbe_marked now limit clear]
            exact ⟨nofun, fun _ => moves, fun _ => (sums rfl).2⟩

/-- A step leaves the shape of the balancer. -/
theorem shape_step
    {token : Token}
    (shape : Balancer.Shape weights (some cfg) strategy state.balancer)
    (step : (machine cfg config token).step state event = some next) :
    Balancer.Shape weights (some cfg) strategy next.balancer := by
  rcases event with ⟨event, now⟩
  cases event with
  | call call =>
      simp only [machine, Option.ite_none_left_eq_some] at step
      rcases step with ⟨_, stepped⟩
      cases stepped
      exact shape.perform call now
  | probe reached =>
      simp only [machine, Option.ite_none_right_eq_some] at step
      rcases step with ⟨_, stepped⟩
      cases stepped
      unfold afterProbe
      dsimp only
      split
      · exact shape
      · exact shape.perform _ now

theorem shape_run
    {token : Token} {events : List (ProbeEvent × UInt32)}
    (shape : Balancer.Shape weights (some cfg) strategy state.balancer)
    (ran : (machine cfg config token).run state events = some next) :
    Balancer.Shape weights (some cfg) strategy next.balancer :=
  Machine.run_invariant (fun state =>
    Balancer.Shape weights (some cfg) strategy state.balancer)
    shape_step shape ran

/-- An excluded peer is passed over. -/
theorem passesOver_of_findsExcluded
    (shape : Balancer.Shape weights (some cfg) strategy state.balancer)
    (selects : strategy ≠ .off) (two : 2 ≤ weights.count)
    (inside : position < weights.count)
    (shut : FindsExcluded cfg position state event) :
    PassesOver cfg weights.count position state event := by
  rcases event with ⟨event, now⟩
  cases event with
  | probe reached => trivial
  | call call =>
      cases call with
      | onSuccess token => trivial
      | onFailure token => trivial
      | next client =>
          rintro flagged ⟨other, otherInside, _, passes⟩
          exact shape.next_ne selects two inside otherInside
            (shut flagged) passes client

end Steps

/-! ## Runs -/

section Run

variable {sort : UnstableSort} {search : BinarySearch}
variable {strategy : Strategy} {values : List UInt8}
variable {cfg : HealthCheckConfig} {config : ProbeConfig}
variable {position : ℕ} {balancer : Balancer} {final : Probing}
variable {events : List (ProbeEvent × UInt32)}

/-- From a balancer in which the peer has not failed yet, a marked peer is
found excluded in just the runs that ask in time. -/
theorem findsExcluded_iff_timely
    {weights : Weights}
    (shape : Balancer.Shape weights (some cfg) strategy balancer)
    (clean : balancer.counters position = BackendHealth.fresh)
    (selects : strategy ≠ .off) (two : 2 ≤ weights.count)
    (inside : position < weights.count) (one : 1 ≤ cfg.maxFails.toNat)
    (ran : (machine cfg config (Token.ofPosition position)).run
      (start balancer) events = some final) :
    (machine cfg config (Token.ofPosition position)).EachStep
        (FindsExcluded cfg position) (start balancer) events ↔
      (machine cfg config (Token.ofPosition position)).EachStep
        (Timely cfg) (start balancer) events := by
  apply Machine.eachStep_congr
    (fun state =>
      Balancer.Shape weights (some cfg) strategy state.balancer ∧
        Marks strategy cfg position state) _ _ _ _
    ⟨shape, marks_start clean⟩ ran
  · rintro state next event ⟨shaped, marks⟩ shut step
    exact ⟨shape_step shaped step,
      marks.step shaped selects two inside one shut step⟩
  · rintro state next event ⟨_, marks⟩ _
    exact marks.findsExcluded_iff selects one

/-- In every run a recovery makes the peer eligible at once; a marked peer is
passed over where each selection comes in time under a limit of one failure;
and these are the runs in which a marked peer is excluded. -/
theorem probe_takes_effect
    (built : Balancer.new sort search strategy values (some cfg) =
      some balancer)
    (selects : strategy ≠ .off) (two : 2 ≤ values.length)
    (inside : position < values.length) (one : 1 ≤ cfg.maxFails.toNat)
    (ran : (machine cfg config (Token.ofPosition position)).run
      (start balancer) events = some final) :
    (machine cfg config (Token.ofPosition position)).EachStep
        (Recovers cfg config position) (start balancer) events ∧
      ((machine cfg config (Token.ofPosition position)).EachStep
          (Timely cfg) (start balancer) events →
        (machine cfg config (Token.ofPosition position)).EachStep
          (PassesOver cfg values.length position) (start balancer)
          events) ∧
      ((machine cfg config (Token.ofPosition position)).EachStep
          (FindsExcluded cfg position) (start balancer) events ↔
        (machine cfg config (Token.ofPosition position)).EachStep
          (Timely cfg) (start balancer) events) := by
  obtain ⟨weights, fresh, count⟩ := Balancer.shape_of_new built selects
  have bounded : values.length ≤ 255 := by
    rw [← count]
    exact weights.bounded
  have clean :=
    Balancer.counters_new bounded two built inside
  rw [← count] at two inside ⊢
  have same :=
    findsExcluded_iff_timely fresh clean selects two inside one ran
  refine ⟨?_, ?_, same⟩
  · intro before event after state _ reached
    exact recovers (shape_run fresh reached) selects two inside one
  · intro timely before event after state split reached
    exact passesOver_of_findsExcluded (shape_run fresh reached) selects two
      inside (same.2 timely before event after state split reached)

end Run

/-- Two peers of equal weight under the limit of an endpoint. -/
def pairUnder (maxFails : UInt32) : Balancer :=
  .roundRobin
    (RoundRobin.new .pair
      (EndpointConf.healthCheckOf (some maxFails) (some 30) none))

theorem new_pairUnder (maxFails : UInt32) :
    Balancer.new .insertion .first .roundRobin [1, 1]
        (EndpointConf.healthCheckOf (some maxFails) (some 30) none) =
      some (pairUnder maxFails) :=
  rfl

/-- The probe of an endpoint that sets nothing but the interval. -/
def probeUnder (maxFails : UInt32) : ProbeConfig where
  probeIntervalSecs := 10
  probeUnhealthyIntervalSecs := 5
  probeTimeoutMs := 3000
  probeMaxFails := maxFails

theorem probe_takes_effect_once :
    (machine ⟨1, 30, none⟩ (probeUnder 1) (.ofPosition 0)).EachStep
        (Recovers ⟨1, 30, none⟩ (probeUnder 1) 0) (start (pairUnder 1))
        [(.probe false, 10), (.call (.next ⟨.v4 fun _ => 0, 0⟩), 12),
          (.probe true, 15)] ∧
      ((machine ⟨1, 30, none⟩ (probeUnder 1) (.ofPosition 0)).EachStep
          (Timely ⟨1, 30, none⟩) (start (pairUnder 1))
          [(.probe false, 10), (.call (.next ⟨.v4 fun _ => 0, 0⟩), 12),
            (.probe true, 15)] →
        (machine ⟨1, 30, none⟩ (probeUnder 1) (.ofPosition 0)).EachStep
          (PassesOver ⟨1, 30, none⟩ 2 0) (start (pairUnder 1))
          [(.probe false, 10), (.call (.next ⟨.v4 fun _ => 0, 0⟩), 12),
            (.probe true, 15)]) ∧
      ((machine ⟨1, 30, none⟩ (probeUnder 1) (.ofPosition 0)).EachStep
          (FindsExcluded ⟨1, 30, none⟩ 0) (start (pairUnder 1))
          [(.probe false, 10), (.call (.next ⟨.v4 fun _ => 0, 0⟩), 12),
            (.probe true, 15)] ↔
        (machine ⟨1, 30, none⟩ (probeUnder 1) (.ofPosition 0)).EachStep
          (Timely ⟨1, 30, none⟩) (start (pairUnder 1))
          [(.probe false, 10), (.call (.next ⟨.v4 fun _ => 0, 0⟩), 12),
            (.probe true, 15)]) :=
  probe_takes_effect (new_pairUnder 1) (by decide) (by decide) (by decide)
    (by decide) rfl

/-- A peer the loop has marked after two failed probes is selected at once,
beside one that is eligible. -/
theorem probe_verdict_has_no_effect :
    EndpointConf.probeConfigOf (some 10) none none (some 2) =
        some (probeUnder 2) ∧
      ∃ state,
        (machine ⟨2, 30, none⟩ (probeUnder 2) (.ofPosition 0)).run
            (start (pairUnder 2))
            [(.probe false, 10), (.probe false, 20)] = some state ∧
          state.loop.probeMarkedUnhealthy = true ∧
          ¬PassesOver ⟨2, 30, none⟩ 2 0 state
            (.call (.next ⟨.v4 fun _ => 0, 0⟩), 21) := by
  refine ⟨rfl, _, rfl, rfl, ?_⟩
  intro passes
  apply passes rfl
  · exact ⟨1, by decide, by decide, rfl⟩
  · rfl

end Probing

end ByteHub.Core
