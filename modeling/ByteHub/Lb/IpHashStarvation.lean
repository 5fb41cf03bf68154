import ByteHub.Lb.IpHashProbing
import ByteHub.Lb.IpHashRetry
import Mathlib.Data.Finset.Max

/-!
# Attempts that outlast the exclusions

If the seconds of an exclusion can pass while two peers fewer than there are
fail as often as it takes, one peer may never have its turn: whenever all the
others have failed, the exclusion of the first of them is over again.
-/

namespace ByteHub.Lb.IpHash

/-! ## The order of the walk -/

/-- A walk of the client passes over excluded peers only and then meets the
given one, which is not. -/
def WalksTo
    (ih : IpHash) (search : BinarySearch) (client : Client)
    (cfg : HealthCheckConfig) (now : UInt32) (position : ℕ) : Prop :=
  ∃ skipped node rest,
    ih.ring search client = skipped ++ node :: rest ∧
    node.token = Token.ofPosition position ∧
    excluded cfg now (ih.backend position) = false ∧
    ∀ other ∈ skipped,
      excluded cfg now (ih.backend other.token.index.toNat) = true

section Walk

variable {weights : Weights} {cfg : HealthCheckConfig}
variable {ih before after : IpHash} {search : BinarySearch}
variable {client : Client} {now : UInt32} {position other : ℕ}

/-- While some peer is open, a selection names the peer a walk meets. -/
theorem next_eq_some_iff
    (shape : Shape weights (some cfg) ih) (two : 2 ≤ weights.count)
    (otherInside : other < weights.count)
    (opens : excluded cfg now (ih.backend other) = false)
    (inside : position < weights.count) :
    (ih.next search client now).1 = some (Token.ofPosition position) ↔
      WalksTo ih search client cfg now position := by
  rw [next_checked shape two, probe_eq_find?]
  constructor
  · intro named
    cases found : (ih.ring search client).find? fun node =>
        !excluded cfg now
          (ih.backends.getD node.token.index.toNat BackendHealth.fresh) with
    | none =>
        rcases shape.covers_ring search client otherInside with
          ⟨node, member, isOther⟩
        have shut := List.find?_eq_none.1 found node member
        rw [isOther, weights.ofPosition_toNat otherInside, ← backend,
          opens] at shut
        exact absurd rfl shut
    | some node =>
        rw [found] at named
        have isNode : node.token = Token.ofPosition position :=
          Option.some.inj named
        rcases List.find?_eq_some_iff_append.1 found with
          ⟨passes, skipped, rest, walk, shut⟩
        rw [isNode, weights.ofPosition_toNat inside, ← backend,
          Bool.not_eq_true'] at passes
        refine ⟨skipped, node, rest, walk, isNode, passes, ?_⟩
        intro passed member
        have closed := shut passed member
        rw [Bool.not_not] at closed
        exact closed
  · rintro ⟨skipped, node, rest, walk, isNode, passes, shut⟩
    have found : (ih.ring search client).find? (fun node =>
        !excluded cfg now
          (ih.backends.getD node.token.index.toNat
            BackendHealth.fresh)) = some node := by
      rw [List.find?_eq_some_iff_append]
      refine ⟨?_, skipped, rest, walk, ?_⟩
      · rw [isNode, weights.ofPosition_toNat inside, ← backend, passes]
        rfl
      · intro passed member
        rw [Bool.not_not]
        exact shut passed member
    rw [found, ← isNode]
    rfl

/-- If nothing changes but the health of the peer that is met, and it stays
open, the walk meets it again. -/
theorem WalksTo.again
    (walks : WalksTo before search client cfg now position)
    (ring_eq : after.ring search client = before.ring search client)
    (others : ∀ other, other ≠ position →
      after.backend other = before.backend other)
    (opens : excluded cfg now (after.backend position) = false) :
    WalksTo after search client cfg now position := by
  rcases walks with ⟨skipped, node, rest, walk, isNode, passes, shut⟩
  refine ⟨skipped, node, rest, ring_eq.trans walk, isNode, opens, ?_⟩
  intro passed member
  have closed := shut passed member
  rw [others _ (fun same => by rw [same, passes] at closed; cases closed)]
  exact closed

/-- Some peer is the last of the walk: it is met only if all others are
excluded. -/
theorem exists_last_met
    (shape : Shape weights (some cfg) ih) (two : 2 ≤ weights.count)
    (search : BinarySearch) (client : Client) :
    ∃ last < weights.count, ∀ (after : IpHash) (now : UInt32),
      after.ring search client = ih.ring search client →
        WalksTo after search client cfg now last →
          ∀ other < weights.count, other ≠ last →
            excluded cfg now (after.backend other) = true := by
  let place (position : ℕ) : ℕ :=
    (ih.ring search client).findIdx fun node =>
      node.token = Token.ofPosition position
  rcases Finset.exists_max_image (Finset.range weights.count) place
    ⟨0, Finset.mem_range.2 (by omega)⟩ with ⟨last, member, greatest⟩
  have lastInside := Finset.mem_range.1 member
  refine ⟨last, lastInside, ?_⟩
  rintro after now ring_eq ⟨skipped, node, rest, walk, isLast, _, shut⟩
    other inside distinct
  rw [ring_eq] at walk
  have upTo : place last ≤ skipped.length := by
    by_contra later
    have missed := List.not_of_lt_findIdx (Nat.lt_of_not_le later)
    simp [walk, isLast] at missed
  have within : place other ≤ skipped.length :=
    Nat.le_trans (greatest other (Finset.mem_range.2 inside)) upTo
  have found : place other < (ih.ring search client).length := by
    rw [List.findIdx_lt_length]
    rcases shape.covers_ring search client inside with
      ⟨met, there, isOther⟩
    exact ⟨met, there, decide_eq_true isOther⟩
  have isOther :
      ((ih.ring search client)[place other]).token =
        Token.ofPosition other :=
    of_decide_eq_true (@List.findIdx_getElem _ _ _ found)
  have earlier : place other < skipped.length := by
    apply Nat.lt_of_le_of_ne within
    intro same
    simp only [same, walk, List.getElem_append_right (Nat.le_refl _),
      Nat.sub_self, List.getElem_cons_zero, isLast] at isOther
    exact distinct
      ((weights.ofPosition_inj lastInside inside).1 isOther).symm
  have passed : skipped[place other].token = Token.ofPosition other := by
    rw [← isOther]
    simp only [walk, List.getElem_append_left earlier]
  have closed := shut _ (List.getElem_mem earlier)
  rw [passed, weights.ofPosition_toNat inside] at closed
  exact closed

end Walk

/-! ## A slow course of time -/

section Slow

variable (start : UInt32) (cfg : HealthCheckConfig) (batch lag : ℕ)

/-- How often the seconds of an exclusion fit into what is left of the range
of the clock. -/
def slowSteps : ℕ :=
  (2 ^ 32 - 1 - start.toNat) / cfg.failTimeoutSecs.toNat

/-- The second after so many times the seconds of an exclusion, as far as the
range of the clock goes. -/
def slowSecond (steps : ℕ) : ℕ :=
  start.toNat + min steps (slowSteps start cfg) * cfg.failTimeoutSecs.toNat

/--
The seconds of a call in which the time of an exclusion passes in each batch
of attempts: during the last of them if `lag` is one, and between its report
and the next selection if `lag` is zero.
-/
def slowTime (k : ℕ) : ℕ :=
  slowSecond start cfg ((k / 2 + k % 2 * lag) / batch)

/-- What the clock shows in such a call. -/
def slowClock (k : ℕ) : UInt32 :=
  UInt32.ofNat (slowTime start cfg batch lag k)

variable {start cfg batch lag}

theorem slowSecond_lt (steps : ℕ) : slowSecond start cfg steps < 2 ^ 32 := by
  have small := start.toNat_lt
  have fits :=
    Nat.div_mul_le_self (2 ^ 32 - 1 - start.toNat) cfg.failTimeoutSecs.toNat
  have upTo :
      min steps (slowSteps start cfg) * cfg.failTimeoutSecs.toNat ≤
        slowSteps start cfg * cfg.failTimeoutSecs.toNat :=
    Nat.mul_le_mul_right _ (Nat.min_le_right _ _)
  unfold slowSteps at upTo
  unfold slowSecond slowSteps
  omega

theorem slowSecond_mono {steps more : ℕ} (order : steps ≤ more) :
    slowSecond start cfg steps ≤ slowSecond start cfg more := by
  apply Nat.add_le_add_left
  apply Nat.mul_le_mul_right
  omega

theorem slowClock_toNat (k : ℕ) :
    (slowClock start cfg batch lag k).toNat =
      slowTime start cfg batch lag k :=
  UInt32.toNat_ofNat_of_lt' (slowSecond_lt _)

@[simp]
theorem slowTime_selection (k : ℕ) :
    slowTime start cfg batch lag (2 * k) =
      slowSecond start cfg (k / batch) := by
  have half : 2 * k / 2 = k := by omega
  have even : 2 * k % 2 = 0 := by omega
  rw [slowTime, half, even, Nat.zero_mul, Nat.add_zero]

@[simp]
theorem slowTime_report (k : ℕ) :
    slowTime start cfg batch lag (2 * k + 1) =
      slowSecond start cfg ((k + lag) / batch) := by
  have half : (2 * k + 1) / 2 = k := by omega
  have odd : (2 * k + 1) % 2 = 1 := by omega
  rw [slowTime, half, odd, Nat.one_mul]

theorem slowSecond_succ_le (steps : ℕ) :
    slowSecond start cfg (steps + 1) ≤
      slowSecond start cfg steps + cfg.failTimeoutSecs.toNat := by
  have step :
      min (steps + 1) (slowSteps start cfg) * cfg.failTimeoutSecs.toNat ≤
        (min steps (slowSteps start cfg) + 1) *
          cfg.failTimeoutSecs.toNat :=
    Nat.mul_le_mul_right _ (by omega)
  rw [Nat.succ_mul] at step
  unfold slowSecond
  omega

theorem slowTime_mono (late : lag ≤ 1) :
    Monotone (slowTime start cfg batch lag) := by
  intro j k order
  apply slowSecond_mono
  apply Nat.div_le_div_right
  rcases Nat.le_one_iff_eq_zero_or_eq_one.1 late with rfl | rfl <;> omega

/-- An exclusion is over one step later, or as soon as it is set. -/
theorem slow_deadline_le
    (positive : 0 < cfg.failTimeoutSecs) (steps : ℕ) :
    (UInt32.ofNat (slowSecond start cfg steps) +
        cfg.failTimeoutSecs).toNat ≤
      slowSecond start cfg (steps + 1) := by
  have timeout : 0 < cfg.failTimeoutSecs.toNat := positive
  have small := @slowSecond_lt start cfg steps
  rw [UInt32.toNat_add, UInt32.toNat_ofNat_of_lt' small]
  rcases Nat.lt_or_ge steps (slowSteps start cfg) with inside | beyond
  · have next :
        slowSecond start cfg (steps + 1) =
          slowSecond start cfg steps + cfg.failTimeoutSecs.toNat := by
      rw [slowSecond, slowSecond, Nat.min_eq_left inside,
        Nat.min_eq_left (Nat.le_of_lt inside), Nat.succ_mul, Nat.add_assoc]
    rw [← next]
    exact Nat.mod_le _ _
  · have startSmall := start.toNat_lt
    have timeoutSmall := cfg.failTimeoutSecs.toNat_lt
    have same :
        slowSecond start cfg (steps + 1) = slowSecond start cfg steps := by
      rw [slowSecond, slowSecond, Nat.min_eq_right beyond,
        Nat.min_eq_right (Nat.le_succ_of_le beyond)]
    have full :
        2 ^ 32 ≤ slowSecond start cfg steps +
          cfg.failTimeoutSecs.toNat := by
      rw [slowSecond, Nat.min_eq_right beyond, slowSteps]
      have over_ := @Nat.lt_div_mul_add (2 ^ 32 - 1 - start.toNat) _ timeout
      omega
    rw [same]
    omega

end Slow

/-! ## A call on a slow course -/

/--
A call over peers without failures on a slow course.  A batch is as many
attempts as it takes to exclude one peer after the other, leaving out one
more than the last attempt delays.
-/
structure SlowCall where
  weights : Weights
  cfg : HealthCheckConfig
  ih : IpHash
  search : BinarySearch
  client : Client
  start : UInt32
  lag : ℕ
  shape : Shape weights (some cfg) ih
  fresh : ∀ position, ih.backend position = BackendHealth.fresh
  positive : 0 < cfg.failTimeoutSecs
  lag_le : lag ≤ 1
  lag_lt : lag + 1 < weights.count

namespace SlowCall

def batch (call : SlowCall) : ℕ :=
  (call.weights.count - 1 - call.lag) * failsToExclude call.cfg

def clock (call : SlowCall) : ℕ → UInt32 :=
  slowClock call.start call.cfg call.batch call.lag

/-- The balancer before selection `k`. -/
def before (call : SlowCall) (k : ℕ) : IpHash :=
  beforeSelection call.ih call.search call.client call.clock k

def health (call : SlowCall) (k position : ℕ) : BackendHealth :=
  (call.before k).backend position

def chosen (call : SlowCall) (k : ℕ) : Option Token :=
  selected call.ih call.search call.client call.clock k

/-- Whether a peer is excluded at selection `k`. -/
def shut (call : SlowCall) (k position : ℕ) : Bool :=
  excluded call.cfg (call.clock (2 * k)) (call.health k position)

def shutPeers (call : SlowCall) (k : ℕ) : Finset ℕ :=
  (Finset.range call.weights.count).filter fun position =>
    call.shut k position = true

/--
What the course leaves before selection `k`: no deadline further away than a
step, no more excluded peers than the batch so far makes, and nobody halfway
through its failures but the peer that is selected.
-/
structure Keeps (call : SlowCall) (k : ℕ) : Prop where
  deadlines : ∀ position,
    (call.health k position).checked.toNat ≤
      slowSecond call.start call.cfg (k / call.batch + 1)
  few : (call.shutPeers k).card ≤
    call.lag + k % call.batch / failsToExclude call.cfg
  settled : ∀ position < call.weights.count,
    call.chosen k ≠ some (Token.ofPosition position) →
      (call.health k position).fails = 0 ∨
        call.cfg.maxFails ≤ (call.health k position).fails
  going : ∀ position < call.weights.count,
    call.chosen k = some (Token.ofPosition position) →
      (recovered call.cfg (call.health k position)).fails.toNat =
        k % failsToExclude call.cfg

variable {call : SlowCall} {k : ℕ}

theorem two (call : SlowCall) : 2 ≤ call.weights.count := by
  have more := call.lag_lt
  omega

theorem failsToExclude_pos (cfg : HealthCheckConfig) :
    0 < failsToExclude cfg :=
  Nat.le_max_right _ _

theorem batch_pos (call : SlowCall) : 0 < call.batch := by
  have more := call.lag_lt
  exact Nat.mul_pos (by omega) (failsToExclude_pos _)

theorem ring_before (call : SlowCall) (k : ℕ) :
    (call.before k).ring call.search call.client =
      call.ih.ring call.search call.client := by
  induction k with
  | zero => rfl
  | succ k inductionHypothesis =>
      have shape :=
        (shape_beforeSelection call.search call.client call.clock call.shape
          call.two k).1
      rw [before, beforeSelection]
      rcases next_cases shape call.two call.search call.client
          (call.clock (2 * k)) with
        ⟨position, inside, _, named, _⟩ | ⟨_, named⟩
      · rw [named]
        dsimp only
        rw [onFailure_eq_alter (shape.alter _ _), ring_alter, ring_alter]
        exact inductionHypothesis
      · rw [named]
        cases (beforeSelection call.ih call.search call.client call.clock
          k).primary call.search call.client with
        | none => exact inductionHypothesis
        | some token =>
            dsimp only
            rw [onFailure_eq_alter shape, ring_alter]
            exact inductionHypothesis

/-- A round of the call: an open peer is met and fails, and the health of the
others stays. -/
structure Fails (call : SlowCall) (k payer : ℕ) : Prop where
  inside : payer < call.weights.count
  named : call.chosen k = some (Token.ofPosition payer)
  opens : call.shut k payer = false
  paid : call.health (k + 1) payer =
    failedBackend call.cfg (call.clock (2 * k + 1))
      (recovered call.cfg (call.health k payer))
  others : ∀ other, other ≠ payer →
    call.health (k + 1) other = call.health k other
  walks : WalksTo (call.before k) call.search call.client call.cfg
    (call.clock (2 * k)) payer

/-- There are always two peers that are not excluded. -/
theorem Keeps.card_shutPeers (keeps : Keeps call k) :
    (call.shutPeers k).card + 2 ≤ call.weights.count := by
  have few := keeps.few
  have more := call.lag_lt
  have part :
      k % call.batch / failsToExclude call.cfg <
        call.weights.count - 1 - call.lag :=
    (Nat.div_lt_iff_lt_mul (failsToExclude_pos _)).2
      (Nat.mod_lt _ call.batch_pos)
  omega

theorem Keeps.exists_open (keeps : Keeps call k) :
    ∃ position < call.weights.count, call.shut k position = false := by
  by_contra none_
  push Not at none_
  have all : call.shutPeers k = Finset.range call.weights.count := by
    apply Finset.filter_true_of_mem
    intro position member
    exact Bool.eq_true_of_not_eq_false
      (none_ position (Finset.mem_range.1 member))
  have few := keeps.card_shutPeers
  rw [all, Finset.card_range] at few
  omega

theorem Keeps.exists_fails (keeps : Keeps call k) :
    ∃ payer, Fails call k payer := by
  rcases keeps.exists_open with ⟨other, otherInside, open_⟩
  rcases exists_round_at call.search call.client call.clock call.shape
    call.two k with ⟨payer, named, round⟩
  rcases round.pays otherInside open_ with ⟨passes, paid⟩
  have shape :=
    (shape_beforeSelection call.search call.client call.clock call.shape
      call.two k).1
  exact ⟨payer, round.inside, named, passes, paid, round.others,
    (next_eq_some_iff shape call.two otherInside open_ round.inside).1
      named⟩

/-! ### What one attempt does -/

theorem succ_mod_of_not_dvd
    {share : ℕ} (apart : ¬ share ∣ k + 1) :
    (k + 1) % share = k % share + 1 := by
  have before := Nat.div_add_mod k share
  have after := Nat.div_add_mod (k + 1) share
  rw [Nat.succ_div_of_not_dvd apart] at after
  omega

/-- An exclusion set by a report is over one step after the step of the
report. -/
theorem deadline_le (call : SlowCall) (k : ℕ) :
    (call.clock (2 * k + 1) + call.cfg.failTimeoutSecs).toNat ≤
      slowSecond call.start call.cfg ((k + call.lag) / call.batch + 1) := by
  have reading :
      call.clock (2 * k + 1) =
        UInt32.ofNat
          (slowSecond call.start call.cfg
            ((k + call.lag) / call.batch)) := by
    rw [clock, slowClock, slowTime_report]
  rw [reading]
  exact slow_deadline_le call.positive _

theorem clock_selection (call : SlowCall) (k : ℕ) :
    (call.clock (2 * k)).toNat =
      slowSecond call.start call.cfg (k / call.batch) := by
  rw [clock, slowClock_toNat, slowTime_selection]

theorem checked_recovered_le (cfg : HealthCheckConfig)
    (health : BackendHealth) :
    (recovered cfg health).checked.toNat ≤ health.checked.toNat := by
  unfold recovered
  split
  · exact Nat.zero_le _
  · exact Nat.le_refl _

/-- A failure sets a new deadline or keeps the one there was. -/
theorem checked_failed_le
    {cfg : HealthCheckConfig} {then_ : UInt32} {health : BackendHealth}
    {bound : ℕ} (set_ : (then_ + cfg.failTimeoutSecs).toNat ≤ bound)
    (kept : health.checked.toNat ≤ bound) :
    (failedBackend cfg then_ (recovered cfg health)).checked.toNat ≤
      bound := by
  unfold failedBackend
  dsimp only
  split
  · exact set_
  · exact Nat.le_trans (checked_recovered_le cfg health) kept

section Step

variable {payer : ℕ}

theorem Keeps.deadlines_succ
    (keeps : Keeps call k) (fails : Fails call k payer) (position : ℕ) :
    (call.health (k + 1) position).checked.toNat ≤
      slowSecond call.start call.cfg ((k + 1) / call.batch + 1) := by
  have kept :=
    Nat.le_trans (keeps.deadlines position)
      (slowSecond_mono (Nat.succ_le_succ
        (Nat.div_le_div_right (Nat.le_succ k))))
  by_cases same : position = payer
  · rw [same] at kept ⊢
    rw [fails.paid]
    refine checked_failed_le (Nat.le_trans (call.deadline_le k) ?_) kept
    exact slowSecond_mono (Nat.succ_le_succ
      (Nat.div_le_div_right (Nat.add_le_add_left call.lag_le k)))
  · rw [fails.others position same]
    exact kept

/-- The failures of the peer in turn are counted from the start of its
share. -/
theorem Keeps.fails_payer
    (keeps : Keeps call k) (fails : Fails call k payer) :
    (call.health (k + 1) payer).fails.toNat =
      k % failsToExclude call.cfg + 1 := by
  have counted := keeps.going payer fails.inside fails.named
  have share := Nat.mod_lt k (failsToExclude_pos call.cfg)
  have small := call.cfg.maxFails.toNat_lt
  have bounded : failsToExclude call.cfg < 2 ^ 32 :=
    Nat.max_lt.2 ⟨small, by omega⟩
  have sum :
      ((recovered call.cfg (call.health k payer)).fails + 1).toNat =
        k % failsToExclude call.cfg + 1 := by
    rw [← counted]
    exact toNat_add_of_lt (by rw [counted]; change _ + 1 < _; omega)
  rw [fails.paid, failedBackend]
  split
  · exact sum
  · exact sum

/-- A share is complete when the number of attempts is a multiple of the
failures that exclude a peer. -/
theorem Keeps.maxFails_le_iff
    (keeps : Keeps call k) (fails : Fails call k payer) :
    call.cfg.maxFails ≤ (call.health (k + 1) payer).fails ↔
      failsToExclude call.cfg ∣ k + 1 := by
  have share := Nat.mod_lt k (failsToExclude_pos call.cfg)
  rw [UInt32.le_iff_toNat_le, keeps.fails_payer fails]
  by_cases whole : failsToExclude call.cfg ∣ k + 1
  · refine iff_of_true ?_ whole
    have left : (k + 1) % failsToExclude call.cfg = 0 :=
      Nat.mod_eq_zero_of_dvd whole
    have before := Nat.div_add_mod k (failsToExclude call.cfg)
    have after := Nat.div_add_mod (k + 1) (failsToExclude call.cfg)
    rw [Nat.succ_div_of_dvd whole, left, Nat.mul_succ] at after
    have limit : call.cfg.maxFails.toNat ≤ failsToExclude call.cfg :=
      Nat.le_max_left _ _
    omega
  · refine iff_of_false ?_ whole
    have next := succ_mod_of_not_dvd whole
    have within := Nat.mod_lt (k + 1) (failsToExclude_pos call.cfg)
    rw [next] at within
    have limit : failsToExclude call.cfg = call.cfg.maxFails.toNat := by
      unfold failsToExclude at within ⊢
      omega
    omega

theorem Keeps.open_payer
    (keeps : Keeps call k) (fails : Fails call k payer)
    (apart : ¬ failsToExclude call.cfg ∣ k + 1) (now : UInt32) :
    excluded call.cfg now (call.health (k + 1) payer) = false := by
  have few : ¬ call.cfg.maxFails ≤ (call.health (k + 1) payer).fails :=
    mt (keeps.maxFails_le_iff fails).1 apart
  rw [excluded, decide_eq_false few, Bool.false_and]

/-- At the start of a batch only the last attempt of the one before can have
left its peer excluded. -/
theorem Keeps.shut_of_dvd
    (keeps : Keeps call k) (fails : Fails call k payer)
    (whole : call.batch ∣ k + 1) {position : ℕ}
    (shut : call.shut (k + 1) position = true) :
    position = payer ∧ call.lag = 1 := by
  rw [SlowCall.shut, excluded, Bool.and_eq_true, decide_eq_true_iff,
    decide_eq_true_iff, UInt32.lt_iff_toNat_lt, clock_selection,
    Nat.succ_div_of_dvd whole] at shut
  have ahead := shut.2
  have kept := keeps.deadlines position
  by_cases same : position = payer
  · refine ⟨same, ?_⟩
    by_contra early
    have zero : call.lag = 0 := by
      have atMost := call.lag_le
      omega
    have set_ := call.deadline_le k
    rw [zero, Nat.add_zero] at set_
    rw [same] at ahead kept
    rw [fails.paid] at ahead
    exact Nat.not_lt_of_le (checked_failed_le set_ kept) ahead
  · rw [fails.others position same] at ahead
    exact absurd ahead (Nat.not_lt_of_le kept)

theorem clock_succ_of_not_dvd (apart : ¬ call.batch ∣ k + 1) :
    call.clock (2 * (k + 1)) = call.clock (2 * k) := by
  rw [← UInt32.toNat_inj, clock_selection, clock_selection,
    Nat.succ_div_of_not_dvd apart]

theorem Keeps.few_succ
    (keeps : Keeps call k) (fails : Fails call k payer) :
    (call.shutPeers (k + 1)).card ≤
      call.lag + (k + 1) % call.batch / failsToExclude call.cfg := by
  have member {position steps : ℕ} :
      position ∈ call.shutPeers steps ↔
        position < call.weights.count ∧ call.shut steps position = true := by
    rw [shutPeers, Finset.mem_filter, Finset.mem_range]
  by_cases whole : call.batch ∣ k + 1
  · rw [Nat.mod_eq_zero_of_dvd whole, Nat.zero_div, Nat.add_zero]
    rcases Nat.le_one_iff_eq_zero_or_eq_one.1 call.lag_le with zero | one
    · rw [zero, Nat.le_zero, Finset.card_eq_zero,
        Finset.eq_empty_iff_forall_notMem]
      intro position shut
      have late := (keeps.shut_of_dvd fails whole (member.1 shut).2).2
      omega
    · rw [one, Finset.card_le_one_iff_subset_singleton]
      refine ⟨payer, fun position shut => ?_⟩
      exact Finset.mem_singleton.2
        (keeps.shut_of_dvd fails whole (member.1 shut).2).1
  · have clock_eq := clock_succ_of_not_dvd whole
    have stays {position : ℕ} (other : position ≠ payer)
        (shut : position ∈ call.shutPeers (k + 1)) :
        position ∈ call.shutPeers k := by
      have closed := (member.1 shut).2
      rw [SlowCall.shut, clock_eq, fails.others position other] at closed
      exact member.2 ⟨(member.1 shut).1, closed⟩
    have few := keeps.few
    rw [succ_mod_of_not_dvd whole, Nat.succ_div]
    have inBatch :
        failsToExclude call.cfg ∣ k % call.batch + 1 ↔
          failsToExclude call.cfg ∣ k + 1 := by
      rw [← succ_mod_of_not_dvd whole]
      exact Nat.dvd_mod_iff (Nat.dvd_mul_left _ _)
    split
    · have added : call.shutPeers (k + 1) ⊆
          insert payer (call.shutPeers k) := by
        intro position shut
        by_cases same : position = payer
        · exact Finset.mem_insert.2 (.inl same)
        · exact Finset.mem_insert_of_mem (stays same shut)
      have one := Finset.card_insert_le payer (call.shutPeers k)
      have atMost := Finset.card_le_card added
      omega
    · next apart =>
      have same : call.shutPeers (k + 1) ⊆ call.shutPeers k := by
        intro position shut
        refine stays ?_ shut
        rintro rfl
        have closed := (member.1 shut).2
        rw [SlowCall.shut,
          keeps.open_payer fails (mt inBatch.2 apart)] at closed
        cases closed
      have atMost := Finset.card_le_card same
      omega

/-- In the middle of its share the same peer is selected again. -/
theorem Keeps.chosen_succ
    (keeps : Keeps call k) (fails : Fails call k payer)
    (apart : ¬ failsToExclude call.cfg ∣ k + 1) :
    call.chosen (k + 1) = some (Token.ofPosition payer) := by
  have shape :=
    (shape_beforeSelection call.search call.client call.clock call.shape
      call.two (k + 1)).1
  have inBatch : ¬ call.batch ∣ k + 1 :=
    fun whole => apart (Nat.dvd_trans (Nat.dvd_mul_left _ _) whole)
  have open_ := keeps.open_payer fails apart (call.clock (2 * (k + 1)))
  apply (next_eq_some_iff shape call.two fails.inside open_ fails.inside).2
  rw [clock_succ_of_not_dvd inBatch] at open_ ⊢
  exact fails.walks.again
    ((call.ring_before (k + 1)).trans (call.ring_before k).symm)
    fails.others open_

/-- The peers that were not selected stay as they were. -/
theorem Keeps.settled_others
    (keeps : Keeps call k) (fails : Fails call k payer)
    {position : ℕ} (inside : position < call.weights.count)
    (other : position ≠ payer) :
    (call.health (k + 1) position).fails = 0 ∨
      call.cfg.maxFails ≤ (call.health (k + 1) position).fails := by
  rw [fails.others position other]
  apply keeps.settled position inside
  rw [fails.named, Ne, Option.some.injEq,
    call.weights.ofPosition_inj fails.inside inside]
  exact fun equal => other equal.symm

theorem Keeps.settled_succ
    (keeps : Keeps call k) (fails : Fails call k payer)
    {position : ℕ} (inside : position < call.weights.count)
    (other : call.chosen (k + 1) ≠ some (Token.ofPosition position)) :
    (call.health (k + 1) position).fails = 0 ∨
      call.cfg.maxFails ≤ (call.health (k + 1) position).fails := by
  by_cases same : position = payer
  · rw [same] at other ⊢
    apply Or.inr
    rw [keeps.maxFails_le_iff fails]
    by_contra apart
    exact other (keeps.chosen_succ fails apart)
  · exact keeps.settled_others fails inside same

theorem Keeps.going_succ
    (keeps : Keeps call k) (fails : Fails call k payer)
    {position : ℕ} (inside : position < call.weights.count)
    (named : call.chosen (k + 1) = some (Token.ofPosition position)) :
    (recovered call.cfg (call.health (k + 1) position)).fails.toNat =
      (k + 1) % failsToExclude call.cfg := by
  by_cases whole : failsToExclude call.cfg ∣ k + 1
  · rw [Nat.mod_eq_zero_of_dvd whole]
    have either :
        (call.health (k + 1) position).fails = 0 ∨
          call.cfg.maxFails ≤ (call.health (k + 1) position).fails := by
      by_cases same : position = payer
      · rw [same]
        exact .inr ((keeps.maxFails_le_iff fails).2 whole)
      · exact keeps.settled_others fails inside same
    unfold recovered
    split
    · rfl
    · next few =>
      rw [either.resolve_right few]
      rfl
  · have again := keeps.chosen_succ fails whole
    rw [again, Option.some.injEq,
      call.weights.ofPosition_inj fails.inside inside] at named
    subst named
    have few := mt (keeps.maxFails_le_iff fails).1 whole
    rw [recovered, if_neg few, keeps.fails_payer fails,
      succ_mod_of_not_dvd whole]

end Step

/-! ### Starvation -/

theorem health_zero (call : SlowCall) (position : ℕ) :
    call.health 0 position = BackendHealth.fresh :=
  call.fresh position

theorem keeps_zero (call : SlowCall) : Keeps call 0 where
  deadlines position := by
    rw [health_zero]
    exact Nat.zero_le _
  few := by
    have none_ : call.shutPeers 0 = ∅ := by
      apply Finset.filter_false_of_mem
      intro position _
      rw [shut, health_zero, excluded]
      simp [BackendHealth.fresh]
    rw [none_]
    exact Nat.zero_le _
  settled position _ _ := by
    rw [health_zero]
    exact .inl rfl
  going position _ _ := by
    rw [health_zero, Nat.zero_mod, recovered, ite_self]
    rfl

theorem keeps (call : SlowCall) (k : ℕ) : Keeps call k := by
  induction k with
  | zero => exact call.keeps_zero
  | succ k inductionHypothesis =>
      rcases inductionHypothesis.exists_fails with ⟨payer, fails⟩
      exact {
        deadlines := inductionHypothesis.deadlines_succ fails
        few := inductionHypothesis.few_succ fails
        settled := fun _ => inductionHypothesis.settled_succ fails
        going := fun _ => inductionHypothesis.going_succ fails }

/-- On a slow course some peer never has its turn. -/
theorem exists_starved (call : SlowCall) :
    ∃ starved < call.weights.count, ∀ k,
      call.chosen k ≠ some (Token.ofPosition starved) := by
  rcases exists_last_met call.shape call.two call.search call.client with
    ⟨starved, inside, onlyLast⟩
  refine ⟨starved, inside, fun k named => ?_⟩
  have few := (call.keeps k).card_shutPeers
  rcases (call.keeps k).exists_fails with ⟨payer, fails⟩
  have same : payer = starved := by
    have both := fails.named.symm.trans named
    rw [Option.some.injEq,
      call.weights.ofPosition_inj fails.inside inside] at both
    exact both
  have others :
      (Finset.range call.weights.count).erase starved ⊆
        call.shutPeers k := by
    intro other member
    rcases Finset.mem_erase.1 member with ⟨distinct, otherInside⟩
    exact Finset.mem_filter.2 ⟨otherInside,
      onlyLast _ _ (call.ring_before k) (same ▸ fails.walks) other
        (Finset.mem_range.1 otherInside) distinct⟩
  have many := Finset.card_le_card others
  rw [Finset.card_erase_of_mem (Finset.mem_range.2 inside),
    Finset.card_range] at many
  omega

end SlowCall

end ByteHub.Lb.IpHash
