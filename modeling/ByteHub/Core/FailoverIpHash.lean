import ByteHub.Core.Failover
import ByteHub.Lb.IpHashStarvation

/-!
# Failover under IP hash

A call over peers that are all down ends if and only if the IP hash balancer
gives every peer its turn.  Without health checks it never does.  With health
checks it does if exclusions outlast the attempts and no deadline overflows
the clock.  Slower attempts find the exclusion of the first peer over again
whenever the last one would have its turn.
-/

namespace ByteHub.Core

open ByteHub.Lb
open ByteHub.Lb.IpHash

section Selections

variable {weights : Weights} {config : Option HealthCheckConfig}
variable {ih : IpHash}

theorem selection_ipHash
    (ih : IpHash) (search : BinarySearch) (client : Client)
    (clock : ℕ → UInt32) (k : ℕ) :
    selection client (.ipHash search ih) clock k =
      (selected ih search client clock k,
        .ipHash search ((beforeSelection ih search client clock k).next
          search client (clock (2 * k))).2) := by
  induction k with
  | zero => rfl
  | succ k inductionHypothesis =>
      rw [selection, inductionHypothesis, selected, selected,
        beforeSelection]
      rcases (beforeSelection ih search client clock k).next search client
        (clock (2 * k)) with ⟨_ | token, after⟩ <;> rfl

theorem total_ipHash
    (shape : Shape weights config ih) (search : BinarySearch) :
    (Balancer.ipHash search ih).total = UInt8.ofNat weights.count :=
  shape.total_eq

theorem selectsBelow_ipHash
    (shape : Shape weights config ih) (two : 2 ≤ weights.count)
    (search : BinarySearch) (client : Client) (clock : ℕ → UInt32) :
    SelectsBelow client (.ipHash search ih) clock weights.count := by
  intro k
  rw [selection_ipHash]
  cases config with
  | none =>
      rw [selected_unchecked shape two]
      exact shape.exists_primary two search client
  | some cfg =>
      rcases exists_round_at search client clock shape two k with
        ⟨position, named, round⟩
      exact ⟨position, round.inside, named⟩

/-- Without health checks a call whose peers are all down never returns. -/
theorem never_returns_unchecked
    {Addr Stream Error : Type} {network : Network Addr Stream Error}
    {reachable : Token → Prop}
    (shape : Shape weights none ih) (two : 2 ≤ weights.count)
    (search : BinarySearch) (ctx : CallContext Addr)
    (clock : ℕ → UInt32) (answers : Answers reachable network)
    (nobody : ∀ token, ¬ reachable token) (fuel : ℕ) :
    tryConnectWithFallback ctx (.ipHash search ih) clock network fuel =
      none := by
  rcases shape.exists_primary two search ctx.client with
    ⟨head, inside, isHead⟩
  have bounded := weights.bounded
  change weights.count ≤ 255 at bounded
  -- One of the first two peers is not the first of the client.
  refine never_returns ctx two bounded (total_ipHash shape search)
    (selectsBelow_ipHash shape two search ctx.client clock) answers nobody
    (show 1 - head < weights.count by omega) ?_ fuel
  intro k
  rw [selection_ipHash, selected_unchecked shape two, isHead, Ne,
    Option.some.injEq, Token.ofPosition_inj (by omega) (by omega)]
  omega

end Selections

/-! ## Calls -/

/-- The balancer of an endpoint, with its peers in any state of health. -/
def withHealth
    (sort : UnstableSort) (weights : Weights)
    (config : Option HealthCheckConfig)
    (health : Fin weights.count → BackendHealth) : IpHash :=
  { IpHash.new sort weights config with backends := List.ofFn health }

/--
A course of time in a call, in seconds at its clock readings.  No more than
`pause` seconds pass between a report and the next selection, and no more
than `span` until a stretch of further attempts has been made.  The
exclusions running at the start are over at some selection, and the clock
shows `last` at most until a certain number of attempts after it; what it
shows later is not bounded.
-/
structure Course
    {count : ℕ} (config : Option HealthCheckConfig)
    (health : Fin count → BackendHealth) (start : UInt32)
    (pause span last : ℕ) (time : ℕ → ℕ) : Prop where
  starts : time 0 = start.toNat
  monotone : Monotone time
  pauses : ∀ k, time (2 * k + 2) ≤ time (2 * k + 1) + pause
  spans : ∀ cfg, config = some cfg → ∀ k,
    time (2 * (k + 1 + stretch count cfg)) ≤ time (2 * k + 1) + span
  settles : ∃ settled, ∀ cfg, config = some cfg →
    (∀ peer, cfg.maxFails ≤ (health peer).fails →
      (health peer).checked.toNat ≤ time (2 * settled)) ∧
    time (2 * (settled + patience count cfg)) ≤ last

/--
Every call ends as it should, whatever the health of the peers at its start:
with an error after attempting every peer if none is reachable, with a stream
to a reachable peer if there is one.
-/
def IpHashFailsOver
    (sort : UnstableSort) (search : BinarySearch) (weights : Weights)
    (config : Option HealthCheckConfig) (client : Client) (start : UInt32)
    (pause span last : ℕ) : Prop :=
  ∀ (health : Fin weights.count → BackendHealth)
    (Addr Stream Error : Type) (ctx : CallContext Addr)
    (reachable : Token → Prop) (network : Network Addr Stream Error)
    (time : ℕ → ℕ),
    ctx.client = client → Answers reachable network →
      Course config health start pause span last time →
        ((∀ token, ¬ reachable token) →
          FailsHavingTriedAll ctx
            (.ipHash search (withHealth sort weights config health))
            (readings time) network weights.count) ∧
        ((∃ position < weights.count,
            reachable (Token.ofPosition position)) →
          EndsReachable reachable ctx
            (.ipHash search (withHealth sort weights config health))
            (readings time) network)

/-- How long the exclusion of a peer has to last: over the stretch of
attempts that excludes all others but one, of which two peers have none. -/
def longestWait (count pause span : ℕ) : ℕ :=
  if count = 2 then min pause span else span

/-- There are health checks, an exclusion outlasts the attempts it has to
last for, and its end is in the range of the clock. -/
def ExclusionsOutlast
    (config : Option HealthCheckConfig) (count pause span last : ℕ) :
    Prop :=
  ∃ cfg, config = some cfg ∧
    longestWait count pause span < cfg.failTimeoutSecs.toNat ∧
    last + cfg.failTimeoutSecs.toNat < 2 ^ 32

section FailsOver

variable {weights : Weights} {config : Option HealthCheckConfig}
variable {cfg : HealthCheckConfig} {sort : UnstableSort}
variable {search : BinarySearch} {client : Client}
variable {health : Fin weights.count → BackendHealth}
variable {start : UInt32} {pause span last : ℕ} {time : ℕ → ℕ}

theorem shape_withHealth
    (sort : UnstableSort) (config : Option HealthCheckConfig)
    (two : 2 ≤ weights.count) (health : Fin weights.count → BackendHealth) :
    Shape weights config (withHealth sort weights config health) :=
  shape_new sort weights config two (List.length_ofFn)

theorem backend_withHealth
    (sort : UnstableSort) (config : Option HealthCheckConfig)
    (peer : Fin weights.count) :
    (withHealth sort weights config health).backend peer = health peer := by
  simp [backend, withHealth, List.getD_eq_getElem?_getD]

/-- A balancer that selects every peer in every course of time fails over. -/
theorem ipHashFailsOver_of_selected
    (two : 2 ≤ weights.count)
    (selects : ∀ health time,
      Course config health start pause span last time →
        ∀ position < weights.count, ∃ k,
          selected (withHealth sort weights config health) search client
            (readings time) k = some (Token.ofPosition position)) :
    IpHashFailsOver sort search weights config client start pause span
      last := by
  intro health Addr Stream Error ctx reachable network time same answers
    course
  subst same
  have shape := shape_withHealth sort config two health
  have total := total_ipHash shape search
  have below :=
    selectsBelow_ipHash shape two search ctx.client (readings time)
  have every (position : ℕ) (inside : position < weights.count) :
      ∃ k, (selection ctx.client
        (.ipHash search (withHealth sort weights config health))
        (readings time) k).1 = some (Token.ofPosition position) := by
    rcases selects health time course position inside with ⟨k, chosen⟩
    exact ⟨k, by rw [selection_ipHash]; exact chosen⟩
  constructor
  · intro nobody
    exact (failsHavingTriedAll_iff ctx two weights.bounded total below
      answers nobody).2 every
  · intro some_
    exact endsReachable_of_selected ctx two weights.bounded total below
      answers every some_

/-- A balancer that fails over selects every peer. -/
theorem IpHashFailsOver.selected
    (failsOver : IpHashFailsOver sort search weights config client start
      pause span last)
    (two : 2 ≤ weights.count)
    (course : Course config health start pause span last time)
    {position : ℕ} (inside : position < weights.count) :
    ∃ k, selected (withHealth sort weights config health) search client
      (readings time) k = some (Token.ofPosition position) := by
  have shape := shape_withHealth sort config two health
  have fails :=
    (failsOver health Unit Unit Unit { anyContext with client := client }
      (fun _ => False) refusing time rfl refusing_answers course).1
      fun _ => id
  rw [failsHavingTriedAll_iff _ two weights.bounded
    (total_ipHash shape search) (selectsBelow_ipHash shape two search _ _)
    refusing_answers fun _ => id] at fails
  rcases fails position inside with ⟨k, chosen⟩
  rw [selection_ipHash] at chosen
  exact ⟨k, chosen⟩

/-! ## Exclusions that outlast the attempts -/

theorem readings_toNat
    {k : ℕ} (small : time k < 2 ^ 32) : (readings time k).toNat = time k :=
  UInt32.toNat_ofNat_of_lt' small

/-- The seconds from a report to the end of the stretch of attempts after
it. -/
theorem Course.wait
    (course : Course (some cfg) health start pause span last time)
    (k : ℕ) :
    time (2 * (k + 1 + stretch weights.count cfg)) ≤
      time (2 * k + 1) + longestWait weights.count pause span := by
  have spanned := course.spans cfg rfl k
  unfold longestWait
  split
  · next pair =>
    have empty : stretch weights.count cfg = 0 := by
      rw [stretch, pair, Nat.sub_self, Nat.zero_mul]
    have paused := course.pauses k
    rw [empty, Nat.add_zero, Nat.mul_succ] at spanned ⊢
    omega
  · exact spanned

theorem Course.outlasts
    (course : Course (some cfg) health start pause span last time)
    (sort : UnstableSort)
    (waits : longestWait weights.count pause span <
      cfg.failTimeoutSecs.toNat)
    (fits : last + cfg.failTimeoutSecs.toNat < 2 ^ 32) :
    ∃ settled, Outlasts weights cfg
      (withHealth sort weights (some cfg) health) (readings time)
      settled := by
  rcases course.settles with ⟨settled, settles⟩
  rcases settles cfg rfl with ⟨passed, upTo⟩
  have shown {k : ℕ}
      (early : k ≤ 2 * (settled + patience weights.count cfg)) :
      (readings time k).toNat = time k := by
    have sooner := course.monotone early
    exact readings_toNat (by omega)
  refine ⟨settled, ?_, ?_, ?_, ?_⟩
  · intro j k order early
    rw [UInt32.le_iff_toNat_le, shown early, shown (by omega)]
    exact course.monotone order
  · intro position inside many
    have same :
        (withHealth sort weights (some cfg) health).backend position =
          health ⟨position, inside⟩ :=
      backend_withHealth sort _ ⟨position, inside⟩
    rw [same] at many ⊢
    rw [UInt32.le_iff_toNat_le, shown (by omega)]
    exact passed _ many
  · intro k early
    have waited := course.wait k
    rw [shown (by omega), shown (by omega)]
    omega
  · rw [shown (Nat.le_refl _)]
    omega

theorem ExclusionsOutlast.failsOver
    (outlast : ExclusionsOutlast config weights.count pause span last)
    (two : 2 ≤ weights.count) :
    IpHashFailsOver sort search weights config client start pause span
      last := by
  rcases outlast with ⟨cfg, rfl, waits, fits⟩
  apply ipHashFailsOver_of_selected two
  intro health time course position inside
  rcases course.outlasts sort waits fits with ⟨settled, outlasts⟩
  exact exists_selected_of_outlasts outlasts
    (shape_withHealth sort (some cfg) two health) two inside

/-! ## Deadlines past the range of the clock -/

/-- The first attempt lasts until the last second the clock can show. -/
def jump (start : UInt32) (last k : ℕ) : ℕ :=
  if k = 0 then start.toNat else min last (2 ^ 32 - 1)

theorem readings_jump_succ (start : UInt32) (last k : ℕ) :
    (readings (jump start last) (k + 1)).toNat = min last (2 ^ 32 - 1) := by
  rw [readings_toNat]
  · rfl
  · exact Nat.lt_succ_of_le (Nat.min_le_right _ _)

/-- Peers without failures. -/
def allFresh (weights : Weights) : Fin weights.count → BackendHealth :=
  fun _ => BackendHealth.fresh

theorem backend_allFresh
    (sort : UnstableSort) (config : Option HealthCheckConfig)
    (position : ℕ) :
    (withHealth sort weights config (allFresh weights)).backend position =
      BackendHealth.fresh := by
  unfold backend withHealth allFresh
  rw [List.ofFn_const, List.getD_eq_getElem?_getD, List.getElem?_replicate]
  split <;> rfl

theorem course_jump (order : start.toNat ≤ last) :
    Course config (allFresh weights) start pause span last
      (jump start last) := by
  have startSmall := start.toNat_lt
  refine ⟨rfl, ?_, ?_, ?_, 0, ?_⟩
  · intro j k before
    unfold jump
    split <;> split <;> omega
  · intro k
    exact Nat.le_add_right _ _
  · intro cfg _ k
    unfold jump
    rw [if_neg (by omega), if_neg (by omega)]
    exact Nat.le_add_right _ _
  · intro cfg _
    refine ⟨fun _ _ => Nat.zero_le _, ?_⟩
    unfold jump
    split
    · exact order
    · exact Nat.min_le_left _ _

theorem not_failsOver_unchecked
    (two : 2 ≤ weights.count) (order : start.toNat ≤ last) :
    ¬ IpHashFailsOver sort search weights none client start pause span
      last := by
  intro failsOver
  rcases (failsOver (allFresh weights) Unit Unit Unit
    { anyContext with client := client } (fun _ => False) refusing _ rfl
    refusing_answers (course_jump order)).1 (fun _ => id) with
    ⟨fuel, returned, _, returns, _⟩
  have shape := shape_withHealth sort none two (allFresh weights)
  rw [never_returns_unchecked shape two search _ _ refusing_answers
    fun _ => id] at returns
  cases returns

/-- With deadlines that pass as soon as they are set only the first peer of
the client is selected. -/
theorem selected_jump
    (sort : UnstableSort) (search : BinarySearch) (client : Client)
    (two : 2 ≤ weights.count)
    (unfit : ¬ (0 < cfg.failTimeoutSecs ∧
      last + cfg.failTimeoutSecs.toNat < 2 ^ 32)) (k : ℕ) :
    selected (withHealth sort weights (some cfg) (allFresh weights)) search
        client (readings (jump start last)) k =
      (withHealth sort weights (some cfg) (allFresh weights)).primary search
        client := by
  have shape := shape_withHealth sort (some cfg) two (allFresh weights)
  have passed (now : UInt32) (position : ℕ) :
      ((withHealth sort weights (some cfg) (allFresh weights)).backend
        position).checked ≤ now := by
    rw [backend_allFresh]
    exact UInt32.zero_le
  cases k with
  | zero =>
      rcases shape.exists_primary two search client with
        ⟨head, inside, isHead⟩
      rcases exists_round_at search client (readings (jump start last))
        shape two 0 with ⟨first, named, round⟩
      rw [named, isHead,
        round.eq_head inside isHead
          (excluded_eq_false_of_passed fun _ => passed _ head)]
  | succ k =>
      have wraps :
          readings (jump start last) 1 + cfg.failTimeoutSecs ≤
            readings (jump start last) 1 := by
        apply add_le_self_of_not_fits
        rintro ⟨positive, fits⟩
        have timeout : 0 < cfg.failTimeoutSecs.toNat := positive
        rw [readings_jump_succ] at fits
        exact unfit ⟨positive, by omega⟩
      have stands (j : ℕ) :
          readings (jump start last) (j + 1) =
            readings (jump start last) 1 :=
        UInt32.toNat_inj.1 ((readings_jump_succ start last j).trans
          (readings_jump_succ start last 0).symm)
      exact selected_succ_of_wraps shape two stands wraps
        (fun position _ _ => passed _ position) k

theorem fits_of_failsOver
    (two : 2 ≤ weights.count) (order : start.toNat ≤ last)
    (failsOver : IpHashFailsOver sort search weights (some cfg) client start
      pause span last) :
    0 < cfg.failTimeoutSecs ∧
      last + cfg.failTimeoutSecs.toNat < 2 ^ 32 := by
  by_contra unfit
  have shape := shape_withHealth sort (some cfg) two (allFresh weights)
  rcases shape.exists_primary two search client with ⟨head, inside, isHead⟩
  -- One of the first two peers is not the first of the client.
  have other : 1 - head < weights.count := by omega
  rcases failsOver.selected two (course_jump order) other with ⟨k, chosen⟩
  rw [selected_jump sort search client two unfit, isHead, Option.some.injEq,
    weights.ofPosition_inj inside other] at chosen
  omega

/-! ## Attempts that outlast the exclusions -/

/-- The slow call over fresh peers. -/
def slowCall
    (sort : UnstableSort) (search : BinarySearch) (weights : Weights)
    (cfg : HealthCheckConfig) (client : Client) (start : UInt32) (lag : ℕ)
    (positive : 0 < cfg.failTimeoutSecs) (atMost : lag ≤ 1)
    (more : lag + 1 < weights.count) : SlowCall where
  weights := weights
  cfg := cfg
  ih := withHealth sort weights (some cfg) (allFresh weights)
  search := search
  client := client
  start := start
  lag := lag
  shape :=
    shape_withHealth sort (some cfg) (by omega) (allFresh weights)
  fresh := backend_allFresh sort (some cfg)
  positive := positive
  lag_le := atMost
  lag_lt := more

/-- A slow course whose steps are an exclusion each, and in which a stretch
of attempts takes one step at most. -/
theorem course_slow
    {batch lag : ℕ} (atMost : lag ≤ 1)
    (room : start.toNat + 6 * cfg.failTimeoutSecs.toNat ≤ last)
    (pauses : ∀ k, slowSecond start cfg ((k + 1) / batch) ≤
      slowSecond start cfg ((k + lag) / batch) + pause)
    (steps : ∀ k, (k + 1 + stretch weights.count cfg) / batch ≤
      (k + lag) / batch + 1)
    (spans : cfg.failTimeoutSecs.toNat ≤ span)
    (early : patience weights.count cfg / batch ≤ 6) :
    Course (some cfg) (allFresh weights) start pause span last
      (slowTime start cfg batch lag) := by
  refine ⟨?_, slowTime_mono atMost, ?_, ?_, 0, ?_⟩
  · rw [← Nat.mul_zero 2, slowTime_selection, Nat.zero_div, slowSecond,
      Nat.zero_min, Nat.zero_mul, Nat.add_zero]
  · intro k
    rw [← Nat.mul_succ, slowTime_selection, slowTime_report]
    exact pauses k
  · intro other same k
    cases same
    rw [slowTime_selection, slowTime_report]
    calc
      slowSecond start cfg ((k + 1 + stretch weights.count cfg) / batch)
        ≤ slowSecond start cfg ((k + lag) / batch + 1) :=
          slowSecond_mono (steps k)
      _ ≤ slowSecond start cfg ((k + lag) / batch) +
            cfg.failTimeoutSecs.toNat := slowSecond_succ_le _
      _ ≤ slowSecond start cfg ((k + lag) / batch) + span :=
          Nat.add_le_add_left spans _
  · intro other same
    cases same
    refine ⟨fun _ _ => Nat.zero_le _, ?_⟩
    rw [Nat.zero_add, slowTime_selection, slowSecond]
    have sixth :=
      Nat.mul_le_mul_right cfg.failTimeoutSecs.toNat
        (Nat.le_trans
          (Nat.min_le_left (patience weights.count cfg / batch)
            (slowSteps start cfg)) early)
    omega

/-- With two peers the time of an exclusion passes before a selection. -/
theorem course_slow_pair
    (pair : weights.count = 2)
    (room : start.toNat + 6 * cfg.failTimeoutSecs.toNat ≤ last)
    (short : cfg.failTimeoutSecs.toNat ≤ min pause span) :
    Course (some cfg) (allFresh weights) start pause span last
      (slowTime start cfg ((weights.count - 1 - 0) * failsToExclude cfg)
        0) := by
  have batch_eq :
      (weights.count - 1 - 0) * failsToExclude cfg = failsToExclude cfg := by
    rw [pair, Nat.one_mul]
  have empty : stretch weights.count cfg = 0 := by
    rw [stretch, pair, Nat.sub_self, Nat.zero_mul]
  have step (k : ℕ) :
      (k + 1) / failsToExclude cfg ≤ k / failsToExclude cfg + 1 := by
    rw [Nat.succ_div]
    split <;> omega
  rw [batch_eq]
  refine course_slow (Nat.zero_le 1) room ?_ ?_
    (Nat.le_trans short (Nat.min_le_right _ _)) ?_
  · intro k
    have passed := @slowSecond_mono start cfg _ _ (step k)
    have next := @slowSecond_succ_le start cfg (k / failsToExclude cfg)
    change _ ≤ slowSecond start cfg (k / failsToExclude cfg) + pause
    omega
  · intro k
    rw [empty]
    exact step k
  · rw [patience, pair, Nat.mul_div_cancel _ (SlowCall.failsToExclude_pos _)]
    decide

/-- With more peers it passes during an attempt. -/
theorem course_slow_many
    (many : 3 ≤ weights.count)
    (room : start.toNat + 6 * cfg.failTimeoutSecs.toNat ≤ last)
    (short : cfg.failTimeoutSecs.toNat ≤ span) :
    Course (some cfg) (allFresh weights) start pause span last
      (slowTime start cfg ((weights.count - 1 - 1) * failsToExclude cfg)
        1) := by
  have positive : 0 < failsToExclude cfg := SlowCall.failsToExclude_pos cfg
  refine course_slow (Nat.le_refl 1) room ?_ ?_ short ?_
  · intro k
    exact Nat.le_add_right _ _
  · intro k
    rw [stretch, Nat.sub_sub,
      Nat.add_div_right _ (Nat.mul_pos (by omega) positive)]
  · rw [patience, Nat.mul_div_mul_right _ _ positive]
    apply Nat.div_le_of_le_mul
    omega

theorem wait_of_failsOver
    (two : 2 ≤ weights.count) (positive : 0 < cfg.failTimeoutSecs)
    (room : start.toNat + 6 * cfg.failTimeoutSecs.toNat ≤ last)
    (failsOver : IpHashFailsOver sort search weights (some cfg) client start
      pause span last) :
    longestWait weights.count pause span < cfg.failTimeoutSecs.toNat := by
  by_contra short
  rw [Nat.not_lt, longestWait] at short
  split at short
  · next pair =>
    rcases (slowCall sort search weights cfg client start 0 positive
      (by omega) (by omega)).exists_starved with ⟨starved, inside, never⟩
    rcases failsOver.selected two (course_slow_pair pair room short) inside
      with ⟨k, chosen⟩
    exact never k chosen
  · next more =>
    rcases (slowCall sort search weights cfg client start 1 positive
      (by omega) (by omega)).exists_starved with ⟨starved, inside, never⟩
    have many : 3 ≤ weights.count := by omega
    rcases failsOver.selected two (course_slow_many many room short) inside
      with ⟨k, chosen⟩
    exact never k chosen

end FailsOver

/--
Failover under IP hash works if there are health checks whose exclusions
outlast the attempts.  It never does without health checks or with deadlines
past the range of the clock, nor, where the clock leaves room for slow
attempts, with exclusions that do not outlast them.
-/
theorem ipHashFailsOver_iff
    (sort : UnstableSort) (search : BinarySearch) (weights : Weights)
    (config : Option HealthCheckConfig) (client : Client) (start : UInt32)
    (pause span last : ℕ) (two : 2 ≤ weights.count)
    (order : start.toNat ≤ last) :
    (ExclusionsOutlast config weights.count pause span last →
      IpHashFailsOver sort search weights config client start pause span
        last) ∧
    (IpHashFailsOver sort search weights config client start pause span
        last →
      ∃ cfg, config = some cfg ∧ 0 < cfg.failTimeoutSecs ∧
        last + cfg.failTimeoutSecs.toNat < 2 ^ 32) ∧
    ((∀ cfg, config = some cfg →
        start.toNat + 6 * cfg.failTimeoutSecs.toNat ≤ last) →
      (IpHashFailsOver sort search weights config client start pause span
          last ↔
        ExclusionsOutlast config weights.count pause span last)) := by
  have fits
      (failsOver : IpHashFailsOver sort search weights config client start
        pause span last) :
      ∃ cfg, config = some cfg ∧ 0 < cfg.failTimeoutSecs ∧
        last + cfg.failTimeoutSecs.toNat < 2 ^ 32 := by
    cases config with
    | none => exact absurd failsOver (not_failsOver_unchecked two order)
    | some cfg => exact ⟨cfg, rfl, fits_of_failsOver two order failsOver⟩
  refine ⟨fun outlast => outlast.failsOver two, fits, fun room => ?_⟩
  constructor
  · intro failsOver
    rcases fits failsOver with ⟨cfg, rfl, positive, upTo⟩
    exact ⟨cfg, rfl,
      wait_of_failsOver two positive (room cfg rfl) failsOver, upTo⟩
  · exact fun outlast => outlast.failsOver two

/--
Three equal weights, one failure, and attempts that last five seconds: with
six seconds of exclusion every call ends as it should, with five not.
-/
theorem ipHashFailsOver_three_peers :
    IpHashFailsOver .insertion .first ⟨[1, 1, 1], by decide⟩
        (some ⟨1, 6, none⟩) anyClient 0 1 5 1000000 ∧
      ¬ IpHashFailsOver .insertion .first ⟨[1, 1, 1], by decide⟩
        (some ⟨1, 5, none⟩) anyClient 0 1 5 1000000 := by
  constructor
  · exact (ipHashFailsOver_iff .insertion .first ⟨[1, 1, 1], by decide⟩
      (some ⟨1, 6, none⟩) anyClient 0 1 5 1000000 (by decide)
      (by decide)).1 ⟨_, rfl, by decide, by decide⟩
  · intro failsOver
    have outlast :=
      ((ipHashFailsOver_iff .insertion .first ⟨[1, 1, 1], by decide⟩
        (some ⟨1, 5, none⟩) anyClient 0 1 5 1000000 (by decide)
        (by decide)).2.2 (by rintro cfg ⟨⟩; decide)).1 failsOver
    rcases outlast with ⟨cfg, ⟨⟩, waits, _⟩
    exact absurd waits (by decide)

/-- Two equal weights without health checks: the call never returns. -/
theorem call_never_returns_unchecked :
    ¬ ∃ fuel returned,
      tryConnectWithFallback anyContext
          (.ipHash .first (IpHash.new .insertion ⟨[1, 1], by decide⟩ none))
          (readings fun k => k) refusing fuel =
        some returned := by
  rintro ⟨fuel, returned, returns⟩
  have two : 2 ≤ (⟨[1, 1], by decide⟩ : Weights).count := by decide
  rw [never_returns_unchecked (shape_fresh .insertion _ none two) two
    .first anyContext _ refusing_answers fun _ => id] at returns
  cases returns

end ByteHub.Core
