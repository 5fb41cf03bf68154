import ByteHub.Core.Failover
import ByteHub.Lb.BalancerRuns

/-!
# When a call gives up

A call should end with an error only when nothing is left to try, and should
end in the same way under every log level.  Its log line of a success asks
two sockets for their peers, and an error of such a query ends the call, with
a stream in hand and other peers left.
-/

namespace ByteHub.Core

open ByteHub.Lb

variable {Addr Stream Error : Type}

/-! ## Giving up -/

namespace CallContext

/-- The call under a log level that shows `info`, or under another one. -/
def atLevel (ctx : CallContext Addr) (logsInfo : Bool) : CallContext Addr :=
  { ctx with logsInfo := logsInfo }

/-- The stream of an attempt on a token. -/
def dial
    (ctx : CallContext Addr) (token : Option Token)
    (attempt : Attempt Addr Stream Error) : Except Error Stream :=
  match ctx.pool && token.isSome, attempt.popIdle with
  | true, some idle => .ok idle
  | _, _ => attempt.connect (ctx.selected token)

end CallContext

/-- Every peer was attempted, and no attempt produced a stream. -/
structure NothingLeft
    (ctx : CallContext Addr) (total : UInt8)
    (network : Network Addr Stream Error)
    (attempted : List (Option Token)) : Prop where
  all : ∀ index < total, some ⟨index⟩ ∈ attempted
  no_stream : ∀ k token, attempted[k]? = some token →
    ∀ stream, ctx.dial token (network k token) ≠ .ok stream

/-- A call gives up only when nothing is left, whatever is logged. -/
structure GivesUpLast
    (ctx : CallContext Addr) (balancer : Balancer)
    (clock : ℕ → UInt32) (network : Network Addr Stream Error) :
    Prop where
  nothing_left : ∀ logsInfo fuel returned error,
    tryConnectWithFallback (ctx.atLevel logsInfo) balancer clock network
        fuel = some returned →
      returned.connected.result = .error error →
        NothingLeft ctx balancer.total network returned.attempted
  same_level : ∀ fuel,
    tryConnectWithFallback (ctx.atLevel true) balancer clock network fuel =
      tryConnectWithFallback (ctx.atLevel false) balancer clock network fuel

/-! ## The attempts before a success in time -/

/-- The latency limit of a balancer. -/
def latencyLimit (balancer : Balancer) : Option UInt32 :=
  balancer.healthConfig.bind HealthCheckConfig.maxLatencyMs

/-- The stream is there within the limit. -/
def Attempt.inTime
    (attempt : Attempt Addr Stream Error) (limit : Option UInt32) : Bool :=
  !limit.any fun max => max.toNat < attempt.elapsedMs

section Attempts

variable (ctx : CallContext Addr) (balancer : Balancer)
variable (clock : ℕ → UInt32) (network : Network Addr Stream Error)

/-- What the outside answers to selection `k`. -/
def attemptAt (k : ℕ) : Attempt Addr Stream Error :=
  network k (selection ctx.client balancer clock k).1

/-- What selection `k` leads to. -/
def dialAt (k : ℕ) : Except Error Stream :=
  ctx.dial (selection ctx.client balancer clock k).1
    (attemptAt ctx balancer clock network k)

/-- Selection `k` leads to a stream within the limit. -/
def Serves (k : ℕ) : Prop :=
  (∃ stream, dialAt ctx balancer clock network k = .ok stream) ∧
    (attemptAt ctx balancer clock network k).inTime
      (latencyLimit balancer) = true

/-- No selection before `k` has led to a stream within the limit, and not
all peers were among them. -/
def StillTrying (k : ℕ) : Prop :=
  ∀ j < k, ¬ Serves ctx balancer clock network j ∧
    triedEnough ctx.client balancer clock balancer.total (j + 1) = false

/-- Both sockets know their peers when the first stream within the limit is
there. -/
def PeersKnown : Prop :=
  ∀ k, StillTrying ctx balancer clock network k →
    Serves ctx balancer clock network k →
      (attemptAt ctx balancer clock network k).localPeerAddr = .ok () ∧
        (attemptAt ctx balancer clock network k).streamPeerAddr = .ok ()

end Attempts

/-! ## One round -/

section Rounds

variable {ctx : CallContext Addr} {balancer : Balancer}
variable {clock : ℕ → UInt32} {network : Network Addr Stream Error}
variable {k : ℕ} {loop : ConnectLoop Stream} {logsInfo : Bool}

/-- The slow candidate: there is one unless no attempt produced a stream. -/
def Keeps
    (ctx : CallContext Addr) (balancer : Balancer)
    (clock : ℕ → UInt32) (network : Network Addr Stream Error) (k : ℕ)
    (loop : ConnectLoop Stream) : Prop :=
  (loop.fallbackStream = none ∧ loop.fallbackMs = none ∧
      ∀ j < k, ∀ stream,
        dialAt ctx balancer clock network j ≠ .ok stream) ∨
    ∃ stream, loop.fallbackStream = some stream

/-- Every selection names some peer. -/
def Names
    (ctx : CallContext Addr) (balancer : Balancer)
    (clock : ℕ → UInt32) : Prop :=
  ∀ k, ∃ token, (selection ctx.client balancer clock k).1 = some token

theorem logged_eq_ok_iff {attempt : Attempt Addr Stream Error} :
    ConnectLoop.logged (ctx.atLevel true) attempt = .ok () ↔
      attempt.localPeerAddr = .ok () ∧ attempt.streamPeerAddr = .ok () := by
  unfold ConnectLoop.logged CallContext.atLevel
  rw [if_pos rfl]
  cases attempt.localPeerAddr with
  | error error =>
      constructor
      · rintro ⟨⟩
      · rintro ⟨⟨⟩, _⟩
  | ok _ =>
      constructor
      · intro answered
        exact ⟨rfl, answered⟩
      · rintro ⟨_, answered⟩
        exact answered

theorem attempt_eq
    (network : Network Addr Stream Error)
    (follows : Follows ctx.client balancer clock k loop) :
    network k loop.token = attemptAt ctx balancer clock network k := by
  rw [attemptAt, follows.token_eq]

theorem dial_eq
    (follows : Follows ctx.client balancer clock k loop)
    (logsInfo : Bool) :
    loop.dial (ctx.atLevel logsInfo)
        (attemptAt ctx balancer clock network k) =
      dialAt ctx balancer clock network k := by
  rw [dialAt, ← follows.token_eq]
  rfl

/-- Before the first round no attempt was made. -/
theorem keeps_firstLoop :
    Keeps ctx balancer clock network 0
      (firstLoop ctx balancer (clock 0)) :=
  .inl ⟨rfl, rfl, fun j before => absurd before (Nat.not_lt_zero j)⟩

theorem round_serves
    (follows : Follows ctx.client balancer clock k loop)
    {stream : Stream}
    (dialled : dialAt ctx balancer clock network k = .ok stream)
    (inTime : (attemptAt ctx balancer clock network k).inTime
      (latencyLimit balancer) = true) :
    loop.round (ctx.atLevel logsInfo) balancer.total
        (latencyLimit balancer) (network k loop.token)
        (clock (2 * k + 1)) (clock (2 * k + 2)) =
      match ConnectLoop.logged (ctx.atLevel logsInfo)
          (attemptAt ctx balancer clock network k) with
      | .ok _ => .done ⟨.ok (stream, loop.token), loop.balancer⟩
      | .error error => .done ⟨.error (.io error), loop.balancer⟩ := by
  rw [attempt_eq network follows, ConnectLoop.round, dial_eq follows,
    dialled]
  rw [Attempt.inTime, Bool.not_eq_true'] at inTime
  exact if_neg (Bool.eq_false_iff.mp inTime)

theorem keeps_remembered
    (keeps : Keeps ctx balancer clock network k loop) (stream : Stream)
    (token : Option Token) (ms : ℕ) :
    Keeps ctx balancer clock network (k + 1)
      (loop.remembered stream token ms) := by
  unfold ConnectLoop.remembered
  split
  · exact .inr ⟨stream, rfl⟩
  · next slower =>
    rcases keeps with ⟨_, noMs, _⟩ | kept
    · rw [noMs] at slower
      exact absurd rfl slower
    · exact .inr kept

theorem keeps_refused
    {error : Error} (keeps : Keeps ctx balancer clock network k loop)
    (refused : dialAt ctx balancer clock network k = .error error) :
    Keeps ctx balancer clock network (k + 1) loop := by
  rcases keeps with ⟨noStream, noMs, missed⟩ | kept
  · refine .inl ⟨noStream, noMs, ?_⟩
    intro j before stream
    rcases Nat.eq_or_lt_of_le (Nat.le_of_lt_succ before) with
      rfl | earlier
    · rw [refused]
      rintro ⟨⟩
    · exact missed j earlier stream
  · exact .inr kept

/-- The loop with which a round that does not serve the client ends. -/
theorem exists_failed
    (follows : Follows ctx.client balancer clock k loop)
    (keeps : Keeps ctx balancer clock network k loop)
    (names : Names ctx balancer clock)
    (unserved : ¬ Serves ctx balancer clock network k) :
    ∃ (failed : ConnectLoop Stream) (error : ConnectError Error),
      (∀ logsInfo, loop.round (ctx.atLevel logsInfo) balancer.total
          (latencyLimit balancer) (network k loop.token)
          (clock (2 * k + 1)) (clock (2 * k + 2)) =
        if failed.exhausted balancer.total then .done (failed.giveUp error)
        else .again (failed.selectNext ctx.client (clock (2 * k + 2)))) ∧
      failed.balancer =
        afterReport (selection ctx.client balancer clock k)
          (clock (2 * k + 1)) ∧
      failed.tried = triedIn ctx.client balancer clock (k + 1) ∧
      Keeps ctx balancer clock network (k + 1) failed := by
  rcases names k with ⟨token, chosen⟩
  have reported := reported_eq ctx follows chosen
  cases dialled : dialAt ctx balancer clock network k with
  | error error =>
      refine ⟨loop.reported (clock (2 * k + 1)), .io error, ?_, ?_, ?_, ?_⟩
      · intro logsInfo
        rw [attempt_eq network follows, ConnectLoop.round,
          dial_eq follows, dialled]
        rfl
      · rw [reported]
      · rw [reported]
      · rw [reported]
        exact keeps_refused keeps dialled
  | ok stream =>
      have late :
          (latencyLimit balancer).any
            (fun max => max.toNat <
              (attemptAt ctx balancer clock network k).elapsedMs) =
            true := by
        by_contra inTime
        apply unserved
        refine ⟨⟨stream, dialled⟩, ?_⟩
        rw [Attempt.inTime, Bool.not_eq_true']
        exact Bool.eq_false_iff.2 inTime
      refine ⟨(loop.reported (clock (2 * k + 1))).remembered stream
        loop.token (attemptAt ctx balancer clock network k).elapsedMs,
        .noPeersAvailable, ?_, ?_, ?_, ?_⟩
      · intro logsInfo
        rw [attempt_eq network follows, ConnectLoop.round,
          dial_eq follows, dialled]
        simp only [late, if_true]
        rfl
      · rw [ConnectLoop.remembered_balancer, reported]
      · rw [ConnectLoop.remembered_tried, reported]
      · apply keeps_remembered
        rw [reported]
        exact keeps

/-! ## All rounds -/

/-- A round after which the call is still trying. -/
theorem round_again
    (follows : Follows ctx.client balancer clock k loop)
    (keeps : Keeps ctx balancer clock network k loop)
    (names : Names ctx balancer clock)
    (unserved : ¬ Serves ctx balancer clock network k)
    (more : triedEnough ctx.client balancer clock balancer.total (k + 1) =
      false) :
    ∃ next,
      (∀ logsInfo, loop.round (ctx.atLevel logsInfo) balancer.total
          (latencyLimit balancer) (network k loop.token)
          (clock (2 * k + 1)) (clock (2 * k + 2)) = .again next) ∧
      Follows ctx.client balancer clock (k + 1) next ∧
      Keeps ctx balancer clock network (k + 1) next := by
  rcases exists_failed follows keeps names unserved with
    ⟨failed, error, ended, balancer_eq, tried_eq, kept⟩
  have open_ :
      failed.exhausted balancer.total = false :=
    (exhausted_eq ctx balancer.total tried_eq).trans more
  refine ⟨_, ?_, follows_selectNext ctx balancer_eq tried_eq, kept⟩
  intro logsInfo
  rw [ended, open_]
  exact if_neg Bool.false_ne_true

/-- A round in which the call gives up. -/
theorem round_giveUp
    (follows : Follows ctx.client balancer clock k loop)
    (keeps : Keeps ctx balancer clock network k loop)
    (names : Names ctx balancer clock)
    (unserved : ¬ Serves ctx balancer clock network k)
    (enough : triedEnough ctx.client balancer clock balancer.total (k + 1) =
      true) :
    ∃ connected : Connected Stream Error,
      (∀ logsInfo, loop.round (ctx.atLevel logsInfo) balancer.total
          (latencyLimit balancer) (network k loop.token)
          (clock (2 * k + 1)) (clock (2 * k + 2)) = .done connected) ∧
      ∀ error, connected.result = .error error →
        ∀ j < k + 1, ∀ stream,
          dialAt ctx balancer clock network j ≠ .ok stream := by
  rcases exists_failed follows keeps names unserved with
    ⟨failed, error, ended, balancer_eq, tried_eq, kept⟩
  have exhausted :
      failed.exhausted balancer.total = true :=
    (exhausted_eq ctx balancer.total tried_eq).trans enough
  refine ⟨failed.giveUp error, ?_, ?_⟩
  · intro logsInfo
    rw [ended, exhausted]
    exact if_pos rfl
  · intro other failure
    rcases kept with ⟨_, _, missed⟩ | ⟨stream, candidate⟩
    · exact missed
    · rw [ConnectLoop.giveUp, candidate] at failure
      cases failure

/-- A call that logs nothing and ends with an error has selected enough
peers, and none of its attempts produced a stream. -/
theorem connectRounds_error
    (names : Names ctx balancer clock)
    {fuel : ℕ} {returned : Returned Stream Error}
    {error : ConnectError Error}
    (follows : Follows ctx.client balancer clock k loop)
    (keeps : Keeps ctx balancer clock network k loop)
    (returns : connectRounds (ctx.atLevel false) balancer.total
      (latencyLimit balancer) clock network fuel k loop = some returned)
    (failure : returned.connected.result = .error error) :
    ∃ last, k ≤ last ∧
      triedEnough ctx.client balancer clock balancer.total (last + 1) =
        true ∧
      (∀ j < last + 1, ∀ stream,
        dialAt ctx balancer clock network j ≠ .ok stream) ∧
      returned.attempted =
        (List.range' k (last + 1 - k)).map fun j =>
          (selection ctx.client balancer clock j).1 := by
  induction fuel generalizing k loop returned with
  | zero => cases returns
  | succ fuel inductionHypothesis =>
      rw [connectRounds] at returns
      by_cases serves : Serves ctx balancer clock network k
      · rcases serves with ⟨⟨stream, dialled⟩, inTime⟩
        rw [round_serves follows dialled inTime] at returns
        cases returns
        cases failure
      · cases enough : triedEnough ctx.client balancer clock balancer.total
            (k + 1) with
        | true =>
            rcases round_giveUp follows keeps names serves enough with
              ⟨connected, done, missed⟩
            rw [done] at returns
            cases returns
            refine ⟨k, Nat.le_refl k, enough, missed error failure, ?_⟩
            rw [Nat.add_sub_cancel_left, follows.token_eq]
            rfl
        | false =>
            rcases round_again follows keeps names serves enough with
              ⟨next, again, followsOn, keepsOn⟩
            rw [again] at returns
            rcases Option.map_eq_some_iff.1 returns with ⟨later, rest, rfl⟩
            rcases inductionHypothesis followsOn keepsOn rest failure with
              ⟨last, after, tried, missed, attempted⟩
            refine ⟨last, Nat.le_of_succ_le after, tried, missed, ?_⟩
            have longer : last + 1 - k = last + 1 - (k + 1) + 1 := by omega
            rw [longer, List.range'_succ, List.map_cons, ← attempted,
              follows.token_eq]

/-- Where both sockets know their peers, the log level does not matter. -/
theorem connectRounds_atLevel
    (names : Names ctx balancer clock)
    (known : PeersKnown ctx balancer clock network) (fuel : ℕ)
    (trying : StillTrying ctx balancer clock network k)
    (follows : Follows ctx.client balancer clock k loop)
    (keeps : Keeps ctx balancer clock network k loop) :
    connectRounds (ctx.atLevel true) balancer.total
        (latencyLimit balancer) clock network fuel k loop =
      connectRounds (ctx.atLevel false) balancer.total
        (latencyLimit balancer) clock network fuel k loop := by
  induction fuel generalizing k loop with
  | zero => rfl
  | succ fuel inductionHypothesis =>
      rw [connectRounds, connectRounds]
      by_cases serves : Serves ctx balancer clock network k
      · have answered :
            ConnectLoop.logged (ctx.atLevel true)
              (attemptAt ctx balancer clock network k) = .ok () :=
          logged_eq_ok_iff.2 (known k trying serves)
        rcases serves with ⟨⟨stream, dialled⟩, inTime⟩
        rw [round_serves follows dialled inTime,
          round_serves follows dialled inTime, answered]
        rfl
      · cases enough : triedEnough ctx.client balancer clock balancer.total
            (k + 1) with
        | true =>
            rcases round_giveUp follows keeps names serves enough with
              ⟨connected, done, _⟩
            rw [done, done]
        | false =>
            rcases round_again follows keeps names serves enough with
              ⟨next, again, followsOn, keepsOn⟩
            have tryingOn :
                StillTrying ctx balancer clock network (k + 1) := by
              intro j before
              rcases Nat.eq_or_lt_of_le (Nat.le_of_lt_succ before) with
                rfl | earlier
              · exact ⟨serves, enough⟩
              · exact trying j earlier
            rw [again, again]
            dsimp only
            rw [inductionHypothesis tryingOn followsOn keepsOn]

/-- A call that is still trying comes to round `k`. -/
theorem exists_reached
    (names : Names ctx balancer clock)
    (trying : StillTrying ctx balancer clock network k) :
    ∃ loop : ConnectLoop Stream,
      Follows ctx.client balancer clock k loop ∧
      Keeps ctx balancer clock network k loop ∧
      ∀ logsInfo fuel,
        (tryConnectWithFallback (ctx.atLevel logsInfo) balancer clock
            network (fuel + k)).map Returned.connected =
          (connectRounds (ctx.atLevel logsInfo) balancer.total
            (latencyLimit balancer) clock network fuel k loop).map
              Returned.connected := by
  induction k with
  | zero =>
      refine ⟨firstLoop ctx balancer (clock 0), ⟨rfl, rfl, rfl⟩,
        keeps_firstLoop, ?_⟩
      intro logsInfo fuel
      rfl
  | succ k inductionHypothesis =>
      rcases inductionHypothesis fun j before =>
        trying j (Nat.lt_succ_of_lt before) with
        ⟨loop, follows, keeps, reached⟩
      rcases trying k (Nat.lt_succ_self k) with ⟨unserved, more⟩
      rcases round_again follows keeps names unserved more with
        ⟨next, again, followsOn, keepsOn⟩
      refine ⟨next, followsOn, keepsOn, ?_⟩
      intro logsInfo fuel
      have shift : fuel + (k + 1) = fuel + 1 + k := by omega
      rw [shift, reached, connectRounds, again, Option.map_map]
      rfl

end Rounds

/-! ## Balancers that were built -/

section Built

variable {weights : Weights} {config : Option HealthCheckConfig}
variable {strategy : Strategy} {balancer : Balancer}

theorem shape_selection
    (shape : Balancer.Shape weights config strategy balancer)
    (client : Client) (clock : ℕ → UInt32) (k : ℕ) :
    ∃ before, Balancer.Shape weights config strategy before ∧
      selection client balancer clock k =
        before.next client (clock (2 * k)) := by
  induction k with
  | zero => exact ⟨balancer, shape, rfl⟩
  | succ k inductionHypothesis =>
      rcases inductionHypothesis with ⟨before, beforeShape, selected⟩
      have after := beforeShape.perform (.next client) (clock (2 * k))
      refine ⟨afterReport (selection client balancer clock k)
        (clock (2 * k + 1)), ?_, rfl⟩
      rw [selected, afterReport]
      split
      · exact after
      · next token _ =>
        exact after.perform (.onFailure token) (clock (2 * k + 1))

theorem names_of_shape
    (shape : Balancer.Shape weights config strategy balancer)
    (ctx : CallContext Addr) (clock : ℕ → UInt32) :
    Names ctx balancer clock := by
  intro k
  rcases shape_selection shape ctx.client clock k with
    ⟨before, beforeShape, selected⟩
  rcases beforeShape.next_inside ctx.client (clock (2 * k)) with
    ⟨position, chosen, _⟩
  rw [selected, chosen]
  exact ⟨_, rfl⟩

/-- A balancer that counts any peers selects among these. -/
theorem selectsBelow_of_shape
    (shape : Balancer.Shape weights config strategy balancer)
    (some_ : 0 < balancer.total.toNat) (client : Client)
    (clock : ℕ → UInt32) :
    SelectsBelow client balancer clock balancer.total.toNat := by
  have selects : strategy ≠ .off := by
    rintro rfl
    cases shape
    exact absurd some_ (by decide)
  have total := shape.total_eq selects
  intro k
  rcases shape_selection shape client clock k with
    ⟨before, beforeShape, selected⟩
  rcases beforeShape.next_inside client (clock (2 * k)) with
    ⟨position, chosen, inside | ⟨rfl, _⟩⟩
  · exact ⟨position, total ▸ inside, by rw [selected, chosen]⟩
  · exact ⟨0, some_, by rw [selected, chosen]⟩

/-- Once enough peers were tried, all of them were. -/
theorem all_selected
    (shape : Balancer.Shape weights config strategy balancer)
    {client : Client} {clock : ℕ → UInt32} {rounds : ℕ}
    (enough : triedEnough client balancer clock balancer.total rounds =
      true) {index : UInt8} (inside : index < balancer.total) :
    ∃ k < rounds, (selection client balancer clock k).1 = some ⟨index⟩ := by
  have below := UInt8.lt_iff_toNat_lt.1 inside
  have some_ : 0 < balancer.total.toNat := Nat.zero_lt_of_lt below
  have small : balancer.total.toNat ≤ 255 :=
    Nat.le_of_lt_succ balancer.total.toNat_lt
  have selects := selectsBelow_of_shape shape some_ client clock
  have counted : UInt8.ofNat balancer.total.toNat = balancer.total :=
    UInt8.ofNat_toNat
  rw [← counted] at enough
  rcases (triedEnough_iff some_ small selects rounds).1 enough index.toNat
    below with ⟨k, before, chosen⟩
  refine ⟨k, before, chosen.trans ?_⟩
  rw [Token.ofPosition, UInt8.ofNat_toNat]

end Built

/-! ## Every call -/

section Calls

variable {weights : Weights} {config : Option HealthCheckConfig}
variable {strategy : Strategy} {ctx : CallContext Addr}
variable {balancer : Balancer} {clock : ℕ → UInt32}
variable {network : Network Addr Stream Error}

theorem atLevel_eq
    (names : Names ctx balancer clock)
    (known : PeersKnown ctx balancer clock network)
    (logsInfo : Bool) (fuel : ℕ) :
    tryConnectWithFallback (ctx.atLevel logsInfo) balancer clock network
        fuel =
      tryConnectWithFallback (ctx.atLevel false) balancer clock network
        fuel := by
  cases logsInfo with
  | false => rfl
  | true =>
      refine connectRounds_atLevel names known fuel ?_ ⟨rfl, rfl, rfl⟩
        keeps_firstLoop
      intro j before
      exact absurd before (Nat.not_lt_zero j)

theorem nothingLeft_of_error
    (shape : Balancer.Shape weights config strategy balancer)
    {fuel : ℕ} {returned : Returned Stream Error}
    {error : ConnectError Error}
    (returns : tryConnectWithFallback (ctx.atLevel false) balancer clock
      network fuel = some returned)
    (failure : returned.connected.result = .error error) :
    NothingLeft ctx balancer.total network returned.attempted := by
  rcases connectRounds_error (names_of_shape shape ctx clock)
      ⟨rfl, rfl, rfl⟩ keeps_firstLoop returns failure with
    ⟨last, _, enough, missed, attempted⟩
  constructor
  · intro index inside
    rcases all_selected shape enough inside with ⟨k, before, chosen⟩
    rw [attempted, ← chosen]
    apply List.mem_map_of_mem
    rw [List.mem_range'_1]
    omega
  · intro k token visited stream
    rw [attempted, List.getElem?_map] at visited
    rcases Option.map_eq_some_iff.1 visited with ⟨j, inside, chosen⟩
    rcases List.getElem?_eq_some_iff.1 inside with ⟨before, rfl⟩
    rw [List.length_range'] at before
    rw [List.getElem_range', Nat.zero_add, Nat.one_mul] at chosen
    rw [← chosen]
    exact missed k (by omega) stream

/-- A stream in time whose address queries fail is lost at level `info`. -/
theorem level_matters
    (names : Names ctx balancer clock) {k : ℕ}
    (trying : StillTrying ctx balancer clock network k)
    (serves : Serves ctx balancer clock network k)
    (unknown : ¬ ((attemptAt ctx balancer clock network k).localPeerAddr =
        .ok () ∧
      (attemptAt ctx balancer clock network k).streamPeerAddr = .ok ())) :
    tryConnectWithFallback (ctx.atLevel true) balancer clock network
        (1 + k) ≠
      tryConnectWithFallback (ctx.atLevel false) balancer clock network
        (1 + k) := by
  rcases exists_reached names trying with ⟨loop, follows, _, reached⟩
  rcases serves with ⟨⟨stream, dialled⟩, inTime⟩
  intro same
  have results := congrArg (Option.map Returned.connected) same
  rw [reached, reached, connectRounds, connectRounds,
    round_serves follows dialled inTime,
    round_serves follows dialled inTime] at results
  cases logged : ConnectLoop.logged (ctx.atLevel true)
      (attemptAt ctx balancer clock network k) with
  | ok _ => exact unknown (logged_eq_ok_iff.1 logged)
  | error error =>
      rw [logged] at results
      injection results with results
      injection results with result _
      cases result

/-- A call on a balancer of some shape gives up last exactly if both sockets
know their peers. -/
theorem givesUpLast_iff_of_shape
    (shape : Balancer.Shape weights config strategy balancer) :
    GivesUpLast ctx balancer clock network ↔
      PeersKnown ctx balancer clock network := by
  have names := names_of_shape shape ctx clock
  constructor
  · intro gives k trying serves
    by_contra unknown
    exact level_matters names trying serves unknown
      (gives.same_level (1 + k))
  · intro known
    constructor
    · intro logsInfo fuel returned error returns failure
      rw [atLevel_eq names known] at returns
      exact nothingLeft_of_error shape returns failure
    · intro fuel
      exact atLevel_eq names known true fuel

end Calls

/-- A call on a balancer that was built and used in any way gives up only
when nothing is left, under every log level, if and only if both sockets
know their peers when the first stream within the limit is there. -/
theorem givesUpLast_iff
    {sort : UnstableSort} {search : BinarySearch} {strategy : Strategy}
    {values : List UInt8} {config : Option HealthCheckConfig}
    {balancer : Balancer}
    (built : Balancer.new sort search strategy values config =
      some balancer)
    (calls : List (Balancer.Call × UInt32)) (ctx : CallContext Addr)
    (clock : ℕ → UInt32) (network : Network Addr Stream Error) :
    GivesUpLast ctx (balancer.performAll calls) clock network ↔
      PeersKnown ctx (balancer.performAll calls) clock network := by
  rcases Balancer.exists_shape built with ⟨weights, shape⟩
  exact givesUpLast_iff_of_shape (shape.performAll calls)

/-- Every connection is there at once, and reset before it is asked for its
peer. -/
def resetting : Network Unit Unit Unit := fun _ _ =>
  { popIdle := none
    connect := fun _ => .ok ()
    elapsedMs := 0
    localPeerAddr := .ok ()
    streamPeerAddr := .error () }

/-- Of two peers only the first is attempted, with success, and the call at
level `info` ends with an error. -/
theorem resetting_not_givesUpLast :
    ∃ balancer, Balancer.new .insertion .first .roundRobin [1, 1] none =
        some balancer ∧
      ¬ GivesUpLast anyContext balancer (fun _ => 0) resetting := by
  refine ⟨_, rfl, ?_⟩
  intro gives
  have left :=
    (gives.nothing_left true 1 _ (.io ()) rfl rfl).all 1 (by decide)
  revert left
  decide

theorem givesUpLast_iff_resetting :
    ∃ balancer, Balancer.new .insertion .first .roundRobin [1, 1] none =
        some balancer ∧
      (GivesUpLast anyContext (balancer.performAll []) (fun _ => 0)
          resetting ↔
        PeersKnown anyContext (balancer.performAll []) (fun _ => 0)
          resetting) :=
  ⟨_, rfl,
    @givesUpLast_iff _ _ _ .insertion .first .roundRobin [1, 1] none _ rfl []
      anyContext (fun _ => 0) resetting⟩

end ByteHub.Core
