import Mathlib.Data.List.MinMax
import ByteHub.Core.FailoverGiveUp

/-!
# The slow candidate of a call

A call returns the first stream that is there within the latency limit.
Where there is none, it returns the stream that took the least time among
all that came too late, and it reports a failure for every attempt but the
one in time.
-/

namespace ByteHub.Core

open ByteHub.Lb

variable {Addr Stream Error : Type}

/-! ## Attempts and what they lead to -/

/-- What an attempt leads to, measured against the latency limit. -/
inductive DialOutcome (Stream Error : Type) where
  | inTime (stream : Stream)
  | tooSlow (stream : Stream) (ms : ℕ)
  | refused (error : Error)

/-- An attempt of a call. -/
structure Tried (Stream Error : Type) where
  token : Option Token
  outcome : DialOutcome Stream Error

/-- A stream that came too late, as the loop keeps it. -/
structure LateStream (Stream : Type) where
  stream : Stream
  token : Option Token
  ms : ℕ

namespace Tried

/-- The answer of an attempt in time. -/
def served
    (tried : Tried Stream Error) : Option (Stream × Option Token) :=
  match tried.outcome with
  | .inTime stream => some (stream, tried.token)
  | _ => none

/-- The candidate of an attempt that came too late. -/
def late (tried : Tried Stream Error) : Option (LateStream Stream) :=
  match tried.outcome with
  | .tooSlow stream ms => some ⟨stream, tried.token, ms⟩
  | _ => none

end Tried

/-- The outcome of an attempt on a token. -/
def CallContext.outcome
    (ctx : CallContext Addr) (limit : Option UInt32)
    (token : Option Token) (attempt : Attempt Addr Stream Error) :
    DialOutcome Stream Error :=
  match ctx.dial token attempt with
  | .ok stream =>
      if attempt.inTime limit then .inTime stream
      else .tooSlow stream attempt.elapsedMs
  | .error error => .refused error

/-- The attempts on some tokens from round `index` on. -/
def attemptsFrom
    (ctx : CallContext Addr) (limit : Option UInt32)
    (network : Network Addr Stream Error) (index : ℕ)
    (tokens : List (Option Token)) : List (Tried Stream Error) :=
  (tokens.zipIdx index).map fun asked =>
    ⟨asked.1, ctx.outcome limit asked.1 (network asked.2 asked.1)⟩

/-- The attempts of a call. -/
def Returned.attempts
    (returned : Returned Stream Error) (ctx : CallContext Addr)
    (limit : Option UInt32) (network : Network Addr Stream Error) :
    List (Tried Stream Error) :=
  attemptsFrom ctx limit network 0 returned.attempted

/-- The fastest of the streams that came too late, and the first of these on
ties. -/
def fastestLate
    (attempts : List (Tried Stream Error)) : Option (LateStream Stream) :=
  (attempts.filterMap Tried.late).argmin LateStream.ms

/-- The log lines of the attempts in time can be written. -/
def LogsAnswered
    (ctx : CallContext Addr) (limit : Option UInt32)
    (network : Network Addr Stream Error) (index : ℕ)
    (tokens : List (Option Token)) : Prop :=
  ∀ asked ∈ tokens.zipIdx index, ∀ stream,
    ctx.outcome limit asked.1 (network asked.2 asked.1) = .inTime stream →
      ConnectLoop.logged ctx (network asked.2 asked.1) = .ok ()

/-! ## The calls on the balancer -/

namespace ConnectLoop

/-- The calls of a report. -/
def reportCalls
    (loop : ConnectLoop Stream) (now : UInt32) :
    List (Balancer.Call × UInt32) :=
  match loop.token with
  | none => []
  | some token => [(.onFailure token, now)]

/-- The calls at the end of a round that has failed. -/
def selectCalls
    (loop : ConnectLoop Stream) (total : UInt8) (client : Client)
    (now : UInt32) : List (Balancer.Call × UInt32) :=
  if loop.exhausted total then [] else [(.next client, now)]

/-- The calls of one round. -/
def roundCalls
    (loop : ConnectLoop Stream) (ctx : CallContext Addr) (total : UInt8)
    (maxLatency : Option UInt32) (attempt : Attempt Addr Stream Error)
    (reportAt selectAt : UInt32) : List (Balancer.Call × UInt32) :=
  match loop.dial ctx attempt with
  | .ok stream =>
      if maxLatency.any fun max => max.toNat < attempt.elapsedMs then
        let remembered :=
          (loop.reported reportAt).remembered stream loop.token
            attempt.elapsedMs
        loop.reportCalls reportAt ++
          remembered.selectCalls total ctx.client selectAt
      else []
  | .error _ =>
      loop.reportCalls reportAt ++
        (loop.reported reportAt).selectCalls total ctx.client selectAt

end ConnectLoop

/-- The calls of the loop from a round on. -/
def callsFrom
    (ctx : CallContext Addr) (total : UInt8)
    (maxLatency : Option UInt32) (clock : ℕ → UInt32)
    (network : Network Addr Stream Error) :
    ℕ → ℕ → ConnectLoop Stream → List (Balancer.Call × UInt32)
  | 0, _, _ => []
  | fuel + 1, index, loop =>
      loop.roundCalls ctx total maxLatency (network index loop.token)
          (clock (2 * index + 1)) (clock (2 * index + 2)) ++
        match loop.round ctx total maxLatency (network index loop.token)
            (clock (2 * index + 1)) (clock (2 * index + 2)) with
        | .done _ => []
        | .again next =>
            callsFrom ctx total maxLatency clock network fuel (index + 1)
              next

/-- The calls that `tryConnectWithFallback` makes on its balancer. -/
def callsWithin
    (ctx : CallContext Addr) (balancer : Balancer)
    (clock : ℕ → UInt32) (network : Network Addr Stream Error)
    (fuel : ℕ) : List (Balancer.Call × UInt32) :=
  (.next ctx.client, clock 0) ::
    callsFrom ctx balancer.total (latencyLimit balancer) clock network
      fuel 0 (firstLoop ctx balancer (clock 0))

/-- The peer a call reports as failed. -/
def failureOf (call : Balancer.Call × UInt32) : Option Token :=
  match call.1 with
  | .onFailure token => some token
  | _ => none

/-! ## What a call should do -/

/-- The right stream for some attempts. -/
structure Picks
    (attempts : List (Tried Stream Error))
    (result : Except (ConnectError Error) (Stream × Option Token)) :
    Prop where
  /-- The first stream in time is returned with its token. -/
  first_in_time : ∀ answer, attempts.findSome? Tried.served = some answer →
    result = .ok answer
  /-- Otherwise the fastest one that came too late is. -/
  fastest_late : attempts.findSome? Tried.served = none →
    ∀ fastest, fastestLate attempts = some fastest →
      result = .ok (fastest.stream, fastest.token)

/-- The attempts that were not in time. -/
def failures (attempts : List (Tried Stream Error)) :
    List (Tried Stream Error) :=
  attempts.filter fun tried => tried.served.isNone

/-- The peers that some calls report, in order. -/
def reportsIn (calls : List (Balancer.Call × UInt32)) : List Token :=
  calls.filterMap failureOf

/-- A call returns the right stream, and reports the attempts it should. -/
structure PicksFastest
    (ctx : CallContext Addr) (balancer : Balancer)
    (clock : ℕ → UInt32) (network : Network Addr Stream Error)
    (fuel : ℕ) (returned : Returned Stream Error)
    (attempts : List (Tried Stream Error)) : Prop where
  picks : Picks attempts returned.connected.result
  /-- The attempts that were not in time are reported, each once. -/
  reports :
    (reportsIn (callsWithin ctx balancer clock network fuel)).map some =
      (failures attempts).map Tried.token
  /-- Nothing but these calls changes the balancer. -/
  balancer_eq : returned.connected.balancer =
    balancer.performAll (callsWithin ctx balancer clock network fuel)

/-! ## Rounds that fail and runs that end -/

/-- A failed attempt, the loop after it, and the error it leaves. -/
inductive Fails
    (loop : ConnectLoop Stream) (reportAt : UInt32) :
    Tried Stream Error → ConnectLoop Stream → ConnectError Error → Prop
    where
  | tooSlow (stream : Stream) (ms : ℕ) :
      Fails loop reportAt ⟨loop.token, .tooSlow stream ms⟩
        ((loop.reported reportAt).remembered stream loop.token ms)
        .noPeersAvailable
  | refused (error : Error) :
      Fails loop reportAt ⟨loop.token, .refused error⟩
        (loop.reported reportAt) (.io error)

/-- The runs of the loop from a round on that end, with their attempts,
their calls on the balancer and what they return. -/
inductive Runs
    (client : Client) (total : UInt8) (clock : ℕ → UInt32) :
    ℕ → ConnectLoop Stream → List (Tried Stream Error) →
      List (Balancer.Call × UInt32) → Connected Stream Error → Prop where
  | served (index : ℕ) (loop : ConnectLoop Stream) (stream : Stream) :
      Runs client total clock index loop [⟨loop.token, .inTime stream⟩] []
        ⟨.ok (stream, loop.token), loop.balancer⟩
  | gaveUp (index : ℕ) (loop failed : ConnectLoop Stream)
      (tried : Tried Stream Error) (error : ConnectError Error)
      (fails : Fails loop (clock (2 * index + 1)) tried failed error) :
      Runs client total clock index loop [tried]
        (loop.reportCalls (clock (2 * index + 1))) (failed.giveUp error)
  | again (index : ℕ) (loop failed : ConnectLoop Stream)
      (tried : Tried Stream Error) (error : ConnectError Error)
      (fails : Fails loop (clock (2 * index + 1)) tried failed error)
      (attempts : List (Tried Stream Error))
      (calls : List (Balancer.Call × UInt32))
      (connected : Connected Stream Error)
      (rest : Runs client total clock (index + 1)
        (failed.selectNext client (clock (2 * index + 2))) attempts calls
        connected) :
      Runs client total clock index loop (tried :: attempts)
        (loop.reportCalls (clock (2 * index + 1)) ++
          (.next client, clock (2 * index + 2)) :: calls)
        connected

section Rounds

variable {ctx : CallContext Addr} {total : UInt8} {limit : Option UInt32}
variable {attempt : Attempt Addr Stream Error}
variable {loop : ConnectLoop Stream} {reportAt selectAt : UInt32}

/-- How a failed round ends. -/
def ConnectLoop.endFailed
    (loop : ConnectLoop Stream) (client : Client) (total : UInt8)
    (error : ConnectError Error) (selectAt : UInt32) :
    Round Stream Error :=
  if loop.exhausted total then .done (loop.giveUp error)
  else .again (loop.selectNext client selectAt)

/-- A round whose attempt is in time ends the call with its stream. -/
theorem round_inTime
    {stream : Stream} (dialled : ctx.dial loop.token attempt = .ok stream)
    (inTime : (limit.any fun max => max.toNat < attempt.elapsedMs) = false)
    (logs : ConnectLoop.logged ctx attempt = .ok ()) :
    loop.round ctx total limit attempt reportAt selectAt =
        .done ⟨.ok (stream, loop.token), loop.balancer⟩ ∧
      loop.roundCalls ctx total limit attempt reportAt selectAt = [] := by
  have dialled' : loop.dial ctx attempt = .ok stream := dialled
  constructor
  · rw [ConnectLoop.round, dialled']
    dsimp only
    rw [inTime, logs]
    rfl
  · rw [ConnectLoop.roundCalls, dialled']
    dsimp only
    rw [inTime]
    rfl

theorem outcome_inTime
    {token : Option Token} {stream : Stream}
    (dialled : ctx.dial token attempt = .ok stream)
    (inTime : (limit.any fun max => max.toNat < attempt.elapsedMs) =
      false) :
    ctx.outcome limit token attempt = .inTime stream := by
  rw [CallContext.outcome, dialled]
  dsimp only
  rw [Attempt.inTime, inTime]
  rfl

/-- Any other round fails, and ends as failed rounds end. -/
theorem exists_fails
    (unserved : ∀ stream, ctx.dial loop.token attempt = .ok stream →
      (limit.any fun max => max.toNat < attempt.elapsedMs) = true) :
    ∃ (failed : ConnectLoop Stream) (error : ConnectError Error),
      Fails loop reportAt
          ⟨loop.token, ctx.outcome limit loop.token attempt⟩ failed
          error ∧
        loop.round ctx total limit attempt reportAt selectAt =
          failed.endFailed ctx.client total error selectAt ∧
        loop.roundCalls ctx total limit attempt reportAt selectAt =
          loop.reportCalls reportAt ++
            failed.selectCalls total ctx.client selectAt := by
  have same : loop.dial ctx attempt = ctx.dial loop.token attempt := rfl
  cases dialled : ctx.dial loop.token attempt with
  | error error =>
      have outcome :
          ctx.outcome limit loop.token attempt = .refused error := by
        rw [CallContext.outcome, dialled]
      refine ⟨_, _, outcome ▸ Fails.refused error, ?_, ?_⟩
      · rw [ConnectLoop.round, same, dialled]
        rfl
      · rw [ConnectLoop.roundCalls, same, dialled]
  | ok stream =>
      have late := unserved stream dialled
      have outcome : ctx.outcome limit loop.token attempt =
          .tooSlow stream attempt.elapsedMs := by
        rw [CallContext.outcome, dialled]
        dsimp only
        rw [Attempt.inTime, late]
        rfl
      refine ⟨_, _, outcome ▸ Fails.tooSlow stream _, ?_, ?_⟩
      · rw [ConnectLoop.round, same, dialled]
        dsimp only
        rw [late]
        rfl
      · rw [ConnectLoop.roundCalls, same, dialled]
        dsimp only
        rw [late]
        rfl

end Rounds

/-- A run begins with the attempt on the token of its loop. -/
theorem mem_attempted
    {ctx : CallContext Addr} {total : UInt8} {limit : Option UInt32}
    {clock : ℕ → UInt32} {network : Network Addr Stream Error}
    {fuel index : ℕ} {loop : ConnectLoop Stream}
    {returned : Returned Stream Error}
    (returns : connectRounds ctx total limit clock network fuel index loop =
      some returned) :
    (loop.token, index) ∈ returned.attempted.zipIdx index := by
  cases fuel with
  | zero => cases returns
  | succ fuel =>
      rw [connectRounds] at returns
      cases ended : loop.round ctx total limit (network index loop.token)
          (clock (2 * index + 1)) (clock (2 * index + 2)) with
      | done connected =>
          rw [ended] at returns
          cases returns
          exact List.mem_cons_self
      | again next =>
          rw [ended] at returns
          rcases Option.map_eq_some_iff.1 returns with ⟨later, _, rfl⟩
          exact List.mem_cons_self

/-- A call that returns has made such a run. -/
theorem runs_of_returns
    {ctx : CallContext Addr} {total : UInt8} {limit : Option UInt32}
    {clock : ℕ → UInt32} {network : Network Addr Stream Error}
    {fuel index : ℕ} {loop : ConnectLoop Stream}
    {returned : Returned Stream Error}
    (returns : connectRounds ctx total limit clock network fuel index loop =
      some returned)
    (logs : LogsAnswered ctx limit network index returned.attempted) :
    Runs ctx.client total clock index loop
      (attemptsFrom ctx limit network index returned.attempted)
      (callsFrom ctx total limit clock network fuel index loop)
      returned.connected := by
  induction fuel generalizing index loop returned with
  | zero => cases returns
  | succ fuel inductionHypothesis =>
      have begins := mem_attempted returns
      rw [connectRounds] at returns
      rw [callsFrom]
      by_cases unserved : ∀ stream, ctx.dial loop.token
          (network index loop.token) = .ok stream →
            (limit.any fun max =>
              max.toNat < (network index loop.token).elapsedMs) = true
      · rcases exists_fails unserved with
          ⟨failed, error, fails, round, calls⟩
        rw [round, ConnectLoop.endFailed] at returns
        rw [round, calls, ConnectLoop.endFailed, ConnectLoop.selectCalls]
        cases exhausted : failed.exhausted total with
        | true =>
            rw [exhausted] at returns
            cases returns
            simp only [if_true, List.append_nil]
            exact .gaveUp index loop failed _ error fails
        | false =>
            rw [exhausted] at returns
            simp only [Bool.false_eq_true, if_false] at returns ⊢
            rcases Option.map_eq_some_iff.1 returns with ⟨later, rest, rfl⟩
            rw [List.append_assoc, List.singleton_append]
            refine .again index loop failed _ error fails _ _ _
              (inductionHypothesis rest ?_)
            intro asked member
            exact logs asked (List.mem_cons_of_mem _ member)
      · push Not at unserved
        rcases unserved with ⟨stream, dialled, late⟩
        have inTime := Bool.eq_false_iff.2 late
        have outcome := outcome_inTime dialled inTime
        have answered := logs _ begins stream outcome
        rcases round_inTime dialled inTime answered with ⟨round, calls⟩
        rw [round] at returns
        cases returns
        rw [round, calls]
        change Runs ctx.client total clock index loop
          [⟨loop.token, ctx.outcome limit loop.token _⟩] [] _
        rw [outcome]
        exact .served index loop stream

/-! ## The stream that is returned -/

/-- The loop holds the fastest stream that came too late, and no attempt was
in time. -/
structure Watches
    (attempts : List (Tried Stream Error)) (loop : ConnectLoop Stream) :
    Prop where
  none_served : attempts.findSome? Tried.served = none
  stream_eq : loop.fallbackStream =
    (fastestLate attempts).map LateStream.stream
  token_eq : loop.fallbackToken =
    (fastestLate attempts).bind LateStream.token
  ms_eq : loop.fallbackMs = (fastestLate attempts).map LateStream.ms

section Watching

variable {attempts : List (Tried Stream Error)} {tried : Tried Stream Error}
variable {loop failed : ConnectLoop Stream} {reportAt : UInt32}
variable {error : ConnectError Error}

theorem watches_firstLoop
    (ctx : CallContext Addr) (balancer : Balancer) (now : UInt32) :
    Watches ([] : List (Tried Stream Error))
      (firstLoop ctx balancer now) where
  none_served := rfl
  stream_eq := rfl
  token_eq := rfl
  ms_eq := rfl

/-- A report leaves the candidate alone. -/
theorem Watches.reported
    (watches : Watches attempts loop) (now : UInt32) :
    Watches attempts (loop.reported now) := by
  rw [ConnectLoop.reported]
  cases loop.token with
  | none => exact watches
  | some token =>
      exact ⟨watches.none_served, watches.stream_eq, watches.token_eq,
        watches.ms_eq⟩

theorem findSome?_served_concat
    (before : attempts.findSome? Tried.served = none) :
    (attempts ++ [tried]).findSome? Tried.served = tried.served := by
  rw [List.findSome?_append, before, Option.none_or,
    List.findSome?_singleton]

theorem fastestLate_concat_of_none (inTime : tried.late = none) :
    fastestLate (attempts ++ [tried]) = fastestLate attempts := by
  rw [fastestLate, List.filterMap_append, List.filterMap_cons_none inTime,
    List.filterMap_nil, List.append_nil, fastestLate]

/-- The comparison of a new candidate with the one that is held. -/
theorem fastestLate_concat_of_some
    {candidate : LateStream Stream} (late : tried.late = some candidate) :
    fastestLate (attempts ++ [tried]) =
      if ((fastestLate attempts).map LateStream.ms).all
          fun fastest => candidate.ms < fastest then some candidate
      else fastestLate attempts := by
  rw [fastestLate, List.filterMap_append, List.filterMap_cons_some late,
    List.filterMap_nil, List.argmin_concat, ← fastestLate]
  cases fastestLate attempts with
  | none => rfl
  | some held =>
      simp only [Option.map_some, Option.all_some, decide_eq_true_eq]

theorem Watches.tooSlow
    (watches : Watches attempts loop) (stream : Stream)
    (token : Option Token) (ms : ℕ) :
    Watches (attempts ++ [⟨token, .tooSlow stream ms⟩])
      (loop.remembered stream token ms) := by
  have served := @findSome?_served_concat _ _ attempts
    ⟨token, .tooSlow stream ms⟩ watches.none_served
  have fastest := @fastestLate_concat_of_some _ _ attempts
    ⟨token, .tooSlow stream ms⟩ ⟨stream, token, ms⟩ rfl
  rw [← watches.ms_eq] at fastest
  unfold ConnectLoop.remembered
  cases faster : loop.fallbackMs.all fun held => ms < held with
  | true =>
      rw [faster] at fastest
      constructor
      · exact served
      · rw [fastest]
        rfl
      · rw [fastest]
        rfl
      · rw [fastest]
        rfl
  | false =>
      rw [faster] at fastest
      constructor
      · exact served
      · rw [fastest]
        exact watches.stream_eq
      · rw [fastest]
        exact watches.token_eq
      · rw [fastest]
        exact watches.ms_eq

theorem Watches.refused
    (watches : Watches attempts loop) (token : Option Token)
    (refusal : Error) :
    Watches (attempts ++ [⟨token, .refused refusal⟩]) loop := by
  have same := @fastestLate_concat_of_none _ _ attempts
    ⟨token, .refused refusal⟩ rfl
  constructor
  · exact findSome?_served_concat watches.none_served
  · rw [same]
    exact watches.stream_eq
  · rw [same]
    exact watches.token_eq
  · rw [same]
    exact watches.ms_eq

theorem Watches.fails
    (watches : Watches attempts loop)
    (fails : Fails loop reportAt tried failed error) :
    Watches (attempts ++ [tried]) failed := by
  cases fails with
  | tooSlow stream ms =>
      exact (watches.reported reportAt).tooSlow stream loop.token ms
  | refused refusal =>
      exact (watches.reported reportAt).refused loop.token refusal

theorem Watches.selectNext
    (watches : Watches attempts loop) (client : Client) (now : UInt32) :
    Watches attempts (loop.selectNext client now) :=
  ⟨watches.none_served, watches.stream_eq, watches.token_eq,
    watches.ms_eq⟩

/-- Giving up returns the candidate. -/
theorem Watches.giveUp
    (watches : Watches attempts loop) (error : ConnectError Error) :
    Picks attempts (loop.giveUp error).result := by
  constructor
  · intro answer served
    rw [watches.none_served] at served
    cases served
  · intro _ fastest held
    rw [ConnectLoop.giveUp, watches.stream_eq, watches.token_eq, held]
    rfl

/-- A run returns the right stream for all its attempts. -/
theorem Runs.picks
    {client : Client} {total : UInt8} {clock : ℕ → UInt32} {index : ℕ}
    {later : List (Tried Stream Error)}
    {calls : List (Balancer.Call × UInt32)}
    {connected : Connected Stream Error}
    (runs : Runs client total clock index loop later calls connected)
    (watches : Watches attempts loop) :
    Picks (attempts ++ later) connected.result := by
  induction runs generalizing attempts with
  | served index loop stream =>
      have served := @findSome?_served_concat _ _ attempts
        ⟨loop.token, .inTime stream⟩ watches.none_served
      constructor
      · intro answer found
        rw [served] at found
        cases found
        rfl
      · intro none
        rw [served] at none
        cases none
  | gaveUp index loop failed tried error fails =>
      exact (watches.fails fails).giveUp error
  | again index loop failed tried error fails later calls connected rest
      inductionHypothesis =>
      have picks := inductionHypothesis
        ((watches.fails fails).selectNext client (clock (2 * index + 2)))
      rwa [List.append_assoc, List.singleton_append] at picks

end Watching

/-! ## The calls that are made -/

section Calls

variable {client : Client} {total : UInt8} {clock : ℕ → UInt32}
variable {index : ℕ} {loop failed : ConnectLoop Stream}
variable {reportAt : UInt32} {tried : Tried Stream Error}
variable {error : ConnectError Error}
variable {attempts : List (Tried Stream Error)}
variable {calls : List (Balancer.Call × UInt32)}
variable {connected : Connected Stream Error}

theorem Fails.token_eq
    (fails : Fails loop reportAt tried failed error) :
    tried.token = loop.token := by
  cases fails <;> rfl

theorem Fails.served_eq
    (fails : Fails loop reportAt tried failed error) :
    tried.served = none := by
  cases fails <;> rfl

/-- A failed attempt changes the balancer by its report. -/
theorem Fails.balancer_eq
    (fails : Fails loop reportAt tried failed error) :
    failed.balancer =
      loop.balancer.performAll (loop.reportCalls reportAt) := by
  have reported : (loop.reported reportAt).balancer =
      loop.balancer.performAll (loop.reportCalls reportAt) := by
    rw [ConnectLoop.reported, ConnectLoop.reportCalls]
    cases loop.token <;> rfl
  cases fails with
  | tooSlow stream ms =>
      rw [ConnectLoop.remembered_balancer, reported]
  | refused refusal => exact reported

/-- The calls of a run are all it does to the balancer. -/
theorem Runs.balancer_eq
    (runs : Runs client total clock index loop attempts calls connected) :
    connected.balancer = loop.balancer.performAll calls := by
  induction runs with
  | served index loop stream => rfl
  | gaveUp index loop failed tried error fails => exact fails.balancer_eq
  | again index loop failed tried error fails later calls connected rest
      inductionHypothesis =>
      rw [inductionHypothesis, ConnectLoop.selectNext, fails.balancer_eq,
        Balancer.performAll, Balancer.performAll, Balancer.performAll,
        List.foldl_append, List.foldl_cons]
      rfl

theorem reportsIn_append (calls calls' : List (Balancer.Call × UInt32)) :
    reportsIn (calls ++ calls') = reportsIn calls ++ reportsIn calls' :=
  List.filterMap_append

theorem reportsIn_reportCalls (loop : ConnectLoop Stream) (now : UInt32) :
    reportsIn (loop.reportCalls now) = loop.token.toList := by
  rw [ConnectLoop.reportCalls]
  cases loop.token <;> rfl

/-- The peer of a failed attempt comes first among the failures. -/
theorem filterMap_failures_cons (unserved : tried.served = none) :
    (failures (tried :: attempts)).filterMap Tried.token =
      tried.token.toList ++ (failures attempts).filterMap Tried.token := by
  have first : failures (tried :: attempts) = tried :: failures attempts :=
    List.filter_cons_of_pos (by rw [unserved]; rfl)
  rw [first, List.filterMap_cons]
  cases tried.token <;> rfl

/-- A run reports the peers of its failures, in order. -/
theorem Runs.reports
    (runs : Runs client total clock index loop attempts calls connected) :
    reportsIn calls = (failures attempts).filterMap Tried.token := by
  induction runs with
  | served index loop stream => rfl
  | gaveUp index loop failed tried error fails =>
      rw [reportsIn_reportCalls, filterMap_failures_cons fails.served_eq,
        ← fails.token_eq]
      exact (List.append_nil _).symm
  | again index loop failed tried error fails later calls connected rest
      inductionHypothesis =>
      rw [reportsIn_append, reportsIn_reportCalls,
        filterMap_failures_cons fails.served_eq, ← fails.token_eq,
        ← inductionHypothesis]
      rfl

/-- Every attempt of a run on a balancer that was built names a peer. -/
theorem Runs.names
    {weights : Weights} {config : Option HealthCheckConfig}
    {strategy : Strategy}
    (runs : Runs client total clock index loop attempts calls connected)
    (shape : Balancer.Shape weights config strategy loop.balancer)
    (named : ∃ token, loop.token = some token) :
    ∀ tried ∈ attempts, ∃ token, tried.token = some token := by
  induction runs with
  | served index loop stream =>
      intro tried member
      rw [List.mem_singleton.1 member]
      exact named
  | gaveUp index loop failed tried error fails =>
      intro other member
      rw [List.mem_singleton.1 member, fails.token_eq]
      exact named
  | again index loop failed tried error fails later calls connected rest
      inductionHypothesis =>
      intro other member
      have after :
          Balancer.Shape weights config strategy failed.balancer := by
        rw [fails.balancer_eq]
        exact shape.performAll _
      rcases List.mem_cons.1 member with rfl | further
      · rw [fails.token_eq]
        exact named
      · refine inductionHypothesis ?_ ?_ other further
        · exact after.perform (.next client) _
        · rcases after.next_inside client (clock (2 * index + 2)) with
            ⟨position, chosen, _⟩
          exact ⟨_, chosen⟩

theorem map_some_filterMap_token
    (named : ∀ tried ∈ attempts, ∃ token, tried.token = some token) :
    (attempts.filterMap Tried.token).map some =
      attempts.map Tried.token := by
  induction attempts with
  | nil => rfl
  | cons tried rest inductionHypothesis =>
      rcases named tried List.mem_cons_self with ⟨token, chosen⟩
      rw [List.filterMap_cons_some chosen, List.map_cons, List.map_cons,
        chosen, inductionHypothesis fun other member =>
          named other (List.mem_cons_of_mem _ member)]

end Calls

/-! ## Every call -/

/-- A call on a balancer that was built and used in any way, if it returns
and its log lines can be written, returns the first stream in time, and
otherwise the fastest of those that came too late, by whole milliseconds and
the earliest of those that took equally many.  Every other attempt is
reported once. -/
theorem tryConnectWithFallback_picksFastest
    {sort : UnstableSort} {search : BinarySearch} {strategy : Strategy}
    {values : List UInt8} {config : Option HealthCheckConfig}
    {built : Balancer}
    (builds : Balancer.new sort search strategy values config = some built)
    (before : List (Balancer.Call × UInt32)) (ctx : CallContext Addr)
    (clock : ℕ → UInt32) (network : Network Addr Stream Error)
    {fuel : ℕ} {returned : Returned Stream Error}
    (returns : tryConnectWithFallback ctx (built.performAll before) clock
      network fuel = some returned)
    (logs : LogsAnswered ctx (latencyLimit (built.performAll before))
      network 0 returned.attempted) :
    PicksFastest ctx (built.performAll before) clock network fuel returned
      (returned.attempts ctx (latencyLimit (built.performAll before))
        network) := by
  rcases Balancer.exists_shape builds with ⟨weights, shape⟩
  have started := shape.performAll before
  have runs := runs_of_returns returns logs
  rcases started.next_inside ctx.client (clock 0) with
    ⟨position, chosen, _⟩
  have names := runs.names (started.perform (.next ctx.client) (clock 0))
    ⟨_, chosen⟩
  constructor
  · exact runs.picks (watches_firstLoop ctx _ (clock 0))
  · have reports :
        reportsIn (callsWithin ctx (built.performAll before) clock network
            fuel) =
          (failures (returned.attempts ctx _ network)).filterMap
            Tried.token := runs.reports
    rw [reports]
    apply map_some_filterMap_token
    intro tried member
    exact names tried (List.mem_of_mem_filter member)
  · exact runs.balancer_eq

/-- Connections that all take longer than any limit below them, the later
ones less than the earlier. -/
def sluggish : Network Unit ℕ Unit := fun k _ =>
  { popIdle := none
    connect := fun _ => .ok k
    elapsedMs := 9 - k
    localPeerAddr := .ok ()
    streamPeerAddr := .ok () }

/-- Of two slow peers the second is faster, and its stream is returned. -/
theorem tryConnectWithFallback_picksFastest_sluggish :
    ∃ built returned,
      Balancer.new .insertion .first .roundRobin [1, 1]
          (some ⟨3, 30, some 5⟩) = some built ∧
        tryConnectWithFallback anyContext (built.performAll [])
            (fun _ => 0) sluggish 2 = some returned ∧
        returned.connected.result = .ok (1, some ⟨1⟩) ∧
        PicksFastest anyContext (built.performAll []) (fun _ => 0) sluggish
          2 returned
          (returned.attempts anyContext
            (latencyLimit (built.performAll [])) sluggish) :=
  ⟨_, _, rfl, rfl, rfl,
    @tryConnectWithFallback_picksFastest _ _ _ .insertion .first .roundRobin
      [1, 1] (some ⟨3, 30, some 5⟩) _ rfl [] anyContext (fun _ => 0)
      sluggish 2 _ rfl fun _ _ _ _ => rfl⟩

end ByteHub.Core
