import Mathlib.Data.Finset.Card
import Mathlib.Data.Fintype.Basic
import ByteHub.Lb.Balancer

/-!
# Connecting with fallback

The retry loop that turns a balancer into a connected stream.  Each round
dials the address of the selected token, or takes an idle connection of its
pool, and either returns the stream, keeps it as a slow candidate, or
reports the failure and selects again, until every peer has been tried.

What the network, the pool and the clock answer in a round is an argument;
addresses, streams and I/O errors are kept abstract.
-/

namespace ByteHub.Core

open ByteHub.Lb

variable {Addr Stream Error : Type}

/-- What does not change during one call. -/
structure CallContext (Addr : Type) where
  raddr : Addr
  extraRaddrs : List Addr
  /-- The endpoint has a connection pool. -/
  pool : Bool
  client : Client
  /-- The logger evaluates its arguments at level `info`. -/
  logsInfo : Bool

/-- What the outside answers in one round, as far as the round asks. -/
structure Attempt (Addr Stream Error : Type) where
  /-- `pool.pop_idle` for the selected token. -/
  popIdle : Option Stream
  /-- `socket::connect` to the selected address. -/
  connect : Addr → Except Error Stream
  /-- The milliseconds from the start of the round to the connected stream,
  rounded down as by `as_millis`. -/
  elapsedMs : ℕ
  /-- `local.peer_addr()`, asked again by the log line. -/
  localPeerAddr : Except Error Unit
  /-- `stream.peer_addr()` of the connected stream. -/
  streamPeerAddr : Except Error Unit

/-- Why a call failed. -/
inductive ConnectError (Error : Type) where
  | io (error : Error)
  | noPeersAvailable
deriving DecidableEq, Repr

/-- The address the loop selects for a token. -/
def CallContext.selected
    (ctx : CallContext Addr) (token : Option Token) : Addr :=
  match token with
  | none => ctx.raddr
  | some token =>
      if token.index = 0 then ctx.raddr
      else ctx.extraRaddrs.getD (token.index.toNat - 1) ctx.raddr

/-- Loop state. -/
structure ConnectLoop (Stream : Type) where
  balancer : Balancer
  token : Option Token
  tried : Finset UInt8
  fallbackStream : Option Stream
  fallbackToken : Option Token
  fallbackMs : Option ℕ

/-- What a call returns, and the balancer it leaves. -/
structure Connected (Stream Error : Type) where
  result : Except (ConnectError Error) (Stream × Option Token)
  balancer : Balancer

/-- End of a round: the loop goes on or the call returns. -/
inductive Round (Stream Error : Type) where
  | again (loop : ConnectLoop Stream)
  | done (connected : Connected Stream Error)

namespace ConnectLoop

/-- `on_failure` and `tried.insert`, for a round that had a token. -/
def reported
    (loop : ConnectLoop Stream) (now : UInt32) : ConnectLoop Stream :=
  match loop.token with
  | none => loop
  | some token =>
      { loop with
        balancer := loop.balancer.onFailure now token
        tried := insert token.index loop.tried }

/-- `total == 0 || tried.len() as u8 >= total` -/
def exhausted (loop : ConnectLoop Stream) (total : UInt8) : Bool :=
  total = 0 || total ≤ UInt8.ofNat loop.tried.card

/-- Keep a slow stream if it is the fastest one so far. -/
def remembered
    (loop : ConnectLoop Stream) (stream : Stream)
    (token : Option Token) (ms : ℕ) : ConnectLoop Stream :=
  if loop.fallbackMs.all fun fastest => ms < fastest then
    { loop with
      fallbackStream := some stream
      fallbackToken := token
      fallbackMs := some ms }
  else loop

@[simp]
theorem remembered_balancer
    (loop : ConnectLoop Stream) (stream : Stream) (token : Option Token)
    (ms : ℕ) :
    (loop.remembered stream token ms).balancer = loop.balancer := by
  rw [remembered]
  split <;> rfl

@[simp]
theorem remembered_tried
    (loop : ConnectLoop Stream) (stream : Stream) (token : Option Token)
    (ms : ℕ) :
    (loop.remembered stream token ms).tried = loop.tried := by
  rw [remembered]
  split <;> rfl

/-- Select for the next round. -/
def selectNext
    (loop : ConnectLoop Stream) (client : Client) (now : UInt32) :
    ConnectLoop Stream :=
  { loop with
    token := (loop.balancer.next client now).1
    balancer := (loop.balancer.next client now).2 }

/-- Return the slow candidate, or else the error. -/
def giveUp
    (loop : ConnectLoop Stream) (error : ConnectError Error) :
    Connected Stream Error where
  result :=
    match loop.fallbackStream with
    | some stream => .ok (stream, loop.fallbackToken)
    | none => .error error
  balancer := loop.balancer

/-- The stream of a round: an idle one, or a fresh connection. -/
def dial
    (loop : ConnectLoop Stream) (ctx : CallContext Addr)
    (attempt : Attempt Addr Stream Error) : Except Error Stream :=
  match ctx.pool && loop.token.isSome, attempt.popIdle with
  | true, some idle => .ok idle
  | _, _ => attempt.connect (ctx.selected loop.token)

/-- The log line of a success, with the two queries it makes. -/
def logged
    (ctx : CallContext Addr) (attempt : Attempt Addr Stream Error) :
    Except Error Unit :=
  if ctx.logsInfo then do
    attempt.localPeerAddr
    attempt.streamPeerAddr
  else .ok ()

/--
One round.  The failure is reported at `reportAt`, the next selection made at
`selectAt`.
-/
def round
    (loop : ConnectLoop Stream) (ctx : CallContext Addr) (total : UInt8)
    (maxLatency : Option UInt32) (attempt : Attempt Addr Stream Error)
    (reportAt selectAt : UInt32) : Round Stream Error :=
  match loop.dial ctx attempt with
  | .ok stream =>
      if maxLatency.any fun max => max.toNat < attempt.elapsedMs then
        let loop :=
          (loop.reported reportAt).remembered stream loop.token
            attempt.elapsedMs
        if loop.exhausted total then
          .done (loop.giveUp .noPeersAvailable)
        else .again (loop.selectNext ctx.client selectAt)
      else
        match logged ctx attempt with
        | .ok _ =>
            .done ⟨.ok (stream, loop.token), loop.balancer⟩
        | .error error => .done ⟨.error (.io error), loop.balancer⟩
  | .error error =>
      let loop := loop.reported reportAt
      if loop.exhausted total then .done (loop.giveUp (.io error))
      else .again (loop.selectNext ctx.client selectAt)

end ConnectLoop

/-- The outside: the answer to a round, which may depend on the peer. -/
abbrev Network (Addr Stream Error : Type) :=
  ℕ → Option Token → Attempt Addr Stream Error

/-- A returned call together with the tokens it attempted, in order. -/
structure Returned (Stream Error : Type) where
  connected : Connected Stream Error
  attempted : List (Option Token)

/-- The loop from a round on, for at most `fuel` rounds. -/
def connectRounds
    (ctx : CallContext Addr) (total : UInt8)
    (maxLatency : Option UInt32) (clock : ℕ → UInt32)
    (network : Network Addr Stream Error) :
    ℕ → ℕ → ConnectLoop Stream → Option (Returned Stream Error)
  | 0, _, _ => none
  | fuel + 1, index, loop =>
      match loop.round ctx total maxLatency (network index loop.token)
          (clock (2 * index + 1)) (clock (2 * index + 2)) with
      | .done connected => some ⟨connected, [loop.token]⟩
      | .again next =>
          (connectRounds ctx total maxLatency clock network fuel
            (index + 1) next).map fun returned =>
              { returned with
                attempted := loop.token :: returned.attempted }

/-- The state before the first round. -/
def firstLoop
    (ctx : CallContext Addr) (balancer : Balancer) (now : UInt32) :
    ConnectLoop Stream where
  balancer := (balancer.next ctx.client now).2
  token := (balancer.next ctx.client now).1
  tried := ∅
  fallbackStream := none
  fallbackToken := none
  fallbackMs := none

/--
A call, cut off after `fuel` rounds.  The first selection is made at reading
0 of the clock, the report and the selection after round `k` at readings
`2k + 1` and `2k + 2`.
-/
def tryConnectWithFallback
    (ctx : CallContext Addr) (balancer : Balancer)
    (clock : ℕ → UInt32) (network : Network Addr Stream Error)
    (fuel : ℕ) : Option (Returned Stream Error) :=
  connectRounds ctx balancer.total
    (balancer.healthConfig.bind HealthCheckConfig.maxLatencyMs) clock
    network fuel 0 (firstLoop ctx balancer (clock 0))

end ByteHub.Core
