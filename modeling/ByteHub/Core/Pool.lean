import ByteHub.Lb.Peer
import ByteHub.Library.Machine

/-!
# The connection pool

For each peer a sub-pool of idle connections, oldest first.  Requests pop
from the back and drop what is dead or too old on the way; a background task
wakes at intervals and dials new connections for the peers that hold too
few.

The warmup task and its callers take turns at every lock, so the pool with
its users is a machine whose labels are the single accesses with their
times.  Times are nanoseconds, streams are kept abstract.
-/

namespace ByteHub.Core

open ByteHub.Lb
open ByteHub.Library

variable {Addr Stream Error : Type}

/-- Pool configuration. -/
structure PoolConfig where
  poolSize : ℕ
  poolMinIdle : ℕ
  poolConnectTimeoutMs : ℕ
  poolIdleTimeoutSecs : ℕ
deriving DecidableEq, Repr

instance : Inhabited PoolConfig where
  default :=
    { poolSize := 1024
      poolMinIdle := 64
      poolConnectTimeoutMs := 1000
      poolIdleTimeoutSecs := 20 }

/-- Nanoseconds of a number of seconds. -/
def fromSecs (secs : ℕ) : ℕ :=
  secs * 1000000000

/-- The idle timeout in nanoseconds. -/
def PoolConfig.idleTimeout (config : PoolConfig) : ℕ :=
  fromSecs config.poolIdleTimeoutSecs

/-- The pause of the warmup task in nanoseconds. -/
def PoolConfig.interval (config : PoolConfig) : ℕ :=
  fromSecs (max (config.poolIdleTimeoutSecs / 2) 5)

/-- What the warmup task can reach: the minimum, if the pool is that big. -/
def PoolConfig.target (config : PoolConfig) : ℕ :=
  min config.poolMinIdle config.poolSize

/-! ## Sub-pools -/

/-- Idle connection. -/
structure IdleConn (Stream : Type) where
  stream : Stream
  createdAt : ℕ
deriving DecidableEq, Repr

/-- The connection is older than the idle timeout. -/
def IdleConn.expired
    (conn : IdleConn Stream) (timeout now : ℕ) : Bool :=
  timeout < now - conn.createdAt

/-- What a read that does not wait finds on a stream. -/
inductive TryRead where
  | wouldBlock
  /-- The peer has closed. -/
  | eof
  /-- Bytes are waiting. -/
  | waiting
  | failed
deriving DecidableEq, Repr

/-- `is_conn_alive`: there is nothing at all to read. -/
def TryRead.isConnAlive : TryRead → Bool
  | .wouldBlock => true
  | _ => false

/-- The peer has neither closed nor reset its socket. -/
def TryRead.KeptOpen (found : TryRead) : Prop :=
  found ≠ .eof ∧ found ≠ .failed

theorem TryRead.isConnAlive_iff
    {found : TryRead} (open_ : found.KeptOpen) :
    found.isConnAlive = true ↔ found ≠ .waiting := by
  cases found with
  | wouldBlock => simp [isConnAlive]
  | waiting => simp [isConnAlive]
  | eof => exact absurd rfl open_.1
  | failed => exact absurd rfl open_.2

/-- Sub-pool of a peer. -/
structure PeerPool (Stream : Type) where
  idle : List (IdleConn Stream)
deriving DecidableEq, Repr

namespace PeerPool

/-- The pop loop, over the connections from the youngest on. -/
def popLoop (timeout now : ℕ) (alive : Stream → Bool) :
    List (IdleConn Stream) → Option Stream × List (IdleConn Stream)
  | [] => (none, [])
  | conn :: older =>
      if conn.expired timeout now then popLoop timeout now alive older
      else if alive conn.stream then (some conn.stream, older)
      else popLoop timeout now alive older

/-- Pop the youngest connection that is alive and not too old. -/
def popHealthy
    (pool : PeerPool Stream) (timeout now : ℕ) (alive : Stream → Bool) :
    Option Stream × PeerPool Stream :=
  let (popped, older) := popLoop timeout now alive pool.idle.reverse
  (popped, ⟨older.reverse⟩)

/-- Keep a connection if there is room. -/
def push
    (pool : PeerPool Stream) (stream : Stream) (maxSize now : ℕ) :
    PeerPool Stream :=
  if pool.idle.length < maxSize then
    ⟨pool.idle ++ [⟨stream, now⟩]⟩
  else pool

def len (pool : PeerPool Stream) : ℕ :=
  pool.idle.length

end PeerPool

/-! ## The pool of all peers -/

/-- Connection pool for every peer of the endpoint. -/
structure RemotePool (Addr Stream : Type) where
  pools : UInt8 → Option (PeerPool Stream)
  config : PoolConfig
  peerAddrs : List (Token × Addr)

/-- Why a dial of the pool failed. -/
inductive PoolError (Error : Type) where
  | unknownToken (token : Token)
  | io (error : Error)
deriving DecidableEq, Repr

namespace RemotePool

/-- A pool with an empty sub-pool for each known peer. -/
def new (config : PoolConfig) (peerAddrs : List (Token × Addr)) :
    RemotePool Addr Stream where
  pools key :=
    if peerAddrs.any fun peer => peer.1.index = key then some ⟨[]⟩
    else none
  config := config
  peerAddrs := peerAddrs

/-- Change the sub-pool of a token, if it has one. -/
def update
    (pool : RemotePool Addr Stream) (token : Token)
    (change : PeerPool Stream → PeerPool Stream) :
    RemotePool Addr Stream :=
  { pool with
    pools := fun key =>
      if key = token.index then (pool.pools key).map change
      else pool.pools key }

/-- Idle connections of a token. -/
def currentIdle (pool : RemotePool Addr Stream) (token : Token) : ℕ :=
  match pool.pools token.index with
  | none => 0
  | some peer => peer.len

/-- Pop an idle connection without dialling on a miss. -/
def popIdle
    (pool : RemotePool Addr Stream) (token : Token) (now : ℕ)
    (alive : Stream → Bool) : Option Stream × RemotePool Addr Stream :=
  match pool.pools token.index with
  | none => (none, pool)
  | some peer =>
      ((peer.popHealthy pool.config.idleTimeout now alive).1,
        pool.update token fun peer =>
          (peer.popHealthy pool.config.idleTimeout now alive).2)

/--
Dial the peer of a token.  The pool's own timeout, rounded up to seconds and
at least one, replaces that of the relay.
-/
def connectNew
    (pool : RemotePool Addr Stream) (token : Token)
    (connect : Addr → ℕ → Except Error Stream) :
    Except (PoolError Error) Stream :=
  match pool.peerAddrs.find? fun peer => peer.1.index = token.index with
  | none => .error (.unknownToken token)
  | some (_, raddr) =>
      (connect raddr
        (max ((pool.config.poolConnectTimeoutMs + 999) / 1000) 1)).mapError
          PoolError.io

/-- Give a connection back after a relay. -/
def returnConn
    (pool : RemotePool Addr Stream) (token : Token) (stream : Stream)
    (relayOk : Bool) (obfs : String) (alive : Bool) (now : ℕ) :
    RemotePool Addr Stream :=
  if relayOk && obfs.isEmpty && alive then
    pool.update token fun peer =>
      peer.push stream pool.config.poolSize now
  else pool

end RemotePool

/-! ## The warmup task and its callers -/

/-- Where the warmup task stands between two accesses to the pool. -/
inductive WarmupPhase where
  /-- Asleep since a time. -/
  | sleeping (since : ℕ)
  /-- About to count the idle connections of the first token. -/
  | visiting (tokens : List Token)
  /-- Dialling `needed` more connections for a token. -/
  | filling (token : Token) (needed : ℕ) (tokens : List Token)
  | exited
deriving DecidableEq, Repr

/-- The phase after a token is done. -/
def WarmupPhase.resume (tokens : List Token) (now : ℕ) : WarmupPhase :=
  match tokens with
  | [] => .sleeping now
  | token :: rest => .visiting (token :: rest)

/-- A single access to the pool, or a step of the warmup task. -/
inductive PoolEvent (Stream : Type) where
  | wake
  | cancel
  | snapshot
  | dialled (stream : Stream)
  | dialFailed
  | popIdle (token : Token) (alive : Stream → Bool)
  | returnConn (token : Token) (stream : Stream) (relayOk : Bool)
      (obfs : String) (alive : Bool)

/-- The pool with its warmup task. -/
structure PoolState (Addr Stream : Type) where
  pool : RemotePool Addr Stream
  phase : WarmupPhase
  now : ℕ

namespace PoolState

/-- A pool whose warmup task was spawned at a time. -/
def spawned
    (config : PoolConfig) (peerAddrs : List (Token × Addr)) (now : ℕ) :
    PoolState Addr Stream where
  pool := RemotePool.new config peerAddrs
  phase := .sleeping now
  now := now

/-- The pause is over: visit all tokens. -/
def wake
    (pool : RemotePool Addr Stream) (phase : WarmupPhase) (now : ℕ) :
    Option (RemotePool Addr Stream × WarmupPhase) :=
  match phase with
  | .sleeping since =>
      if since + pool.config.interval ≤ now then
        some (pool, .resume (pool.peerAddrs.map Prod.fst) now)
      else none
  | _ => none

/-- The cancellation token fires during the pause. -/
def cancel
    (pool : RemotePool Addr Stream) (phase : WarmupPhase) :
    Option (RemotePool Addr Stream × WarmupPhase) :=
  match phase with
  | .sleeping _ => some (pool, .exited)
  | _ => none

/-- Count the idle connections of the next token. -/
def snapshot
    (pool : RemotePool Addr Stream) (phase : WarmupPhase) (now : ℕ) :
    Option (RemotePool Addr Stream × WarmupPhase) :=
  match phase with
  | .visiting (token :: rest) =>
      if pool.config.poolMinIdle - pool.currentIdle token = 0 then
        some (pool, .resume rest now)
      else
        some (pool,
          .filling token
            (pool.config.poolMinIdle - pool.currentIdle token) rest)
  | _ => none

/-- Keep a freshly dialled connection unless the sub-pool is full. -/
def filled
    (pool : RemotePool Addr Stream) (token : Token) (stream : Stream)
    (now : ℕ) : RemotePool Addr Stream :=
  pool.update token fun peer =>
    if peer.len < pool.config.poolSize then
      peer.push stream pool.config.poolSize now
    else peer

/-- A dial of the warmup task succeeds. -/
def dialled
    (pool : RemotePool Addr Stream) (phase : WarmupPhase)
    (stream : Stream) (now : ℕ) :
    Option (RemotePool Addr Stream × WarmupPhase) :=
  match phase with
  | .filling token needed rest =>
      some (filled pool token stream now,
        if needed ≤ 1 then .resume rest now
        else .filling token (needed - 1) rest)
  | _ => none

/-- A dial of the warmup task fails: the token is left for this cycle. -/
def dialFailed
    (pool : RemotePool Addr Stream) (phase : WarmupPhase) (now : ℕ) :
    Option (RemotePool Addr Stream × WarmupPhase) :=
  match phase with
  | .filling _ _ rest => some (pool, .resume rest now)
  | _ => none

/-- Pool and phase after an event, if the event was possible. -/
def react
    (pool : RemotePool Addr Stream) (phase : WarmupPhase)
    (event : PoolEvent Stream) (now : ℕ) :
    Option (RemotePool Addr Stream × WarmupPhase) :=
  match event with
  | .wake => wake pool phase now
  | .cancel => cancel pool phase
  | .snapshot => snapshot pool phase now
  | .dialled stream => dialled pool phase stream now
  | .dialFailed => dialFailed pool phase now
  | .popIdle token alive =>
      some ((pool.popIdle token now alive).2, phase)
  | .returnConn token stream relayOk obfs alive =>
      some (pool.returnConn token stream relayOk obfs alive now, phase)

/-- The pool and its users as a machine; time never runs backwards. -/
def machine :
    Machine (PoolState Addr Stream) (PoolEvent Stream × ℕ) where
  step state label :=
    if state.now ≤ label.2 then
      (react state.pool state.phase label.1 label.2).map fun after =>
        ⟨after.1, after.2, label.2⟩
    else none

end PoolState

end ByteHub.Core
