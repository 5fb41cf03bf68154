import ByteHub.Core.PeerAddresses

/-!
# Calls over a shared pool

The calls of an endpoint run side by side.  They share its pool with the
warmup task, and its balancer with each other; what the others have made of
the balancer is part of the label of a step.  A stream leads to the address
it was dialled to, and a call reports on the token it returns with it.
-/

namespace ByteHub.Core

open ByteHub.Lb
open ByteHub.Library

variable {Addr Socket Error : Type}

/-! ## The machine -/

/-- A call that is looping, or has returned. -/
inductive ConnectCall (Addr Socket Error : Type) where
  | looping (client : Client) (total : UInt8)
      (maxLatency : Option UInt32) (loop : ConnectLoop (Dialled Addr Socket))
  | returned
      (result : Except (ConnectError Error)
        (Dialled Addr Socket × Option Token))

/-- The pool of an endpoint, and its calls by number. -/
structure Serving (Addr Socket Error : Type) where
  pool : PoolState Addr (Dialled Addr Socket)
  calls : ℕ → Option (ConnectCall Addr Socket Error)

/-- What the outside answers in a round. -/
structure Outcome (Addr Socket Error : Type) where
  /-- `is_conn_alive` of the pooled streams. -/
  alive : Dialled Addr Socket → Bool
  connect : Except Error Socket
  elapsedMs : ℕ
  localPeerAddr : Except Error Unit
  streamPeerAddr : Except Error Unit

/-- The answers of a round with what the pool had for it. -/
def Outcome.attempt
    (outcome : Outcome Addr Socket Error)
    (popped : Option (Dialled Addr Socket)) :
    Attempt Addr (Dialled Addr Socket) Error where
  popIdle := popped
  connect := Dialled.connect outcome.connect
  elapsedMs := outcome.elapsedMs
  localPeerAddr := outcome.localPeerAddr
  streamPeerAddr := outcome.streamPeerAddr

/-- A step of the warmup task, the start of a call, or a round of one. -/
inductive ServingLabel (Addr Socket Error : Type) where
  | wake
  | cancel
  | snapshot
  /-- The network answers the dial of the warmup task. -/
  | dial (answer : Except Error Socket)
  | accept (call : ℕ) (balancer : Balancer) (client : Client)
      (selectAt : UInt32)
  | round (call : ℕ) (balancer : Balancer)
      (outcome : Outcome Addr Socket Error) (reportAt selectAt : UInt32)

namespace Serving

/-- A fresh endpoint, whose table of peers is that of `run_tcp`. -/
def start
    (ctx : CallContext Addr) (config : PoolConfig) (now : ℕ) :
    Serving Addr Socket Error where
  pool :=
    PoolState.spawned config (peerAddrs ctx.raddr ctx.extraRaddrs) now
  calls _ := none

/-- A step of the warmup task, if there is one. -/
def warmup
    (serving : Serving Addr Socket Error) (ctx : CallContext Addr)
    (event : PoolEvent (Dialled Addr Socket)) (now : ℕ) :
    Option (Serving Addr Socket Error) :=
  if ctx.pool then
    (PoolState.machine.step serving.pool (event, now)).map fun pool =>
      { serving with pool := pool }
  else none

/-- The warmup task dials the peer it is filling up. -/
def dial
    (serving : Serving Addr Socket Error) (ctx : CallContext Addr)
    (answer : Except Error Socket) (now : ℕ) :
    Option (Serving Addr Socket Error) :=
  match serving.pool.phase with
  | .filling token _ _ =>
      match serving.pool.pool.connectNew token
          fun addr _ => Dialled.connect answer addr with
      | .ok stream => serving.warmup ctx (.dialled stream) now
      | .error _ => serving.warmup ctx .dialFailed now
  | _ => none

/-- The answer of the pool to a round, and the pool after it. -/
def pop
    (serving : Serving Addr Socket Error) (ctx : CallContext Addr)
    (token : Option Token) (alive : Dialled Addr Socket → Bool)
    (now : ℕ) :
    Option (Option (Dialled Addr Socket) ×
      PoolState Addr (Dialled Addr Socket)) :=
  match ctx.pool, token with
  | true, some token =>
      (PoolState.machine.step serving.pool
        (.popIdle token alive, now)).map fun pool =>
          ((serving.pool.pool.popIdle token now alive).1, pool)
  | _, _ => some (none, serving.pool)

/-- A call after a round. -/
def afterRound
    (client : Client) (total : UInt8) (maxLatency : Option UInt32) :
    Round (Dialled Addr Socket) Error → ConnectCall Addr Socket Error
  | .done connected => .returned connected.result
  | .again next => .looping client total maxLatency next

/-- The endpoint as a machine; a label comes with its time. -/
def machine (ctx : CallContext Addr) :
    Machine (Serving Addr Socket Error)
      (ServingLabel Addr Socket Error × ℕ) where
  step serving label :=
    match label.1 with
    | .wake => serving.warmup ctx .wake label.2
    | .cancel => serving.warmup ctx .cancel label.2
    | .snapshot => serving.warmup ctx .snapshot label.2
    | .dial answer => serving.dial ctx answer label.2
    | .accept call balancer client selectAt =>
        match serving.calls call with
        | some _ => none
        | none =>
            some { serving with
              calls := Function.update serving.calls call
                (some (.looping client balancer.total
                  (balancer.healthConfig.bind
                    HealthCheckConfig.maxLatencyMs)
                  (firstLoop { ctx with client := client } balancer
                    selectAt))) }
    | .round call balancer outcome reportAt selectAt =>
        match serving.calls call with
        | some (.looping client total maxLatency loop) =>
            (serving.pop ctx loop.token outcome.alive label.2).map
              fun popped =>
                { pool := popped.2
                  calls := Function.update serving.calls call
                    (some (afterRound client total maxLatency
                      (({ loop with balancer := balancer } :
                        ConnectLoop (Dialled Addr Socket)).round
                          { ctx with client := client } total maxLatency
                          (outcome.attempt popped.1) reportAt
                          selectAt))) }
        | _ => none

end Serving

/-! ## Streams, tokens and addresses -/

/-- Every stream leads to the address that the loop selects for its token. -/
structure Serving.Agrees
    (ctx : CallContext Addr) (serving : Serving Addr Socket Error) :
    Prop where
  idle : ∀ key peer, serving.pool.pool.pools key = some peer →
    ∀ conn ∈ peer.idle, conn.stream.addr = ctx.selected (some ⟨key⟩)
  /-- The slow candidate of a call keeps its own token. -/
  candidate : ∀ call client total maxLatency loop stream,
    serving.calls call = some (.looping client total maxLatency loop) →
      loop.fallbackStream = some stream →
        stream.addr = ctx.selected loop.fallbackToken
  returned : ∀ call stream token,
    serving.calls call = some (.returned (.ok (stream, token))) →
      stream.addr = ctx.selected token

/-- The candidate of a loop leads where its token says. -/
def Candidate
    (ctx : CallContext Addr) (loop : ConnectLoop (Dialled Addr Socket)) :
    Prop :=
  ∀ stream, loop.fallbackStream = some stream →
    stream.addr = ctx.selected loop.fallbackToken

/-- What a call holds or has returned leads where its token says. -/
def ConnectCall.Leads (ctx : CallContext Addr) :
    ConnectCall Addr Socket Error → Prop
  | .looping _ _ _ loop => Candidate ctx loop
  | .returned result =>
      ∀ stream token, result = .ok (stream, token) →
        stream.addr = ctx.selected token

/-! ## One round -/

section Round

variable {ctx : CallContext Addr} {total : UInt8}
variable {maxLatency : Option UInt32} {client : Client}
variable {loop : ConnectLoop (Dialled Addr Socket)}
variable {attempt : Attempt Addr (Dialled Addr Socket) Error}

/-- The answers of a round lead where the loop means them to. -/
structure Honest
    (ctx : CallContext Addr) (token : Option Token)
    (attempt : Attempt Addr (Dialled Addr Socket) Error) : Prop where
  popped : ∀ stream, attempt.popIdle = some stream →
    stream.addr = ctx.selected token
  connected : ∀ addr stream, attempt.connect addr = .ok stream →
    stream.addr = addr

theorem dial_addr
    (honest : Honest ctx loop.token attempt)
    {stream : Dialled Addr Socket}
    (dialled : loop.dial ctx attempt = .ok stream) :
    stream.addr = ctx.selected loop.token := by
  unfold ConnectLoop.dial at dialled
  split at dialled
  · next idle _ hit =>
    cases dialled
    exact honest.popped _ hit
  · exact honest.connected _ stream dialled

theorem candidate_remembered
    (candidate : Candidate ctx loop) {token : Option Token}
    {stream : Dialled Addr Socket} (ms : ℕ)
    (leads : stream.addr = ctx.selected token) :
    Candidate ctx (loop.remembered stream token ms) := by
  unfold ConnectLoop.remembered
  split
  · intro other kept
    cases kept
    exact leads
  · exact candidate

theorem candidate_reported
    (candidate : Candidate ctx loop) (now : UInt32) :
    Candidate ctx (loop.reported now) := by
  unfold ConnectLoop.reported
  split
  · exact candidate
  · exact candidate

/-- The end of a failed round returns the candidate or keeps it. -/
theorem leads_afterFailure
    (candidate : Candidate ctx loop) (error : ConnectError Error)
    (selectAt : UInt32) :
    (Serving.afterRound client total maxLatency
      (if loop.exhausted total then .done (loop.giveUp error)
        else .again (loop.selectNext ctx.client selectAt))).Leads ctx := by
  split
  · intro stream token result
    unfold ConnectLoop.giveUp at result
    dsimp only at result
    split at result
    · next kept =>
      cases result
      exact candidate stream kept
    · cases result
  · exact candidate

/-- A round returns a stream that leads where its token says, or leaves such
a candidate. -/
theorem leads_round
    (candidate : Candidate ctx loop)
    (honest : Honest ctx loop.token attempt) (reportAt selectAt : UInt32) :
    (Serving.afterRound client total maxLatency
      (loop.round ctx total maxLatency attempt reportAt selectAt)).Leads
        ctx := by
  unfold ConnectLoop.round
  split
  · next stream dialled =>
    have leads := dial_addr honest dialled
    split
    · exact leads_afterFailure
        (candidate_remembered (candidate_reported candidate _) _ leads) _ _
    · split
      · intro other token result
        cases result
        exact leads
      · rintro other token ⟨⟩
  · exact leads_afterFailure (candidate_reported candidate _) _ _

end Round

/-! ## Every run -/

namespace Serving

variable {ctx : CallContext Addr} {serving next : Serving Addr Socket Error}

/-- The pool is filed by peers, and every call leads where its tokens say. -/
structure Inv
    (ctx : CallContext Addr) (serving : Serving Addr Socket Error) :
    Prop where
  filed : Filed ctx serving.pool.pool
  leads : ∀ number call, serving.calls number = some call →
    call.Leads ctx

theorem inv_start (ctx : CallContext Addr) (config : PoolConfig) (now : ℕ) :
    Inv ctx (start ctx config now : Serving Addr Socket Error) where
  filed := filed_new ctx config
  leads number call known := by cases known

/-- A change of one call. -/
theorem Inv.update
    (inv : Inv ctx serving) {pool : PoolState Addr (Dialled Addr Socket)}
    (filed : Filed ctx pool.pool) (number : ℕ)
    {call : ConnectCall Addr Socket Error} (leads : call.Leads ctx) :
    Inv ctx
      { pool := pool
        calls := Function.update serving.calls number (some call) } where
  filed := filed
  leads other known there := by
    dsimp only at there
    by_cases same : other = number
    · subst same
      rw [Function.update_self, Option.some.injEq] at there
      exact there ▸ leads
    · rw [Function.update_of_ne same] at there
      exact inv.leads other known there

/-- An access to the pool that keeps it filed. -/
theorem Inv.warmup
    (inv : Inv ctx serving) {event : PoolEvent (Dialled Addr Socket)}
    {now : ℕ}
    (keeps : ∀ {pool phase},
      PoolState.react serving.pool.pool serving.pool.phase event now =
        some (pool, phase) → Filed ctx pool)
    (stepped : serving.warmup ctx event now = some next) :
    Inv ctx next := by
  unfold Serving.warmup at stepped
  split at stepped
  · rcases Option.map_eq_some_iff.1 stepped with ⟨pool, step, rfl⟩
    rcases PoolState.machine_step.1 step with
      ⟨_, pooled, phase, reacted, rfl⟩
    exact { filed := keeps reacted, leads := inv.leads }
  · cases stepped

theorem Inv.dial
    (inv : Inv ctx serving) {answer : Except Error Socket} {now : ℕ}
    (stepped : serving.dial ctx answer now = some next) : Inv ctx next := by
  unfold Serving.dial at stepped
  split at stepped
  · next token needed rest filling =>
    split at stepped
    · next stream connected =>
      refine inv.warmup ?_ stepped
      intro pool phase reacted
      rw [filling] at reacted
      cases reacted
      exact inv.filed.filled now (inv.filed.connectNew connected)
    · refine inv.warmup ?_ stepped
      intro pool phase reacted
      rw [filling] at reacted
      cases reacted
      exact inv.filed
  · cases stepped

/-- What a pop leaves, and where its stream leads. -/
theorem Inv.pop
    (inv : Inv ctx serving) {token : Option Token}
    {alive : Dialled Addr Socket → Bool} {now : ℕ}
    {popped : Option (Dialled Addr Socket)}
    {pool : PoolState Addr (Dialled Addr Socket)}
    (stepped : serving.pop ctx token alive now = some (popped, pool)) :
    Filed ctx pool.pool ∧
      ∀ stream, popped = some stream → stream.addr = ctx.selected token := by
  unfold Serving.pop at stepped
  split at stepped
  · next token _ =>
    rcases Option.map_eq_some_iff.1 stepped with ⟨after, step, equal⟩
    rcases PoolState.machine_step.1 step with
      ⟨_, pooled, phase, reacted, rfl⟩
    cases reacted
    cases equal
    exact ⟨inv.filed.popIdle token now alive,
      fun stream hit => inv.filed.popped hit⟩
  · cases stepped
    refine ⟨inv.filed, ?_⟩
    rintro stream ⟨⟩

theorem inv_step
    {label : ServingLabel Addr Socket Error × ℕ} (inv : Inv ctx serving)
    (stepped : (machine ctx).step serving label = some next) :
    Inv ctx next := by
  rcases label with ⟨label, now⟩
  cases label with
  | wake =>
      refine inv.warmup ?_ stepped
      intro pool phase reacted
      simp only [PoolState.react, PoolState.wake] at reacted
      split at reacted
      · split at reacted <;> cases reacted
        exact inv.filed
      · cases reacted
  | cancel =>
      refine inv.warmup ?_ stepped
      intro pool phase reacted
      simp only [PoolState.react, PoolState.cancel] at reacted
      split at reacted <;> cases reacted
      exact inv.filed
  | snapshot =>
      refine inv.warmup ?_ stepped
      intro pool phase reacted
      simp only [PoolState.react, PoolState.snapshot] at reacted
      split at reacted
      · split at reacted <;> cases reacted <;> exact inv.filed
      · cases reacted
  | dial answer => exact inv.dial stepped
  | accept number balancer client selectAt =>
      simp only [machine] at stepped
      split at stepped
      · cases stepped
      · cases stepped
        refine inv.update inv.filed number ?_
        rintro stream ⟨⟩
  | round number balancer outcome reportAt selectAt =>
      simp only [machine] at stepped
      split at stepped
      · next client total maxLatency loop known =>
        rcases Option.map_eq_some_iff.1 stepped with
          ⟨⟨popped, pool⟩, served, rfl⟩
        rcases inv.pop served with ⟨filed, leads⟩
        have honest :
            Honest { ctx with client := client } loop.token
              (outcome.attempt popped) :=
          { popped := leads
            connected := fun addr stream => Dialled.connect_addr }
        have candidate :
            Candidate { ctx with client := client }
              { loop with balancer := balancer } :=
          inv.leads number _ known
        refine inv.update filed number ?_
        exact leads_round candidate honest reportAt selectAt
      · cases stepped

theorem Inv.agrees (inv : Inv ctx serving) : serving.Agrees ctx where
  idle := inv.filed.leads
  candidate call _ _ _ _ stream known kept :=
    inv.leads call _ known stream kept
  returned call stream token known :=
    inv.leads call _ known stream token rfl

end Serving

/-- In every run of an endpoint, with any number of extra remotes, streams,
tokens and addresses agree. -/
theorem streams_agree
    (ctx : CallContext Addr) (config : PoolConfig) (start : ℕ)
    (labels : List (ServingLabel Addr Socket Error × ℕ))
    (serving : Serving Addr Socket Error)
    (ran : (Serving.machine ctx).run (Serving.start ctx config start)
      labels = some serving) :
    serving.Agrees ctx :=
  (Machine.run_invariant (Serving.Inv ctx) Serving.inv_step
    (Serving.inv_start ctx config start) ran).agrees

/-- Two peers behind a pool. -/
def twoPeers : CallContext ℕ where
  raddr := 10
  extraRaddrs := [20]
  pool := true
  client := ⟨.v4 fun _ => 0, 0⟩
  logsInfo := true

/-- Their balancer, with a latency limit of 100 ms. -/
def slowPair : Balancer :=
  .roundRobin (RoundRobin.new ⟨[2, 1], by decide⟩ (some ⟨1, 60, some 100⟩))

/-- Pooled streams are alive, and a round takes some milliseconds. -/
def answeredIn (ms : ℕ) : Outcome ℕ ℕ Unit where
  alive _ := true
  connect := .ok 3
  elapsedMs := ms
  localPeerAddr := .ok ()
  streamPeerAddr := .ok ()

/-- A warmup cycle dials both peers; then both serve a call from the pool,
the first one slowly and the second one more slowly still. -/
def slowRun : List (ServingLabel ℕ ℕ Unit × ℕ) :=
  let once := (slowPair.next twoPeers.client 0).2
  let twice := ((once.onFailure 0 ⟨0⟩).next twoPeers.client 0).2
  [(.wake, fromSecs 10), (.snapshot, fromSecs 10),
    (.dial (.ok 1), fromSecs 10), (.snapshot, fromSecs 10),
    (.dial (.ok 2), fromSecs 10),
    (.accept 0 slowPair twoPeers.client 0, fromSecs 11),
    (.round 0 once (answeredIn 200) 0 0, fromSecs 11),
    (.round 0 twice (answeredIn 300) 0 0, fromSecs 11)]

/-- The call returns the stream of the first peer with the token of it. -/
theorem streams_agree_slow_candidate :
    ∃ serving,
      (Serving.machine twoPeers).run
          (Serving.start twoPeers ⟨1, 1, 1000, 20⟩ 0) slowRun =
        some serving ∧
      serving.calls 0 = some (.returned (.ok (⟨10, 1⟩, some ⟨0⟩))) ∧
      serving.Agrees twoPeers :=
  ⟨_, rfl, rfl,
    streams_agree twoPeers ⟨1, 1, 1000, 20⟩ 0 slowRun _ rfl⟩

end ByteHub.Core
