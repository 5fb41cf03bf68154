import ByteHub.Core.Pool

/-!
# What a warmup cycle achieves

A cycle brings every sub-pool up to the target, counting all entries it
finds.  Entries that are too old to be popped are counted as well, so a
sub-pool holds enough usable connections after the cycle exactly if the old
entries it held before are covered by its surplus over the target.  A pop
drops connections on which a byte is waiting, so it finds one exactly if
nothing waits on some of the usable ones.
-/

namespace ByteHub.Core

open ByteHub.Lb
open ByteHub.Library

variable {Addr Stream : Type}

/-! ## Counting -/

namespace PeerPool

/-- Connections no older than the timeout. -/
def usable (pool : PeerPool Stream) (timeout now : ℕ) : ℕ :=
  pool.idle.countP fun conn => !conn.expired timeout now

/-- Connections older than the timeout. -/
def stale (pool : PeerPool Stream) (timeout now : ℕ) : ℕ :=
  pool.idle.countP fun conn => conn.expired timeout now

theorem usable_add_stale
    (pool : PeerPool Stream) (timeout now : ℕ) :
    pool.usable timeout now + pool.stale timeout now =
      pool.idle.length := by
  have split :=
    @List.length_eq_countP_add_countP _
      (fun conn : IdleConn Stream => conn.expired timeout now) pool.idle
  rw [usable, stale, Nat.add_comm, split]
  simp

theorem popLoop_isSome
    (timeout now : ℕ) (alive : Stream → Bool)
    (conns : List (IdleConn Stream)) :
    (popLoop timeout now alive conns).1.isSome ↔
      ∃ conn ∈ conns,
        conn.expired timeout now = false ∧ alive conn.stream = true := by
  induction conns with
  | nil => simp [popLoop]
  | cons conn older inductionHypothesis =>
      cases old : conn.expired timeout now with
      | true => simpa [popLoop, old] using inductionHypothesis
      | false =>
          cases lives : alive conn.stream with
          | true => simp [popLoop, old, lives]
          | false => simpa [popLoop, old, lives] using inductionHypothesis

/-- A pop succeeds exactly if some connection that is not too old is alive. -/
theorem popHealthy_isSome
    (pool : PeerPool Stream) (timeout now : ℕ) (alive : Stream → Bool) :
    (pool.popHealthy timeout now alive).1.isSome ↔
      ∃ conn ∈ pool.idle,
        conn.expired timeout now = false ∧ alive conn.stream = true := by
  simp only [popHealthy, popLoop_isSome, List.mem_reverse]

/-- The connection of a peer that greets is dropped. -/
example :
    ((⟨[⟨(), 0⟩]⟩ : PeerPool Unit).popHealthy (fromSecs 20) 0 fun _ =>
      TryRead.waiting.isConnAlive).1 = none :=
  rfl

theorem popLoop_suffix
    (timeout now : ℕ) (alive : Stream → Bool)
    (conns : List (IdleConn Stream)) :
    (popLoop timeout now alive conns).2.length ≤ conns.length := by
  induction conns with
  | nil => exact Nat.le_refl 0
  | cons conn older inductionHypothesis =>
      unfold popLoop
      split
      · exact Nat.le_succ_of_le inductionHypothesis
      · split
        · exact Nat.le_succ _
        · exact Nat.le_succ_of_le inductionHypothesis

theorem popHealthy_length
    (pool : PeerPool Stream) (timeout now : ℕ) (alive : Stream → Bool) :
    (pool.popHealthy timeout now alive).2.idle.length ≤
      pool.idle.length := by
  have shorter := popLoop_suffix timeout now alive pool.idle.reverse
  rw [List.length_reverse] at shorter
  simpa [popHealthy] using shorter

theorem push_length
    (pool : PeerPool Stream) (stream : Stream) {maxSize : ℕ} (now : ℕ)
    (bounded : pool.idle.length ≤ maxSize) :
    (pool.push stream maxSize now).idle.length ≤ maxSize := by
  unfold push
  split
  · rw [List.length_append]
    assumption
  · exact bounded

end PeerPool

/-! ## The invariant of the pool -/

namespace RemotePool

variable (pool : RemotePool Addr Stream)

@[simp]
theorem update_config (token : Token)
    (change : PeerPool Stream → PeerPool Stream) :
    (pool.update token change).config = pool.config :=
  rfl

@[simp]
theorem update_peerAddrs (token : Token)
    (change : PeerPool Stream → PeerPool Stream) :
    (pool.update token change).peerAddrs = pool.peerAddrs :=
  rfl

theorem update_pools (token : Token)
    (change : PeerPool Stream → PeerPool Stream) (key : UInt8) :
    (pool.update token change).pools key =
      if key = token.index then (pool.pools key).map change
      else pool.pools key :=
  rfl

/-- Every registered token has a sub-pool, and none is over the size. -/
structure Sound
    (config : PoolConfig) (peerAddrs : List (Token × Addr))
    (pool : RemotePool Addr Stream) : Prop where
  config_eq : pool.config = config
  peerAddrs_eq : pool.peerAddrs = peerAddrs
  registered : ∀ token ∈ peerAddrs.map Prod.fst,
    ∃ peer, pool.pools token.index = some peer
  bounded : ∀ {key : UInt8} {peer : PeerPool Stream},
    pool.pools key = some peer → peer.idle.length ≤ config.poolSize

variable {config : PoolConfig} {peerAddrs : List (Token × Addr)}
variable {pool}

theorem sound_new
    (config : PoolConfig) (peerAddrs : List (Token × Addr)) :
    Sound config peerAddrs
      (RemotePool.new config peerAddrs : RemotePool Addr Stream) where
  config_eq := rfl
  peerAddrs_eq := rfl
  registered := by
    intro token member
    rcases List.mem_map.1 member with ⟨peer, known, rfl⟩
    have found :
        (peerAddrs.any fun other => other.1.index = peer.1.index) =
          true :=
      List.any_eq_true.2 ⟨peer, known, by simp⟩
    exact ⟨⟨[]⟩, if_pos found⟩
  bounded := by
    intro key peer found
    simp only [RemotePool.new] at found
    split at found
    · cases found
      exact Nat.zero_le _
    · cases found

/-- An update that respects the size keeps the pool sound. -/
theorem Sound.update
    (sound : Sound config peerAddrs pool) (token : Token)
    {change : PeerPool Stream → PeerPool Stream}
    (respects : ∀ peer : PeerPool Stream,
      peer.idle.length ≤ config.poolSize →
        (change peer).idle.length ≤ config.poolSize) :
    Sound config peerAddrs (pool.update token change) where
  config_eq := sound.config_eq
  peerAddrs_eq := sound.peerAddrs_eq
  registered := by
    intro other member
    rcases sound.registered other member with ⟨peer, found⟩
    rw [update_pools, found]
    split
    · exact ⟨_, rfl⟩
    · exact ⟨_, rfl⟩
  bounded := by
    intro key peer found
    rw [update_pools] at found
    split at found
    · rw [Option.map_eq_some_iff] at found
      rcases found with ⟨old, there, rfl⟩
      exact respects old (sound.bounded there)
    · exact sound.bounded found

theorem Sound.popIdle
    (sound : Sound config peerAddrs pool) (token : Token) (now : ℕ)
    (alive : Stream → Bool) :
    Sound config peerAddrs (pool.popIdle token now alive).2 := by
  unfold RemotePool.popIdle
  split
  · exact sound
  · exact sound.update token fun peer bounded =>
      Nat.le_trans (peer.popHealthy_length _ _ _) bounded

theorem Sound.returnConn
    (sound : Sound config peerAddrs pool) (token : Token)
    (stream : Stream) (relayOk : Bool) (obfs : String) (alive : Bool)
    (now : ℕ) :
    Sound config peerAddrs
      (pool.returnConn token stream relayOk obfs alive now) := by
  unfold RemotePool.returnConn
  split
  · rw [sound.config_eq]
    exact sound.update token fun peer bounded =>
      peer.push_length stream now bounded
  · exact sound

end RemotePool

open RemotePool

namespace PoolState

variable {config : PoolConfig} {peerAddrs : List (Token × Addr)}

theorem machine_step
    {state next : PoolState Addr Stream} {event : PoolEvent Stream}
    {time : ℕ} :
    machine.step state (event, time) = some next ↔
      state.now ≤ time ∧
        ∃ pool phase,
          react state.pool state.phase event time = some (pool, phase) ∧
          next = ⟨pool, phase, time⟩ := by
  unfold machine
  dsimp only
  split
  · rename_i later
    rw [Option.map_eq_some_iff]
    constructor
    · rintro ⟨⟨pool, phase⟩, reacted, rfl⟩
      exact ⟨later, pool, phase, reacted, rfl⟩
    · rintro ⟨_, pool, phase, reacted, rfl⟩
      exact ⟨(pool, phase), reacted, rfl⟩
  · rename_i earlier
    simp [earlier]

theorem sound_filled
    {pool : RemotePool Addr Stream} (sound : Sound config peerAddrs pool)
    (token : Token) (stream : Stream) (now : ℕ) :
    Sound config peerAddrs (filled pool token stream now) := by
  unfold filled
  rw [sound.config_eq]
  apply sound.update
  intro peer bounded
  split
  · exact peer.push_length stream now bounded
  · exact bounded

/-- What an event makes of the pool. -/
theorem react_pool
    {pool after : RemotePool Addr Stream} {phase next : WarmupPhase}
    {event : PoolEvent Stream} {time : ℕ}
    (reacted : react pool phase event time = some (after, next)) :
    after = pool ∨
      (∃ token stream, event = .dialled stream ∧
        after = filled pool token stream time) ∨
      (∃ token alive, event = .popIdle token alive ∧
        after = (pool.popIdle token time alive).2) ∨
      ∃ token stream relayOk obfs alive,
        event = .returnConn token stream relayOk obfs alive ∧
          after = pool.returnConn token stream relayOk obfs alive time := by
  cases event with
  | wake =>
      simp only [react, wake] at reacted
      split at reacted
      · split at reacted <;> cases reacted
        exact .inl rfl
      · cases reacted
  | cancel =>
      simp only [react, cancel] at reacted
      split at reacted <;> cases reacted
      exact .inl rfl
  | snapshot =>
      simp only [react, snapshot] at reacted
      split at reacted
      · split at reacted <;> cases reacted <;> exact .inl rfl
      · cases reacted
  | dialled stream =>
      simp only [react, dialled] at reacted
      split at reacted <;> cases reacted
      exact .inr (.inl ⟨_, stream, rfl, rfl⟩)
  | dialFailed =>
      simp only [react, dialFailed] at reacted
      split at reacted <;> cases reacted
      exact .inl rfl
  | popIdle token alive =>
      cases reacted
      exact .inr (.inr (.inl ⟨token, alive, rfl, rfl⟩))
  | returnConn token stream relayOk obfs alive =>
      cases reacted
      exact .inr (.inr (.inr
        ⟨token, stream, relayOk, obfs, alive, rfl, rfl⟩))

/-- No event breaks the pool. -/
theorem sound_react
    {pool after : RemotePool Addr Stream} {phase next : WarmupPhase}
    {event : PoolEvent Stream} {time : ℕ}
    (sound : Sound config peerAddrs pool)
    (reacted : react pool phase event time = some (after, next)) :
    Sound config peerAddrs after := by
  rcases react_pool reacted with rfl | ⟨token, stream, _, rfl⟩ |
    ⟨token, alive, _, rfl⟩ | ⟨token, stream, relayOk, obfs, alive, _, rfl⟩
  · exact sound
  · exact sound_filled sound token stream time
  · exact sound.popIdle token time alive
  · exact sound.returnConn token stream relayOk obfs alive time

theorem sound_run
    {start : ℕ} {history : List (PoolEvent Stream × ℕ)}
    {state : PoolState Addr Stream}
    (ran : machine.run (spawned config peerAddrs start) history =
      some state) :
    Sound config peerAddrs state.pool := by
  refine Machine.run_invariant
    (fun state : PoolState Addr Stream =>
      Sound config peerAddrs state.pool)
    ?_ (sound_new config peerAddrs) ran
  intro state next label sound step
  rcases machine_step.1 step with ⟨_, pool, phase, reacted, rfl⟩
  exact sound_react sound reacted

/-! ## One cycle -/

/-- The events of a cycle in which no dial fails and nobody else touches the
pool. -/
def Undisturbed (event : PoolEvent Stream) : Prop :=
  event = .snapshot ∨ ∃ stream, event = .dialled stream

/-- What the phase still owes a token whose sub-pool has a length. -/
def Owes (config : PoolConfig) (token : Token) (length : ℕ) :
    WarmupPhase → Prop
  | .sleeping _ => config.target ≤ length
  | .visiting tokens => token ∈ tokens ∨ config.target ≤ length
  | .filling current needed tokens =>
      1 ≤ needed ∧
        if current = token then
          length + needed = config.poolMinIdle ∨ config.poolSize ≤ length
        else token ∈ tokens ∨ config.target ≤ length
  | .exited => False

theorem owes_resume
    {token : Token} {length : ℕ} {tokens : List Token} (now : ℕ)
    (owed : token ∈ tokens ∨ config.target ≤ length) :
    Owes config token length (.resume tokens now) := by
  cases tokens with
  | nil =>
      rcases owed with none_ | reached
      · cases none_
      · exact reached
  | cons current rest => exact owed

/-- The sub-pool of a token has grown by connections of this cycle, at most
to the target. -/
structure Growing
    (config : PoolConfig) (peerAddrs : List (Token × Addr))
    (token : Token) (before : List (IdleConn Stream)) (time : ℕ)
    (state : PoolState Addr Stream) : Prop where
  sound : Sound config peerAddrs state.pool
  clock : state.now = time
  grown : ∃ fresh : List (IdleConn Stream),
    state.pool.pools token.index = some ⟨before ++ fresh⟩ ∧
    (∀ conn ∈ fresh, conn.createdAt = time) ∧
    fresh.length ≤ config.target - before.length ∧
    Owes config token (before ++ fresh).length state.phase

section Cycle

variable {token : Token} {before : List (IdleConn Stream)} {time : ℕ}
variable {state next : PoolState Addr Stream}

/-- Counting leaves the sub-pools as they are and settles what is owed. -/
theorem Growing.snapshot
    (growing : Growing config peerAddrs token before time state)
    (step : machine.step state (.snapshot, time) = some next) :
    Growing config peerAddrs token before time next := by
  rcases growing with ⟨sound, _, fresh, found, made, atMost, owes⟩
  rcases machine_step.1 step with ⟨_, pool, phase, reacted, rfl⟩
  have soundNext := sound_react sound reacted
  simp only [react, PoolState.snapshot, sound.config_eq] at reacted
  split at reacted
  · rename_i current rest phaseEq
    rw [phaseEq] at owes
    have counted :
        current = token →
          state.pool.currentIdle current = (before ++ fresh).length := by
      rintro rfl
      simp [currentIdle, found, PeerPool.len]
    split at reacted
    · rename_i full
      cases reacted
      refine ⟨soundNext, rfl, fresh, found, made, atMost, owes_resume time ?_⟩
      rcases owes with member | reached
      · rcases List.mem_cons.1 member with here | later
        · have idle := counted here.symm
          right
          unfold PoolConfig.target
          omega
        · exact Or.inl later
      · exact Or.inr reached
    · rename_i missing
      cases reacted
      refine ⟨soundNext, rfl, fresh, found, made, atMost, ?_, ?_⟩
      · omega
      · split
        · rename_i here
          have idle := counted here
          left
          omega
        · rename_i other
          rcases owes with member | reached
          · rcases List.mem_cons.1 member with here | later
            · exact (other here.symm).elim
            · exact Or.inl later
          · exact Or.inr reached
  · cases reacted

/-- The sub-pool of a token after a dial for `current`. -/
theorem filled_pools
    {pool : RemotePool Addr Stream} (sound : Sound config peerAddrs pool)
    {conns : List (IdleConn Stream)} (current : Token) (stream : Stream)
    (time : ℕ) (found : pool.pools token.index = some ⟨conns⟩) :
    (filled pool current stream time).pools token.index =
      some ⟨if current = token ∧ conns.length < config.poolSize then
        conns ++ [⟨stream, time⟩] else conns⟩ := by
  rw [filled, update_pools, found, sound.config_eq]
  by_cases here : current = token
  · subst here
    by_cases room : conns.length < config.poolSize <;>
      simp [PeerPool.len, PeerPool.push, room]
  · have other : ¬ token.index = current.index := by
      intro equal
      apply here
      cases current
      cases token
      cases equal
      rfl
    simp [here, other]

/-- A connection settles one unit of what is owed for its token, and leaves
the sub-pool as it is only if that is full. -/
theorem owes_dialled
    {token current : Token} {needed length after : ℕ}
    {rest : List Token} (now : ℕ)
    (owes : Owes config token length (.filling current needed rest))
    (grows : current = token ∧ length < config.poolSize ∧
        after = length + 1 ∨
      (current = token → config.poolSize ≤ length) ∧ after = length) :
    Owes config token after
      (if needed ≤ 1 then .resume rest now
        else .filling current (needed - 1) rest) := by
  rcases owes with ⟨positive, owes⟩
  rcases grows with ⟨rfl, room, rfl⟩ | ⟨full, rfl⟩
  · rw [if_pos rfl] at owes
    split
    · apply owes_resume
      right
      unfold PoolConfig.target
      omega
    · refine ⟨by omega, ?_⟩
      rw [if_pos rfl]
      left
      omega
  · by_cases here : current = token
    · have reached := full here
      split
      · apply owes_resume
        right
        unfold PoolConfig.target
        omega
      · refine ⟨by omega, ?_⟩
        rw [if_pos here]
        exact Or.inr reached
    · rw [if_neg here] at owes
      split
      · exact owes_resume now owes
      · refine ⟨by omega, ?_⟩
        rw [if_neg here]
        exact owes

/-- A dialled connection is kept if there is room for it. -/
theorem Growing.dialled
    {stream : Stream}
    (growing : Growing config peerAddrs token before time state)
    (step : machine.step state (.dialled stream, time) = some next) :
    Growing config peerAddrs token before time next := by
  rcases growing with ⟨sound, _, fresh, found, made, atMost, owes⟩
  rcases machine_step.1 step with ⟨_, pool, phase, reacted, rfl⟩
  have soundNext := sound_react sound reacted
  simp only [react, PoolState.dialled] at reacted
  split at reacted
  · rename_i current needed rest phaseEq
    rw [phaseEq] at owes
    have pools := filled_pools sound current stream time found
    cases reacted
    by_cases kept :
        current = token ∧ (before ++ fresh).length < config.poolSize
    · rw [if_pos kept] at pools
      have length :
          (before ++ (fresh ++ [IdleConn.mk stream time])).length =
            (before ++ fresh).length + 1 := by
        simp [Nat.add_assoc]
      have split : (before ++ fresh).length =
          before.length + fresh.length := List.length_append
      refine ⟨soundNext, rfl, fresh ++ [⟨stream, time⟩], ?_, ?_, ?_, ?_⟩
      · rw [pools, List.append_assoc]
      · intro conn member
        rcases List.mem_append.1 member with old | new
        · exact made conn old
        · rw [List.mem_singleton.1 new]
      · rcases owes with ⟨positive, owes⟩
        rw [if_pos kept.1] at owes
        rw [List.length_append, List.length_singleton]
        unfold PoolConfig.target at *
        omega
      · exact owes_dialled time owes (.inl ⟨kept.1, kept.2, length⟩)
    · rw [if_neg kept] at pools
      refine ⟨soundNext, rfl, fresh, pools, made, atMost, ?_⟩
      apply owes_dialled time owes
      refine .inr ⟨fun here => ?_, rfl⟩
      by_contra room
      exact kept ⟨here, Nat.not_le.1 room⟩
  · cases reacted

/-- The task visits every token once it wakes. -/
theorem Growing.wake
    (sound : Sound config peerAddrs state.pool)
    (member : token ∈ peerAddrs.map Prod.fst)
    (found : state.pool.pools token.index = some ⟨before⟩)
    (step : machine.step state (.wake, time) = some next) :
    Growing config peerAddrs token before time next := by
  rcases machine_step.1 step with ⟨_, pool, phase, reacted, rfl⟩
  have soundNext := sound_react sound reacted
  simp only [react, PoolState.wake] at reacted
  split at reacted
  · split at reacted <;> cases reacted
    refine ⟨soundNext, rfl, [], by simpa using found, by simp,
      Nat.zero_le _, ?_⟩
    rw [sound.peerAddrs_eq]
    exact owes_resume time (Or.inl member)
  · cases reacted

/-- An undisturbed cycle grows every sub-pool to the target. -/
theorem growing_run
    {cycle : List (PoolEvent Stream)}
    (undisturbed : ∀ event ∈ cycle, Undisturbed event)
    (growing : Growing config peerAddrs token before time state)
    (ran : machine.run state (cycle.map fun event => (event, time)) =
      some next) :
    Growing config peerAddrs token before time next := by
  induction cycle generalizing state with
  | nil =>
      cases ran
      exact growing
  | cons event cycle inductionHypothesis =>
      rw [List.map_cons, Machine.run_cons_eq_some] at ran
      rcases ran with ⟨middle, step, rest⟩
      have grown :
          Growing config peerAddrs token before time middle := by
        rcases undisturbed event List.mem_cons_self with
          rfl | ⟨stream, rfl⟩
        · exact growing.snapshot step
        · exact growing.dialled step
      exact inductionHypothesis
        (fun event member => undisturbed event
          (List.mem_cons_of_mem _ member)) grown rest

end Cycle

/-! ## What the cycle is for -/

/-- The sub-pool of a token is ready: it holds enough connections that are
not too old, and a pop that finds the sockets this way gets one. -/
def Ready
    (config : PoolConfig) (token : Token) (socket : Stream → TryRead)
    (state : PoolState Addr Stream) : Prop :=
  (∃ peer, state.pool.pools token.index = some peer ∧
    config.target ≤ peer.usable config.idleTimeout state.now) ∧
  (state.pool.popIdle token state.now fun stream =>
    (socket stream).isConnAlive).1.isSome

/-- On some connection of the sub-pool that is not too old, no byte is
waiting. -/
def SomeQuiet
    (config : PoolConfig) (token : Token) (socket : Stream → TryRead)
    (state : PoolState Addr Stream) : Prop :=
  ∃ peer, state.pool.pools token.index = some peer ∧
    ∃ conn ∈ peer.idle,
      conn.expired config.idleTimeout state.now = false ∧
        socket conn.stream ≠ .waiting

/-- The stale connections of a sub-pool at a time are no more than its
surplus over the target. -/
def StaleCovered
    (config : PoolConfig) (token : Token) (time : ℕ)
    (state : PoolState Addr Stream) : Prop :=
  ∀ peer, state.pool.pools token.index = some peer →
    peer.stale config.idleTimeout time ≤ peer.idle.length - config.target

theorem usable_grown
    {fresh : List (IdleConn Stream)} {time : ℕ}
    (before : List (IdleConn Stream)) (timeout : ℕ)
    (made : ∀ conn ∈ fresh, conn.createdAt = time) :
    (⟨before ++ fresh⟩ : PeerPool Stream).usable timeout time =
      (⟨before⟩ : PeerPool Stream).usable timeout time +
        fresh.length := by
  have all :
      (fresh.countP fun conn => !conn.expired timeout time) =
        fresh.length := by
    apply List.countP_eq_length.2
    intro conn member
    simp [IdleConn.expired, made conn member]
  simp only [PeerPool.usable, List.countP_append, all]

section Token

variable {config : PoolConfig} {token : Token} {socket : Stream → TryRead}
variable {state : PoolState Addr Stream} {peer : PeerPool Stream}

theorem staleCovered_iff
    (found : state.pool.pools token.index = some peer) (time : ℕ) :
    StaleCovered config token time state ↔
      peer.stale config.idleTimeout time ≤
        peer.idle.length - config.target := by
  unfold StaleCovered
  rw [found]
  simp

/-- While its peer keeps the sockets open, a pop takes a quiet connection. -/
theorem popIdle_isSome_iff
    (found : state.pool.pools token.index = some peer)
    (sameConfig : state.pool.config = config)
    (keptOpen : ∀ stream, (socket stream).KeptOpen) :
    (state.pool.popIdle token state.now fun stream =>
        (socket stream).isConnAlive).1.isSome ↔
      SomeQuiet config token socket state := by
  simp only [popIdle, SomeQuiet, found, sameConfig,
    PeerPool.popHealthy_isSome, Option.some.injEq, exists_eq_left',
    fun stream => TryRead.isConnAlive_iff (keptOpen stream)]

/-- Of usable connections to a silent peer each one is quiet. -/
theorem someQuiet_of_usable
    (found : state.pool.pools token.index = some peer)
    (some_ : 0 < peer.usable config.idleTimeout state.now)
    (silent : ∀ stream, socket stream ≠ .waiting) :
    SomeQuiet config token socket state := by
  rcases List.countP_pos_iff.1 some_ with ⟨conn, held, young⟩
  exact
    ⟨peer, found, conn, held, by simpa using young, silent conn.stream⟩

end Token

/--
After any history, an undisturbed warmup cycle whose dials all succeed leaves
a sub-pool ready, while the peers keep their sockets open, exactly if the
connections that are too old at the time of the cycle were covered by the
sub-pool's surplus over the target and no byte is waiting on some of those
that are not.  While the peers send nothing, the first of the two is enough.
-/
theorem warmup_ready_iff
    (config : PoolConfig) (minIdle : 1 ≤ config.poolMinIdle)
    (size : 1 ≤ config.poolSize) (peerAddrs : List (Token × Addr))
    (start : ℕ) (history : List (PoolEvent Stream × ℕ))
    (state final : PoolState Addr Stream)
    (ranHistory :
      machine.run (spawned config peerAddrs start) history = some state)
    (time : ℕ) (cycle : List (PoolEvent Stream))
    (undisturbed : ∀ event ∈ cycle, Undisturbed event)
    (ranCycle :
      machine.run state
          ((.wake, time) :: cycle.map fun event => (event, time)) =
        some final)
    (finished : ∃ since, final.phase = .sleeping since)
    (socket : Stream → TryRead)
    (keptOpen : ∀ stream, (socket stream).KeptOpen) :
    ∀ token ∈ peerAddrs.map Prod.fst,
      (Ready config token socket final ↔
        StaleCovered config token time state ∧
          SomeQuiet config token socket final) ∧
      ((∀ stream, socket stream ≠ .waiting) →
        (Ready config token socket final ↔
          StaleCovered config token time state)) := by
  intro token member
  have sound := sound_run ranHistory
  rcases sound.registered token member with ⟨⟨before⟩, found⟩
  rcases machine.run_cons_eq_some.1 ranCycle with ⟨woken, wakes, rest⟩
  have growing :=
    growing_run undisturbed (Growing.wake sound member found wakes) rest
  rcases growing with
    ⟨soundFinal, clock, fresh, grown, made, atMost, owes⟩
  rcases finished with ⟨since, asleep⟩
  rw [asleep] at owes
  have reached : config.target ≤ before.length + fresh.length := by
    have owed : config.target ≤ (before ++ fresh).length := owes
    rwa [List.length_append] at owed
  have counts :=
    (⟨before⟩ : PeerPool Stream).usable_add_stale config.idleTimeout time
  have usable := usable_grown before config.idleTimeout made
  have pops :=
    popIdle_isSome_iff grown soundFinal.config_eq keptOpen
  have covered := @staleCovered_iff _ _ config _ _ _ found time
  have holds :
      (∃ peer, final.pool.pools token.index = some peer ∧
          config.target ≤ peer.usable config.idleTimeout final.now) ↔
        StaleCovered config token time state := by
    rw [covered, grown, clock]
    simp only [Option.some.injEq, exists_eq_left', usable]
    change _ = before.length at counts
    omega
  have ready :
      Ready config token socket final ↔
        StaleCovered config token time state ∧
          SomeQuiet config token socket final :=
    and_congr holds pops
  refine ⟨ready, fun silent => ?_⟩
  rw [ready]
  refine ⟨And.left, fun stale => ⟨stale, ?_⟩⟩
  rcases holds.2 stale with ⟨peer, there, enough⟩
  have target : 1 ≤ config.target := by
    unfold PoolConfig.target
    omega
  exact someQuiet_of_usable there (Nat.lt_of_lt_of_le target enough) silent

/-- One peer, at least one idle connection, discarded after 20 seconds. -/
def singleIdle : PoolConfig where
  poolSize := 1024
  poolMinIdle := 1
  poolConnectTimeoutMs := 1000
  poolIdleTimeoutSecs := 20

/-- The first cycle readies an empty sub-pool. -/
theorem warmup_ready_first_cycle :
    ∃ final : PoolState Unit ℕ,
      machine.run (spawned singleIdle [(⟨0⟩, ())] 0)
          [(.wake, fromSecs 10), (.snapshot, fromSecs 10),
            (.dialled 0, fromSecs 10)] = some final ∧
        Ready singleIdle ⟨0⟩ (fun _ => .wouldBlock) final := by
  refine ⟨_, rfl, ?_⟩
  refine
    ((warmup_ready_iff singleIdle (by decide) (by decide) [(⟨0⟩, ())] 0 []
      _ _ rfl (fromSecs 10) [.snapshot, .dialled 0] ?_ rfl ⟨_, rfl⟩
      (fun _ => .wouldBlock) ?_ ⟨0⟩ (by decide)).2 ?_).2 ?_
  · intro event member
    rcases List.mem_cons.1 member with rfl | rest
    · exact Or.inl rfl
    · exact Or.inr ⟨0, List.mem_singleton.1 rest⟩
  · intro stream
    exact ⟨by decide, by decide⟩
  · intro stream
    decide
  · intro peer found
    cases found
    decide

/-- The connection of the first cycle, 30 seconds old in the fourth one, is
still counted there and no longer popped. -/
theorem warmup_counts_stale :
    ∃ final : PoolState Unit ℕ,
      machine.run (spawned singleIdle [(⟨0⟩, ())] 0)
          [(.wake, fromSecs 10), (.snapshot, fromSecs 10),
            (.dialled 0, fromSecs 10),
            (.wake, fromSecs 20), (.snapshot, fromSecs 20),
            (.wake, fromSecs 30), (.snapshot, fromSecs 30),
            (.wake, fromSecs 40), (.snapshot, fromSecs 40)] =
        some final ∧
        final.phase = .sleeping (fromSecs 40) ∧
        ¬ Ready singleIdle ⟨0⟩ (fun _ => .wouldBlock) final := by
  refine ⟨_, rfl, rfl, ?_⟩
  intro ready
  exact absurd ready.2 (by decide)

end PoolState

end ByteHub.Core
