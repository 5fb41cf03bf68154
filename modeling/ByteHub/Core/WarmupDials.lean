import ByteHub.Core.IdlePool

/-!
# What a warmup cycle dials

A cycle counts the idle connections of a token and dials what is missing to
the minimum, while the sub-pool keeps no more than its size.  The two limits
are not compared: where the minimum is above the size, every cycle dials
connections that are dropped at once, and the next cycle does so again.
-/

namespace ByteHub.Core

open ByteHub.Lb
open ByteHub.Library

variable {Addr Stream : Type}

/-- The pool of an endpoint: its file may set the minimum and nothing
else. -/
def PoolConfig.ofEndpoint (poolMinIdle : Option UInt64) : PoolConfig :=
  match poolMinIdle with
  | some v => { (default : PoolConfig) with poolMinIdle := v.toNat }
  | none => default

namespace PoolState

/-- An event of the warmup task itself, behind its waking up. -/
def Warming (event : PoolEvent Stream) : Prop :=
  event = .snapshot ∨ event = .dialFailed ∨
    ∃ stream, event = .dialled stream

/-- The connections an event has dialled for a token. -/
def dialledBy
    (key : UInt8) (phase : WarmupPhase) (label : PoolEvent Stream × ℕ) :
    List (IdleConn Stream) :=
  match phase, label.1 with
  | .filling token _ _, .dialled stream =>
      if token.index = key then [⟨stream, label.2⟩] else []
  | _, _ => []

theorem dialledBy_snapshot (key : UInt8) (phase : WarmupPhase) (time : ℕ) :
    dialledBy key phase ((.snapshot, time) : PoolEvent Stream × ℕ) = [] := by
  cases phase <;> rfl

theorem dialledBy_dialFailed
    (key : UInt8) (phase : WarmupPhase) (time : ℕ) :
    dialledBy key phase ((.dialFailed, time) : PoolEvent Stream × ℕ) = []
    := by
  cases phase <;> rfl

theorem dialledBy_dialled
    (key : UInt8) (token : Token) (needed : ℕ) (rest : List Token)
    (stream : Stream) (time : ℕ) :
    dialledBy key (.filling token needed rest) (.dialled stream, time) =
      if token.index = key then [⟨stream, time⟩] else [] :=
  rfl

/-- The connections a run has dialled for a token. -/
def dialledFor (key : UInt8) :
    PoolState Addr Stream → List (PoolEvent Stream × ℕ) →
      List (IdleConn Stream)
  | _, [] => []
  | state, label :: labels =>
      dialledBy key state.phase label ++
        match machine.step state label with
        | none => []
        | some next => dialledFor key next labels

theorem dialledFor_cons
    {state next : PoolState Addr Stream} {label : PoolEvent Stream × ℕ}
    (stepped : machine.step state label = some next) (key : UInt8)
    (labels : List (PoolEvent Stream × ℕ)) :
    dialledFor key state (label :: labels) =
      dialledBy key state.phase label ++ dialledFor key next labels := by
  rw [dialledFor, stepped]

/-- Every connection the cycle dials is kept: it is behind those its token
had before. -/
def KeepsDialled
    (state : PoolState Addr Stream)
    (cycle : List (PoolEvent Stream × ℕ))
    (final : PoolState Addr Stream) : Prop :=
  ∀ peer ∈ state.pool.peerAddrs,
    final.pool.idleOf peer.1.index =
      state.pool.idleOf peer.1.index ++
        dialledFor peer.1.index state cycle

/-- A cycle that begins here dials nothing, whatever the network answers. -/
def DialsNothing (state : PoolState Addr Stream) : Prop :=
  ∀ (time : ℕ) (cycle : List (PoolEvent Stream × ℕ))
    (final : PoolState Addr Stream),
    (∀ label ∈ cycle, Warming label.1) →
    machine.run state ((.wake, time) :: cycle) = some final →
      ∀ label ∈ cycle, label.1 = .snapshot

/-! ## What a cycle leaves -/

variable {config : PoolConfig} {peerAddrs : List (Token × Addr)}

/-- The sub-pool of a token holds what it held and what was dialled for it,
up to the size.  Within the size no more is dialled than is missing. -/
structure Dialling
    (config : PoolConfig) (peerAddrs : List (Token × Addr)) (token : Token)
    (before got : List (IdleConn Stream))
    (state : PoolState Addr Stream) : Prop where
  sound : RemotePool.Sound config peerAddrs state.pool
  kept : state.pool.pools token.index =
    some ⟨(before ++ got).take config.poolSize⟩
  within : config.poolMinIdle ≤ config.poolSize →
    (before ++ got).length ≤ max before.length config.poolMinIdle
  missing : ∀ {current : Token} {needed : ℕ} {rest : List Token},
    state.phase = .filling current needed rest →
      1 ≤ needed ∧
        (current = token → config.poolMinIdle ≤ config.poolSize →
          (before ++ got).length + needed ≤ config.poolMinIdle)

private theorem take_concat
    {α : Type} (items : List α) (item : α) (size : ℕ) :
    (items ++ [item]).take size =
      if (items.take size).length < size then items.take size ++ [item]
      else items.take size := by
  rw [List.length_take]
  split
  · next room =>
    have short : items.length < size := by omega
    rw [List.take_of_length_le (Nat.le_of_lt short),
      List.take_of_length_le]
    rw [List.length_append]
    exact short
  · next full =>
    have long : size ≤ items.length := by omega
    exact List.take_append_of_le_length long

theorem resume_ne_filling
    (tokens : List Token) (now : ℕ) (current : Token) (needed : ℕ)
    (rest : List Token) :
    WarmupPhase.resume tokens now ≠ .filling current needed rest := by
  cases tokens with
  | nil => rintro ⟨⟩
  | cons token tokens => rintro ⟨⟩

section Step

variable {token : Token} {before got : List (IdleConn Stream)}
variable {state next : PoolState Addr Stream}
variable {label : PoolEvent Stream × ℕ}

/-- Counting dials nothing, and knows what is missing. -/
theorem Dialling.snapshot
    {time : ℕ} (dialling : Dialling config peerAddrs token before got state)
    (stepped : machine.step state (.snapshot, time) = some next) :
    Dialling config peerAddrs token before
      (got ++ dialledBy token.index state.phase (.snapshot, time))
      next := by
  rcases machine_step.1 stepped with ⟨_, pool, phase, reacted, rfl⟩
  have sound := sound_react dialling.sound reacted
  simp only [react, PoolState.snapshot, dialling.sound.config_eq] at reacted
  rw [dialledBy_snapshot, List.append_nil]
  split at reacted
  · next current rest visiting =>
    split at reacted
    · cases reacted
      refine ⟨sound, dialling.kept, dialling.within, ?_⟩
      intro other needed later filling
      exact absurd filling (resume_ne_filling _ _ _ _ _)
    · next short =>
      cases reacted
      refine ⟨sound, dialling.kept, dialling.within, ?_⟩
      rintro other needed later ⟨⟩
      refine ⟨by omega, ?_⟩
      rintro rfl small
      have idle :
          state.pool.currentIdle current =
            min config.poolSize (before ++ got).length := by
        rw [RemotePool.currentIdle, dialling.kept]
        exact List.length_take
      have within := dialling.within small
      omega
  · cases reacted

/-- A connection dialled for the token goes to its sub-pool, if there is
room, and one less is missing. -/
theorem Dialling.filled_own
    {needed : ℕ} {rest : List Token} {stream : Stream} {time : ℕ}
    (dialling : Dialling config peerAddrs token before got state)
    (filling : state.phase = .filling token needed rest)
    (sound : RemotePool.Sound config peerAddrs
      (filled state.pool token stream time)) :
    Dialling config peerAddrs token before
      (got ++ [IdleConn.mk stream time])
      ⟨filled state.pool token stream time,
        if needed ≤ 1 then .resume rest time
        else .filling token (needed - 1) rest, time⟩ := by
  have pools :=
    filled_pools dialling.sound token stream time dialling.kept
  have owed := dialling.missing filling
  have behind :
      before ++ (got ++ [IdleConn.mk stream time]) =
        before ++ got ++ [IdleConn.mk stream time] :=
    (List.append_assoc _ _ _).symm
  have longer :
      (before ++ (got ++ [IdleConn.mk stream time])).length =
        (before ++ got).length + 1 := by
    rw [behind, List.length_append, List.length_singleton]
  refine ⟨sound, ?_, ?_, ?_⟩
  · rw [pools, behind, take_concat]
    simp only [true_and]
  · intro small
    have missing := owed.2 rfl small
    omega
  · intro other needed' later filling'
    dsimp only at filling'
    split at filling'
    · exact absurd filling' (resume_ne_filling _ _ _ _ _)
    · cases filling'
      refine ⟨by omega, ?_⟩
      intro _ small
      have missing := owed.2 rfl small
      omega

/-- One dialled for another token changes nothing here. -/
theorem Dialling.filled_other
    {current : Token} {needed : ℕ} {rest : List Token} {stream : Stream}
    {time : ℕ}
    (dialling : Dialling config peerAddrs token before got state)
    (other : current ≠ token)
    (sound : RemotePool.Sound config peerAddrs
      (filled state.pool current stream time)) :
    Dialling config peerAddrs token before got
      ⟨filled state.pool current stream time,
        if needed ≤ 1 then .resume rest time
        else .filling current (needed - 1) rest, time⟩ := by
  have pools :=
    filled_pools dialling.sound current stream time dialling.kept
  refine ⟨sound, ?_, dialling.within, ?_⟩
  · rw [pools, if_neg fun both => other both.1]
  · intro current' needed' later filling'
    dsimp only at filling'
    split at filling'
    · exact absurd filling' (resume_ne_filling _ _ _ _ _)
    · cases filling'
      exact ⟨by omega, fun equal => absurd equal other⟩

/-- A dialled connection goes to the sub-pool of its token, if there is
room. -/
theorem Dialling.dialled
    {time : ℕ} {stream : Stream}
    (dialling : Dialling config peerAddrs token before got state)
    (stepped : machine.step state (.dialled stream, time) = some next) :
    Dialling config peerAddrs token before
      (got ++
        dialledBy token.index state.phase (.dialled stream, time))
      next := by
  rcases machine_step.1 stepped with ⟨_, pool, phase, reacted, rfl⟩
  have sound := sound_react dialling.sound reacted
  simp only [react, PoolState.dialled] at reacted
  split at reacted
  · next current needed rest filling =>
    cases reacted
    rw [filling, dialledBy_dialled]
    by_cases here : current = token
    · subst here
      rw [if_pos rfl]
      exact dialling.filled_own filling sound
    · have other : ¬ current.index = token.index := by
        intro equal
        apply here
        cases current
        cases token
        exact congrArg Token.mk equal
      rw [if_neg other, List.append_nil]
      exact dialling.filled_other here sound
  · cases reacted

/-- A failed dial ends the visit. -/
theorem Dialling.dialFailed
    {time : ℕ}
    (dialling : Dialling config peerAddrs token before got state)
    (stepped : machine.step state (.dialFailed, time) = some next) :
    Dialling config peerAddrs token before
      (got ++ dialledBy token.index state.phase (.dialFailed, time))
      next := by
  rcases machine_step.1 stepped with ⟨_, pool, phase, reacted, rfl⟩
  have sound := sound_react dialling.sound reacted
  simp only [react, PoolState.dialFailed] at reacted
  rw [dialledBy_dialFailed, List.append_nil]
  split at reacted
  · cases reacted
    refine ⟨sound, dialling.kept, dialling.within, ?_⟩
    intro other needed later filling
    exact absurd filling (resume_ne_filling _ _ _ _ _)
  · cases reacted

end Step

/-- A cycle leaves what it dialled, up to the size. -/
theorem dialling_run
    {token : Token} {before got : List (IdleConn Stream)}
    {state final : PoolState Addr Stream}
    {cycle : List (PoolEvent Stream × ℕ)}
    (warming : ∀ label ∈ cycle, Warming label.1)
    (dialling : Dialling config peerAddrs token before got state)
    (ran : machine.run state cycle = some final) :
    Dialling config peerAddrs token before
      (got ++ dialledFor token.index state cycle) final := by
  induction cycle generalizing state got with
  | nil =>
      cases ran
      rw [dialledFor, List.append_nil]
      exact dialling
  | cons label cycle inductionHypothesis =>
      rcases machine.run_cons_eq_some.1 ran with ⟨next, stepped, rest⟩
      rcases label with ⟨event, time⟩
      have here :
          Dialling config peerAddrs token before
            (got ++ dialledBy token.index state.phase (event, time))
            next := by
        rcases warming _ List.mem_cons_self with
          rfl | rfl | ⟨stream, rfl⟩
        · exact dialling.snapshot stepped
        · exact dialling.dialFailed stepped
        · exact dialling.dialled stepped
      have later := inductionHypothesis
        (fun label member => warming label (List.mem_cons_of_mem _ member))
        here rest
      rw [dialledFor_cons stepped, ← List.append_assoc]
      exact later

/-! ## The next cycle -/

section Visit

variable {state : PoolState Addr Stream} {token : Token}
variable {rest : List Token} {time : ℕ}

/-- A token that is not short is passed over. -/
theorem step_snapshot_full
    (visiting : state.phase = .visiting (token :: rest))
    (forward : state.now ≤ time)
    (full :
      state.pool.config.poolMinIdle ≤ state.pool.currentIdle token) :
    machine.step state (.snapshot, time) =
      some ⟨state.pool, .resume rest time, time⟩ := by
  apply machine_step.2
  refine ⟨forward, state.pool, .resume rest time, ?_, rfl⟩
  rw [react, visiting]
  exact if_pos (Nat.sub_eq_zero_of_le full)

/-- A token that is short is filled up. -/
theorem step_snapshot_short
    (visiting : state.phase = .visiting (token :: rest))
    (forward : state.now ≤ time)
    (short :
      state.pool.currentIdle token < state.pool.config.poolMinIdle) :
    machine.step state (.snapshot, time) =
      some ⟨state.pool, .filling token (state.pool.config.poolMinIdle -
        state.pool.currentIdle token) rest, time⟩ := by
  apply machine_step.2
  refine ⟨forward, state.pool, _, ?_, rfl⟩
  rw [react, visiting]
  exact if_neg (Nat.sub_ne_zero_of_lt short)

theorem step_dialFailed
    {needed : ℕ} (filling : state.phase = .filling token needed rest)
    (forward : state.now ≤ time) :
    machine.step state (.dialFailed, time) =
      some ⟨state.pool, .resume rest time, time⟩ := by
  apply machine_step.2
  refine ⟨forward, state.pool, .resume rest time, ?_, rfl⟩
  rw [react, filling]
  rfl

/-- Nothing is dialled while no token is being filled up. -/
theorem filling_of_dial
    {next : PoolState Addr Stream} {label : PoolEvent Stream × ℕ}
    (warming : Warming label.1) (other : label.1 ≠ .snapshot)
    (stepped : machine.step state label = some next) :
    ∃ current needed later, state.phase = .filling current needed later := by
  rcases label with ⟨event, time⟩
  rcases machine_step.1 stepped with ⟨_, pool, after, reacted, rfl⟩
  rcases warming with rfl | rfl | ⟨stream, rfl⟩
  · exact absurd rfl other
  · simp only [react, PoolState.dialFailed] at reacted
    split at reacted
    · exact ⟨_, _, _, by assumption⟩
    · cases reacted
  · simp only [react, PoolState.dialled] at reacted
    split at reacted
    · exact ⟨_, _, _, by assumption⟩
    · cases reacted

end Visit

/-- Where no token is short of the minimum, a cycle only counts. -/
theorem snapshots_of_full
    {state final : PoolState Addr Stream} {tokens : List Token}
    {cycle : List (PoolEvent Stream × ℕ)}
    (warming : ∀ label ∈ cycle, Warming label.1)
    (full : ∀ token ∈ tokens,
      state.pool.config.poolMinIdle ≤ state.pool.currentIdle token)
    (phase : state.phase = .resume tokens state.now)
    (ran : machine.run state cycle = some final) :
    ∀ label ∈ cycle, label.1 = .snapshot := by
  induction cycle generalizing state tokens with
  | nil => exact List.forall_mem_nil _
  | cons label cycle inductionHypothesis =>
      rcases machine.run_cons_eq_some.1 ran with ⟨next, stepped, rest⟩
      have counts : label.1 = .snapshot := by
        by_contra other
        rcases filling_of_dial (warming label List.mem_cons_self) other
            stepped with ⟨current, needed, later, filling⟩
        exact resume_ne_filling _ _ _ _ _ (phase.symm.trans filling)
      refine List.forall_mem_cons.2 ⟨counts, ?_⟩
      rcases label with ⟨event, time⟩
      obtain rfl : event = .snapshot := counts
      have forward := (machine_step.1 stepped).1
      cases tokens with
      | nil =>
          rcases machine_step.1 stepped with ⟨_, pool, after, reacted, _⟩
          rw [react, phase] at reacted
          cases reacted
      | cons token tokens =>
          have passed := step_snapshot_full phase forward
            (full token List.mem_cons_self)
          obtain rfl := Option.some.inj (passed.symm.trans stepped)
          exact @inductionHypothesis
            ⟨state.pool, .resume tokens time, time⟩ tokens
            (fun label member =>
              warming label (List.mem_cons_of_mem _ member))
            (fun token member =>
              full token (List.mem_cons_of_mem _ member)) rfl rest

/-- Where a token is short of the minimum, a cycle dials. -/
theorem exists_dial_of_short
    {state : PoolState Addr Stream} {tokens : List Token}
    (short : ∃ token ∈ tokens,
      state.pool.currentIdle token < state.pool.config.poolMinIdle)
    (phase : state.phase = .resume tokens state.now) :
    ∃ (cycle : List (PoolEvent Stream × ℕ)) (final : PoolState Addr Stream),
      (∀ label ∈ cycle, Warming label.1) ∧
        machine.run state cycle = some final ∧
        ∃ label ∈ cycle, label.1 = .dialFailed := by
  induction tokens generalizing state with
  | nil =>
      rcases short with ⟨_, member, _⟩
      cases member
  | cons token tokens inductionHypothesis =>
      rcases Nat.lt_or_ge (state.pool.currentIdle token)
          state.pool.config.poolMinIdle with here | full
      · have counted :=
          step_snapshot_short phase (Nat.le_refl state.now) here
        have failed := @step_dialFailed _ _
          ⟨state.pool, .filling token (state.pool.config.poolMinIdle -
            state.pool.currentIdle token) tokens, state.now⟩ _ _ _ _ rfl
          (Nat.le_refl state.now)
        refine ⟨[(.snapshot, state.now), (.dialFailed, state.now)], _, ?_,
          machine.run_cons_eq_some.2 ⟨_, counted,
            machine.run_cons_eq_some.2 ⟨_, failed, rfl⟩⟩,
          (.dialFailed, state.now), by simp, rfl⟩
        intro label member
        rcases List.mem_cons.1 member with rfl | last
        · exact .inl rfl
        · rw [List.mem_singleton.1 last]
          exact .inr (.inl rfl)
      · have passed :=
          step_snapshot_full phase (Nat.le_refl state.now) full
        have later : ∃ token ∈ tokens,
            state.pool.currentIdle token <
              state.pool.config.poolMinIdle := by
          rcases short with ⟨other, member, less⟩
          rcases List.mem_cons.1 member with rfl | there
          · omega
          · exact ⟨other, there, less⟩
        rcases @inductionHypothesis
            ⟨state.pool, .resume tokens state.now, state.now⟩ later rfl with
          ⟨cycle, final, warming, ran, dials⟩
        rcases dials with ⟨label, member, isDial⟩
        refine ⟨(.snapshot, state.now) :: cycle, final,
          List.forall_mem_cons.2 ⟨.inl rfl, warming⟩,
          machine.run_cons_eq_some.2 ⟨_, passed, ran⟩, label,
          List.mem_cons_of_mem _ member, isDial⟩

/-- The next cycle dials nothing exactly if no token is short. -/
theorem dialsNothing_iff
    {state : PoolState Addr Stream} {since : ℕ}
    (asleep : state.phase = .sleeping since) :
    DialsNothing state ↔
      ∀ peer ∈ state.pool.peerAddrs,
        state.pool.config.poolMinIdle ≤ state.pool.currentIdle peer.1 := by
  have woken (time : ℕ) (next : PoolState Addr Stream) :
      machine.step state (.wake, time) = some next ↔
        state.now ≤ time ∧ since + state.pool.config.interval ≤ time ∧
          next = ⟨state.pool,
            .resume (state.pool.peerAddrs.map Prod.fst) time, time⟩ := by
    rw [machine_step]
    apply and_congr_right
    intro _
    rw [react, asleep]
    by_cases due : since + state.pool.config.interval ≤ time
    · simp [PoolState.wake, due]
    · simp [PoolState.wake, due]
  constructor
  · intro nothing peer member
    by_contra short
    obtain ⟨time, forward, due⟩ :
        ∃ time, state.now ≤ time ∧
          since + state.pool.config.interval ≤ time :=
      ⟨_, Nat.le_max_left _ _, Nat.le_max_right _ _⟩
    have wakes := (woken time _).2 ⟨forward, due, rfl⟩
    rcases @exists_dial_of_short _ _
        ⟨state.pool, .resume (state.pool.peerAddrs.map Prod.fst) time, time⟩
        _ ⟨peer.1, List.mem_map_of_mem member, Nat.not_le.1 short⟩ rfl with
      ⟨cycle, final, warming, ran, label, there, isDial⟩
    have counts := nothing time cycle final warming
      (machine.run_cons_eq_some.2 ⟨_, wakes, ran⟩) label there
    rw [isDial] at counts
    cases counts
  · intro full time cycle final warming ran
    rcases machine.run_cons_eq_some.1 ran with ⟨next, stepped, rest⟩
    obtain ⟨_, _, rfl⟩ := (woken time next).1 stepped
    refine snapshots_of_full warming ?_ rfl rest
    intro token member
    rcases List.mem_map.1 member with ⟨peer, known, rfl⟩
    exact full peer known

/-! ## What is dialled for nothing -/

theorem currentIdle_eq (pool : RemotePool Addr Stream) (token : Token) :
    pool.currentIdle token = (pool.idleOf token.index).length := by
  cases found : pool.pools token.index with
  | none => simp only [RemotePool.currentIdle, RemotePool.idleOf, found,
      List.length_nil]
  | some peer => simp only [RemotePool.currentIdle, RemotePool.idleOf, found,
      PeerPool.len]

/-- A cycle that starts in a sound pool. -/
theorem dialling_cycle
    {state final : PoolState Addr Stream} {token : Token} {time : ℕ}
    {cycle : List (PoolEvent Stream × ℕ)}
    (sound : RemotePool.Sound config peerAddrs state.pool)
    (member : token ∈ peerAddrs.map Prod.fst)
    (warming : ∀ label ∈ cycle, Warming label.1)
    (ran : machine.run state ((.wake, time) :: cycle) = some final) :
    Dialling config peerAddrs token (state.pool.idleOf token.index)
      (dialledFor token.index state ((.wake, time) :: cycle)) final := by
  rcases machine.run_cons_eq_some.1 ran with ⟨next, stepped, rest⟩
  rcases sound.registered token member with ⟨peer, found⟩
  have idle := state.pool.idleOf_of_some found
  have bounded := sound.bounded found
  have none :
      dialledBy token.index state.phase
        ((.wake, time) : PoolEvent Stream × ℕ) = [] := by
    cases state.phase <;> rfl
  have woken :
      Dialling config peerAddrs token (state.pool.idleOf token.index) []
        next := by
    rcases machine_step.1 stepped with ⟨_, pool, phase, reacted, rfl⟩
    have kept := sound_react sound reacted
    simp only [react, PoolState.wake] at reacted
    split at reacted
    · split at reacted
      · cases reacted
        refine ⟨kept, ?_, ?_, ?_⟩
        · rw [idle, List.append_nil, List.take_of_length_le bounded]
          exact found
        · intro _
          rw [List.append_nil]
          exact Nat.le_max_left _ _
        · intro current needed rest filling
          exact absurd filling (resume_ne_filling _ _ _ _ _)
      · cases reacted
    · cases reacted
  have grown := dialling_run warming woken rest
  rw [dialledFor_cons stepped, none]
  exact grown

/-- After any history and whatever the network answers, a cycle keeps all it
dials and leaves the next one nothing to dial exactly if the minimum is no
more than the size, and each token gets what it is short of. -/
theorem warmup_dials_iff
    (config : PoolConfig) (peerAddrs : List (Token × Addr)) (start : ℕ)
    (history : List (PoolEvent Stream × ℕ))
    (state final : PoolState Addr Stream)
    (ranHistory :
      machine.run (spawned config peerAddrs start) history = some state)
    (time : ℕ) (cycle : List (PoolEvent Stream × ℕ))
    (warming : ∀ label ∈ cycle, Warming label.1)
    (ranCycle :
      machine.run state ((.wake, time) :: cycle) = some final)
    (finished : ∃ since, final.phase = .sleeping since) :
    KeepsDialled state ((.wake, time) :: cycle) final ∧
        DialsNothing final ↔
      ∀ peer ∈ peerAddrs, config.poolMinIdle ≤ config.poolSize ∧
        config.poolMinIdle ≤
          (state.pool.idleOf peer.1.index).length +
            (dialledFor peer.1.index state
              ((.wake, time) :: cycle)).length := by
  have sound := sound_run ranHistory
  rcases finished with ⟨since, asleep⟩
  have soundFinal : RemotePool.Sound config peerAddrs final.pool :=
    sound_run (machine.run_append_eq_some.2 ⟨state, ranHistory, ranCycle⟩)
  rw [dialsNothing_iff asleep, KeepsDialled, sound.peerAddrs_eq,
    soundFinal.peerAddrs_eq, soundFinal.config_eq, ← forall₂_and]
  refine forall₂_congr fun peer member => ?_
  have dialling :=
    dialling_cycle sound (List.mem_map_of_mem member) warming ranCycle
  have left :
      final.pool.idleOf peer.1.index =
        (state.pool.idleOf peer.1.index ++
          dialledFor peer.1.index state ((.wake, time) :: cycle)).take
            config.poolSize :=
    final.pool.idleOf_of_some dialling.kept
  have bounded :
      (state.pool.idleOf peer.1.index).length ≤ config.poolSize := by
    rcases sound.registered peer.1 (List.mem_map_of_mem member) with
      ⟨found, there⟩
    rw [state.pool.idleOf_of_some there]
    exact sound.bounded there
  have within := dialling.within
  have whole :
      final.pool.idleOf peer.1.index =
          state.pool.idleOf peer.1.index ++
            dialledFor peer.1.index state ((.wake, time) :: cycle) ↔
        (state.pool.idleOf peer.1.index ++
          dialledFor peer.1.index state ((.wake, time) :: cycle)).length ≤
            config.poolSize := by
    rw [left]
    exact List.take_eq_self_iff _
  rw [whole, currentIdle_eq, left, List.length_take]
  rw [List.length_append] at within ⊢
  omega

/-! ## A minimum above the size -/

theorem step_dialled
    {state : PoolState Addr Stream} {token : Token} {needed : ℕ}
    {rest : List Token} {stream : Stream} {time : ℕ}
    (filling : state.phase = .filling token needed rest)
    (forward : state.now ≤ time) :
    machine.step state (.dialled stream, time) =
      some ⟨filled state.pool token stream time,
        if needed ≤ 1 then .resume rest time
        else .filling token (needed - 1) rest, time⟩ := by
  apply machine_step.2
  refine ⟨forward, _, _, ?_, rfl⟩
  rw [react, filling]
  rfl

/-- A token is dialled for until it is done. -/
theorem exists_fill_run
    (token : Token) (rest : List Token) (stream : Stream) (time needed : ℕ)
    {state : PoolState Addr Stream} (forward : state.now ≤ time)
    (filling : state.phase = .filling token (needed + 1) rest) :
    ∃ final : PoolState Addr Stream,
      machine.run state
          (List.replicate (needed + 1) (.dialled stream, time)) =
        some final ∧
      final.phase = .resume rest time ∧
      (dialledFor token.index state
        (List.replicate (needed + 1) (.dialled stream, time))).length =
          needed + 1 := by
  induction needed generalizing state with
  | zero =>
      have stepped := @step_dialled _ _ _ _ _ _ stream _ filling forward
      rw [if_pos (Nat.le_refl _)] at stepped
      refine ⟨_, machine.run_cons_eq_some.2 ⟨_, stepped, rfl⟩, rfl, ?_⟩
      rw [List.replicate_succ, dialledFor_cons stepped, filling,
        dialledBy_dialled, if_pos rfl]
      rfl
  | succ needed inductionHypothesis =>
      have stepped := @step_dialled _ _ _ _ _ _ stream _ filling forward
      rw [if_neg (by omega)] at stepped
      rcases @inductionHypothesis
          ⟨filled state.pool token stream time,
            .filling token (needed + 1) rest, time⟩ (Nat.le_refl _) rfl with
        ⟨final, ran, phase, count⟩
      refine ⟨final, machine.run_cons_eq_some.2 ⟨_, stepped, ran⟩, phase,
        ?_⟩
      rw [List.replicate_succ, dialledFor_cons stepped, filling,
        dialledBy_dialled, if_pos rfl, List.length_append]
      rw [Nat.add_sub_cancel, count, List.length_singleton]
      omega

/-- The first cycle over one empty sub-pool, with every dial a success. -/
def fillingCycle (config : PoolConfig) : List (PoolEvent ℕ × ℕ) :=
  (.snapshot, config.interval) ::
    List.replicate config.poolMinIdle (.dialled 0, config.interval)

/-- The cycle dials the minimum. -/
theorem exists_filling_cycle
    {config : PoolConfig} (some_idle : 0 < config.poolMinIdle) :
    ∃ final : PoolState Unit ℕ,
      machine.run (spawned config [(⟨0⟩, ())] 0)
          ((.wake, config.interval) :: fillingCycle config) = some final ∧
        final.phase = .sleeping config.interval ∧
        (dialledFor 0 (spawned config [((⟨0⟩ : Token), ())] 0)
          ((.wake, config.interval) :: fillingCycle config)).length =
            config.poolMinIdle := by
  have wakes :
      machine.step (spawned config [(⟨0⟩, ())] 0)
          ((.wake, config.interval) : PoolEvent ℕ × ℕ) =
        some ⟨RemotePool.new config [(⟨0⟩, ())], .visiting [⟨0⟩],
          config.interval⟩ := by
    apply machine_step.2
    refine ⟨Nat.zero_le _, _, _, ?_, rfl⟩
    exact if_pos (Nat.le_of_eq (Nat.zero_add _))
  have empty :
      (RemotePool.new config [((⟨0⟩ : Token), ())] :
        RemotePool Unit ℕ).currentIdle ⟨0⟩ = 0 :=
    rfl
  have counts := @step_snapshot_short _ _
    (⟨RemotePool.new config [((⟨0⟩ : Token), ())], .visiting [⟨0⟩],
      config.interval⟩ : PoolState Unit ℕ) ⟨0⟩ [] config.interval rfl
    (Nat.le_refl _) (by rw [empty]; exact some_idle)
  obtain ⟨needed, enough⟩ :=
    Nat.exists_eq_succ_of_ne_zero (Nat.ne_of_gt some_idle)
  dsimp only at counts
  rw [empty, Nat.sub_zero] at counts
  rcases @exists_fill_run _ _ ⟨0⟩ [] (0 : ℕ) config.interval needed
      ⟨RemotePool.new config [(⟨0⟩, ())],
        .filling ⟨0⟩ config.poolMinIdle [], config.interval⟩
      (Nat.le_refl _) (by rw [enough]) with ⟨final, ran, asleep, count⟩
  rw [← Nat.succ_eq_add_one, ← enough] at ran count
  refine ⟨final, ?_, asleep, ?_⟩
  · exact machine.run_cons_eq_some.2 ⟨_, wakes,
      machine.run_cons_eq_some.2 ⟨_, counts, ran⟩⟩
  · rw [dialledFor_cons wakes, fillingCycle, dialledFor_cons counts]
    exact count

/-- Where the minimum is above the size, the first cycle dials for nothing,
and the next one dials again. -/
theorem dialled_in_vain
    {config : PoolConfig} (above : config.poolSize < config.poolMinIdle) :
    ∃ final : PoolState Unit ℕ,
      machine.run (spawned config [(⟨0⟩, ())] 0)
          ((.wake, config.interval) :: fillingCycle config) = some final ∧
        final.phase = .sleeping config.interval ∧
        ¬ KeepsDialled (spawned config [(⟨0⟩, ())] 0)
          ((.wake, config.interval) :: fillingCycle config) final ∧
        ¬ DialsNothing final := by
  rcases exists_filling_cycle (Nat.zero_lt_of_lt above) with
    ⟨final, ranCycle, asleep, dialled⟩
  have warming : ∀ label ∈ fillingCycle config, Warming label.1 := by
    refine List.forall_mem_cons.2 ⟨.inl rfl, ?_⟩
    intro label member
    rw [List.eq_of_mem_replicate member]
    exact .inr (.inr ⟨0, rfl⟩)
  have known : ((⟨0⟩ : Token), ()) ∈ [((⟨0⟩ : Token), ())] :=
    List.mem_cons_self
  have dialling :=
    dialling_cycle (RemotePool.sound_new config [((⟨0⟩ : Token), ())])
      (List.mem_map_of_mem known) warming ranCycle
  have few : (final.pool.idleOf 0).length ≤ config.poolSize := by
    rw [final.pool.idleOf_of_some dialling.kept]
    exact List.length_take_le _ _
  refine ⟨final, ranCycle, asleep, ?_, ?_⟩
  · intro keeps
    have all := congrArg List.length (keeps _ known)
    rw [List.length_append, dialled] at all
    change (final.pool.idleOf 0).length = _ + _ at all
    omega
  · rw [dialsNothing_iff asleep, dialling.sound.peerAddrs_eq,
      dialling.sound.config_eq]
    intro full
    have reached := full _ known
    rw [currentIdle_eq] at reached
    exact absurd (Nat.le_trans reached few) (Nat.not_le.2 above)

/-- An endpoint that asks for 1025 idle connections, where a sub-pool keeps
1024: one is dialled and dropped, and the next cycle dials again. -/
theorem warmup_dials_in_vain :
    ∃ final : PoolState Unit ℕ,
      machine.run (spawned (.ofEndpoint (some 1025)) [(⟨0⟩, ())] 0)
          ((.wake, fromSecs 10) ::
            fillingCycle (.ofEndpoint (some 1025))) = some final ∧
        final.phase = .sleeping (fromSecs 10) ∧
        ¬ KeepsDialled (spawned (.ofEndpoint (some 1025)) [(⟨0⟩, ())] 0)
          ((.wake, fromSecs 10) ::
            fillingCycle (.ofEndpoint (some 1025))) final ∧
        ¬ DialsNothing final :=
  @dialled_in_vain (.ofEndpoint (some 1025)) (by decide)

/-- Within the size the dials of the first cycle are kept. -/
theorem warmup_dials_first_cycle :
    ∃ final : PoolState Unit ℕ,
      machine.run (spawned singleIdle [(⟨0⟩, ())] 0)
          [(.wake, fromSecs 10), (.snapshot, fromSecs 10),
            (.dialled 0, fromSecs 10)] = some final ∧
        DialsNothing final := by
  refine ⟨_, rfl, ?_⟩
  refine ((warmup_dials_iff singleIdle [(⟨0⟩, ())] 0 [] _ _ rfl
    (fromSecs 10) [(.snapshot, fromSecs 10), (.dialled 0, fromSecs 10)]
    ?_ rfl ⟨_, rfl⟩).2 ?_).2
  · refine List.forall_mem_cons.2 ⟨.inl rfl, ?_⟩
    intro label member
    rw [List.mem_singleton.1 member]
    exact .inr (.inr ⟨0, rfl⟩)
  · intro peer member
    rw [List.mem_singleton.1 member]
    decide

end PoolState

end ByteHub.Core
