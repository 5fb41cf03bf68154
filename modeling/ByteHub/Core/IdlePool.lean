import Mathlib.Data.List.Infix
import ByteHub.Core.PoolWarmup

/-!
# Idle connections and their owners

A stream has one owner: the pool, or one of its users.  The warmup task makes
streams and gives them to the pool, users get streams from the pool or make
their own, and give them back or close them.  Whatever they do in turn, a
sub-pool stays within its size and in the order of creation, every stream is
in one place, and a pop finds the youngest connection that can be used.
-/

namespace ByteHub.Core

open ByteHub.Lb
open ByteHub.Library

variable {Addr Stream : Type}

/-! ## Popping -/

/-- The connection is alive and no older than the timeout. -/
def IdleConn.usable
    (timeout now : ℕ) (alive : Stream → Bool) (conn : IdleConn Stream) :
    Bool :=
  !conn.expired timeout now && alive conn.stream

theorem usable_idleTimeout
    (config : PoolConfig) (now : ℕ) (alive : Stream → Bool) :
    IdleConn.usable config.idleTimeout now alive = fun conn =>
      now - conn.createdAt ≤ fromSecs config.poolIdleTimeoutSecs &&
        alive conn.stream := by
  funext conn
  rw [IdleConn.usable, IdleConn.expired, ← decide_not,
    PoolConfig.idleTimeout]
  simp only [Nat.not_lt]

/-- The idle connections of a token, oldest first. -/
def RemotePool.idleOf
    (pool : RemotePool Addr Stream) (key : UInt8) :
    List (IdleConn Stream) :=
  match pool.pools key with
  | none => []
  | some peer => peer.idle

/-- A pop hands out the youngest usable connection, unless there is none,
and drops unusable ones only. -/
structure PopsYoungest
    (usable : IdleConn Stream → Bool) (before after : List (IdleConn Stream))
    (popped : Option Stream) : Prop where
  none_iff : popped = none ↔ ∀ conn ∈ before, usable conn = false
  emptied : popped = none → after = []
  youngest : ∀ {stream : Stream}, popped = some stream →
    ∃ (conn : IdleConn Stream) (dropped : List (IdleConn Stream)),
      before = after ++ conn :: dropped ∧ conn.stream = stream ∧
        usable conn = true ∧ (∀ other ∈ dropped, usable other = false) ∧
        ∀ other ∈ before, usable other = true →
          other.createdAt ≤ conn.createdAt

section Pop

variable {timeout now : ℕ} {alive : Stream → Bool}

/-- The loop stops at the first usable connection. -/
theorem PeerPool.popLoop_cases (conns : List (IdleConn Stream)) :
    (∃ younger conn older, conns = younger ++ conn :: older ∧
        (∀ other ∈ younger, other.usable timeout now alive = false) ∧
        conn.usable timeout now alive = true ∧
        PeerPool.popLoop timeout now alive conns =
          (some conn.stream, older)) ∨
      (∀ conn ∈ conns, conn.usable timeout now alive = false) ∧
        PeerPool.popLoop timeout now alive conns = (none, []) := by
  induction conns with
  | nil => exact .inr ⟨List.forall_mem_nil _, rfl⟩
  | cons conn older inductionHypothesis =>
      cases fit : conn.usable timeout now alive with
      | true =>
          left
          refine ⟨[], conn, older, rfl, List.forall_mem_nil _, fit, ?_⟩
          rw [IdleConn.usable, Bool.and_eq_true, Bool.not_eq_true'] at fit
          rw [PeerPool.popLoop, fit.1, if_neg Bool.false_ne_true,
            if_pos fit.2]
      | false =>
          have passed :
              PeerPool.popLoop timeout now alive (conn :: older) =
                PeerPool.popLoop timeout now alive older := by
            rw [IdleConn.usable, Bool.and_eq_false_iff,
              Bool.not_eq_false'] at fit
            rw [PeerPool.popLoop]
            split
            · rfl
            · next young =>
              rcases fit with old | dead
              · exact absurd old young
              · rw [dead, if_neg Bool.false_ne_true]
          rw [passed]
          rcases inductionHypothesis with
            ⟨younger, found, rest, rfl, unfit, usable, popped⟩ |
            ⟨unfit, popped⟩
          · exact .inl ⟨conn :: younger, found, rest, rfl,
              List.forall_mem_cons.2 ⟨fit, unfit⟩, usable, popped⟩
          · exact .inr ⟨List.forall_mem_cons.2 ⟨fit, unfit⟩, popped⟩

/-- In a sub-pool that is in order the loop finds the youngest. -/
theorem PeerPool.popHealthy_youngest
    {pool : PeerPool Stream}
    (ordered : pool.idle.Pairwise fun older younger =>
      older.createdAt ≤ younger.createdAt) :
    PopsYoungest (IdleConn.usable timeout now alive) pool.idle
      (pool.popHealthy timeout now alive).2.idle
      (pool.popHealthy timeout now alive).1 := by
  have reversed (conn : IdleConn Stream) :
      conn ∈ pool.idle ↔ conn ∈ pool.idle.reverse :=
    List.mem_reverse.symm
  rw [PeerPool.popHealthy]
  rcases PeerPool.popLoop_cases pool.idle.reverse with
    ⟨younger, conn, older, split, unfit, usable, popped⟩ | ⟨unfit, popped⟩
  · have inside : pool.idle = older.reverse ++ conn :: younger.reverse := by
      rw [← List.reverse_reverse pool.idle, split]
      simp
    rw [popped]
    dsimp only
    constructor
    · constructor
      · rintro ⟨⟩
      · intro none
        have unusable := none conn (by rw [inside]; simp)
        rw [usable] at unusable
        cases unusable
    · rintro ⟨⟩
    · rintro stream ⟨⟩
      refine ⟨conn, younger.reverse, inside, rfl, usable, ?_, ?_⟩
      · intro other member
        exact unfit other (List.mem_reverse.1 member)
      · intro other member fit
        rw [inside] at member ordered
        rcases List.mem_append.1 member with before | later
        · exact (List.pairwise_append.1 ordered).2.2 other before conn
            List.mem_cons_self
        · rcases List.mem_cons.1 later with rfl | dropped
          · exact Nat.le_refl _
          · rw [unfit other (List.mem_reverse.1 dropped)] at fit
            cases fit
  · rw [popped]
    dsimp only
    constructor
    · refine iff_of_true rfl ?_
      intro conn member
      exact unfit conn ((reversed conn).1 member)
    · intro _
      rfl
    · rintro stream ⟨⟩

end Pop

/-! ## What an access changes -/

namespace RemotePool

variable (pool : RemotePool Addr Stream)

theorem idleOf_of_some
    {key : UInt8} {peer : PeerPool Stream}
    (found : pool.pools key = some peer) : pool.idleOf key = peer.idle := by
  rw [idleOf, found]

theorem idleOf_update_self
    {token : Token} (change : PeerPool Stream → PeerPool Stream)
    {peer : PeerPool Stream}
    (found : pool.pools token.index = some peer) :
    (pool.update token change).idleOf token.index = (change peer).idle := by
  apply idleOf_of_some
  rw [update_pools, if_pos rfl, found]
  rfl

theorem idleOf_update_other
    {token : Token} (change : PeerPool Stream → PeerPool Stream)
    {key : UInt8} (other : key ≠ token.index) :
    (pool.update token change).idleOf key = pool.idleOf key := by
  rw [idleOf, idleOf, update_pools, if_neg other]

theorem update_of_none
    {token : Token} (change : PeerPool Stream → PeerPool Stream)
    (missing : pool.pools token.index = none) :
    pool.update token change = pool := by
  have same (key : UInt8) :
      (pool.update token change).pools key = pool.pools key := by
    rw [update_pools]
    split
    · next here =>
      rw [here, missing]
      rfl
    · rfl
  calc
    pool.update token change =
        { pool with pools := (pool.update token change).pools } := rfl
    _ = pool := by rw [funext same]

/-- A pop touches one sub-pool, and finds the youngest there if it is in
order. -/
theorem popIdle_youngest
    (token : Token) (now : ℕ) (alive : Stream → Bool)
    (ordered : (pool.idleOf token.index).Pairwise fun older younger =>
      older.createdAt ≤ younger.createdAt) :
    PopsYoungest (IdleConn.usable pool.config.idleTimeout now alive)
      (pool.idleOf token.index)
      ((pool.popIdle token now alive).2.idleOf token.index)
      (pool.popIdle token now alive).1 := by
  cases found : pool.pools token.index with
  | none =>
      have empty : pool.idleOf token.index = [] := by
        rw [idleOf, found]
      simp only [popIdle, found, empty]
      constructor
      · exact iff_of_true rfl (List.forall_mem_nil _)
      · intro _
        rfl
      · rintro stream ⟨⟩
  | some peer =>
      have after := pool.idleOf_update_self
        (fun peer =>
          (peer.popHealthy pool.config.idleTimeout now alive).2) found
      rw [pool.idleOf_of_some found] at ordered ⊢
      simp only [popIdle, found, after]
      exact PeerPool.popHealthy_youngest ordered

theorem popIdle_other
    {token : Token} (now : ℕ) (alive : Stream → Bool) {key : UInt8}
    (other : key ≠ token.index) :
    (pool.popIdle token now alive).2.idleOf key = pool.idleOf key := by
  rw [popIdle]
  split
  · rfl
  · exact pool.idleOf_update_other _ other

end RemotePool

/-- The sub-pools are what they were, but for connections from the young end
that are gone. -/
def Shrinks (before after : RemotePool Addr Stream) : Prop :=
  ∀ key, after.idleOf key <+: before.idleOf key

/-- One sub-pool has a new youngest connection. -/
def Gains
    (before after : RemotePool Addr Stream) (conn : IdleConn Stream) :
    Prop :=
  ∃ token : Token, ∀ key, after.idleOf key =
    if key = token.index then before.idleOf key ++ [conn]
    else before.idleOf key

section Changes

variable {pool : RemotePool Addr Stream}

theorem shrinks_refl (pool : RemotePool Addr Stream) :
    Shrinks pool pool :=
  fun _ => List.prefix_rfl

/-- Whatever a pop drops is at the young end. -/
theorem PeerPool.popHealthy_prefix
    (pool : PeerPool Stream) (timeout now : ℕ) (alive : Stream → Bool) :
    (pool.popHealthy timeout now alive).2.idle <+: pool.idle := by
  rw [PeerPool.popHealthy]
  rcases @PeerPool.popLoop_cases _ timeout now alive pool.idle.reverse with
    ⟨younger, conn, older, split, _, _, popped⟩ | ⟨_, popped⟩
  · rw [popped, ← List.reverse_reverse pool.idle, split]
    refine ⟨conn :: younger.reverse, ?_⟩
    simp
  · rw [popped]
    exact List.nil_prefix

theorem shrinks_popIdle
    (token : Token) (now : ℕ) (alive : Stream → Bool) :
    Shrinks pool (pool.popIdle token now alive).2 := by
  intro key
  by_cases here : key = token.index
  · subst here
    cases found : pool.pools token.index with
    | none =>
        simp only [RemotePool.popIdle, found]
        exact List.prefix_rfl
    | some peer =>
        simp only [RemotePool.popIdle, found,
          pool.idleOf_update_self _ found, pool.idleOf_of_some found]
        exact peer.popHealthy_prefix _ _ _
  · rw [pool.popIdle_other now alive here]

/-- A change that does nothing, or adds one connection, does so to the
pool. -/
theorem shrinks_or_gains
    (token : Token) (conn : IdleConn Stream)
    {change : PeerPool Stream → PeerPool Stream}
    (pushes : ∀ peer : PeerPool Stream,
      change peer = peer ∨ change peer = ⟨peer.idle ++ [conn]⟩) :
    Shrinks pool (pool.update token change) ∨
      Gains pool (pool.update token change) conn := by
  cases found : pool.pools token.index with
  | none =>
      rw [pool.update_of_none change found]
      exact .inl (shrinks_refl pool)
  | some peer =>
      have atToken := pool.idleOf_update_self change found
      have idle := pool.idleOf_of_some found
      rcases pushes peer with full | room
      · left
        intro key
        by_cases here : key = token.index
        · subst here
          rw [atToken, full, idle]
        · rw [pool.idleOf_update_other change here]
      · right
        refine ⟨token, ?_⟩
        intro key
        split
        · next here =>
          subst here
          rw [atToken, room, idle]
        · next other => exact pool.idleOf_update_other change other

theorem PeerPool.push_cases
    (peer : PeerPool Stream) (stream : Stream) (maxSize now : ℕ) :
    peer.push stream maxSize now = peer ∨
      peer.push stream maxSize now = ⟨peer.idle ++ [⟨stream, now⟩]⟩ := by
  rw [PeerPool.push]
  split
  · exact .inr rfl
  · exact .inl rfl

/-- The events that may give a stream to the pool. -/
def PoolEvent.gives : PoolEvent Stream → Option Stream
  | .dialled stream => some stream
  | .returnConn _ stream _ _ _ => some stream
  | _ => none

/-- What an event can do to the sub-pools. -/
theorem shrinks_or_gains_of_react
    {after : RemotePool Addr Stream} {phase next : WarmupPhase}
    {event : PoolEvent Stream} {now : ℕ}
    (reacted :
      PoolState.react pool phase event now = some (after, next)) :
    Shrinks pool after ∨
      ∃ stream, event.gives = some stream ∧
        Gains pool after ⟨stream, now⟩ := by
  rcases PoolState.react_pool reacted with
    rfl | ⟨token, stream, rfl, rfl⟩ | ⟨token, alive, rfl, rfl⟩ |
    ⟨token, stream, relayOk, obfs, alive, rfl, rfl⟩
  · exact .inl (shrinks_refl after)
  · refine (shrinks_or_gains token ⟨stream, now⟩ ?_).imp_right
      fun gained => ⟨stream, rfl, gained⟩
    intro peer
    split
    · exact peer.push_cases stream _ now
    · exact .inl rfl
  · exact .inl (shrinks_popIdle token now alive)
  · rw [RemotePool.returnConn]
    split
    · refine (shrinks_or_gains token ⟨stream, now⟩ ?_).imp_right
        fun gained => ⟨stream, rfl, gained⟩
      intro peer
      exact peer.push_cases stream _ now
    · exact .inl (shrinks_refl pool)

end Changes

/-! ## Owners -/

/-- The pool, the streams there have been so far, and those its users
hold. -/
structure OwnedPool (Addr Stream : Type) where
  state : PoolState Addr Stream
  made : List Stream
  outside : List Stream

/-- An access to the pool, or what a user does with a stream of its own: it
dials one, or closes one. -/
inductive OwnerEvent (Stream : Type) where
  | pool (event : PoolEvent Stream)
  | connected (stream : Stream)
  | closed (stream : Stream)

namespace OwnedPool

def spawned
    (config : PoolConfig) (peerAddrs : List (Token × Addr)) (now : ℕ) :
    OwnedPool Addr Stream where
  state := PoolState.spawned config peerAddrs now
  made := []
  outside := []

variable [DecidableEq Stream]

/-- A dialled stream is a new one, and a user gives back what it holds. -/
def allows (owned : OwnedPool Addr Stream) : PoolEvent Stream → Bool
  | .dialled stream => stream ∉ owned.made
  | .returnConn _ stream _ _ _ => stream ∈ owned.outside
  | _ => true

/-- What users hold after an access. -/
def outsideAfter
    (owned : OwnedPool Addr Stream) (event : PoolEvent Stream) (now : ℕ) :
    List Stream :=
  match event with
  | .popIdle token alive =>
      (owned.state.pool.popIdle token now alive).1.toList ++ owned.outside
  | .returnConn _ stream _ _ _ => owned.outside.erase stream
  | _ => owned.outside

/-- The streams there have been after an access. -/
def madeAfter
    (owned : OwnedPool Addr Stream) (event : PoolEvent Stream) :
    List Stream :=
  match event with
  | .dialled stream => stream :: owned.made
  | _ => owned.made

/-- The pool with its owners as a machine; a label comes with its time. -/
def machine :
    Machine (OwnedPool Addr Stream) (OwnerEvent Stream × ℕ) where
  step owned label :=
    match label.1 with
    | .pool event =>
        if owned.allows event then
          (PoolState.machine.step owned.state (event, label.2)).map
            fun state =>
              { state := state
                made := owned.madeAfter event
                outside := owned.outsideAfter event label.2 }
        else none
    | .connected stream =>
        if owned.state.now ≤ label.2 ∧ stream ∉ owned.made then
          some
            { state := { owned.state with now := label.2 }
              made := stream :: owned.made
              outside := stream :: owned.outside }
        else none
    | .closed stream =>
        if owned.state.now ≤ label.2 ∧ stream ∈ owned.outside then
          some
            { state := { owned.state with now := label.2 }
              made := owned.made
              outside := owned.outside.erase stream }
        else none

end OwnedPool

/-! ## The invariant -/

/-- The sub-pools are in order, and every stream there is has one place. -/
structure Tidy
    (pool : RemotePool Addr Stream) (now : ℕ) (made outside : List Stream) :
    Prop where
  ordered : ∀ key, (pool.idleOf key).Pairwise
    fun older younger => older.createdAt ≤ younger.createdAt
  past : ∀ key, ∀ conn ∈ pool.idleOf key, conn.createdAt ≤ now
  /-- A stream is at one place of one sub-pool. -/
  once : ∀ {key other : UInt8} {i j : ℕ} {conn same : IdleConn Stream},
    (pool.idleOf key)[i]? = some conn →
      (pool.idleOf other)[j]? = some same →
        conn.stream = same.stream → key = other ∧ i = j
  /-- The pool and its users hold different streams. -/
  inside : ∀ key, ∀ conn ∈ pool.idleOf key,
    conn.stream ∈ made ∧ conn.stream ∉ outside
  outside_made : ∀ stream ∈ outside, stream ∈ made
  outside_nodup : outside.Nodup

section Tidy

variable {pool after : RemotePool Addr Stream} {now later : ℕ}
variable {made outside : List Stream}

private theorem getElem?_of_isPrefix
    {α : Type} {first whole : List α} (isPrefix : first <+: whole) {i : ℕ}
    {a : α} (found : first[i]? = some a) : whole[i]? = some a := by
  rcases isPrefix with ⟨rest, rfl⟩
  rw [List.getElem?_append_left (List.getElem?_eq_some_iff.1 found).1]
  exact found

/-- A connection of the larger pool was there, or is the new one. -/
theorem gains_getElem?
    {conn found : IdleConn Stream} {token : Token} {key : UInt8} {i : ℕ}
    (gains : ∀ key, after.idleOf key =
      if key = token.index then pool.idleOf key ++ [conn]
      else pool.idleOf key)
    (there : (after.idleOf key)[i]? = some found) :
    (pool.idleOf key)[i]? = some found ∨
      key = token.index ∧ i = (pool.idleOf key).length ∧ found = conn := by
  rw [gains] at there
  split at there
  · next here =>
    rcases Nat.lt_or_ge i (pool.idleOf key).length with old | new
    · rw [List.getElem?_append_left old] at there
      exact .inl there
    · rw [List.getElem?_append_right new,
        List.getElem?_singleton] at there
      split at there
      · next last =>
        cases there
        exact .inr ⟨here, by omega, rfl⟩
      · cases there
  · exact .inl there

/-- Connections may go, streams may be made, and users may hold others. -/
theorem Tidy.shrinks
    (tidy : Tidy pool now made outside) (shrinks : Shrinks pool after)
    (forward : now ≤ later) {made' outside' : List Stream}
    (more : ∀ stream ∈ made, stream ∈ made')
    (apart : ∀ key, ∀ conn ∈ after.idleOf key, conn.stream ∉ outside')
    (known : ∀ stream ∈ outside', stream ∈ made')
    (nodup : outside'.Nodup) : Tidy after later made' outside' where
  ordered key := (tidy.ordered key).sublist (shrinks key).sublist
  past key conn member :=
    Nat.le_trans (tidy.past key conn ((shrinks key).mem member)) forward
  once found found' same :=
    tidy.once (getElem?_of_isPrefix (shrinks _) found)
      (getElem?_of_isPrefix (shrinks _) found') same
  inside key conn member :=
    ⟨more _ (tidy.inside key conn ((shrinks key).mem member)).1,
      apart key conn member⟩
  outside_made := known
  outside_nodup := nodup

/-- Connections may go, and users may close what they hold. -/
theorem Tidy.releases
    (tidy : Tidy pool now made outside) (shrinks : Shrinks pool after)
    (forward : now ≤ later) {made' outside' : List Stream}
    (more : ∀ stream ∈ made, stream ∈ made')
    (fewer : ∀ stream ∈ outside', stream ∈ outside)
    (nodup : outside'.Nodup) : Tidy after later made' outside' := by
  apply tidy.shrinks shrinks forward more
  · intro key conn member held
    exact (tidy.inside key conn ((shrinks key).mem member)).2
      (fewer _ held)
  · intro stream held
    exact more stream (tidy.outside_made stream (fewer stream held))
  · exact nodup

/-- A user may take a stream that nobody holds. -/
theorem Tidy.takes
    {stream : Stream}
    (tidy : Tidy pool now made outside) (shrinks : Shrinks pool after)
    (forward : now ≤ later) {made' : List Stream}
    (more : ∀ stream ∈ made, stream ∈ made') (known : stream ∈ made')
    (nobodys : stream ∉ outside)
    (gone : ∀ key, ∀ conn ∈ after.idleOf key, conn.stream ≠ stream) :
    Tidy after later made' (stream :: outside) := by
  apply tidy.shrinks shrinks forward more
  · intro key conn member held
    rcases List.mem_cons.1 held with here | there
    · exact gone key conn member here
    · exact (tidy.inside key conn ((shrinks key).mem member)).2 there
  · refine List.forall_mem_cons.2 ⟨known, ?_⟩
    intro other held
    exact more other (tidy.outside_made other held)
  · exact List.nodup_cons.2 ⟨nobodys, tidy.outside_nodup⟩

/-- A stream that is not in the pool may come to be its youngest. -/
theorem Tidy.gains
    {conn : IdleConn Stream}
    (tidy : Tidy pool now made outside) (gains : Gains pool after conn)
    (forward : now ≤ later) (created : conn.createdAt = later)
    {made' outside' : List Stream}
    (more : ∀ stream ∈ made, stream ∈ made')
    (fewer : ∀ stream ∈ outside', stream ∈ outside)
    (new : ∀ key, ∀ other ∈ pool.idleOf key, other.stream ≠ conn.stream)
    (known : conn.stream ∈ made') (given : conn.stream ∉ outside')
    (nodup : outside'.Nodup) : Tidy after later made' outside' := by
  rcases gains with ⟨token, gains⟩
  have cases_of_mem {key : UInt8} {found : IdleConn Stream}
      (member : found ∈ after.idleOf key) :
      found ∈ pool.idleOf key ∨ found = conn := by
    rcases List.mem_iff_getElem?.1 member with ⟨i, there⟩
    rcases gains_getElem? gains there with old | ⟨_, _, rfl⟩
    · exact .inl (List.mem_of_getElem? old)
    · exact .inr rfl
  constructor
  · intro key
    rw [gains]
    split
    · refine List.pairwise_append.2
        ⟨tidy.ordered key, List.pairwise_singleton _ _, ?_⟩
      intro older member younger here
      rw [List.mem_singleton.1 here, created]
      exact Nat.le_trans (tidy.past key older member) forward
    · exact tidy.ordered key
  · intro key found member
    rcases cases_of_mem member with old | rfl
    · exact Nat.le_trans (tidy.past key found old) forward
    · exact Nat.le_of_eq created
  · intro key other i j found same there there' equal
    rcases gains_getElem? gains there with old | ⟨here, last, rfl⟩
    · rcases gains_getElem? gains there' with old' | ⟨_, _, rfl⟩
      · exact tidy.once old old' equal
      · exact absurd equal (new key found (List.mem_of_getElem? old))
    · rcases gains_getElem? gains there' with old' | ⟨here', last', rfl⟩
      · exact absurd equal.symm
          (new other same (List.mem_of_getElem? old'))
      · rw [here] at last ⊢
        rw [here'] at last' ⊢
        exact ⟨rfl, last.trans last'.symm⟩
  · intro key found member
    rcases cases_of_mem member with old | rfl
    · have before := tidy.inside key found old
      exact ⟨more _ before.1, fun held => before.2 (fewer _ held)⟩
    · exact ⟨known, given⟩
  · intro stream held
    exact more stream (tidy.outside_made stream (fewer stream held))
  · exact nodup

/-- A popped stream was nobody's, and is no longer in the pool. -/
theorem Tidy.popped
    (tidy : Tidy pool now made outside) {token : Token} {time : ℕ}
    {alive : Stream → Bool} {stream : Stream}
    (popped : (pool.popIdle token time alive).1 = some stream) :
    stream ∈ made ∧ stream ∉ outside ∧
      ∀ key, ∀ conn ∈ (pool.popIdle token time alive).2.idleOf key,
        conn.stream ≠ stream := by
  rcases (pool.popIdle_youngest token time alive
      (tidy.ordered token.index)).youngest popped with
    ⟨found, dropped, split, rfl, _⟩
  have here :
      (pool.idleOf token.index)[((pool.popIdle token time alive).2.idleOf
        token.index).length]? = some found := by
    rw [split, List.getElem?_append_right (Nat.le_refl _), Nat.sub_self]
    rfl
  have inside := tidy.inside token.index found (List.mem_of_getElem? here)
  refine ⟨inside.1, inside.2, ?_⟩
  intro key conn member equal
  rcases List.mem_iff_getElem?.1 member with ⟨i, there⟩
  have before :=
    getElem?_of_isPrefix (shrinks_popIdle token time alive key) there
  rcases tidy.once before here equal with ⟨rfl, rfl⟩
  rw [List.getElem?_eq_none (Nat.le_refl _)] at there
  cases there

end Tidy

namespace OwnedPool

/-- The pool is sound and tidy. -/
structure Inv
    (config : PoolConfig) (peerAddrs : List (Token × Addr))
    (owned : OwnedPool Addr Stream) : Prop where
  sound : RemotePool.Sound config peerAddrs owned.state.pool
  tidy : Tidy owned.state.pool owned.state.now owned.made owned.outside

theorem inv_spawned
    (config : PoolConfig) (peerAddrs : List (Token × Addr)) (now : ℕ) :
    Inv config peerAddrs
      (spawned config peerAddrs now : OwnedPool Addr Stream) where
  sound := RemotePool.sound_new config peerAddrs
  tidy := by
    have empty (key : UInt8) :
        (spawned config peerAddrs now :
          OwnedPool Addr Stream).state.pool.idleOf key = [] := by
      change (RemotePool.new config peerAddrs :
        RemotePool Addr Stream).idleOf key = []
      rw [RemotePool.idleOf, RemotePool.new]
      dsimp only
      by_cases known : (peerAddrs.any fun peer => peer.1.index = key) = true
      · rw [if_pos known]
      · rw [if_neg known]
    constructor
    · intro key
      rw [empty]
      exact List.Pairwise.nil
    · intro key conn member
      rw [empty] at member
      cases member
    · intro key other i j conn same there
      rw [empty] at there
      cases there
    · intro key conn member
      rw [empty] at member
      cases member
    · exact List.forall_mem_nil _
    · exact List.nodup_nil

variable [DecidableEq Stream]
variable {config : PoolConfig} {peerAddrs : List (Token × Addr)}

section Access

variable {owned : OwnedPool Addr Stream}
variable {pool : RemotePool Addr Stream} {phase : WarmupPhase} {time : ℕ}

theorem tidy_popIdle
    (tidy : Tidy owned.state.pool owned.state.now owned.made owned.outside)
    (forward : owned.state.now ≤ time) (token : Token)
    (alive : Stream → Bool) :
    Tidy (owned.state.pool.popIdle token time alive).2 time owned.made
      (owned.outsideAfter (.popIdle token alive) time) := by
  have shrinks := @shrinks_popIdle _ _ owned.state.pool token time alive
  rw [outsideAfter]
  cases popped : (owned.state.pool.popIdle token time alive).1 with
  | none =>
      exact tidy.releases shrinks forward (fun _ member => member)
        (fun _ held => held) tidy.outside_nodup
  | some stream =>
      rcases tidy.popped popped with ⟨known, nobodys, gone⟩
      exact tidy.takes shrinks forward (fun _ member => member) known
        nobodys gone

omit [DecidableEq Stream] in
theorem tidy_dialled
    {stream : Stream}
    (tidy : Tidy owned.state.pool owned.state.now owned.made owned.outside)
    (new : stream ∉ owned.made) (forward : owned.state.now ≤ time)
    (reacted :
      PoolState.react owned.state.pool owned.state.phase
        (.dialled stream) time = some (pool, phase)) :
    Tidy pool time (stream :: owned.made) owned.outside := by
  rcases shrinks_or_gains_of_react reacted with
    shrinks | ⟨given, gives, gains⟩
  · exact tidy.releases shrinks forward
      (fun _ member => List.mem_cons_of_mem _ member)
      (fun _ held => held) tidy.outside_nodup
  · cases gives
    apply tidy.gains gains forward rfl
    · intro other member
      exact List.mem_cons_of_mem _ member
    · intro other held
      exact held
    · rintro key other member rfl
      exact new (tidy.inside key other member).1
    · exact List.mem_cons_self
    · intro held
      exact new (tidy.outside_made stream held)
    · exact tidy.outside_nodup

theorem tidy_returnConn
    {token : Token} {stream : Stream} {relayOk alive : Bool}
    {obfs : String}
    (tidy : Tidy owned.state.pool owned.state.now owned.made owned.outside)
    (held : stream ∈ owned.outside) (forward : owned.state.now ≤ time)
    (reacted :
      PoolState.react owned.state.pool owned.state.phase
        (.returnConn token stream relayOk obfs alive) time =
          some (pool, phase)) :
    Tidy pool time owned.made (owned.outside.erase stream) := by
  have fewer : ∀ other ∈ owned.outside.erase stream,
      other ∈ owned.outside :=
    fun other => List.mem_of_mem_erase
  rcases shrinks_or_gains_of_react reacted with
    shrinks | ⟨given, gives, gains⟩
  · exact tidy.releases shrinks forward (fun _ member => member) fewer
      (tidy.outside_nodup.erase stream)
  · cases gives
    apply tidy.gains gains forward rfl
    · intro other member
      exact member
    · exact fewer
    · rintro key other member rfl
      exact (tidy.inside key other member).2 held
    · exact tidy.outside_made stream held
    · exact tidy.outside_nodup.not_mem_erase
    · exact tidy.outside_nodup.erase stream

/-- Every access keeps the pool tidy. -/
theorem tidy_access
    {event : PoolEvent Stream}
    (tidy : Tidy owned.state.pool owned.state.now owned.made owned.outside)
    (allowed : owned.allows event = true)
    (forward : owned.state.now ≤ time)
    (reacted :
      PoolState.react owned.state.pool owned.state.phase event time =
        some (pool, phase)) :
    Tidy pool time (owned.madeAfter event)
      (owned.outsideAfter event time) := by
  cases event with
  | wake | cancel | snapshot | dialFailed =>
      rcases shrinks_or_gains_of_react reacted with
        shrinks | ⟨stream, gives, _⟩
      · exact tidy.releases shrinks forward (fun _ member => member)
          (fun _ held => held) tidy.outside_nodup
      · cases gives
  | popIdle token alive =>
      cases reacted
      exact tidy_popIdle tidy forward token alive
  | dialled stream =>
      exact tidy_dialled tidy (of_decide_eq_true allowed) forward reacted
  | returnConn token stream relayOk obfs alive =>
      exact tidy_returnConn tidy (of_decide_eq_true allowed) forward reacted

end Access

theorem inv_step
    {owned next : OwnedPool Addr Stream} {label : OwnerEvent Stream × ℕ}
    (inv : Inv config peerAddrs owned)
    (stepped : machine.step owned label = some next) :
    Inv config peerAddrs next := by
  rcases label with ⟨event, time⟩
  cases event with
  | pool event =>
      simp only [machine] at stepped
      split at stepped
      · next allowed =>
        rcases Option.map_eq_some_iff.1 stepped with ⟨state, moved, rfl⟩
        rcases PoolState.machine_step.1 moved with
          ⟨forward, pool, phase, reacted, rfl⟩
        exact
          { sound := PoolState.sound_react inv.sound reacted
            tidy := tidy_access inv.tidy allowed forward reacted }
      · cases stepped
  | connected stream =>
      simp only [machine] at stepped
      split at stepped
      · next fresh =>
        cases stepped
        refine { sound := inv.sound, tidy := ?_ }
        apply inv.tidy.takes (shrinks_refl _) fresh.1
        · intro other member
          exact List.mem_cons_of_mem _ member
        · exact List.mem_cons_self
        · intro held
          exact fresh.2 (inv.tidy.outside_made stream held)
        · rintro key conn member rfl
          exact fresh.2 (inv.tidy.inside key conn member).1
      · cases stepped
  | closed stream =>
      simp only [machine] at stepped
      split at stepped
      · next held =>
        cases stepped
        refine { sound := inv.sound, tidy := ?_ }
        apply inv.tidy.releases (shrinks_refl _) held.1
        · intro other member
          exact member
        · intro other later
          exact List.mem_of_mem_erase later
        · exact inv.tidy.outside_nodup.erase stream
      · cases stepped

end OwnedPool

/-- In every state the pool and its users can reach, the sub-pools are within
their size, in order and without a stream that is anywhere else, and the next
pop takes the youngest connection that is usable then. -/
theorem idlePool_invariant [DecidableEq Stream]
    (config : PoolConfig) (peerAddrs : List (Token × Addr)) (start : ℕ)
    (history : List (OwnerEvent Stream × ℕ))
    (final : OwnedPool Addr Stream)
    (ran : OwnedPool.machine.run
      (OwnedPool.spawned config peerAddrs start) history = some final) :
    (∀ key,
      (final.state.pool.idleOf key).length ≤ config.poolSize ∧
      (final.state.pool.idleOf key).Pairwise fun older younger =>
        older.createdAt ≤ younger.createdAt) ∧
    (∀ (key other : UInt8) (i j : ℕ) (conn same : IdleConn Stream),
      (final.state.pool.idleOf key)[i]? = some conn →
        (final.state.pool.idleOf other)[j]? = some same →
          conn.stream = same.stream → key = other ∧ i = j) ∧
    ∀ (token : Token) (now : ℕ) (alive : Stream → Bool),
      let after := final.state.pool.popIdle token now alive
      PopsYoungest
          (fun conn =>
            now - conn.createdAt ≤ fromSecs config.poolIdleTimeoutSecs &&
              alive conn.stream)
          (final.state.pool.idleOf token.index)
          (after.2.idleOf token.index) after.1 ∧
        (∀ key, key ≠ token.index →
          after.2.idleOf key = final.state.pool.idleOf key) ∧
        ∀ stream, after.1 = some stream →
          stream ∉ final.outside ∧
            ∀ key, ∀ conn ∈ after.2.idleOf key, conn.stream ≠ stream := by
  have inv : final.Inv config peerAddrs :=
    Machine.run_invariant (OwnedPool.Inv config peerAddrs)
      OwnedPool.inv_step (OwnedPool.inv_spawned config peerAddrs start) ran
  refine ⟨?_, ?_, ?_⟩
  · intro key
    refine ⟨?_, inv.tidy.ordered key⟩
    rw [RemotePool.idleOf]
    split
    · exact Nat.zero_le _
    · next peer found => exact inv.sound.bounded found
  · intro key other i j conn same there there' equal
    exact inv.tidy.once there there' equal
  · intro token now alive
    have youngest := final.state.pool.popIdle_youngest token now alive
      (inv.tidy.ordered token.index)
    rw [inv.sound.config_eq, usable_idleTimeout] at youngest
    refine ⟨youngest, fun key other =>
      final.state.pool.popIdle_other now alive other, ?_⟩
    intro stream popped
    exact (inv.tidy.popped popped).2

/-- The connection of a first cycle is handed out, and nobody else has
it. -/
theorem idlePool_invariant_first_cycle :
    ∃ final : OwnedPool Unit ℕ,
      OwnedPool.machine.run
          (OwnedPool.spawned PoolState.singleIdle [(⟨0⟩, ())] 0)
          [(.pool .wake, fromSecs 10), (.pool .snapshot, fromSecs 10),
            (.pool (.dialled 0), fromSecs 10)] = some final ∧
        (final.state.pool.popIdle ⟨0⟩ (fromSecs 12) fun _ => true).1 =
          some 0 ∧
        0 ∉ final.outside := by
  refine ⟨_, rfl, rfl, ?_⟩
  exact ((idlePool_invariant PoolState.singleIdle [(⟨0⟩, ())] 0
    [(.pool .wake, fromSecs 10), (.pool .snapshot, fromSecs 10),
      (.pool (.dialled 0), fromSecs 10)] _ rfl).2.2 ⟨0⟩ (fromSecs 12)
        fun _ => true).2.2 0 rfl |>.1

end ByteHub.Core
