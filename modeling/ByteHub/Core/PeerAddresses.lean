import ByteHub.Core.Connect
import ByteHub.Core.PoolWarmup

/-!
# Peers by token and by address

The relay of an endpoint lists its peers in a table: the remote under token
0 and the extra remotes under the tokens from 1 on, counted in a `u8`.  The
pool dials the first address listed under a token, the connect loop computes
an index from it.  Both mean the same peer, however many there are.
-/

namespace ByteHub.Core

open ByteHub.Lb

variable {Addr Socket Error : Type}

/-! ## The table of peers -/

/-- The table `run_tcp` builds; the index of an extra remote wraps. -/
def peerAddrs (raddr : Addr) (extraRaddrs : List Addr) :
    List (Token × Addr) :=
  (⟨0⟩, raddr) :: extraRaddrs.zipIdx.map fun extra =>
    (⟨UInt8.ofNat extra.2 + 1⟩, extra.1)

private theorem ofNat_add_one_inj
    {i : ℕ} {index : UInt8} (nonzero : index ≠ 0) :
    UInt8.ofNat i + 1 = index ↔ i % 256 = index.toNat - 1 := by
  have positive : index.toNat ≠ 0 := fun zero =>
    nonzero (UInt8.toNat_inj.1 zero)
  have small : index.toNat < 256 := index.toNat_lt
  rw [← UInt8.toNat_inj, UInt8.toNat_add, UInt8.toNat_ofNat']
  change (i % 256 + 1) % 256 = _ ↔ _
  omega

/-- The first extra remote under a token is the one the loop selects. -/
theorem find_extraRaddrs
    {extraRaddrs : List Addr} {index : UInt8} {token : Token} {addr : Addr}
    (nonzero : index ≠ 0)
    (found : (extraRaddrs.zipIdx.map fun extra =>
        ((⟨UInt8.ofNat extra.2 + 1⟩ : Token), extra.1)).find?
      (fun peer => peer.1.index = index) = some (token, addr)) :
    extraRaddrs[index.toNat - 1]? = some addr := by
  rw [List.find?_eq_some_iff_getElem] at found
  rcases found with ⟨named, i, inside, here, before⟩
  rw [List.length_map, List.length_zipIdx] at inside
  rw [List.getElem_map, List.getElem_zipIdx, Prod.mk.injEq] at here
  rcases here with ⟨rfl, rfl⟩
  have listed : i % 256 = index.toNat - 1 := by
    simpa [ofNat_add_one_inj nonzero] using named
  have first : i = index.toNat - 1 := by
    by_contra later
    have earlier : index.toNat - 1 < i := by omega
    have other := before (index.toNat - 1) earlier
    have small : index.toNat - 1 < 256 := by
      have := index.toNat_lt
      omega
    rw [List.getElem_map, List.getElem_zipIdx] at other
    simp [ofNat_add_one_inj nonzero, Nat.mod_eq_of_lt small] at other
  subst first
  exact List.getElem?_eq_getElem inside

/-- What the pool finds under a token is what the loop selects for it. -/
theorem selected_of_find
    {ctx : CallContext Addr} {token named : Token} {addr : Addr}
    (found : (peerAddrs ctx.raddr ctx.extraRaddrs).find?
      (fun peer => peer.1.index = token.index) = some (named, addr)) :
    ctx.selected (some token) = addr := by
  rw [peerAddrs, List.find?_cons] at found
  by_cases zero : token.index = 0
  · rw [zero] at found
    cases found
    rw [CallContext.selected, if_pos zero]
  · have other : ¬ (0 : UInt8) = token.index := fun equal => zero equal.symm
    simp only [other, decide_false] at found
    have extra := find_extraRaddrs zero found
    rw [CallContext.selected, if_neg zero, List.getD_eq_getElem?_getD, extra]
    rfl

/-! ## Streams that know where they lead -/

/-- A stream and the address it was dialled to. -/
structure Dialled (Addr Socket : Type) where
  addr : Addr
  socket : Socket
deriving DecidableEq, Repr

/-- `socket::connect`: the answer of the network to a dial of an address. -/
def Dialled.connect
    (answer : Except Error Socket) (addr : Addr) :
    Except Error (Dialled Addr Socket) :=
  answer.map (Dialled.mk addr)

theorem Dialled.connect_addr
    {answer : Except Error Socket} {addr : Addr}
    {stream : Dialled Addr Socket}
    (connected : Dialled.connect answer addr = .ok stream) :
    stream.addr = addr := by
  cases answer with
  | error error => cases connected
  | ok socket =>
      cases connected
      rfl

/-- Each idle stream of a pool leads to the peer it is kept for. -/
structure Filed
    (ctx : CallContext Addr) (pool : RemotePool Addr (Dialled Addr Socket)) :
    Prop where
  table : pool.peerAddrs = peerAddrs ctx.raddr ctx.extraRaddrs
  leads : ∀ key peer, pool.pools key = some peer →
    ∀ conn ∈ peer.idle, conn.stream.addr = ctx.selected (some ⟨key⟩)

section Filed

variable {ctx : CallContext Addr}
variable {pool : RemotePool Addr (Dialled Addr Socket)}

theorem filed_new (ctx : CallContext Addr) (config : PoolConfig) :
    Filed ctx
      (RemotePool.new config (peerAddrs ctx.raddr ctx.extraRaddrs) :
        RemotePool Addr (Dialled Addr Socket)) where
  table := rfl
  leads key peer kept conn member := by
    unfold RemotePool.new at kept
    dsimp only at kept
    split at kept
    · cases kept
      cases member
    · cases kept

/-- A fresh connection of the pool leads to the peer it is dialled for. -/
theorem Filed.connectNew
    (filed : Filed ctx pool) {token : Token} {answer : Except Error Socket}
    {stream : Dialled Addr Socket}
    (connected : pool.connectNew token
      (fun addr _ => Dialled.connect answer addr) = .ok stream) :
    stream.addr = ctx.selected (some token) := by
  unfold RemotePool.connectNew at connected
  rw [filed.table] at connected
  split at connected
  · cases connected
  · next named addr found =>
    rw [selected_of_find found]
    cases answer with
    | error error => cases connected
    | ok socket =>
        cases connected
        rfl

/-- A change of one sub-pool that adds only streams to its peer. -/
theorem Filed.update
    (filed : Filed ctx pool) (token : Token)
    {change : PeerPool (Dialled Addr Socket) →
      PeerPool (Dialled Addr Socket)}
    (adds : ∀ peer, ∀ conn ∈ (change peer).idle,
      conn ∈ peer.idle ∨ conn.stream.addr = ctx.selected (some token)) :
    Filed ctx (pool.update token change) where
  table := filed.table
  leads key peer kept conn member := by
    rw [RemotePool.update_pools] at kept
    split at kept
    · next same =>
      subst same
      rcases Option.map_eq_some_iff.1 kept with ⟨before, held, rfl⟩
      rcases adds before conn member with old | new
      · exact filed.leads _ before held conn old
      · exact new
    · exact filed.leads key peer kept conn member

theorem PeerPool.mem_push
    {peer : PeerPool Socket} {stream : Socket} {maxSize now : ℕ}
    {conn : IdleConn Socket}
    (member : conn ∈ (peer.push stream maxSize now).idle) :
    conn ∈ peer.idle ∨ conn = ⟨stream, now⟩ := by
  unfold PeerPool.push at member
  split at member
  · rcases List.mem_append.1 member with old | new
    · exact .inl old
    · exact .inr (List.mem_singleton.1 new)
  · exact .inl member

theorem Filed.filled
    (filed : Filed ctx pool) {token : Token}
    {stream : Dialled Addr Socket} (now : ℕ)
    (leads : stream.addr = ctx.selected (some token)) :
    Filed ctx (PoolState.filled pool token stream now) := by
  apply filed.update
  intro peer conn member
  split at member
  · rcases PeerPool.mem_push member with old | rfl
    · exact .inl old
    · exact .inr leads
  · exact .inl member

/-- The pop loop takes its answer and its remainder from the sub-pool. -/
theorem PeerPool.mem_popLoop
    {timeout now : ℕ} {alive : Socket → Bool}
    (conns : List (IdleConn Socket)) :
    (∀ stream, (PeerPool.popLoop timeout now alive conns).1 = some stream →
      ∃ conn ∈ conns, conn.stream = stream) ∧
    ∀ conn ∈ (PeerPool.popLoop timeout now alive conns).2,
      conn ∈ conns := by
  induction conns with
  | nil =>
      constructor
      · rintro stream ⟨⟩
      · exact fun _ member => member
  | cons conn older inductionHypothesis =>
      rcases inductionHypothesis with ⟨answer, rest⟩
      have onwards :
          (∀ stream,
            (PeerPool.popLoop timeout now alive older).1 = some stream →
              ∃ kept ∈ conn :: older, kept.stream = stream) ∧
          ∀ kept ∈ (PeerPool.popLoop timeout now alive older).2,
            kept ∈ conn :: older := by
        constructor
        · intro stream popped
          rcases answer stream popped with ⟨kept, member, same⟩
          exact ⟨kept, List.mem_cons_of_mem conn member, same⟩
        · intro kept member
          exact List.mem_cons_of_mem conn (rest kept member)
      unfold PeerPool.popLoop
      split
      · exact onwards
      · split
        · constructor
          · rintro stream ⟨⟩
            exact ⟨conn, List.mem_cons_self, rfl⟩
          · intro kept member
            exact List.mem_cons_of_mem conn member
        · exact onwards

theorem Filed.popIdle
    (filed : Filed ctx pool) (token : Token) (now : ℕ)
    (alive : Dialled Addr Socket → Bool) :
    Filed ctx (pool.popIdle token now alive).2 := by
  unfold RemotePool.popIdle
  split
  · exact filed
  · apply filed.update
    intro peer conn member
    left
    have kept := (PeerPool.mem_popLoop peer.idle.reverse).2 conn
      (List.mem_reverse.1 member)
    exact List.mem_reverse.1 kept

/-- A pooled stream leads to the peer it is popped for. -/
theorem Filed.popped
    (filed : Filed ctx pool) {token : Token} {now : ℕ}
    {alive : Dialled Addr Socket → Bool} {stream : Dialled Addr Socket}
    (popped : (pool.popIdle token now alive).1 = some stream) :
    stream.addr = ctx.selected (some token) := by
  unfold RemotePool.popIdle at popped
  split at popped
  · cases popped
  · next peer held =>
    rcases (PeerPool.mem_popLoop peer.idle.reverse).1 stream popped with
      ⟨conn, member, rfl⟩
    exact filed.leads _ peer held conn (List.mem_reverse.1 member)

end Filed

end ByteHub.Core
