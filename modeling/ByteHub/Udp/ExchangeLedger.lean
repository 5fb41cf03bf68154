import ByteHub.Udp.Exchange
import ByteHub.Udp.Payload

/-!
# The ledger of a UDP endpoint

At every moment what was received at the front is what was handed on, what is
still to be handed on and what an error has dropped, each datagram once and
as far as it fits a packet.  A round without an error drops nothing.
-/

namespace ByteHub.Udp

open ByteHub.Library

variable {Addr : Type}

/-! ## Groups -/

/-- Each group is that of one client. -/
def Uniform (groups : List (List (Packet Addr))) : Prop :=
  ∀ pkts ∈ groups, ∀ a ∈ pkts, ∀ b ∈ pkts, a.addr = b.addr

theorem Uniform.tail
    {pkts : List (Packet Addr)} {groups : List (List (Packet Addr))}
    (uniform : Uniform (pkts :: groups)) : Uniform groups :=
  fun other member => uniform other (List.mem_cons_of_mem _ member)

theorem Uniform.head
    {first : Packet Addr} {others : List (Packet Addr)}
    {groups : List (List (Packet Addr))}
    (uniform : Uniform ((first :: others) :: groups)) :
    ∀ pkt ∈ first :: others, pkt.addr = first.addr :=
  fun pkt member => uniform _ List.mem_cons_self pkt member first
    List.mem_cons_self

/-- The packets of a client, sent on. -/
theorem map_refWithAddr
    {raddr laddr : Addr} {pkts : List (Packet Addr)}
    (same : ∀ pkt ∈ pkts, pkt.addr = laddr) :
    (pkts.map fun pkt => pkt.refWithAddr raddr).map
        (fun datagram => (laddr, datagram.payload)) =
      pkts.map Packet.parcel := by
  rw [List.map_map]
  apply List.map_congr_left
  intro pkt member
  rw [Function.comp_apply, Packet.parcel, same pkt member]
  rfl

namespace FrontPhase

/-- The groups of a phase are those of clients. -/
def Grouped (registry : Registry Addr) : FrontPhase Addr → Prop
  | .receiving => True
  | .resolving => registry.iter ≠ []
  | .turn _ groups => Uniform groups
  | .missed _ laddr pkts groups =>
      (∀ pkt ∈ pkts, pkt.addr = laddr) ∧ Uniform groups
  | .associated _ laddr _ pkts groups =>
      (∀ pkt ∈ pkts, pkt.addr = laddr) ∧ Uniform groups
  | .spawned _ laddr _ pkts groups =>
      (∀ pkt ∈ pkts, pkt.addr = laddr) ∧ Uniform groups
  | .sending _ _ _ _ groups => Uniform groups

theorem grouped_nextTurn
    {registry : Registry Addr} {raddr : Addr}
    {groups : List (List (Packet Addr))} (uniform : Uniform groups) :
    (Exchange.nextTurn raddr groups).Grouped registry := by
  cases groups with
  | nil => trivial
  | cons pkts groups => exact uniform

theorem pending_nextTurn
    (registry : Registry Addr) (raddr : Addr)
    (groups : List (List (Packet Addr))) :
    (Exchange.nextTurn raddr groups).pending registry =
      groups.flatten.map Packet.parcel := by
  cases groups <;> rfl

theorem pending_relayOn
    {registry : Registry Addr} {raddr laddr : Addr} {rsock : Socket}
    {pkts : List (Packet Addr)} {groups : List (List (Packet Addr))}
    (same : ∀ pkt ∈ pkts, pkt.addr = laddr) :
    (Exchange.relayOn raddr laddr rsock pkts groups).pending registry =
      (pkts ++ groups.flatten).map Packet.parcel := by
  rw [Exchange.relayOn, pending, map_refWithAddr same, List.map_append]

end FrontPhase

namespace Exchange

/-! ## The invariant -/

/-- The books balance. -/
structure Balanced (state : Exchange Addr) : Prop where
  grouped : state.front.Grouped state.registry
  ledger : (state.books.handed.map Handed.parcel ++ state.pending ++
    state.books.lost).Perm (state.books.received.map Datagram.parcel)

theorem balanced_start (unset : Addr) : (start unset).Balanced where
  grouped := trivial
  ledger := List.Perm.refl _

theorem Balanced.restart
    {state : Exchange Addr} (balanced : state.Balanced) (unset : Addr) :
    (state.restart unset).Balanced where
  grouped := trivial
  ledger := by
    refine List.Perm.trans ?_ balanced.ledger
    change (state.books.handed.map Handed.parcel ++ [] ++
      (state.books.lost ++ state.pending)).Perm _
    rw [List.append_nil, List.append_assoc]
    exact List.perm_append_comm.append_left _

/-- A step that moves what is pending within the batch. -/
theorem Balanced.front
    {state next : Exchange Addr} (balanced : state.Balanced)
    (books : next.books.handed = state.books.handed ∧
      next.books.lost = state.books.lost ∧
      next.books.received = state.books.received)
    (grouped : next.front.Grouped next.registry)
    (pending : next.pending.Perm state.pending) : next.Balanced where
  grouped := grouped
  ledger := by
    rw [books.1, books.2.1, books.2.2]
    refine List.Perm.trans ?_ balanced.ledger
    exact (pending.append_left _).append_right _

variable [DecidableEq Addr] {unset : Addr} {state next : Exchange Addr}

theorem balanced_receive
    {batch : Batch Addr} (balanced : state.Balanced)
    (stepped : state.frontStep unset (.receive batch) = some next) :
    next.Balanced := by
  simp only [frontStep] at stepped
  split at stepped
  · next receiving =>
    cases stepped
    have ledger := balanced.ledger
    rw [pending, receiving, FrontPhase.pending, List.append_nil] at ledger
    constructor
    · exact Registry.iter_batchedRecvOn_ne_nil _ _
    · have shown :
          (state.registry.batchedRecvOn batch).iter.map Packet.parcel =
            batch.datagrams.map Datagram.parcel :=
        map_iter_batchedRecvOn state.registry batch Prod.mk
      change (state.books.handed.map Handed.parcel ++
        (state.registry.batchedRecvOn batch).iter.map Packet.parcel ++
          state.books.lost).Perm
            ((state.books.received ++ batch.datagrams).map Datagram.parcel)
      rw [shown, List.map_append]
      refine List.Perm.trans ?_ (ledger.append_right _)
      rw [List.append_assoc, List.append_assoc]
      exact List.perm_append_comm.append_left _
  · cases stepped

theorem balanced_resolve
    {raddr : Addr} (balanced : state.Balanced)
    (stepped : state.frontStep unset (.resolve raddr) = some next) :
    next.Balanced := by
  simp only [frontStep] at stepped
  split at stepped
  · next resolving =>
    cases stepped
    have nonempty := balanced.grouped
    rw [resolving] at nonempty
    rcases Registry.groupIter_spec nonempty with ⟨perm, cut⟩
    refine balanced.front ⟨rfl, rfl, rfl⟩ ?_ ?_
    · apply FrontPhase.grouped_nextTurn
      intro pkts member a inside b alike
      exact of_decide_eq_true (cut.equal pkts member a inside b alike)
    · change ((nextTurn raddr _).pending _).Perm
        (state.front.pending state.registry)
      rw [FrontPhase.pending_nextTurn, resolving]
      exact perm.map _
  · cases stepped

theorem balanced_find
    (balanced : state.Balanced)
    (stepped : state.frontStep unset .find = some next) :
    next.Balanced := by
  simp only [frontStep] at stepped
  split at stepped
  · next raddr first others groups waits =>
    have uniform := balanced.grouped
    rw [waits] at uniform
    have before : state.pending =
        ((first :: others) ++ groups.flatten).map Packet.parcel := by
      rw [pending, waits]
      rfl
    split at stepped
    · cases stepped
      refine balanced.front ⟨rfl, rfl, rfl⟩ uniform.tail ?_
      rw [before, pending, FrontPhase.pending_relayOn uniform.head]
    · cases stepped
      refine balanced.front ⟨rfl, rfl, rfl⟩
        ⟨uniform.head, uniform.tail⟩ ?_
      rw [before]
      rfl
  · cases stepped

/-- The steps of an association move nothing. -/
theorem balanced_associating
    {label : FrontLabel Addr} (balanced : state.Balanced)
    (associating : label = .associate ∨ label = .spawn ∨ label = .insert)
    (stepped : state.frontStep unset label = some next) :
    next.Balanced := by
  have grouped := balanced.grouped
  rcases associating with rfl | rfl | rfl
  all_goals
    simp only [frontStep] at stepped
    split at stepped
  · next waits =>
    cases stepped
    rw [waits] at grouped
    refine balanced.front ⟨rfl, rfl, rfl⟩ grouped ?_
    rw [pending, pending, waits]
    rfl
  · cases stepped
  · next waits =>
    cases stepped
    rw [waits] at grouped
    refine balanced.front ⟨rfl, rfl, rfl⟩ grouped ?_
    rw [pending, pending, waits]
    rfl
  · cases stepped
  · next waits =>
    cases stepped
    rw [waits] at grouped
    refine balanced.front ⟨rfl, rfl, rfl⟩ grouped.2 ?_
    rw [pending, pending, waits, FrontPhase.pending_relayOn grouped.1]
    rfl
  · cases stepped

theorem balanced_send
    {accepted : ℕ} (balanced : state.Balanced)
    (stepped : state.frontStep unset (.send accepted) = some next) :
    next.Balanced := by
  simp only [frontStep] at stepped
  split at stepped
  · next raddr laddr rsock rest groups waits =>
    split at stepped
    · cases stepped
    · next fits =>
      cases stepped
      have uniform := balanced.grouped
      rw [waits] at uniform
      have ledger := balanced.ledger
      rw [pending, waits, FrontPhase.pending] at ledger
      have after (registry : Registry Addr) :
          (if accepted = rest.length then nextTurn raddr groups
            else .sending raddr laddr rsock (rest.drop accepted)
              groups).pending registry =
            (rest.drop accepted).map
                (fun datagram => (laddr, datagram.payload)) ++
              groups.flatten.map Packet.parcel := by
        split
        · next all =>
          rw [FrontPhase.pending_nextTurn, all, List.drop_length]
          rfl
        · rfl
      constructor
      · dsimp only
        split
        · exact FrontPhase.grouped_nextTurn uniform
        · exact uniform
      · rw [pending]
        dsimp only
        rw [after]
        refine List.Perm.trans (List.Perm.of_eq ?_) ledger
        have whole : rest.map (fun datagram => (laddr, datagram.payload)) =
            ((rest.take accepted).map (Handed.mk laddr rsock)).map
                Handed.parcel ++
              (rest.drop accepted).map
                (fun datagram => (laddr, datagram.payload)) := by
          rw [List.map_map]
          change _ = (rest.take accepted).map
              (fun datagram => (laddr, datagram.payload)) ++ _
          rw [← List.map_append, List.take_append_drop]
        rw [whole, List.map_append]
        simp only [List.append_assoc]
  · cases stepped

/-- An error restarts the relay. -/
theorem restart_of_fails
    {label : FrontLabel Addr} (fails : label.fails = true)
    (stepped : state.frontStep unset label = some next) :
    next = state.restart unset := by
  cases label with
  | receiveFails =>
      simp only [frontStep] at stepped
      split at stepped <;> cases stepped
      rfl
  | resolveFails =>
      simp only [frontStep] at stepped
      split at stepped <;> cases stepped
      rfl
  | associateFails =>
      simp only [frontStep] at stepped
      split at stepped <;> cases stepped
      rfl
  | sendFails =>
      simp only [frontStep] at stepped
      split at stepped <;> cases stepped
      rfl
  | receive batch => cases fails
  | resolve raddr => cases fails
  | find => cases fails
  | associate => cases fails
  | spawn => cases fails
  | insert => cases fails
  | send accepted => cases fails

theorem balanced_frontStep
    {label : FrontLabel Addr} (balanced : state.Balanced)
    (stepped : state.frontStep unset label = some next) :
    next.Balanced := by
  by_cases fails : label.fails = true
  · rw [restart_of_fails fails stepped]
    exact balanced.restart unset
  · cases label with
    | receive batch => exact balanced_receive balanced stepped
    | resolve raddr => exact balanced_resolve balanced stepped
    | find => exact balanced_find balanced stepped
    | associate =>
        exact balanced_associating balanced (.inl rfl) stepped
    | spawn =>
        exact balanced_associating balanced (.inr (.inl rfl)) stepped
    | insert =>
        exact balanced_associating balanced (.inr (.inr rfl)) stepped
    | send accepted => exact balanced_send balanced stepped
    | receiveFails => exact absurd rfl fails
    | resolveFails => exact absurd rfl fails
    | associateFails => exact absurd rfl fails
    | sendFails => exact absurd rfl fails

/-- Nothing is dropped without an error. -/
theorem lost_frontStep
    {label : FrontLabel Addr} (fails : label.fails = false)
    (stepped : state.frontStep unset label = some next) :
    next.books.lost = state.books.lost := by
  cases label with
  | find =>
      simp only [frontStep] at stepped
      split at stepped
      · split at stepped <;> cases stepped <;> rfl
      · cases stepped
  | send accepted =>
      simp only [frontStep] at stepped
      split at stepped
      · split at stepped <;> cases stepped
        rfl
      · cases stepped
  | receiveFails => cases fails
  | resolveFails => cases fails
  | associateFails => cases fails
  | sendFails => cases fails
  | receive batch =>
      simp only [frontStep] at stepped
      split at stepped <;> cases stepped
      rfl
  | resolve raddr =>
      simp only [frontStep] at stepped
      split at stepped <;> cases stepped
      rfl
  | associate =>
      simp only [frontStep] at stepped
      split at stepped <;> cases stepped
      rfl
  | spawn =>
      simp only [frontStep] at stepped
      split at stepped <;> cases stepped
      rfl
  | insert =>
      simp only [frontStep] at stepped
      split at stepped <;> cases stepped
      rfl

/-- What the step of a task does to the rest of the state: nothing, but that
the entry of its client may go. -/
structure TaskStep
    (state next : Exchange Addr) (rsock : Socket)
    (task task' : BackTask Addr) : Prop where
  running : state.tasks rsock = some task
  tasks : next.tasks = Function.update state.tasks rsock (some task')
  laddr : task'.laddr = task.laddr
  front : next.front = state.front
  registry : next.registry = state.registry
  opened : next.opened = state.opened
  received : next.books.received = state.books.received
  handed : next.books.handed = state.books.handed
  lost : next.books.lost = state.books.lost
  owner : next.books.owner = state.books.owner
  sockmap : next.sockmap = state.sockmap ∨
    next.sockmap = state.sockmap.remove task.laddr

theorem taskStep_of_backStep
    {rsock : Socket} {label : BackLabel Addr}
    (stepped : state.backStep rsock label = some next) :
    ∃ task task', TaskStep state next rsock task task' := by
  cases label with
  | receive batch =>
      simp only [backStep] at stepped
      split at stepped
      · next running =>
        cases stepped
        exact ⟨_, _, running, rfl, rfl, rfl, rfl, rfl, rfl, rfl, rfl, rfl,
          .inl rfl⟩
      · cases stepped
  | send accepted =>
      simp only [backStep] at stepped
      split at stepped
      · next running =>
        split at stepped
        · cases stepped
        · cases stepped
          exact ⟨_, _, running, rfl, rfl, rfl, rfl, rfl, rfl, rfl, rfl,
            rfl, .inl rfl⟩
      · cases stepped
  | sendFails =>
      simp only [backStep] at stepped
      split at stepped
      · next running =>
        cases stepped
        exact ⟨_, _, running, rfl, rfl, rfl, rfl, rfl, rfl, rfl, rfl, rfl,
          .inl rfl⟩
      · cases stepped
  | leave =>
      simp only [backStep] at stepped
      split at stepped
      · next running =>
        cases stepped
        exact ⟨_, _, running, rfl, rfl, rfl, rfl, rfl, rfl, rfl, rfl, rfl,
          .inl rfl⟩
      · cases stepped
  | remove =>
      simp only [backStep] at stepped
      split at stepped
      · next running =>
        cases stepped
        exact ⟨_, _, running, rfl, rfl, rfl, rfl, rfl, rfl, rfl, rfl, rfl,
          .inr rfl⟩
      · cases stepped

theorem balanced_step
    {label : ExchangeLabel Addr} (balanced : state.Balanced)
    (stepped : (machine unset).step state label = some next) :
    next.Balanced := by
  cases label with
  | front label => exact balanced_frontStep balanced stepped
  | back rsock label =>
      rcases taskStep_of_backStep stepped with ⟨_, _, kept⟩
      refine balanced.front ⟨kept.handed, kept.lost, kept.received⟩ ?_ ?_
      · rw [kept.front, kept.registry]
        exact balanced.grouped
      · rw [pending, pending, kept.front, kept.registry]

theorem lost_step
    {label : ExchangeLabel Addr} (fails : label.fails = false)
    (stepped : (machine unset).step state label = some next) :
    next.books.lost = state.books.lost := by
  cases label with
  | front label => exact lost_frontStep fails stepped
  | back rsock label =>
      rcases taskStep_of_backStep stepped with ⟨_, _, kept⟩
      exact kept.lost

end Exchange

/-- In every state of every run what was received is what was handed on, what
is still to be handed on and what an error has dropped, each once; without an
error nothing is dropped. -/
theorem exchange_ledger
    [DecidableEq Addr] (unset : Addr)
    {labels : List (ExchangeLabel Addr)} {final : Exchange Addr}
    (ran : (Exchange.machine unset).run (Exchange.start unset) labels =
      some final) :
    (final.books.handed.map Handed.parcel ++ final.pending ++
        final.books.lost).Perm
      (final.books.received.map Datagram.parcel) ∧
    ((∀ label ∈ labels, label.fails = false) → final.books.lost = []) := by
  constructor
  · exact (Machine.run_invariant Exchange.Balanced Exchange.balanced_step
      (Exchange.balanced_start unset) ran).ledger
  · intro fine
    have leads : (Exchange.machine unset).Leads
        (fun label => label.fails = false) (Exchange.start unset) final :=
      ⟨labels, fine, ran⟩
    apply leads.invariant (fun state => state.books.lost = [])
    · intro state next label before fits stepped
      rw [Exchange.lost_step fits stepped]
      exact before
    · rfl

/-- Client 7 sends two bytes. -/
def oneDatagram : Batch ℕ where
  datagrams := [⟨[1, 2], 7⟩]
  nonempty := by decide
  bounded := by decide

/-- They are sent on to address 9, on a socket that is opened for them. -/
def oneRound : List (ExchangeLabel ℕ) :=
  [.front (.receive oneDatagram), .front (.resolve 9), .front .find,
    .front .associate, .front .spawn, .front .insert, .front (.send 1)]

set_option maxRecDepth 10000 in
theorem exchange_ledger_two_bytes :
    ∃ final, (Exchange.machine 0).run (Exchange.start 0) oneRound =
        some final ∧ final.books.lost = [] ∧
      final.books.handed.map Handed.parcel = [(7, [1, 2])] := by
  refine ⟨_, rfl, ?_, rfl⟩
  exact (exchange_ledger 0
    (rfl : (Exchange.machine 0).run (Exchange.start 0) oneRound =
      some _)).2 (by decide)

end ByteHub.Udp
