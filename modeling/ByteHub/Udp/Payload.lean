import Mathlib.Algebra.Order.BigOperators.Group.List
import Mathlib.Algebra.Order.Group.Nat
import ByteHub.Udp.Isolation

/-!
# Payloads

A registry shows what was received last and nothing older, whatever its
buffers held.  What is handed on is the front of the payload that fits a
buffer: the whole payload exactly if it is no longer than a packet.
-/

namespace ByteHub.Udp

variable {Addr Error : Type} [DecidableEq Addr]

/-! ## Handing on whole payloads -/

/-- What was received on the listening socket is handed on to the remote:
each datagram at most once, on behalf of its client, with its whole
payload. -/
def ForwardsWhole
    (Error : Type) (raddr : Addr) (registry : Registry Addr)
    (batch : Batch Addr) : Prop :=
  ∀ (answers : RelayAnswers Addr Error) (sockmap : SockMap Addr),
    ((associateAndRelay answers (.ok raddr) sockmap registry
        batch).handed.map fun handed =>
      (handed.client, handed.datagram)).Subperm
        (batch.datagrams.map fun datagram =>
          (datagram.addr, ⟨datagram.payload, raddr⟩))

/-- What was received on the socket of a client is handed on to the client:
each datagram at most once, with its whole payload. -/
def ReturnsWhole
    (Error : Type) (laddr : Addr) (registry : Registry Addr)
    (batch : Batch Addr) : Prop :=
  ∀ answers : SendAnswers Error,
    (sendBack answers laddr registry batch).handed.Subperm
      (batch.datagrams.map fun datagram => ⟨datagram.payload, laddr⟩)

/-- Every datagram of a batch fits a packet. -/
def Batch.Short (batch : Batch Addr) : Prop :=
  ∀ datagram ∈ batch.datagrams, datagram.payload.length ≤ packetSize

/-! ## What a registry shows -/

section Shown

variable (registry : Registry Addr) (batch : Batch Addr)

omit [DecidableEq Addr] in
/-- A registry shows the fronts of the payloads it has received last. -/
theorem map_iter_batchedRecvOn
    {Shown : Type} (shown : Addr → List UInt8 → Shown) :
    ((registry.batchedRecvOn batch).iter.map fun pkt =>
      shown pkt.addr (pkt.refWithAddr pkt.addr).payload) =
        batch.datagrams.map fun datagram =>
          shown datagram.addr (datagram.payload.take packetSize) := by
  rw [Registry.iter_batchedRecvOn]
  have room :
      batch.datagrams.length ≤ registry.pkts.length := by
    rw [registry.size]
    exact batch.bounded
  generalize registry.pkts = pkts at room
  generalize batch.datagrams = datagrams at room ⊢
  induction datagrams generalizing pkts with
  | nil => simp
  | cons datagram datagrams inductionHypothesis =>
      cases pkts with
      | nil => exact absurd room (Nat.not_succ_le_zero _)
      | cons pkt pkts =>
          rw [List.zipWith_cons_cons, List.map_cons, List.map_cons,
            Packet.refWithAddr_fill,
            inductionHypothesis pkts (Nat.le_of_succ_le_succ room)]
          rfl

end Shown

/-! ## Truncated payloads -/

omit [DecidableEq Addr] in
/-- If truncated payloads are among the whole ones, none was truncated. -/
theorem short_of_subperm
    {Shown : Type} (shown : Datagram Addr → List UInt8 → Shown)
    (length : Shown → ℕ)
    (length_shown : ∀ datagram payload,
      length (shown datagram payload) = payload.length)
    {datagrams : List (Datagram Addr)}
    (among : (datagrams.map fun datagram =>
        shown datagram (datagram.payload.take packetSize)).Subperm
      (datagrams.map fun datagram => shown datagram datagram.payload)) :
    ∀ datagram ∈ datagrams, datagram.payload.length ≤ packetSize := by
  have perm := among.perm_of_length_le (by simp)
  have sums := (perm.map length).sum_eq
  rw [List.map_map, List.map_map] at sums
  by_contra long
  rcases not_forall.1 long with ⟨datagram, someLong⟩
  rcases Classical.not_imp.1 someLong with ⟨member, longer⟩
  have less :
      (datagrams.map (length ∘ fun datagram =>
          shown datagram (datagram.payload.take packetSize))).sum <
        (datagrams.map (length ∘ fun datagram =>
          shown datagram datagram.payload)).sum := by
    apply List.sum_lt_sum
    · intro other _
      simp only [Function.comp_apply, length_shown]
      exact List.length_take_le' _ _
    · refine ⟨datagram, member, ?_⟩
      simp only [Function.comp_apply, length_shown, List.length_take]
      omega
  omega

omit [DecidableEq Addr] in
theorem Batch.Short.map_whole
    {Shown : Type} {batch : Batch Addr} (short : batch.Short)
    (shown : Datagram Addr → List UInt8 → Shown) :
    (batch.datagrams.map fun datagram =>
        shown datagram (datagram.payload.take packetSize)) =
      batch.datagrams.map fun datagram => shown datagram datagram.payload := by
  apply List.map_congr_left
  intro datagram member
  rw [List.take_of_length_le (short datagram member)]

/-! ## The association socket -/

section Returns

variable {registry : Registry Addr} {batch : Batch Addr} {laddr : Addr}

omit [DecidableEq Addr] in
theorem returned_eq (laddr : Addr) :
    ((registry.batchedRecvOn batch).iter.map fun pkt =>
      pkt.refWithAddr laddr) =
        batch.datagrams.map fun datagram =>
          ⟨datagram.payload.take packetSize, laddr⟩ :=
  map_iter_batchedRecvOn registry batch fun _ payload =>
    (⟨payload, laddr⟩ : Datagram Addr)

omit [DecidableEq Addr] in
theorem returnsWhole_iff :
    ReturnsWhole Error laddr registry batch ↔ batch.Short := by
  constructor
  · intro whole
    have all := whole SendAnswers.all
    rw [sendBack, sendAll_all, returned_eq] at all
    exact short_of_subperm
      (fun _ payload => (⟨payload, laddr⟩ : Datagram Addr))
      (fun datagram => datagram.payload.length) (fun _ _ => rfl) all
  · intro short answers
    have handed :=
      (sendAll_spec answers ((registry.batchedRecvOn batch).iter.map
        fun pkt => pkt.refWithAddr laddr)).1.sublist.subperm
    rw [returned_eq] at handed
    have whole :=
      short.map_whole fun _ payload => (⟨payload, laddr⟩ : Datagram Addr)
    rw [sendBack, returned_eq, ← whole]
    exact handed

end Returns

/-! ## The listening socket -/

section Forwards

variable {answers : RelayAnswers Addr Error} {raddr : Addr}
variable {sockmap : SockMap Addr} {groups : List (List (Packet Addr))}

/-- What a group hands over. -/
theorem relayGroup_sublist
    {group : List (Packet Addr)}
    (equal : ∀ a ∈ group, ∀ b ∈ group, a.addr = b.addr) :
    ((relayGroup answers raddr sockmap group).handed.map fun handed =>
      (handed.client, handed.datagram)).Sublist
        (group.map fun pkt => (pkt.addr, pkt.refWithAddr raddr)) := by
  cases group with
  | nil => exact List.Sublist.refl _
  | cons first rest =>
      have named :
          ((first :: rest).map fun pkt =>
            (pkt.addr, pkt.refWithAddr raddr)) =
          ((first :: rest).map fun pkt => pkt.refWithAddr raddr).map
            fun datagram => (first.addr, datagram) := by
        rw [List.map_map]
        apply List.map_congr_left
        intro pkt member
        rw [equal pkt member first List.mem_cons_self]
        rfl
      rw [relayGroup, named]
      split
      · exact List.nil_sublist _
      · dsimp only
        rw [List.map_map]
        exact (sendAll_spec _ _).1.sublist.map _

theorem relayGroups_sublist
    (equal : ∀ group ∈ groups, ∀ a ∈ group, ∀ b ∈ group,
      a.addr = b.addr) :
    ((relayGroups answers raddr sockmap groups).handed.map fun handed =>
      (handed.client, handed.datagram)).Sublist
        (groups.flatten.map fun pkt =>
          (pkt.addr, pkt.refWithAddr raddr)) := by
  induction groups generalizing sockmap with
  | nil => exact List.Sublist.refl _
  | cons group groups inductionHypothesis =>
      have here :=
        @relayGroup_sublist _ _ _ answers raddr sockmap _
          (equal group List.mem_cons_self)
      rw [List.flatten_cons, List.map_append, relayGroups]
      dsimp only
      split
      · exact here.trans (List.sublist_append_left _ _)
      · rw [List.map_append]
        exact here.append (inductionHypothesis fun other member =>
          equal other (List.mem_cons_of_mem _ member))

/-- Every association can be opened, and the kernel accepts all. -/
def accepting : RelayAnswers Addr Error where
  removed _ := true
  associate _ := .ok 0
  send _ := SendAnswers.all

theorem relayGroups_accepting
    (equal : ∀ group ∈ groups, ∀ a ∈ group, ∀ b ∈ group,
      a.addr = b.addr) :
    ((relayGroups (accepting : RelayAnswers Addr Error) raddr sockmap
      groups).handed.map fun handed => (handed.client, handed.datagram)) =
        groups.flatten.map fun pkt => (pkt.addr, pkt.refWithAddr raddr) := by
  induction groups generalizing sockmap with
  | nil => rfl
  | cons group groups inductionHypothesis =>
      have later (next : SockMap Addr) :=
        @inductionHypothesis next fun other member =>
          equal other (List.mem_cons_of_mem _ member)
      cases group with
      | nil => exact later sockmap
      | cons first rest =>
          have works :
              ¬ GroupFails (accepting : RelayAnswers Addr Error) raddr
                sockmap (first :: rest) := by
            rintro (opens | ⟨error, sends⟩)
            · rcases openFails_iff.1 opens with ⟨_, error, ⟨⟩⟩
            · rw [accepting, sendAll_all] at sends
              cases sends
          rcases relayGroups_of_not_fails groups works with
            ⟨socket, next, _, _, relays⟩
          have named :
              ((first :: rest).map fun pkt =>
                (first.addr, pkt.refWithAddr raddr)) =
              (first :: rest).map fun pkt =>
                (pkt.addr, pkt.refWithAddr raddr) := by
            apply List.map_congr_left
            intro pkt member
            rw [equal _ List.mem_cons_self pkt member first
              List.mem_cons_self]
          rw [relays, List.flatten_cons, List.map_append, List.map_append,
            later next, List.map_map, ← named]
          rfl

section Batch

variable {registry : Registry Addr} {batch : Batch Addr}

/-- The packets of the groups, as they are handed over. -/
theorem forwarded_perm :
    ((registry.batchedRecvOn batch).groupByAddr.groupIter.flatten.map
      fun pkt => (pkt.addr, pkt.refWithAddr raddr)).Perm
        (batch.datagrams.map fun datagram =>
          (datagram.addr, ⟨datagram.payload.take packetSize, raddr⟩)) := by
  have perm :=
    (Registry.groupIter_spec
      (registry.iter_batchedRecvOn_ne_nil batch)).1
  have shown :=
    map_iter_batchedRecvOn registry batch fun addr payload =>
      (addr, (⟨payload, raddr⟩ : Datagram Addr))
  rw [← shown]
  exact perm.map _

theorem forwardsWhole_iff :
    ForwardsWhole Error raddr registry batch ↔ batch.Short := by
  have cut :=
    (Registry.groupIter_spec
      (registry.iter_batchedRecvOn_ne_nil batch)).2
  have equal :
      ∀ group ∈ (registry.batchedRecvOn batch).groupByAddr.groupIter,
        ∀ a ∈ group, ∀ b ∈ group, a.addr = b.addr :=
    fun group member a aMem b bMem =>
      of_decide_eq_true (cut.equal group member a aMem b bMem)
  constructor
  · intro whole
    have all := whole accepting SockMap.new
    rw [associateAndRelay, relayGroups_accepting equal] at all
    exact short_of_subperm
      (fun datagram payload =>
        (datagram.addr, (⟨payload, raddr⟩ : Datagram Addr)))
      (fun shown => shown.2.payload.length) (fun _ _ => rfl)
      (forwarded_perm.symm.subperm.trans all)
  · intro short answers sockmap
    have whole :=
      short.map_whole fun datagram payload =>
        (datagram.addr, (⟨payload, raddr⟩ : Datagram Addr))
    rw [← whole]
    exact (relayGroups_sublist equal).subperm.trans forwarded_perm.subperm

end Batch

end Forwards

/-- A batch of the listening socket, and one of an association socket, is
handed on with whole payloads whatever the kernel answers, exactly if each
of its datagrams fits a packet. -/
theorem payloads_whole_iff
    (Error : Type) (addr : Addr) (registry : Registry Addr)
    (batch : Batch Addr) :
    (ForwardsWhole Error addr registry batch ↔ batch.Short) ∧
      (ReturnsWhole Error addr registry batch ↔ batch.Short) :=
  ⟨forwardsWhole_iff, returnsWhole_iff⟩

/-- A datagram of one byte more than a packet holds. -/
def oneTooLong : Batch ℕ where
  datagrams := [⟨List.replicate 1501 7, 1⟩]
  nonempty := List.cons_ne_nil _ _
  bounded := by decide

/-- It is handed on without its last byte, in either direction. -/
theorem oneTooLong_not_whole :
    ¬ ForwardsWhole Unit 9 (Registry.new 0) oneTooLong ∧
      ¬ ReturnsWhole Unit 9 (Registry.new 0) oneTooLong := by
  have long :
      ¬ oneTooLong.Short := by
    intro short
    have fits := short _ List.mem_cons_self
    rw [List.length_replicate] at fits
    exact absurd fits (by decide)
  exact ⟨fun whole => long (forwardsWhole_iff.1 whole),
    fun whole => long (returnsWhole_iff.1 whole)⟩

end ByteHub.Udp
