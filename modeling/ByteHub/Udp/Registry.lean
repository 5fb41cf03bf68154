import ByteHub.Udp.Batched
import ByteHub.Udp.Grouping

/-!
# Packet registries

A registry owns the packets of one receiver.  It is filled from the front,
its packets are grouped by address, and only what was received last is
handed out.
-/

namespace ByteHub.Udp

variable {Addr : Type}

/-- What `recvmmsg` brings: at least one datagram, and no more than there
are packets. -/
structure Batch (Addr : Type) where
  datagrams : List (Datagram Addr)
  nonempty : datagrams ≠ []
  bounded : datagrams.length ≤ maxPackets

/-- Packets, the ranges of their groups, and the number received last.  The
relay makes every registry with `MAX_PACKETS` packets. -/
structure Registry (Addr : Type) where
  pkts : List (Packet Addr)
  groups : List Range
  cursor : UInt16
  size : pkts.length = maxPackets

namespace Registry

def new (unset : Addr) : Registry Addr where
  pkts := List.replicate maxPackets (Packet.new unset)
  groups := []
  cursor := 0
  size := List.length_replicate

theorem length_recvSome
    (pkts : List (Packet Addr)) (datagrams : List (Datagram Addr)) :
    (recvSome pkts datagrams).1.length = pkts.length := by
  simp only [recvSome, List.length_append, List.length_zipWith,
    List.length_drop]
  omega

def batchedRecvOn (registry : Registry Addr) (batch : Batch Addr) :
    Registry Addr where
  pkts := (recvSome registry.pkts batch.datagrams).1
  groups := registry.groups
  cursor := UInt16.ofNat (recvSome registry.pkts batch.datagrams).2
  size := (length_recvSome _ _).trans registry.size

/-- The packets received last. -/
def iter (registry : Registry Addr) : List (Packet Addr) :=
  registry.pkts.take registry.cursor.toNat

/-- The groups of packets. -/
def groupIter (registry : Registry Addr) : List (List (Packet Addr)) :=
  registry.groups.map fun range => range.slice registry.pkts

variable [DecidableEq Addr]

/-- Equality of two packets for the grouping. -/
def sameAddr (a b : Packet Addr) : Bool := a.addr = b.addr

theorem sameAddr_equivalence :
    Equivalence fun a b : Packet Addr => sameAddr a b = true where
  refl _ := decide_eq_true rfl
  symm same := decide_eq_true (of_decide_eq_true same).symm
  trans first second :=
    decide_eq_true ((of_decide_eq_true first).trans
      (of_decide_eq_true second))

theorem length_groupByInner (pkts : List (Packet Addr)) :
    (groupByInner sameAddr pkts).1.length = pkts.length := by
  by_cases empty : pkts = []
  · subst empty
    rfl
  · rcases groupByInner_spec sameAddr_equivalence empty with
      ⟨groups, grouped, perm, _⟩
    rw [grouped]
    exact perm.length_eq

def groupByAddr (registry : Registry Addr) : Registry Addr where
  pkts :=
    (groupByInner sameAddr
        (registry.pkts.take registry.cursor.toNat)).1 ++
      registry.pkts.drop registry.cursor.toNat
  groups :=
    (groupByInner sameAddr
      (registry.pkts.take registry.cursor.toNat)).2
  cursor := registry.cursor
  size := by
    rw [List.length_append, length_groupByInner, ← List.length_append,
      List.take_append_drop, registry.size]

/-! ## What is handed out -/

omit [DecidableEq Addr]

variable (registry : Registry Addr) (batch : Batch Addr)

theorem cursor_batchedRecvOn :
    (registry.batchedRecvOn batch).cursor.toNat =
      batch.datagrams.length :=
  UInt16.toNat_ofNat_of_lt'
    (Nat.lt_of_le_of_lt batch.bounded (by decide))

theorem cursor_le_batchedRecvOn :
    (registry.batchedRecvOn batch).cursor.toNat ≤
      (registry.batchedRecvOn batch).pkts.length := by
  rw [cursor_batchedRecvOn, (registry.batchedRecvOn batch).size]
  exact batch.bounded

/-- After a receipt the registry hands out what was received, whatever it
held before. -/
theorem iter_batchedRecvOn :
    (registry.batchedRecvOn batch).iter =
      List.zipWith Packet.fill registry.pkts batch.datagrams := by
  have filled :
      (List.zipWith Packet.fill registry.pkts batch.datagrams).length =
        batch.datagrams.length := by
    rw [List.length_zipWith, registry.size]
    exact Nat.min_eq_right batch.bounded
  rw [iter, cursor_batchedRecvOn]
  exact List.take_left' filled

theorem iter_batchedRecvOn_ne_nil :
    (registry.batchedRecvOn batch).iter ≠ [] := by
  intro empty
  have lengths := congrArg List.length empty
  rw [iter_batchedRecvOn, List.length_zipWith, registry.size,
    Nat.min_eq_right batch.bounded] at lengths
  exact batch.nonempty (List.eq_nil_of_length_eq_zero lengths)

/-- The groups partition what was received, one group for each address. -/
theorem groupIter_spec
    [DecidableEq Addr] {registry : Registry Addr}
    (nonempty : registry.iter ≠ []) :
    registry.groupByAddr.groupIter.flatten.Perm registry.iter ∧
      Cut sameAddr registry.groupByAddr.groupIter := by
  rcases groupByInner_spec sameAddr_equivalence nonempty with
    ⟨groups, grouped, perm, cut⟩
  have small :
      groups.flatten.length < 65536 := by
    rw [perm.length_eq, iter, List.length_take, registry.size]
    exact Nat.lt_of_le_of_lt (Nat.min_le_right _ _) (by decide)
  have handedOut :
      registry.groupByAddr.groupIter = groups := by
    rw [iter] at grouped
    rw [groupIter, groupByAddr]
    dsimp only
    rw [grouped]
    exact slices_rangesOf [] groups _ small
  rw [handedOut]
  exact ⟨perm, cut⟩

end Registry

end ByteHub.Udp
