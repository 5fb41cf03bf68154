import ByteHub.Udp.Registry

/-!
# Partition of a batch

Addresses may be compared by any equivalence.  Grouping permutes the packets
of a batch, and the ranges it records follow one another without a gap from
the first packet to the last.  So every packet is in one group, among the
packets of its own client.
-/

namespace ByteHub.Udp

/-! ## Consecutive ranges -/

/-- Non-empty ranges that follow one another from a start to a stop. -/
def Consecutive : ℕ → List Range → ℕ → Prop
  | start, [], stop => start = stop
  | start, range :: ranges, stop =>
      range.start.toNat = start ∧ start < range.stop.toNat ∧
        Consecutive range.stop.toNat ranges stop

/-- A position in a range. -/
def Range.Contains (range : Range) (position : ℕ) : Prop :=
  range.start.toNat ≤ position ∧ position < range.stop.toNat

section Consecutive

variable {α : Type} {ranges : List Range} {start stop position : ℕ}

theorem Consecutive.le (consecutive : Consecutive start ranges stop) :
    start ≤ stop := by
  induction ranges generalizing start with
  | nil => exact Nat.le_of_eq consecutive
  | cons range ranges inductionHypothesis =>
      rcases consecutive with ⟨_, grows, rest⟩
      exact Nat.le_of_lt
        (Nat.lt_of_lt_of_le grows (inductionHypothesis rest))

/-- No range starts before the first one. -/
theorem Consecutive.start_le
    (consecutive : Consecutive start ranges stop) {range : Range}
    (member : range ∈ ranges) : start ≤ range.start.toNat := by
  induction ranges generalizing start with
  | nil => cases member
  | cons first ranges inductionHypothesis =>
      rcases consecutive with ⟨here, grows, rest⟩
      rcases List.mem_cons.1 member with rfl | later
      · exact Nat.le_of_eq here.symm
      · exact Nat.le_of_lt
          (Nat.lt_of_lt_of_le grows (inductionHypothesis rest later))

/-- Every position between start and stop is in one of the ranges, and in
no other. -/
theorem Consecutive.existsUnique
    (consecutive : Consecutive start ranges stop)
    (after : start ≤ position) (before : position < stop) :
    ∃! place : ℕ, ∃ range : Range, ranges[place]? = some range ∧
      range.Contains position := by
  induction ranges generalizing start with
  | nil =>
      change start = stop at consecutive
      omega
  | cons range ranges inductionHypothesis =>
      rcases consecutive with ⟨here, grows, rest⟩
      rcases Nat.lt_or_ge position range.stop.toNat with inside | past
      · refine ⟨0, ⟨range, rfl, here ▸ after, inside⟩, ?_⟩
        rintro place ⟨other, there, reached, _⟩
        cases place with
        | zero => rfl
        | succ place =>
            have later := rest.start_le (List.mem_of_getElem? there)
            omega
      · rcases inductionHypothesis rest past with
          ⟨place, ⟨other, there, contains⟩, unique⟩
        refine ⟨place + 1, ⟨other, there, contains⟩, ?_⟩
        rintro place' ⟨other', there', contains'⟩
        cases place' with
        | zero =>
            cases there'
            have early := contains'.2
            omega
        | succ place' =>
            rw [unique place' ⟨other', there', contains'⟩]

/-- The ranges of non-empty groups follow one another. -/
theorem consecutive_rangesOf
    (start : ℕ) {groups : List (List α)}
    (nonempty : ∀ group ∈ groups, group ≠ [])
    (small : start + groups.flatten.length < 65536) :
    Consecutive start (rangesOf start groups)
      (start + groups.flatten.length) := by
  induction groups generalizing start with
  | nil => rfl
  | cons group groups inductionHypothesis =>
      rw [List.flatten_cons, List.length_append, ← Nat.add_assoc]
        at small ⊢
      have positive : 0 < group.length :=
        List.length_pos_of_ne_nil (nonempty group List.mem_cons_self)
      have startFits : (UInt16.ofNat start).toNat = start :=
        UInt16.toNat_ofNat_of_lt' (by change _ < 65536; omega)
      have stopFits :
          (UInt16.ofNat (start + group.length)).toNat =
            start + group.length :=
        UInt16.toNat_ofNat_of_lt' (by change _ < 65536; omega)
      refine ⟨startFits, ?_, ?_⟩
      · rw [Range.between, stopFits]
        omega
      · rw [Range.between, stopFits]
        exact inductionHypothesis (start + group.length)
          (fun other member =>
            nonempty other (List.mem_cons_of_mem _ member)) small

end Consecutive

/-! ## Grouping by any equivalence -/

/-- An equivalence of addresses that can be tested. -/
structure SameAddress (Addr : Type) where
  same : Addr → Addr → Bool
  equivalence : Equivalence fun a b => same a b = true

namespace SameAddress

variable {Addr : Type}

/-- Equality of addresses. -/
def ofEq [DecidableEq Addr] : SameAddress Addr where
  same a b := a = b
  equivalence :=
    { refl := fun _ => decide_eq_true rfl
      symm := fun same => decide_eq_true (of_decide_eq_true same).symm
      trans := fun first second =>
        decide_eq_true ((of_decide_eq_true first).trans
          (of_decide_eq_true second)) }

variable (address : SameAddress Addr)

/-- `|a, b| a.addr == b.addr` -/
def eq (a b : Packet Addr) : Bool :=
  address.same a.addr b.addr

theorem eq_equivalence :
    Equivalence fun a b : Packet Addr => address.eq a b = true where
  refl packet := address.equivalence.refl packet.addr
  symm := address.equivalence.symm
  trans := address.equivalence.trans

theorem length_groupByInner (pkts : List (Packet Addr)) :
    (groupByInner address.eq pkts).1.length = pkts.length := by
  by_cases empty : pkts = []
  · subst empty
    rfl
  · rcases groupByInner_spec address.eq_equivalence empty with
      ⟨groups, grouped, perm, _⟩
    rw [grouped]
    exact perm.length_eq

end SameAddress

namespace Registry

variable {Addr : Type}

/-- `group_by_addr`, with the equality of addresses a parameter. -/
def groupByAddress
    (address : SameAddress Addr) (registry : Registry Addr) :
    Registry Addr where
  pkts :=
    (groupByInner address.eq
        (registry.pkts.take registry.cursor.toNat)).1 ++
      registry.pkts.drop registry.cursor.toNat
  groups :=
    (groupByInner address.eq
      (registry.pkts.take registry.cursor.toNat)).2
  cursor := registry.cursor
  size := by
    rw [List.length_append, address.length_groupByInner,
      ← List.length_append, List.take_append_drop, registry.size]

theorem groupByAddress_ofEq
    [DecidableEq Addr] (registry : Registry Addr) :
    registry.groupByAddress .ofEq = registry.groupByAddr :=
  rfl

/-- What grouping makes of a registry: `before` holds the packets as they
were received, `after` as they are grouped. -/
structure Partitions
    (address : SameAddress Addr) (before after : Registry Addr) :
    Prop where
  perm : after.pkts.Perm before.pkts
  received : after.iter.Perm before.iter
  rest : after.pkts.drop before.cursor.toNat =
    before.pkts.drop before.cursor.toNat
  /-- The ranges are not empty, follow one another, and cover the batch. -/
  consecutive : Consecutive 0 after.groups before.iter.length
  /-- All packets of a range are from one address. -/
  equal : ∀ range ∈ after.groups,
    ∀ a ∈ range.slice after.pkts, ∀ b ∈ range.slice after.pkts,
      address.same a.addr b.addr = true
  /-- No address occurs in two ranges. -/
  apart : after.groups.Pairwise fun range other =>
    ∀ a ∈ range.slice after.pkts, ∀ b ∈ other.slice after.pkts,
      address.same a.addr b.addr = false
  /-- Every packet of the batch is in just one of the ranges. -/
  once : ∀ position < before.iter.length,
    ∃! place : ℕ, ∃ range : Range, after.groups[place]? = some range ∧
      range.Contains position
  /-- What is handed to `send_all`, group after group, is what was
  received, and each group is that of the client of its first packet. -/
  handed : after.groupIter.flatten.Perm before.iter ∧
    ∀ pkts ∈ after.groupIter, ∃ first, pkts.head? = some first ∧
      ∀ pkt ∈ pkts, address.same pkt.addr first.addr = true

/-- A registry has been grouped into some groups. -/
structure GroupedInto
    (address : SameAddress Addr) (before after : Registry Addr)
    (groups : List (List (Packet Addr))) : Prop where
  pkts : after.pkts =
    groups.flatten ++ before.pkts.drop before.cursor.toNat
  ranges : after.groups = rangesOf 0 groups
  batch : after.iter = groups.flatten
  perm : groups.flatten.Perm before.iter
  cut : Cut address.eq groups
  length : groups.flatten.length = before.cursor.toNat

theorem groupedInto_passes
    (address : SameAddress Addr) {registry : Registry Addr}
    (nonempty : registry.iter ≠ [])
    (bounded : registry.cursor.toNat ≤ registry.pkts.length) :
    GroupedInto address registry (registry.groupByAddress address)
      (passes address.eq registry.iter) := by
  have grouped := groupByInner_eq address.eq nonempty
  have perm := passes_perm address.eq registry.iter
  have stop :
      (passes address.eq registry.iter).flatten.length =
        registry.cursor.toNat := by
    rw [perm.length_eq, iter, List.length_take]
    exact Nat.min_eq_left bounded
  have pkts :
      (registry.groupByAddress address).pkts =
        (passes address.eq registry.iter).flatten ++
          registry.pkts.drop registry.cursor.toNat := by
    rw [groupByAddress]
    dsimp only
    rw [← iter, grouped]
  refine
    ⟨pkts, ?_, ?_, perm, cut_passes address.eq_equivalence _, stop⟩
  · rw [groupByAddress]
    dsimp only
    rw [← iter, grouped]
  · rw [iter, pkts]
    exact List.take_left' stop

section GroupedInto

variable {address : SameAddress Addr} {before after : Registry Addr}
variable {groups : List (List (Packet Addr))}

theorem GroupedInto.small
    (grouped : GroupedInto address before after groups) :
    groups.flatten.length < 65536 := by
  rw [grouped.length]
  exact before.cursor.toNat_lt

/-- The ranges cut the groups out of the packets. -/
theorem GroupedInto.slices
    (grouped : GroupedInto address before after groups) :
    after.groups.map (fun range => range.slice after.pkts) = groups := by
  rw [grouped.ranges, grouped.pkts]
  exact slices_rangesOf [] groups _ grouped.small

theorem GroupedInto.slice_mem
    (grouped : GroupedInto address before after groups) {range : Range}
    (member : range ∈ after.groups) :
    range.slice after.pkts ∈ groups := by
  rw [← grouped.slices]
  exact List.mem_map_of_mem member

theorem GroupedInto.consecutive
    (grouped : GroupedInto address before after groups) :
    Consecutive 0 after.groups before.iter.length := by
  have covered := consecutive_rangesOf 0 grouped.cut.nonempty
    (by rw [Nat.zero_add]; exact grouped.small)
  rw [Nat.zero_add, grouped.perm.length_eq] at covered
  rw [grouped.ranges]
  exact covered

theorem GroupedInto.groupIter_eq
    (grouped : GroupedInto address before after groups) :
    after.groupIter = groups := by
  rw [groupIter]
  exact grouped.slices

end GroupedInto

/-- Grouping partitions what was received last, unless that is nothing. -/
theorem partitions_groupByAddress
    (address : SameAddress Addr) {registry : Registry Addr}
    (nonempty : registry.iter ≠ [])
    (bounded : registry.cursor.toNat ≤ registry.pkts.length) :
    Partitions address registry (registry.groupByAddress address) := by
  have grouped := groupedInto_passes address nonempty bounded
  have split :
      registry.iter ++ registry.pkts.drop registry.cursor.toNat =
        registry.pkts :=
    List.take_append_drop _ _
  constructor
  · rw [grouped.pkts]
    exact (grouped.perm.append_right _).trans (List.Perm.of_eq split)
  · rw [grouped.batch]
    exact grouped.perm
  · rw [grouped.pkts]
    exact List.drop_left' grouped.length
  · exact grouped.consecutive
  · intro range member a aMem b bMem
    exact grouped.cut.equal _ (grouped.slice_mem member) a aMem b bMem
  · have apart := grouped.cut.apart
    rw [← grouped.slices, List.pairwise_map] at apart
    exact apart
  · intro position before
    exact grouped.consecutive.existsUnique (Nat.zero_le position) before
  · rw [grouped.groupIter_eq]
    refine ⟨grouped.perm, ?_⟩
    intro group member
    cases group with
    | nil => exact (grouped.cut.nonempty _ member rfl).elim
    | cons first group =>
        exact ⟨first, rfl, fun pkt there =>
          grouped.cut.equal _ member pkt there first List.mem_cons_self⟩

/-- Whatever batch is received into whatever registry, grouping it by any
equivalence of addresses partitions it.  With the equality of addresses this
is the grouping of the code. -/
theorem partitions_batchedRecvOn
    (address : SameAddress Addr) (registry : Registry Addr)
    (batch : Batch Addr) :
    Partitions address (registry.batchedRecvOn batch)
        ((registry.batchedRecvOn batch).groupByAddress address) ∧
      ∀ [DecidableEq Addr],
        (registry.batchedRecvOn batch).groupByAddress .ofEq =
          (registry.batchedRecvOn batch).groupByAddr := by
  refine ⟨?_, groupByAddress_ofEq _⟩
  apply partitions_groupByAddress
  · exact iter_batchedRecvOn_ne_nil registry batch
  · exact cursor_le_batchedRecvOn registry batch

end Registry

end ByteHub.Udp
