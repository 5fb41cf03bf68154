import ByteHub.Udp.Partition

/-!
# The order of a client's packets

While the packets of one client are brought together, those of the others
form a waiting line that each further packet of this client turns by one.  A
line that is turned while two packets of a client wait in it can bring them
into the wrong order.  It does not if the batch can be cut between the two so
that no other client has packets on both sides; and what the other clients
send can always make it happen unless the client's own places prevent it.
-/

namespace ByteHub.Udp

open ByteHub.Library

/-! ## Passes and parts -/

section Passes

variable {α : Type} {eq : α → α → Bool} {part : α → Bool}

/-- The elements equal to one of the part are the part. -/
def IsPart (eq : α → α → Bool) (part : α → Bool) : Prop :=
  ∀ x y, part x = true → (part y = true ↔ eq y x = true)

/-- At most one of the part comes before the cut and none of it without that
one, and nothing else is on both sides. -/
structure CutBetween
    (eq : α → α → Bool) (part : α → Bool) (before after : List α) :
    Prop where
  once : (before.filter part).length ≤ 1
  begun :
    (∃ x ∈ after, part x = true) → ∃ x ∈ before, part x = true
  apart :
    ∀ x ∈ before, ∀ y ∈ after, eq y x = true → part x = true

/-- Two lists with the same elements are equal if there is at most one. -/
theorem eq_of_perm_of_length_le_one
    {xs ys : List α} (perm : xs.Perm ys) (short : ys.length ≤ 1) :
    xs = ys := by
  cases ys with
  | nil => exact List.perm_nil.1 perm
  | cons y ys =>
      have none_left : ys = [] :=
        List.eq_nil_of_length_eq_zero
          (Nat.le_zero.1 (Nat.le_of_succ_le_succ short))
      subst none_left
      exact List.perm_singleton.1 perm

/-- A pass over another element leaves the cut in the line. -/
theorem CutBetween.line
    {first : α} {before after : List α}
    (cut : CutBetween eq part (first :: before) after)
    (leads : part first = false)
    (waits : ∀ x, part x = true → sameAs eq first x = false) :
    CutBetween eq part (WaitingLine.line (sameAs eq first) before)
        after ∧
      WaitingLine.line (sameAs eq first) (before ++ after) =
        WaitingLine.line (sameAs eq first) before ++ after ∧
      (WaitingLine.line (sameAs eq first) before).filter part =
        before.filter part := by
  have behind : ∀ y ∈ after, sameAs eq first y = false := by
    intro y member
    rw [Bool.eq_false_iff]
    intro same
    have own := cut.apart first List.mem_cons_self y member same
    rw [leads] at own
    cases own
  have once : (before.filter part).length ≤ 1 := by
    have short := cut.once
    rwa [List.filter_cons_of_neg (by simp [leads])] at short
  have stays :
      (before.filter fun x => !sameAs eq first x).filter part =
        before.filter part := by
    rw [List.filter_filter]
    apply List.filter_congr
    intro x _
    cases own : part x with
    | true => simp [waits x own]
    | false => rfl
  have same :
      (WaitingLine.line (sameAs eq first) before).filter part =
        before.filter part := by
    apply eq_of_perm_of_length_le_one _ once
    have perm :=
      (@WaitingLine.line_perm _ (sameAs eq first) before).filter part
    rwa [stays] at perm
  refine ⟨⟨?_, ?_, ?_⟩, WaitingLine.line_append_of_joins behind, same⟩
  · rwa [same]
  · intro some_after
    obtain ⟨x, member, own⟩ := cut.begun some_after
    rcases List.mem_cons.1 member with rfl | later
    · rw [leads] at own
      cases own
    · exact
        ⟨x, WaitingLine.mem_line_iff.2 ⟨later, waits x own⟩, own⟩
  · intro x member y there
    have earlier := (WaitingLine.mem_line_iff.1 member).1
    exact cut.apart x (List.mem_cons_of_mem _ earlier) y there

/-- The group of a part with a cut in it is the part, in its order. -/
theorem group_eq_filter
    (equivalence : Equivalence fun a b => eq a b = true)
    (isPart : IsPart eq part) {before after : List α}
    (cut : CutBetween eq part before after) {group : List α}
    (member : group ∈ passes eq (before ++ after)) {x : α}
    (inside : x ∈ group) (own : part x = true) :
    group = (before ++ after).filter part := by
  generalize whole : before ++ after = data at member
  induction data using passes.induct eq generalizing before with
  | case1 =>
      rw [passes] at member
      cases member
  | case2 first rest inductionHypothesis =>
      rw [passes] at member
      cases leads : part first with
      | true =>
          rw [List.filter_cons_of_pos leads]
          rcases List.mem_cons.1 member with rfl | later
          · apply congrArg (first :: ·)
            apply List.filter_congr
            intro y _
            exact (Bool.eq_iff_iff.2 (isPart first y leads)).symm
          · have waits :=
              (passes_perm eq _).mem_iff.1
                (List.mem_flatten.2 ⟨group, later, inside⟩)
            have apart := (WaitingLine.mem_line_iff.1 waits).2
            rw [sameAs, (isPart first x leads).1 own] at apart
            cases apart
      | false =>
          have waits :
              ∀ y : α, part y = true → sameAs eq first y = false := by
            intro y theirs
            rw [Bool.eq_false_iff]
            intro same
            rw [(isPart y first theirs).2 (equivalence.symm same)] at leads
            cases leads
          rcases List.mem_cons.1 member with rfl | later
          · rcases List.mem_cons.1 inside with rfl | joined
            · rw [leads] at own
              cases own
            · have same := (List.mem_filter.1 joined).2
              rw [waits x own] at same
              cases same
          · cases before with
            | nil =>
                have received : x ∈ rest := by
                  have there :=
                    (passes_perm eq _).mem_iff.1
                      (List.mem_flatten.2 ⟨group, later, inside⟩)
                  exact (WaitingLine.mem_line_iff.1 there).1
                have there : x ∈ after := by
                  rw [List.nil_append] at whole
                  rw [whole]
                  exact List.mem_cons_of_mem _ received
                obtain ⟨_, ⟨⟩, _⟩ := cut.begun ⟨x, there, own⟩
            | cons first' before =>
                rw [List.cons_append] at whole
                obtain ⟨rfl, rfl⟩ := List.cons.inj whole
                obtain ⟨kept, line, same⟩ := cut.line leads waits
                rw [inductionHypothesis kept line.symm later, line,
                  List.filter_append, same,
                  List.filter_cons_of_neg (by simp [leads]),
                  List.filter_append]

/-- One packet that is picked up behind two that wait turns them round. -/
theorem passes_turned
    {first one two caller : α} {lead middle more tail : List α}
    (calls :
      ∀ x ∈ lead ++ (middle ++ [caller]), sameAs eq first x = true)
    (joins :
      ∀ x ∈ one :: two :: (more ++ tail), sameAs eq first x = false) :
    ∃ group ∈
        passes eq (first :: (lead ++ one :: (middle ++
          two :: (more ++ caller :: tail)))),
      group.head? = some two := by
  have line :
      WaitingLine.line (sameAs eq first)
          (lead ++ one :: (middle ++ two :: (more ++ caller :: tail))) =
        two :: (more ++ one :: tail) := by
    have leadCalls : ∀ x ∈ lead, sameAs eq first x = true :=
      fun x member => calls x (by simp [member])
    have middleCalls : ∀ x ∈ middle, sameAs eq first x = true :=
      fun x member => calls x (by simp [member])
    have callerCalls : sameAs eq first caller = true :=
      calls caller (by simp)
    have oneJoins : sameAs eq first one = false := joins one (by simp)
    have twoJoins : sameAs eq first two = false := joins two (by simp)
    have moreJoins : ∀ x ∈ more, sameAs eq first x = false :=
      fun x member => joins x (by simp [member])
    have tailJoins : ∀ x ∈ tail, sameAs eq first x = false :=
      fun x member => joins x (by simp [member])
    rw [WaitingLine.line, List.foldl_append,
      WaitingLine.foldl_serve_of_calls leadCalls, List.foldl_cons,
      WaitingLine.serve_of_joins oneJoins, List.foldl_append,
      WaitingLine.foldl_serve_of_calls middleCalls, List.foldl_cons,
      WaitingLine.serve_of_joins twoJoins, List.foldl_append,
      WaitingLine.foldl_serve_of_joins moreJoins, List.foldl_cons,
      WaitingLine.serve_of_calls callerCalls,
      WaitingLine.foldl_serve_of_joins tailJoins]
    simp
  rw [passes, line, passes]
  exact ⟨_, List.mem_cons_of_mem _ List.mem_cons_self, rfl⟩

end Passes

/-! ## Places -/

/-- A place that is its own comes first of all, or there is at most one before
those at the end that are all its own. -/
def KeptInPlace (places : List Bool) : Prop :=
  places.head? = some true ∨
    ∃ before after : List Bool, places = before ++ after ∧
      (before.filter id).length ≤ 1 ∧ ∀ own ∈ after, own = true

/-- Up to the first value of a kind there are only others. -/
theorem exists_first_place
    (value : Bool) (places : List Bool) :
    (∀ own ∈ places, own = !value) ∨
      ∃ front back : List Bool,
        places = front ++ value :: back ∧ ∀ own ∈ front, own = !value := by
  induction places with
  | nil => exact .inl fun own member => absurd member List.not_mem_nil
  | cons own places inductionHypothesis =>
      by_cases here : own = value
      · subst here
        exact .inr ⟨[], places, rfl,
          fun own member => absurd member List.not_mem_nil⟩
      · have other : own = !value := Bool.eq_not_of_ne here
        rcases inductionHypothesis with
          none_left | ⟨front, back, rfl, others⟩
        · exact .inl (List.forall_mem_cons.2 ⟨other, none_left⟩)
        · exact .inr ⟨own :: front, back, rfl,
            List.forall_mem_cons.2 ⟨other, others⟩⟩

theorem filter_id_eq_nil
    {places : List Bool} (none_own : ∀ own ∈ places, own = !true) :
    places.filter id = [] := by
  apply List.filter_eq_nil_iff.2
  intro own member
  rw [none_own own member]
  decide

/-- Where the places do not keep the order, another packet comes first and
another one behind two of its own. -/
theorem exists_turn
    {places : List Bool} (turns : ¬KeptInPlace places) :
    ∃ lead middle more tail : List Bool,
      places =
        false :: (lead ++ true :: (middle ++
          true :: (more ++ false :: tail))) ∧
      (∀ own ∈ lead ++ middle, own = false) ∧
      ∀ own ∈ more, own = true := by
  have settled {before after : List Bool} (split : places = before ++ after)
      (once : (before.filter id).length ≤ 1)
      (own : ∀ own ∈ after, own = true) : False :=
    turns (.inr ⟨before, after, split, once, own⟩)
  have nobody : ∀ own ∈ ([] : List Bool), own = true :=
    fun own member => absurd member List.not_mem_nil
  rcases exists_first_place true places with
    none_own | ⟨lead, rest, split, leads⟩
  · exact (settled (List.append_nil _).symm
      (by rw [filter_id_eq_nil none_own]; exact Nat.zero_le 1)
      nobody).elim
  rcases exists_first_place true rest with
    none_own | ⟨middle, rest', split', middles⟩
  · refine (settled (split.trans (List.append_nil _).symm) ?_ nobody).elim
    rw [List.filter_append, filter_id_eq_nil leads, List.nil_append,
      List.filter_cons_of_pos rfl, filter_id_eq_nil none_own]
    exact Nat.le_refl 1
  rcases exists_first_place false rest' with
    all_own | ⟨more, tail, split'', mores⟩
  · have behind :
        places = (lead ++ true :: middle) ++ true :: rest' := by
      rw [split, split', List.append_assoc, List.cons_append]
    refine (settled behind ?_
      (List.forall_mem_cons.2 ⟨rfl, all_own⟩)).elim
    rw [List.filter_append, filter_id_eq_nil leads, List.nil_append,
      List.filter_cons_of_pos rfl, filter_id_eq_nil middles]
    exact Nat.le_refl 1
  cases lead with
  | nil =>
      rw [split] at turns
      exact (turns (.inl rfl)).elim
  | cons first lead =>
      obtain ⟨rfl, lead_others⟩ := List.forall_mem_cons.1 leads
      refine ⟨lead, middle, more, tail, ?_, ?_, mores⟩
      · rw [split, split', split'']
        rfl
      · intro own member
        rcases List.mem_append.1 member with early | late
        · exact lead_others own early
        · exact middles own late

/-! ## Batches -/

/-- Who has sent the packets of a batch, in the order of arrival. -/
def Batch.senders {Addr : Type} (batch : Batch Addr) : List Addr :=
  batch.datagrams.map Datagram.addr

/-- Which packets of a batch are a client's own. -/
def Batch.places
    {Addr : Type} (address : SameAddress Addr) (batch : Batch Addr)
    (client : Addr) : List Bool :=
  batch.senders.map fun addr => address.same addr client

/-- The batch can be cut behind the client's first packet and not behind its
second one, so that no other client has packets on both sides. -/
def Batch.CutsApart
    {Addr : Type} (address : SameAddress Addr) (batch : Batch Addr)
    (client : Addr) : Prop :=
  ∃ before after, batch.senders = before ++ after ∧
    CutBetween address.same (fun addr => address.same addr client)
      before after

namespace Registry

variable {Addr : Type}

/-- In the range of a client its packets are in the order in which they were
received. -/
def KeepsOrderOf
    (address : SameAddress Addr) (before after : Registry Addr)
    (client : Addr) : Prop :=
  ∀ range ∈ after.groups,
    (∃ pkt ∈ range.slice after.pkts,
      address.same pkt.addr client = true) →
      range.slice after.pkts =
        before.iter.filter fun pkt => address.same pkt.addr client

/-- The packets of every client keep their order. -/
def KeepsOrder
    (address : SameAddress Addr) (before after : Registry Addr) : Prop :=
  ∀ client : Addr, KeepsOrderOf address before after client

/-- Receiving a batch and grouping it keeps the order of a client. -/
def KeepsBatch
    (address : SameAddress Addr) (registry : Registry Addr)
    (batch : Batch Addr) (client : Addr) : Prop :=
  KeepsOrderOf address (registry.batchedRecvOn batch)
    ((registry.batchedRecvOn batch).groupByAddress address) client

theorem isPart_client (address : SameAddress Addr) (client : Addr) :
    IsPart address.eq fun pkt => address.same pkt.addr client := by
  intro x y own
  constructor
  · intro theirs
    exact address.equivalence.trans theirs (address.equivalence.symm own)
  · intro same
    exact address.equivalence.trans same own

section Cut

variable {address : SameAddress Addr} {client : Addr}
variable (registry : Registry Addr) {batch : Batch Addr}

/-- The packets come from those who have sent the batch. -/
theorem addr_iter (batch : Batch Addr) :
    ((registry.batchedRecvOn batch).iter.map fun pkt => pkt.addr) =
      batch.senders := by
  rw [iter_batchedRecvOn, Batch.senders]
  apply List.ext_getElem
  · rw [List.length_map, List.length_map, List.length_zipWith,
      registry.size]
    exact Nat.min_eq_right batch.bounded
  · intro place _ _
    simp [Packet.fill]

/-- A client of whom a batch can be cut apart keeps its order. -/
theorem keepsBatch_of_cutsApart
    (cuts : batch.CutsApart address client) :
    KeepsBatch address registry batch client := by
  rintro range recorded ⟨pkt, inside, own⟩
  have grouped :=
    groupedInto_passes address (iter_batchedRecvOn_ne_nil registry batch)
      (cursor_le_batchedRecvOn registry batch)
  have member := grouped.slice_mem recorded
  obtain ⟨early, late, split, cut⟩ := cuts
  rw [← addr_iter registry, List.map_eq_append_iff] at split
  obtain ⟨before, after, whole, rfl, rfl⟩ := split
  rw [whole] at member ⊢
  have once := cut.once
  rw [List.filter_map, List.length_map] at once
  have between :
      CutBetween address.eq (fun pkt => address.same pkt.addr client)
        before after := by
    refine ⟨once, ?_, ?_⟩
    · rintro ⟨x, there, theirs⟩
      obtain ⟨addr, here, ours⟩ :=
        cut.begun ⟨x.addr, List.mem_map_of_mem there, theirs⟩
      obtain ⟨y, earlier, rfl⟩ := List.mem_map.1 here
      exact ⟨y, earlier, ours⟩
    · intro x there y behind same
      exact cut.apart x.addr (List.mem_map_of_mem there) y.addr
        (List.mem_map_of_mem behind) same
  exact
    group_eq_filter address.eq_equivalence (isPart_client address client)
      between member inside own

/-- Places that keep the order of themselves cut the batch apart. -/
theorem cutsApart_of_keptInPlace
    (kept : KeptInPlace (batch.places address client)) :
    batch.CutsApart address client := by
  have own_of_same {x y : Addr} (theirs : address.same y client = true)
      (same : address.same y x = true) : address.same x client = true :=
    address.equivalence.trans (address.equivalence.symm same) theirs
  rcases kept with first | ⟨early, late, split, once, own⟩
  · rw [Batch.places, List.head?_map, Option.map_eq_some_iff] at first
    obtain ⟨sender, leads, ours⟩ := first
    obtain ⟨rest, split⟩ := List.head?_eq_some_iff.1 leads
    refine ⟨[sender], rest, split, ?_, ?_, ?_⟩
    · exact List.length_filter_le _ [sender]
    · intro _
      exact ⟨sender, List.mem_singleton_self _, ours⟩
    · intro x member y _ _
      rw [List.mem_singleton.1 member]
      exact ours
  · rw [Batch.places, List.map_eq_append_iff] at split
    obtain ⟨before, after, senders, rfl, rfl⟩ := split
    rw [List.filter_map, List.length_map] at once
    have ours : ∀ y ∈ after, address.same y client = true :=
      fun y member => own _ (List.mem_map_of_mem member)
    have apart (front back : List Addr)
        (subset : ∀ y ∈ back, y ∈ after) :
        ∀ x ∈ front, ∀ y ∈ back, address.same y x = true →
          address.same x client = true :=
      fun x _ y member => own_of_same (ours y (subset y member))
    by_cases begun : ∃ x ∈ before, address.same x client = true
    · exact ⟨before, after, senders, once, fun _ => begun,
        apart before after fun _ member => member⟩
    have nobody :
        (before.filter fun x => address.same x client) = [] :=
      List.filter_eq_nil_iff.2 fun x member theirs =>
        begun ⟨x, member, theirs⟩
    cases after with
    | nil =>
        refine ⟨before, [], senders, once, ?_, ?_⟩
        · rintro ⟨x, ⟨⟩, _⟩
        · rintro x _ y ⟨⟩
    | cons next after =>
        have next_own := ours next List.mem_cons_self
        refine
          ⟨before ++ [next], after, senders.trans (List.append_cons ..),
            ?_, ?_, apart _ after fun _ => List.mem_cons_of_mem _⟩
        · rw [List.filter_append, nobody, List.nil_append]
          exact List.length_filter_le _ [next]
        · intro _
          exact ⟨next, by simp, next_own⟩

end Cut

/-! ## Batches that turn a client's packets -/

section Turned

variable {address : SameAddress Addr} {client other another : Addr}

/-- An empty datagram of the client or of somebody else. -/
def slot (client bystander : Addr) (own : Bool) : Datagram Addr :=
  ⟨[], if own then client else bystander⟩

/-- Datagrams of which the client's first two, `1` and `2`, wait when another
one of `other` comes; after that nobody else has sent any before. -/
def turnedDatagrams
    (client other another : Addr) (lead middle more tail : List Bool) :
    List (Datagram Addr) :=
  slot client other false ::
    (lead.map (slot client other) ++ ⟨[1], client⟩ ::
      (middle.map (slot client other) ++ ⟨[2], client⟩ ::
        (more.map (slot client other) ++ slot client other false ::
          tail.map (slot client another))))

theorem same_slot
    {bystander : Addr}
    (differs : address.same bystander client = false) (own : Bool) :
    address.same (slot client bystander own).addr client = own := by
  cases own with
  | true => exact address.equivalence.refl client
  | false => exact differs

/-- The client's own are where they were. -/
theorem places_turned
    (differs : address.same other client = false)
    (differs' : address.same another client = false)
    (lead middle more tail : List Bool) :
    ((turnedDatagrams client other another lead middle more tail).map
        Datagram.addr).map (fun addr => address.same addr client) =
      false :: (lead ++ true :: (middle ++
        true :: (more ++ false :: tail))) := by
  have self : address.same client client = true :=
    address.equivalence.refl client
  simp [turnedDatagrams, Function.comp_def, same_slot differs,
    same_slot differs', self]

/-- What a registry shows of short datagrams is the datagrams. -/
theorem shown_iter
    (registry : Registry Addr) {batch : Batch Addr}
    (short : ∀ datagram ∈ batch.datagrams,
      datagram.payload.length ≤ packetSize) :
    ((registry.batchedRecvOn batch).iter.map fun pkt =>
        pkt.refWithAddr pkt.addr) = batch.datagrams := by
  rw [iter_batchedRecvOn]
  apply List.ext_getElem
  · rw [List.length_map, List.length_zipWith, registry.size]
    exact Nat.min_eq_right batch.bounded
  · intro place _ inside
    have small := short _ (List.getElem_mem inside)
    rw [List.getElem_map, List.getElem_zipWith, Packet.refWithAddr_fill,
      List.take_of_length_le small]
    rfl

theorem addr_of_shown
    {pkts : List (Packet Addr)} {places : List Bool}
    {datagram : Bool → Datagram Addr}
    (shown :
      (pkts.map fun pkt => pkt.refWithAddr pkt.addr) =
        places.map datagram) {pkt : Packet Addr} (member : pkt ∈ pkts) :
    ∃ own ∈ places, pkt.addr = (datagram own).addr := by
  have there :
      pkt.refWithAddr pkt.addr ∈ places.map datagram := by
    rw [← shown]
    exact List.mem_map.2 ⟨pkt, member, rfl⟩
  obtain ⟨own, place, same⟩ := List.mem_map.1 there
  exact ⟨own, place, (congrArg Datagram.addr same).symm⟩

theorem turned_short
    {lead middle more tail : List Bool} {datagram : Datagram Addr}
    (member :
      datagram ∈ turnedDatagrams client other another lead middle more
        tail) :
    datagram.payload.length ≤ packetSize := by
  simp only [turnedDatagrams, List.mem_cons, List.mem_append,
    List.mem_map] at member
  rcases member with rfl | ⟨own, _, rfl⟩ | rfl | ⟨own, _, rfl⟩ | rfl |
    ⟨own, _, rfl⟩ | rfl | ⟨own, _, rfl⟩
  all_goals exact Nat.le_of_ble_eq_true rfl

/-- Who has sent the packets that show such datagrams. -/
theorem exists_of_shown_turned
    {lead middle more tail : List Bool}
    (others : ∀ own ∈ lead ++ middle, own = false)
    (ours : ∀ own ∈ more, own = true) {pkts : List (Packet Addr)}
    (shown :
      (pkts.map fun pkt => pkt.refWithAddr pkt.addr) =
        turnedDatagrams client other another lead middle more tail) :
    ∃ (first one two caller : Packet Addr)
        (early between later late : List (Packet Addr)),
      pkts =
        first :: (early ++ one :: (between ++
          two :: (later ++ caller :: late))) ∧
      one ≠ two ∧ first.addr = other ∧
      (∀ x ∈ early ++ (between ++ [caller]), x.addr = other) ∧
      (∀ x ∈ one :: two :: later, x.addr = client) ∧
      ∀ x ∈ late, x.addr = client ∨ x.addr = another := by
  rw [turnedDatagrams, List.map_eq_cons_iff] at shown
  obtain ⟨first, rest, rfl, firstShown, shown⟩ := shown
  obtain ⟨early, rest, rfl, earlyShown, shown⟩ :=
    List.map_eq_append_iff.1 shown
  obtain ⟨one, rest, rfl, oneShown, shown⟩ :=
    List.map_eq_cons_iff.1 shown
  obtain ⟨between, rest, rfl, betweenShown, shown⟩ :=
    List.map_eq_append_iff.1 shown
  obtain ⟨two, rest, rfl, twoShown, shown⟩ :=
    List.map_eq_cons_iff.1 shown
  obtain ⟨later, rest, rfl, laterShown, shown⟩ :=
    List.map_eq_append_iff.1 shown
  obtain ⟨caller, late, rfl, callerShown, lateShown⟩ :=
    List.map_eq_cons_iff.1 shown
  refine ⟨first, one, two, caller, early, between, later, late, rfl, ?_,
    congrArg Datagram.addr firstShown, ?_, ?_, ?_⟩
  · rintro rfl
    rw [oneShown] at twoShown
    cases twoShown
  · intro x member
    rcases List.mem_append.1 member with lead_ | rest
    · obtain ⟨own, place, same⟩ := addr_of_shown earlyShown lead_
      rw [same, others own (List.mem_append_left _ place)]
      rfl
    · rcases List.mem_append.1 rest with middle_ | last
      · obtain ⟨own, place, same⟩ := addr_of_shown betweenShown middle_
        rw [same, others own (List.mem_append_right _ place)]
        rfl
      · rw [List.mem_singleton.1 last]
        exact congrArg Datagram.addr callerShown
  · intro x member
    rcases List.mem_cons.1 member with rfl | rest
    · exact congrArg Datagram.addr oneShown
    · rcases List.mem_cons.1 rest with rfl | more_
      · exact congrArg Datagram.addr twoShown
      · obtain ⟨own, place, same⟩ := addr_of_shown laterShown more_
        rw [same, ours own place]
        rfl
  · intro x member
    obtain ⟨own, _, same⟩ := addr_of_shown lateShown member
    cases own with
    | true => exact .inl same
    | false => exact .inr same

section Senders

variable {first one two caller : Packet Addr}
variable {early between later late : List (Packet Addr)}

/-- The other one's packets turn the line until the client's second one is
its first. -/
theorem exists_group_of_turned
    (foreign : address.same client other = false)
    (apart : address.same another other = false)
    (firstAddr : first.addr = other)
    (otherAddr : ∀ x ∈ early ++ (between ++ [caller]), x.addr = other)
    (clientAddr : ∀ x ∈ one :: two :: later, x.addr = client)
    (lateAddr : ∀ x ∈ late, x.addr = client ∨ x.addr = another) :
    ∃ group ∈
        passes address.eq (first :: (early ++ one :: (between ++
          two :: (later ++ caller :: late)))),
      group.head? = some two := by
  apply passes_turned
  · intro x member
    rw [sameAs, SameAddress.eq, otherAddr x member, firstAddr]
    exact address.equivalence.refl other
  · intro x member
    have sender : x.addr = client ∨ x.addr = another := by
      rw [← List.cons_append, ← List.cons_append] at member
      rcases List.mem_append.1 member with own | last
      · exact .inl (clientAddr x own)
      · exact lateAddr x last
    rw [sameAs, SameAddress.eq, firstAddr]
    rcases sender with same | same
    · rw [same]
      exact foreign
    · rw [same]
      exact apart

/-- Before the client's first packet there are only the other one's. -/
theorem head_of_client_turned
    (differs : address.same other client = false)
    (firstAddr : first.addr = other)
    (earlyAddr : ∀ x ∈ early, x.addr = other)
    (oneAddr : one.addr = client) (rest : List (Packet Addr)) :
    ((first :: (early ++ one :: rest)).filter fun pkt =>
      address.same pkt.addr client).head? = some one := by
  have none_before :
      (first :: early).filter
        (fun pkt => address.same pkt.addr client) = [] := by
    apply List.filter_eq_nil_iff.2
    intro x place
    have sender : x.addr = other := by
      rcases List.mem_cons.1 place with rfl | inside
      · exact firstAddr
      · exact earlyAddr x inside
    rw [sender, differs]
    exact Bool.false_ne_true
  have one_own : address.same one.addr client = true := by
    rw [oneAddr]
    exact address.equivalence.refl client
  rw [← List.cons_append, List.filter_append, none_before,
    List.nil_append,
    @List.filter_cons_of_pos _
      (fun pkt : Packet Addr => address.same pkt.addr client) one _ one_own]
  rfl

end Senders

/-- The client's second packet comes to stand before its first one. -/
theorem not_keepsBatch_turned
    (registry : Registry Addr) {batch : Batch Addr}
    {lead middle more tail : List Bool}
    (differs : address.same other client = false)
    (apart : address.same another other = false)
    (others : ∀ own ∈ lead ++ middle, own = false)
    (ours : ∀ own ∈ more, own = true)
    (datagrams :
      batch.datagrams =
        turnedDatagrams client other another lead middle more tail) :
    ¬KeepsBatch address registry batch client := by
  intro keeps
  have foreign : address.same client other = false := by
    rw [Bool.eq_false_iff] at differs ⊢
    exact fun same => differs (address.equivalence.symm same)
  have shown := @shown_iter _ registry batch
    fun datagram member => turned_short (datagrams ▸ member)
  rw [datagrams] at shown
  rcases exists_of_shown_turned others ours shown with
    ⟨first, one, two, caller, early, between, later, late, whole, differ,
      firstAddr, otherAddr, clientAddr, lateAddr⟩
  have oneAddr := clientAddr one List.mem_cons_self
  have twoAddr := clientAddr two (List.mem_cons_of_mem _ List.mem_cons_self)
  obtain ⟨group, member, head⟩ :=
    exists_group_of_turned foreign apart firstAddr otherAddr clientAddr
      lateAddr
  have grouped :=
    groupedInto_passes address (iter_batchedRecvOn_ne_nil registry batch)
      (cursor_le_batchedRecvOn registry batch)
  rw [← whole, ← grouped.slices] at member
  obtain ⟨range, recorded, rfl⟩ := List.mem_map.1 member
  have two_own : address.same two.addr client = true := by
    rw [twoAddr]
    exact address.equivalence.refl client
  have kept :=
    keeps range recorded ⟨two, List.mem_of_head? head, two_own⟩
  have leads :=
    head_of_client_turned differs firstAddr
      (fun x inside => otherAddr x (List.mem_append_left _ inside)) oneAddr
      (between ++ two :: (later ++ caller :: late))
  rw [← whole, ← kept, head] at leads
  exact differ (Option.some.inj leads).symm

end Turned

/-- A datagram of client 1, two of client 2, and one of client 1. -/
def interleaved : Batch ℕ where
  datagrams := [⟨[1], 1⟩, ⟨[2], 2⟩, ⟨[3], 2⟩, ⟨[4], 1⟩]
  nonempty := List.cons_ne_nil _ _
  bounded := by decide

end Registry

end ByteHub.Udp
