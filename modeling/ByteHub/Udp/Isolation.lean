import ByteHub.Udp.Middle

/-!
# Errors of other clients

A client whose association opens and whose datagrams are accepted should be
served in every batch.  The relay stops at the first client that fails, so
it serves all others only if none of them has its turn later.
-/

namespace ByteHub.Udp

variable {Addr Error : Type} [DecidableEq Addr]

/-! ## Failing and being served -/

section Clients

variable (answers : RelayAnswers Addr Error) (raddr : Addr)
variable (sockmap : SockMap Addr)

/-- The packets of a client. -/
def packetsOf (client : Addr) (pkts : List (Packet Addr)) :
    List (Packet Addr) :=
  pkts.filter fun pkt => pkt.addr = client

/-- The client has no association, and none can be opened. -/
def OpenFails (client : Addr) : Prop :=
  ∃ error, ((atTurn answers sockmap client).findOrInsert client
    (answers.associate client)).1 = .error error

/-- The kernel fails while it is given the packets of the client. -/
def SendFails (client : Addr) (pkts : List (Packet Addr)) : Prop :=
  ∃ error, (sendAll (answers.send client)
    (pkts.map fun pkt => pkt.refWithAddr raddr)).result = .error error

/-- Opening the association or sending the datagrams of a client fails. -/
def Fails (pkts : List (Packet Addr)) (client : Addr) : Prop :=
  OpenFails answers sockmap client ∨
    SendFails answers raddr client (packetsOf client pkts)

/-- Every datagram of the client has been handed to the kernel once, on the
socket that is associated with the client. -/
def Served
    (pkts : List (Packet Addr)) (relayed : Relayed Addr Error)
    (client : Addr) : Prop :=
  ∃ socket, relayed.sockmap.find client = some socket ∧
    (relayed.handed.filter fun handed => handed.client = client).Perm
      ((packetsOf client pkts).map fun pkt =>
        ⟨client, socket, pkt.refWithAddr raddr⟩)

/-- Every client of a batch that does not fail itself is served. -/
def Isolated (registry : Registry Addr) (batch : Batch Addr) : Prop :=
  ∀ pkt ∈ (registry.batchedRecvOn batch).iter,
    ¬ Fails answers raddr sockmap (registry.batchedRecvOn batch).iter
        pkt.addr →
      Served raddr (registry.batchedRecvOn batch).iter
        (associateAndRelay answers (.ok raddr) sockmap registry batch)
        pkt.addr

/-- In the order of the groups only clients that fail follow one that
fails. -/
def FailsLast (registry : Registry Addr) (batch : Batch Addr) : Prop :=
  (registry.batchedRecvOn batch).groupByAddr.groupIter.Pairwise
    fun group later => ∀ a ∈ group, ∀ b ∈ later,
      Fails answers raddr sockmap (registry.batchedRecvOn batch).iter
          a.addr →
        Fails answers raddr sockmap (registry.batchedRecvOn batch).iter
          b.addr

end Clients

/-! ## One group -/

section Group

variable {answers : RelayAnswers Addr Error} {raddr : Addr}
variable {sockmap : SockMap Addr} {first : Packet Addr}
variable {rest : List (Packet Addr)}

omit [DecidableEq Addr] in
theorem sendFails_congr
    {client : Addr} {pkts others : List (Packet Addr)}
    (same : pkts.length = others.length) :
    SendFails answers raddr client pkts ↔
      SendFails answers raddr client others := by
  have lengths :
      (pkts.map fun pkt => pkt.refWithAddr raddr).length =
        (others.map fun pkt => pkt.refWithAddr raddr).length := by
    rw [List.length_map, List.length_map, same]
  unfold SendFails
  rw [sendAll_result (answers.send client) lengths]

theorem find_atTurn_of_ne {client other : Addr} (differ : other ≠ client) :
    (atTurn answers sockmap client).find other = sockmap.find other := by
  unfold atTurn
  split
  · exact sockmap.find_remove_of_ne differ
  · rfl

/-- Relaying a group leaves the entries of other clients alone. -/
theorem relayGroup_find_of_ne {other : Addr} (differ : other ≠ first.addr) :
    (relayGroup answers raddr sockmap (first :: rest)).sockmap.find other =
      sockmap.find other := by
  have kept :
      ((atTurn answers sockmap first.addr).findOrInsert first.addr
        (answers.associate first.addr)).2.find other =
          sockmap.find other :=
    (SockMap.find_findOrInsert_of_ne _ _ differ).trans
      (find_atTurn_of_ne differ)
  rw [relayGroup]
  split
  · next found =>
    rw [found] at kept
    exact kept
  · next found =>
    rw [found] at kept
    exact kept

/-- What is handed over for a group is handed over for its client. -/
theorem relayGroup_client
    {handed : Handed Addr}
    (member : handed ∈
      (relayGroup answers raddr sockmap (first :: rest)).handed) :
    handed.client = first.addr := by
  rw [relayGroup] at member
  split at member
  · cases member
  · rcases List.mem_map.1 member with ⟨datagram, _, rfl⟩
    rfl

/-- A group whose client fails ends the batch. -/
theorem relayGroup_fails
    (fails : OpenFails answers sockmap first.addr ∨
      SendFails answers raddr first.addr (first :: rest)) :
    ∃ error, (relayGroup answers raddr sockmap (first :: rest)).result =
      .error error := by
  rw [relayGroup]
  split
  · exact ⟨_, rfl⟩
  · next found =>
    rcases fails with ⟨error, failed⟩ | failed
    · rw [found] at failed
      cases failed
    · exact failed

/-- A group whose client does not fail is handed over. -/
theorem relayGroup_succeeds
    (opens : ¬ OpenFails answers sockmap first.addr)
    (sends : ¬ SendFails answers raddr first.addr (first :: rest)) :
    ∃ socket,
      (relayGroup answers raddr sockmap (first :: rest)).handed =
        (first :: rest).map
          (fun pkt => ⟨first.addr, socket, pkt.refWithAddr raddr⟩) ∧
      (relayGroup answers raddr sockmap (first :: rest)).result = .ok () ∧
      (relayGroup answers raddr sockmap (first :: rest)).sockmap.find
        first.addr = some socket := by
  have succeeded :
      (sendAll (answers.send first.addr)
        ((first :: rest).map fun pkt =>
          pkt.refWithAddr raddr)).result = .ok () := by
    cases result : (sendAll (answers.send first.addr)
        ((first :: rest).map fun pkt => pkt.refWithAddr raddr)).result with
    | ok _ => rfl
    | error error => exact (sends ⟨error, result⟩).elim
  have kept :=
    @SockMap.find_findOrInsert _ Error _
      (atTurn answers sockmap first.addr) first.addr
      (answers.associate first.addr)
  rw [relayGroup]
  split
  · next error _ found => exact (opens ⟨error, by rw [found]⟩).elim
  · next socket _ found =>
    rw [found] at kept
    refine ⟨socket, ?_, succeeded, kept rfl⟩
    dsimp only
    rw [(sendAll_spec _ _).2 succeeded, List.map_map]
    rfl

end Group

/-! ## All groups -/

section Groups

variable {answers : RelayAnswers Addr Error} {raddr : Addr}
variable {sockmap : SockMap Addr} {groups : List (List (Packet Addr))}

theorem openFails_iff {client : Addr} :
    OpenFails answers sockmap client ↔
      (answers.removed client = true ∨ sockmap.find client = none) ∧
        ∃ error, answers.associate client = .error error := by
  have missing :
      (atTurn answers sockmap client).find client = none ↔
        answers.removed client = true ∨ sockmap.find client = none := by
    unfold atTurn
    split
    · next removed => simp [removed]
    · next kept => simp [kept]
  rw [← missing]
  unfold OpenFails SockMap.findOrInsert
  split
  · next socket there =>
    rw [there]
    constructor
    · rintro ⟨error, ⟨⟩⟩
    · rintro ⟨⟨⟩, _⟩
  · next absent =>
    rw [absent]
    cases answers.associate client with
    | ok socket =>
        constructor
        · rintro ⟨error, ⟨⟩⟩
        · rintro ⟨_, error, ⟨⟩⟩
    | error error => simp

/-- The client of a group fails. -/
def GroupFails
    (answers : RelayAnswers Addr Error) (raddr : Addr)
    (sockmap : SockMap Addr) : List (Packet Addr) → Prop
  | [] => False
  | first :: rest =>
      OpenFails answers sockmap first.addr ∨
        SendFails answers raddr first.addr (first :: rest)

/-- A group is handed over, all of it and once. -/
def GroupServed
    (raddr : Addr) (relayed : Relayed Addr Error) :
    List (Packet Addr) → Prop
  | [] => True
  | first :: rest =>
      ∃ socket, relayed.sockmap.find first.addr = some socket ∧
        (relayed.handed.filter fun handed =>
          handed.client = first.addr).Perm
          ((first :: rest).map fun pkt =>
            ⟨first.addr, socket, pkt.refWithAddr raddr⟩)

/-- Groups of other clients do not touch an entry. -/
theorem relayGroups_find_of_apart
    {client : Addr}
    (apart : ∀ group ∈ groups, ∀ pkt ∈ group, pkt.addr ≠ client) :
    (relayGroups answers raddr sockmap groups).sockmap.find client =
      sockmap.find client := by
  induction groups generalizing sockmap with
  | nil => rfl
  | cons group groups inductionHypothesis =>
      have here :
          (relayGroup answers raddr sockmap group).sockmap.find client =
            sockmap.find client := by
        cases group with
        | nil => rfl
        | cons first rest =>
            apply relayGroup_find_of_ne
            exact (apart _ List.mem_cons_self _ List.mem_cons_self).symm
      rw [relayGroups]
      dsimp only
      split
      · exact here
      · rw [← here]
        exact inductionHypothesis fun group later =>
          apart group (List.mem_cons_of_mem _ later)

/-- Nothing is handed over for a client without a group. -/
theorem relayGroups_client
    {handed : Handed Addr}
    (member : handed ∈ (relayGroups answers raddr sockmap groups).handed) :
    ∃ group ∈ groups, ∃ pkt ∈ group, handed.client = pkt.addr := by
  induction groups generalizing sockmap with
  | nil => cases member
  | cons group groups inductionHypothesis =>
      have here :
          handed ∈ (relayGroup answers raddr sockmap group).handed →
            ∃ other ∈ group :: groups, ∃ pkt ∈ other,
              handed.client = pkt.addr := by
        intro inGroup
        cases group with
        | nil => cases inGroup
        | cons first rest =>
            exact ⟨first :: rest, List.mem_cons_self, first,
              List.mem_cons_self, relayGroup_client inGroup⟩
      rw [relayGroups] at member
      dsimp only at member
      split at member
      · exact here member
      · rcases List.mem_append.1 member with inGroup | later
        · exact here inGroup
        · rcases inductionHypothesis later with ⟨other, inside, found⟩
          exact ⟨other, List.mem_cons_of_mem _ inside, found⟩

theorem filter_eq_nil_of_client
    {handed : List (Handed Addr)} {client : Addr}
    (others : ∀ h ∈ handed, h.client ≠ client) :
    (handed.filter fun h => h.client = client) = [] := by
  rw [List.filter_eq_nil_iff]
  intro h member
  simpa using others h member

/-- A failing group ends the batch. -/
theorem relayGroups_of_fails
    {group : List (Packet Addr)}
    (fails : GroupFails answers raddr sockmap group) :
    relayGroups answers raddr sockmap (group :: groups) =
      relayGroup answers raddr sockmap group := by
  cases group with
  | nil => exact fails.elim
  | cons first rest =>
      rcases relayGroup_fails fails with ⟨error, failed⟩
      rw [relayGroups, failed]

/-- A group whose client does not fail is served, and the loop goes on. -/
theorem relayGroups_of_not_fails
    (groups : List (List (Packet Addr))) {first : Packet Addr}
    {rest : List (Packet Addr)}
    (works : ¬ GroupFails answers raddr sockmap (first :: rest)) :
    ∃ socket next, next.find first.addr = some socket ∧
      (∀ other, other ≠ first.addr →
        next.find other = sockmap.find other) ∧
      relayGroups answers raddr sockmap ((first :: rest) :: groups) =
        { relayGroups answers raddr next groups with
          handed :=
            ((first :: rest).map fun pkt =>
                ⟨first.addr, socket, pkt.refWithAddr raddr⟩) ++
              (relayGroups answers raddr next groups).handed } := by
  rcases not_or.1 works with ⟨opens, sends⟩
  rcases relayGroup_succeeds opens sends with
    ⟨socket, handed, succeeded, found⟩
  refine ⟨socket, _, found, fun other => relayGroup_find_of_ne, ?_⟩
  rw [relayGroups, succeeded, handed]

theorem groupFails_congr
    {other : SockMap Addr} {group : List (Packet Addr)}
    (same : ∀ pkt ∈ group, other.find pkt.addr = sockmap.find pkt.addr) :
    GroupFails answers raddr other group ↔
      GroupFails answers raddr sockmap group := by
  cases group with
  | nil => exact Iff.rfl
  | cons first rest =>
      rw [GroupFails, GroupFails, openFails_iff, openFails_iff,
        same first List.mem_cons_self]

/-- Groups handed over for others do not serve a group, or keep it from
being served. -/
theorem groupServed_append
    {relayed : Relayed Addr Error} {earlier : List (Handed Addr)}
    {group : List (Packet Addr)}
    (others : ∀ pkt ∈ group, ∀ h ∈ earlier, h.client ≠ pkt.addr) :
    GroupServed raddr
        { relayed with handed := earlier ++ relayed.handed } group ↔
      GroupServed raddr relayed group := by
  cases group with
  | nil => exact Iff.rfl
  | cons first rest =>
      unfold GroupServed
      dsimp only
      rw [List.filter_append, filter_eq_nil_of_client
        (others first List.mem_cons_self), List.nil_append]

/-- After a failing group the others would have to fail as well. -/
theorem groups_served_iff_of_fails
    {first : Packet Addr} {rest : List (Packet Addr)}
    (cut : Cut Registry.sameAddr ((first :: rest) :: groups))
    (apart : ∀ later ∈ groups, ∀ pkt ∈ later, pkt.addr ≠ first.addr)
    (fails : GroupFails answers raddr sockmap (first :: rest)) :
    (∀ group ∈ (first :: rest) :: groups,
      ¬ GroupFails answers raddr sockmap group →
        GroupServed raddr
          (relayGroups answers raddr sockmap ((first :: rest) :: groups))
          group) ↔
    ((first :: rest) :: groups).Pairwise fun group later =>
      GroupFails answers raddr sockmap group →
        GroupFails answers raddr sockmap later := by
  rw [relayGroups_of_fails fails]
  constructor
  · intro served
    have all :
        ∀ later ∈ groups, GroupFails answers raddr sockmap later := by
      intro later member
      by_contra works
      have handed := served later (List.mem_cons_of_mem _ member) works
      cases later with
      | nil => exact cut.nonempty _ (List.mem_cons_of_mem _ member) rfl
      | cons other others =>
          rcases handed with ⟨socket, _, perm⟩
          rw [filter_eq_nil_of_client] at perm
          · cases perm.length_eq
          · intro h inside same
            exact apart _ member other List.mem_cons_self
              (same.symm.trans (relayGroup_client inside))
    refine List.pairwise_cons.2 ⟨fun later member _ => all later member, ?_⟩
    apply List.pairwise_of_forall_mem_list
    intro group _ later member _
    exact all later member
  · intro pairwise group member works
    have all := (List.pairwise_cons.1 pairwise).1
    rcases List.mem_cons.1 member with rfl | later
    · exact absurd fails works
    · exact absurd (all group later fails) works

/-- A group at the front that does not fail asks nothing of the others. -/
theorem pairwise_fails_cons
    (groups : List (List (Packet Addr))) {group : List (Packet Addr)}
    (works : ¬ GroupFails answers raddr sockmap group) :
    ((group :: groups).Pairwise fun group later =>
      GroupFails answers raddr sockmap group →
        GroupFails answers raddr sockmap later) ↔
    groups.Pairwise fun group later =>
      GroupFails answers raddr sockmap group →
        GroupFails answers raddr sockmap later := by
  rw [List.pairwise_cons]
  constructor
  · rintro ⟨_, tail⟩
    exact tail
  · intro tail
    exact ⟨fun _ _ failed => absurd failed works, tail⟩

theorem pairwise_fails_congr
    {next : SockMap Addr}
    (same : ∀ later ∈ groups, (GroupFails answers raddr next later ↔
      GroupFails answers raddr sockmap later)) :
    (groups.Pairwise fun group later =>
      GroupFails answers raddr next group →
        GroupFails answers raddr next later) ↔
    groups.Pairwise fun group later =>
      GroupFails answers raddr sockmap group →
        GroupFails answers raddr sockmap later := by
  apply List.Pairwise.iff_of_mem
  intro group later groupMem laterMem
  rw [same group groupMem, same later laterMem]

/-- What was handed over for a group is all that is handed over for its
client. -/
theorem groupServed_head
    {next : SockMap Addr} {first : Packet Addr} {rest : List (Packet Addr)}
    {socket : Socket}
    (apart : ∀ later ∈ groups, ∀ pkt ∈ later, pkt.addr ≠ first.addr)
    (found : next.find first.addr = some socket) :
    GroupServed raddr
      { relayGroups answers raddr next groups with
        handed :=
          ((first :: rest).map fun pkt =>
              ⟨first.addr, socket, pkt.refWithAddr raddr⟩) ++
            (relayGroups answers raddr next groups).handed }
      (first :: rest) := by
  refine ⟨socket, (relayGroups_find_of_apart apart).trans found, ?_⟩
  have mine :
      ((first :: rest).map fun pkt =>
        (⟨first.addr, socket, pkt.refWithAddr raddr⟩ :
          Handed Addr)).filter (fun h => h.client = first.addr) =
      (first :: rest).map fun pkt =>
        ⟨first.addr, socket, pkt.refWithAddr raddr⟩ := by
    rw [List.filter_eq_self]
    intro h member
    rcases List.mem_map.1 member with ⟨_, _, rfl⟩
    exact decide_eq_true rfl
  have others :
      (relayGroups answers raddr next groups).handed.filter
        (fun h => h.client = first.addr) = [] := by
    apply filter_eq_nil_of_client
    intro h member client
    rcases relayGroups_client member with ⟨later, inside, pkt, there, same⟩
    exact apart later inside pkt there (same.symm.trans client)
  dsimp only
  rw [List.filter_append, mine, others, List.append_nil]

/-- Every group that does not fail is served, exactly if only failing groups
follow a failing one. -/
theorem groups_served_iff (cut : Cut Registry.sameAddr groups) :
    (∀ group ∈ groups, ¬ GroupFails answers raddr sockmap group →
      GroupServed raddr (relayGroups answers raddr sockmap groups) group) ↔
    groups.Pairwise fun group later =>
      GroupFails answers raddr sockmap group →
        GroupFails answers raddr sockmap later := by
  induction groups generalizing sockmap with
  | nil => simp
  | cons group groups inductionHypothesis =>
      cases group with
      | nil => exact (cut.nonempty _ List.mem_cons_self rfl).elim
      | cons first rest =>
          have apart :
              ∀ later ∈ groups, ∀ pkt ∈ later, pkt.addr ≠ first.addr := by
            intro later member pkt inside same
            have different :=
              (List.pairwise_cons.1 cut.apart).1 later member first
                List.mem_cons_self pkt inside
            exact of_decide_eq_false different same.symm
          by_cases fails : GroupFails answers raddr sockmap (first :: rest)
          · exact groups_served_iff_of_fails cut apart fails
          · rcases relayGroups_of_not_fails groups fails with
              ⟨socket, next, found, kept, relays⟩
            have same :
                ∀ later ∈ groups, (GroupFails answers raddr next later ↔
                  GroupFails answers raddr sockmap later) :=
              fun later member => groupFails_congr fun pkt inside =>
                kept _ (apart later member pkt inside)
            have others :
                ∀ later ∈ groups, ∀ pkt ∈ later,
                  ∀ h ∈ (first :: rest).map fun pkt =>
                    (⟨first.addr, socket, pkt.refWithAddr raddr⟩ :
                      Handed Addr), h.client ≠ pkt.addr := by
              intro later member pkt inside h handed client
              rcases List.mem_map.1 handed with ⟨_, _, rfl⟩
              exact apart later member pkt inside client.symm
            have pairwise :=
              (pairwise_fails_cons groups fails).trans
                (pairwise_fails_congr same).symm
            rw [relays, pairwise, ← inductionHypothesis cut.tail]
            constructor
            · intro served later member works
              have served := served later (List.mem_cons_of_mem _ member)
                (mt (same later member).2 works)
              exact (groupServed_append (others later member)).1 served
            · intro served group member works
              rcases List.mem_cons.1 member with rfl | later
              · exact groupServed_head apart found
              · exact (groupServed_append (others group later)).2
                  (served group later (mt (same group later).1 works))

end Groups

/-! ## Batches -/

theorem filter_addr_eq_nil
    {pkts : List (Packet Addr)} {pkt : Packet Addr}
    (apart : ∀ other ∈ pkts, Registry.sameAddr pkt other = false) :
    (pkts.filter fun other => other.addr = pkt.addr) = [] := by
  rw [List.filter_eq_nil_iff]
  intro other there same
  exact of_decide_eq_false (apart other there)
    (of_decide_eq_true same).symm

/-- In the groups the packets of a client are those of its group. -/
theorem packetsOf_flatten
    {groups : List (List (Packet Addr))}
    (cut : Cut Registry.sameAddr groups)
    {group : List (Packet Addr)} (member : group ∈ groups)
    {pkt : Packet Addr} (inside : pkt ∈ group) :
    packetsOf pkt.addr groups.flatten = group := by
  unfold packetsOf
  induction groups with
  | nil => cases member
  | cons head groups inductionHypothesis =>
      have apart := (List.pairwise_cons.1 cut.apart).1
      rw [List.flatten_cons, List.filter_append]
      rcases List.mem_cons.1 member with rfl | later
      · have all :
            (group.filter fun other => other.addr = pkt.addr) = group := by
          rw [List.filter_eq_self]
          intro other there
          exact cut.equal group member other there pkt inside
        have others :
            ∀ other ∈ groups.flatten,
              Registry.sameAddr pkt other = false := by
          intro other there
          rcases List.mem_flatten.1 there with ⟨later, among, found⟩
          exact apart later among pkt inside other found
        rw [all, filter_addr_eq_nil others, List.append_nil]
      · have others :
            ∀ other ∈ head, Registry.sameAddr pkt other = false := by
          intro other there
          have different := apart group later other there pkt inside
          exact decide_eq_false (of_decide_eq_false different ∘ Eq.symm)
        rw [filter_addr_eq_nil others, List.nil_append,
          inductionHypothesis cut.tail later]

/-- The packets of a client are those of its group. -/
theorem packetsOf_perm
    {pkts : List (Packet Addr)} {groups : List (List (Packet Addr))}
    (cut : Cut Registry.sameAddr groups) (perm : groups.flatten.Perm pkts)
    {group : List (Packet Addr)} (member : group ∈ groups)
    {pkt : Packet Addr} (inside : pkt ∈ group) :
    (packetsOf pkt.addr pkts).Perm group := by
  rw [← packetsOf_flatten cut member inside]
  exact (perm.filter _).symm

/-- A group has a first packet, of the client of all its packets. -/
theorem exists_first
    {groups : List (List (Packet Addr))}
    (cut : Cut Registry.sameAddr groups)
    {group : List (Packet Addr)} (member : group ∈ groups)
    {pkt : Packet Addr} (inside : pkt ∈ group) :
    ∃ first rest, group = first :: rest ∧ first.addr = pkt.addr := by
  rcases List.exists_cons_of_ne_nil (List.ne_nil_of_mem inside) with
    ⟨first, rest, rfl⟩
  exact ⟨first, rest, rfl, of_decide_eq_true
    (cut.equal _ member first List.mem_cons_self pkt inside)⟩

section Batches

variable {answers : RelayAnswers Addr Error} {raddr : Addr}
variable {sockmap : SockMap Addr} {pkts : List (Packet Addr)}
variable {groups : List (List (Packet Addr))}

theorem fails_iff
    (cut : Cut Registry.sameAddr groups) (perm : groups.flatten.Perm pkts)
    {group : List (Packet Addr)} (member : group ∈ groups)
    {pkt : Packet Addr} (inside : pkt ∈ group) :
    Fails answers raddr sockmap pkts pkt.addr ↔
      GroupFails answers raddr sockmap group := by
  have mine := packetsOf_perm cut perm member inside
  rcases exists_first cut member inside with ⟨first, rest, rfl, named⟩
  rw [Fails, sendFails_congr mine.length_eq, GroupFails, named]

theorem served_iff
    {relayed : Relayed Addr Error}
    (cut : Cut Registry.sameAddr groups) (perm : groups.flatten.Perm pkts)
    {group : List (Packet Addr)} (member : group ∈ groups)
    {pkt : Packet Addr} (inside : pkt ∈ group) :
    Served raddr pkts relayed pkt.addr ↔
      GroupServed raddr relayed group := by
  have mine := packetsOf_perm cut perm member inside
  rcases exists_first cut member inside with ⟨first, rest, rfl, named⟩
  rw [Served, GroupServed, named]
  constructor
  · rintro ⟨socket, found, handed⟩
    exact ⟨socket, found, handed.trans (mine.map _)⟩
  · rintro ⟨socket, found, handed⟩
    exact ⟨socket, found, handed.trans (mine.map _).symm⟩

end Batches

/-- Every client that does not fail is served, exactly if only failing
clients have their turn after a failing one. -/
theorem isolated_iff
    (answers : RelayAnswers Addr Error) (raddr : Addr)
    (sockmap : SockMap Addr) (registry : Registry Addr)
    (batch : Batch Addr) :
    Isolated answers raddr sockmap registry batch ↔
      FailsLast answers raddr sockmap registry batch := by
  rcases Registry.groupIter_spec
      (registry.iter_batchedRecvOn_ne_nil batch) with ⟨perm, cut⟩
  have fails :=
    @fails_iff _ _ _ answers raddr sockmap _ _ cut perm
  have turns :
      FailsLast answers raddr sockmap registry batch ↔
        (registry.batchedRecvOn batch).groupByAddr.groupIter.Pairwise
          fun group later => GroupFails answers raddr sockmap group →
            GroupFails answers raddr sockmap later := by
    apply List.Pairwise.iff_of_mem
    intro group later groupMem laterMem
    rcases List.exists_mem_of_ne_nil _ (cut.nonempty group groupMem) with
      ⟨a, aMem⟩
    rcases List.exists_mem_of_ne_nil _ (cut.nonempty later laterMem) with
      ⟨b, bMem⟩
    constructor
    · intro implies failed
      exact (fails laterMem bMem).1
        (implies a aMem b bMem ((fails groupMem aMem).2 failed))
    · intro implies x xMem y yMem failed
      exact (fails laterMem yMem).2
        (implies ((fails groupMem xMem).1 failed))
  rw [turns, ← groups_served_iff cut]
  constructor
  · intro isolated group member works
    rcases List.exists_mem_of_ne_nil _ (cut.nonempty group member) with
      ⟨pkt, inside⟩
    have there := perm.mem_iff.1 (List.mem_flatten.2 ⟨group, member, inside⟩)
    exact (served_iff cut perm member inside).1
      (isolated pkt there (mt (fails member inside).1 works))
  · intro served pkt there works
    rcases List.mem_flatten.1 (perm.mem_iff.2 there) with
      ⟨group, member, inside⟩
    exact (served_iff cut perm member inside).2
      (served group member (mt (fails member inside).2 works))

/-- One datagram of each of two clients. -/
def twoClients : Batch ℕ where
  datagrams := [⟨[7], 1⟩, ⟨[8], 2⟩]
  nonempty := List.cons_ne_nil _ _
  bounded := by decide

/-- No association can be opened for client 1; client 2 has no trouble. -/
def firstFails : RelayAnswers ℕ Unit where
  removed _ := false
  associate client := if client = 1 then .error () else .ok 0
  send _ := SendAnswers.all

/-- The datagram of client 2 is dropped. -/
theorem firstFails_not_isolated :
    ¬ Isolated firstFails 9 SockMap.new (Registry.new 0) twoClients := by
  intro isolated
  have nothing :
      (associateAndRelay firstFails (.ok 9) SockMap.new (Registry.new 0)
        twoClients).handed = [] := rfl
  have received :
      ((Registry.new 0).batchedRecvOn twoClients).iter =
        [(Packet.new 0).fill ⟨[7], 1⟩, (Packet.new 0).fill ⟨[8], 2⟩] := rfl
  have works :
      ¬ Fails firstFails 9 SockMap.new
        ((Registry.new 0).batchedRecvOn twoClients).iter 2 := by
    rintro (opens | ⟨error, sends⟩)
    · rcases openFails_iff.1 opens with ⟨_, error, ⟨⟩⟩
    · rw [firstFails, sendAll_all] at sends
      cases sends
  have there :
      (Packet.new 0).fill ⟨[8], 2⟩ ∈
        ((Registry.new 0).batchedRecvOn twoClients).iter := by
    rw [received]
    exact List.mem_cons_of_mem _ List.mem_cons_self
  rcases isolated _ there works with ⟨socket, _, perm⟩
  rw [nothing, received] at perm
  cases perm.length_eq

end ByteHub.Udp
