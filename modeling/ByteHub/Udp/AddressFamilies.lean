import ByteHub.Library.Machine
import ByteHub.Udp.Middle
import ByteHub.Udp.Socket

/-!
# Address families of associations

The destination is looked up anew for every batch, while a client keeps the
socket that was made for the answer of an earlier one.  A run is the turns of
the groups of its batches, with the answers of the lookups; the tasks that
end the associations remove entries in between.
-/

namespace ByteHub.Udp

open ByteHub.Conf (ConnectOpts Kaminari NetConf RemoteAddr SocketAddr System)
open ByteHub.Core (resolveAddr)
open ByteHub.Lb (IpAddr)
open ByteHub.Library

/-! ## The machine -/

/-- What the relay of an endpoint works on. -/
structure Session where
  registry : Registry SocketAddr
  sockmap : SockMap SocketAddr
  /-- The domains of the sockets opened so far, by number. -/
  domains : List Domain
  /-- The groups that wait for their turn, with their destination. -/
  waiting : List (SocketAddr × List (Packet SocketAddr))
  /-- The datagrams sent so far, on whose behalf and on which sockets. -/
  sent : List (Handed SocketAddr)

/-- A step of the relay or of its tasks, with what the outside answers. -/
inductive SessionLabel (Error : Type) where
  /-- Receiving fails. -/
  | recvFails
  /-- A batch is received, and the remote is looked up. -/
  | batch (batch : Batch SocketAddr) (lookup : Except Error (List IpAddr))
  /-- The next group has its turn. -/
  | turn (calls : AssociateCalls Error) (send : SendAnswers Error)
  /-- The task of a client removes its entry. -/
  | remove (laddr : SocketAddr)

namespace Session

variable {Error : Type} {kaminari : Kaminari}

/-- `run_udp` before the first round. -/
def start (unset : SocketAddr) : Session where
  registry := Registry.new unset
  sockmap := SockMap.new
  domains := []
  waiting := []
  sent := []

/-- After an error `run_udp` calls `associate_and_relay` again. -/
def restart (session : Session) (unset : SocketAddr) : Session :=
  { session with
    registry := Registry.new unset
    waiting := [] }

/-- A batch and its destination: the first address of the lookup, which is
unwrapped. -/
def receive
    (session : Session) (unset : SocketAddr) (rname : RemoteAddr)
    (batch : Batch SocketAddr) (lookup : Except Error (List IpAddr)) :
    Option Session :=
  match resolveAddr (fun _ => lookup) rname with
  | .error _ => some (session.restart unset)
  | .ok found =>
      found.iter.head?.map fun raddr =>
        let registry :=
          (session.registry.batchedRecvOn batch).groupByAddr
        { session with
          registry := registry
          waiting := registry.groupIter.map (Prod.mk raddr) }

/-- What a socket that is opened now is known by. -/
def associated (session : Session) (opened : Except Error Domain) :
    Except Error Socket :=
  opened.map fun _ => session.domains.length

/-- The socket of a client at its turn. -/
def rsock
    (session : Session) (laddr : SocketAddr)
    (opened : Except Error Domain) : Except Error Socket :=
  (session.sockmap.findOrInsert laddr (session.associated opened)).1

/-- The domains with that of the socket, if one is opened for the client. -/
def domainsAfter
    (session : Session) (laddr : SocketAddr)
    (opened : Except Error Domain) : List Domain :=
  match session.sockmap.find laddr, opened with
  | none, .ok domain => session.domains ++ [domain]
  | _, _ => session.domains

/-- What `send_all` is called with for a group, on the socket of its
client. -/
def sends
    (rsock : Except Error Socket) (raddr laddr : SocketAddr)
    (pkts : List (Packet SocketAddr)) : List (Handed SocketAddr) :=
  match rsock with
  | .error _ => []
  | .ok rsock =>
      pkts.map fun pkt => ⟨laddr, rsock, pkt.refWithAddr raddr⟩

/-- What the outside answers during one turn. -/
def answers
    (session : Session) (opened : Except Error Domain)
    (send : SendAnswers Error) : RelayAnswers SocketAddr Error where
  removed _ := false
  associate _ := session.associated opened
  send _ := send

/-- The turn of a group. -/
def turn
    (session : Session) (unset : SocketAddr)
    (connOpts : ConnectOpts kaminari)
    (calls : AssociateCalls Error) (send : SendAnswers Error) :
    Option Session :=
  match session.waiting with
  | (raddr, first :: rest) :: waiting =>
      let opened := associate calls raddr connOpts
      let relayed :=
        relayGroup (session.answers opened send) raddr session.sockmap
          (first :: rest)
      let after : Session :=
        { registry := session.registry
          sockmap := relayed.sockmap
          domains := session.domainsAfter first.addr opened
          waiting := waiting
          sent :=
            session.sent ++
              sends (session.rsock first.addr opened) raddr first.addr
                (first :: rest) }
      match relayed.result with
      | .ok _ => some after
      | .error _ => some (after.restart unset)
  | _ => none

/-- The relay of an endpoint and the tasks of its associations. -/
def machine
    (unset : SocketAddr) (rname : RemoteAddr)
    (connOpts : ConnectOpts kaminari) :
    Machine Session (SessionLabel Error) where
  step session label :=
    match label with
    | .recvFails =>
        if session.waiting.isEmpty then some (session.restart unset)
        else none
    | .batch batch lookup =>
        if session.waiting.isEmpty then
          session.receive unset rname batch lookup
        else none
    | .turn calls send => session.turn unset connOpts calls send
    | .remove laddr =>
        some { session with sockmap := session.sockmap.remove laddr }

/-! ## Sockets that match -/

/-- Every datagram was sent on a socket of the family of its destination. -/
def Matched (session : Session) : Prop :=
  ∀ handed ∈ session.sent,
    session.domains[handed.socket]? =
      some (Domain.of handed.datagram.addr)

/-- A client that still has an association when its turn comes has it for an
answer of the family of the answer for this batch. -/
def Fits (session : Session) (label : SessionLabel Error) : Prop :=
  ∀ (calls : AssociateCalls Error) (send : SendAnswers Error),
    label = .turn calls send →
    ∀ (raddr : SocketAddr) (first : Packet SocketAddr)
      (rest : List (Packet SocketAddr))
      (waiting : List (SocketAddr × List (Packet SocketAddr))),
      session.waiting = (raddr, first :: rest) :: waiting →
      ∀ socket : Socket,
        session.sockmap.find first.addr = some socket →
          session.domains[socket]? = some (Domain.of raddr)

/-! ## One step -/

section Steps

variable {session next : Session} {label : SessionLabel Error}
  {unset raddr laddr : SocketAddr} {rname : RemoteAddr}
  {connOpts : ConnectOpts kaminari} {opened : Except Error Domain}
  {first : Packet SocketAddr} {rest : List (Packet SocketAddr)}

/-- A client has its socket, gets one, or none can be opened. -/
theorem rsock_cases
    (session : Session) (laddr : SocketAddr)
    (opened : Except Error Domain) :
    (∃ socket, session.sockmap.find laddr = some socket ∧
      session.rsock laddr opened = .ok socket ∧
      session.domainsAfter laddr opened = session.domains) ∨
    (session.sockmap.find laddr = none ∧
      ∃ domain, opened = .ok domain ∧
        session.rsock laddr opened = .ok session.domains.length ∧
        session.domainsAfter laddr opened = session.domains ++ [domain]) ∨
    (session.sockmap.find laddr = none ∧
      ∃ error, session.rsock laddr opened = .error error ∧
        session.domainsAfter laddr opened = session.domains) := by
  unfold rsock domainsAfter SockMap.findOrInsert
  cases session.sockmap.find laddr with
  | some socket => exact .inl ⟨socket, rfl, rfl, rfl⟩
  | none =>
      cases opened with
      | ok domain => exact .inr (.inl ⟨rfl, domain, rfl, rfl, rfl⟩)
      | error error => exact .inr (.inr ⟨rfl, error, rfl, rfl⟩)

/-- A socket that is opened leaves the domains of the others. -/
theorem domainsAfter_getElem?
    {socket : Socket} {domain : Domain}
    (known : session.domains[socket]? = some domain) :
    (session.domainsAfter laddr opened)[socket]? = some domain := by
  have below := (List.getElem?_eq_some_iff.1 known).1
  rcases session.rsock_cases laddr opened with
    ⟨_, _, _, same⟩ | ⟨_, _, _, _, longer⟩ | ⟨_, _, _, same⟩
  · rwa [same]
  · rwa [longer, List.getElem?_append_left below]
  · rwa [same]

/-- What a turn sends matches, if what its client still has does. -/
theorem sends_match_iff
    (fromAnswer : ∀ domain, opened = .ok domain →
      domain = Domain.of raddr) :
    (∀ handed ∈ sends (session.rsock first.addr opened) raddr first.addr
        (first :: rest),
      (session.domainsAfter first.addr opened)[handed.socket]? =
        some (Domain.of handed.datagram.addr)) ↔
      ∀ socket : Socket,
        session.sockmap.find first.addr = some socket →
          session.domains[socket]? = some (Domain.of raddr) := by
  rcases session.rsock_cases first.addr opened with
    ⟨socket, found, rsock, domains⟩ |
    ⟨absent, domain, made, rsock, domains⟩ |
    ⟨absent, error, rsock, domains⟩
  · rw [rsock, domains, found]
    simp only [sends, List.forall_mem_map, List.forall_mem_cons,
      Packet.refWithAddr, Option.some.injEq, forall_eq']
    exact and_iff_left_of_imp fun fits _ _ => fits
  · rw [rsock, domains, absent]
    simp [sends, Packet.refWithAddr, fromAnswer domain made]
  · rw [rsock, absent]
    simp [sends]

/-- What a turn leaves of what the sockets are known by. -/
theorem turn_cases
    {calls : AssociateCalls Error} {send : SendAnswers Error}
    (stepped : session.turn unset connOpts calls send = some next) :
    ∃ (raddr : SocketAddr) (first : Packet SocketAddr)
      (rest : List (Packet SocketAddr))
      (waiting : List (SocketAddr × List (Packet SocketAddr))),
      session.waiting = (raddr, first :: rest) :: waiting ∧
        next.domains =
          session.domainsAfter first.addr
            (associate calls raddr connOpts) ∧
        next.sent =
          session.sent ++
            sends
              (session.rsock first.addr (associate calls raddr connOpts))
              raddr first.addr (first :: rest) := by
  unfold turn at stepped
  split at stepped
  · next raddr first rest waiting waits =>
    refine ⟨raddr, first, rest, waiting, waits, ?_⟩
    dsimp only at stepped
    split at stepped
    · cases stepped
      exact ⟨rfl, rfl⟩
    · cases stepped
      exact ⟨rfl, rfl⟩
  · cases stepped

theorem matched_turn_iff
    {calls : AssociateCalls Error} {send : SendAnswers Error}
    (matched : session.Matched)
    (stepped : session.turn unset connOpts calls send = some next) :
    next.Matched ↔ session.Fits (.turn calls send) := by
  obtain ⟨raddr, first, rest, waiting, waits, domains, sent⟩ :=
    turn_cases stepped
  have older :
      ∀ handed ∈ session.sent,
        next.domains[handed.socket]? =
          some (Domain.of handed.datagram.addr) := by
    intro handed member
    rw [domains]
    exact domainsAfter_getElem? (matched handed member)
  have newer :=
    @sends_match_iff _ session raddr (associate calls raddr connOpts) first
      rest fun _ opened => associate_domain opened
  rw [← domains] at newer
  unfold Matched
  rw [sent, List.forall_mem_append, and_iff_right older, newer]
  constructor
  · rintro fits _ _ ⟨⟩ raddr' first' rest' waiting' waits' socket found
    cases waits.symm.trans waits'
    exact fits socket found
  · intro fits socket found
    exact fits calls send rfl raddr first rest waiting waits socket found

/-- The other steps send nothing. -/
theorem matched_of_kept
    (domains : next.domains = session.domains)
    (sent : next.sent = session.sent) (matched : session.Matched) :
    next.Matched := by
  unfold Matched
  rw [domains, sent]
  exact matched

theorem receive_kept
    {batch : Batch SocketAddr} {lookup : Except Error (List IpAddr)}
    (stepped :
      session.receive unset rname batch lookup = some next) :
    next.domains = session.domains ∧ next.sent = session.sent := by
  unfold receive at stepped
  split at stepped
  · cases stepped
    exact ⟨rfl, rfl⟩
  · obtain ⟨raddr, _, rfl⟩ := Option.map_eq_some_iff.1 stepped
    exact ⟨rfl, rfl⟩

/-- A step keeps the sockets matched exactly when the client of its turn
has none of another family. -/
theorem matched_step_iff
    (matched : session.Matched)
    (stepped :
      (machine unset rname connOpts).step session label = some next) :
    next.Matched ↔ session.Fits label := by
  cases label with
  | turn calls send => exact matched_turn_iff matched stepped
  | recvFails =>
      apply iff_of_true
      · simp only [machine, Option.ite_none_right_eq_some] at stepped
        cases stepped.2
        exact matched
      · rintro _ _ ⟨⟩
  | batch batch lookup =>
      apply iff_of_true
      · simp only [machine, Option.ite_none_right_eq_some] at stepped
        obtain ⟨domains, sent⟩ := receive_kept stepped.2
        exact matched_of_kept domains sent matched
      · rintro _ _ ⟨⟩
  | remove laddr =>
      apply iff_of_true
      · cases stepped
        exact matched
      · rintro _ _ ⟨⟩

end Steps

/-! ## Whole runs -/

/-- All along a run the datagrams are sent on sockets that match exactly when
at every turn the client has no association of another family. -/
theorem matched_iff_fits
    {unset : SocketAddr} {rname : RemoteAddr}
    {connOpts : ConnectOpts kaminari}
    {labels : List (SessionLabel Error)} {final : Session}
    (ran :
      (machine unset rname connOpts).run (start unset) labels =
        some final) :
    (machine unset rname connOpts).EachState Matched (start unset) labels ↔
      (machine unset rname connOpts).EachStep Fits (start unset)
        labels := by
  apply Machine.eachState_iff_eachStep (fun _ => True)
  · exact fun _ _ => trivial
  · exact fun _ matched stepped => matched_step_iff matched stepped
  · trivial
  · rintro handed ⟨⟩
  · exact ran

/-! ## A name of both families -/

/-- One datagram of one client. -/
def oneDatagram : Batch SocketAddr where
  datagrams := [⟨[7], .quad 192 0 2 7 5000⟩]
  nonempty := List.cons_ne_nil _ _
  bounded := by decide

/-- A batch and its turn, where everything succeeds. -/
def relayedTo (ip : IpAddr) : List (SessionLabel Unit) :=
  [.batch oneDatagram (.ok [ip]), .turn .all .all]

/-- The relay of an endpoint whose remote is a name. -/
def namedRemote : Machine Session (SessionLabel Unit) :=
  machine (.quad 0 0 0 0 0) (.domainName "relay" 53)
    (NetConf.empty.build (System.reading []).kaminari).connOpts

/-- The first batch of a client opens its association, and the second one
finds it and goes to another address of the same family. -/
theorem matched_iff_fits_one_family :
    namedRemote.EachState Matched (start (.quad 0 0 0 0 0))
      (relayedTo (.v6 fun _ => 1) ++ relayedTo (.v6 fun _ => 2)) := by
  apply (matched_iff_fits rfl).2
  refine (Machine.eachStep_cons_iff (by rfl)).2 ⟨by rintro _ _ ⟨⟩, ?_⟩
  refine (Machine.eachStep_cons_iff (by rfl)).2 ⟨?_, ?_⟩
  · intro calls send _ raddr first rest waiting _ socket found
    cases found
  refine (Machine.eachStep_cons_iff (by rfl)).2 ⟨by rintro _ _ ⟨⟩, ?_⟩
  refine
    (Machine.eachStep_cons_iff (by rfl)).2 ⟨?_, Machine.eachStep_nil _ _⟩
  intro calls send _ raddr first rest waiting queued socket found
  let summary (group : SocketAddr × List (Packet SocketAddr)) :
      Domain × Option SocketAddr :=
    (Domain.of group.1, group.2.head?.map Packet.addr)
  have shown :
      [(Domain.ipv6, some (.quad 192 0 2 7 5000))] =
        (Domain.of raddr, some first.addr) :: waiting.map summary :=
    congrArg (List.map summary) queued
  rcases Prod.mk.inj (List.cons.inj shown).1 with ⟨family, client⟩
  rw [← Option.some.inj client] at found
  rw [← family]
  cases found
  rfl

/-- The second batch of the client is sent to an IPv4 address on the IPv6
socket that was opened for its first one. -/
theorem second_batch_not_matched :
    (∃ final : Session,
      namedRemote.run (start (.quad 0 0 0 0 0))
          (relayedTo (.v6 fun _ => 1) ++ relayedTo (.v4 fun _ => 1)) =
        some final) ∧
      ¬ namedRemote.EachState Matched (start (.quad 0 0 0 0 0))
          (relayedTo (.v6 fun _ => 1) ++ relayedTo (.v4 fun _ => 1)) := by
  refine ⟨⟨_, rfl⟩, fun each => ?_⟩
  obtain ⟨final, ran, domains, sent⟩ :
      ∃ final : Session,
        namedRemote.run (start (.quad 0 0 0 0 0))
            (relayedTo (.v6 fun _ => 1) ++ relayedTo (.v4 fun _ => 1)) =
          some final ∧
          final.domains = [.ipv6] ∧
          (final.sent.map fun handed =>
            (handed.socket, Domain.of handed.datagram.addr)) =
            [(0, .ipv6), (0, .ipv4)] :=
    ⟨_, rfl, rfl, rfl⟩
  have matched : final.Matched :=
    each _ [] final (List.append_nil _).symm ran
  have second :
      (0, Domain.ipv4) ∈ final.sent.map fun handed =>
        (handed.socket, Domain.of handed.datagram.addr) := by
    rw [sent]
    exact List.mem_cons_of_mem _ List.mem_cons_self
  obtain ⟨handed, member, same⟩ := List.mem_map.1 second
  obtain ⟨socket, domain⟩ := Prod.mk.inj same
  have known := matched handed member
  rw [domains, socket, domain] at known
  cases known

end Session

end ByteHub.Udp
