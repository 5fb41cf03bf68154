import ByteHub.Udp.ExchangeAssociations

/-!
# Readers of a UDP endpoint

An entry of the map is of use as long as a task reads from its socket.  The
endpoint keeps a reader for every entry exactly if no task ends before its
socket is inserted; and a client whose entry has lost its reader is cut off,
for its datagrams go on to the socket that nobody reads from.
-/

namespace ByteHub.Udp

open ByteHub.Library

variable {Addr : Type}

namespace Exchange

/-! ## Readers -/

/-- A task for a client reads from a socket, or has still to remove the
entry. -/
def HasReader
    (state : Exchange Addr) (laddr : Addr) (rsock : Socket) : Prop :=
  ∃ task, state.tasks rsock = some task ∧ task.laddr = laddr ∧
    task.phase ≠ .finished

/-- Every entry of the map has a reader. -/
def KeepsReaders (state : Exchange Addr) : Prop :=
  ∀ laddr rsock, state.sockmap.find laddr = some rsock →
    state.HasReader laddr rsock

/-- An insertion comes before the task of its socket has ended. -/
def InsertsInTime
    (state : Exchange Addr) (label : ExchangeLabel Addr) : Prop :=
  label = .front .insert →
    ∀ raddr laddr rsock pkts groups,
      state.front = .spawned raddr laddr rsock pkts groups →
        state.HasReader laddr rsock

theorem taskPhase_eq_finished {phase : BackPhase Addr} :
    phase.taskPhase = .finished ↔ phase = .finished := by
  cases phase with
  | receiving | sending | leaving =>
      exact iff_of_false (by rintro ⟨⟩) (by rintro ⟨⟩)
  | finished => exact iff_of_true rfl rfl

theorem reads_associations
    {state : Exchange Addr} {laddr : Addr} {rsock : Socket} :
    state.associations.Reads laddr rsock ↔ state.HasReader laddr rsock := by
  constructor
  · rintro ⟨seen, running, named, unfinished⟩
    rcases Option.map_eq_some_iff.1 running with ⟨task, there, rfl⟩
    exact ⟨task, there, named, mt taskPhase_eq_finished.2 unfinished⟩
  · rintro ⟨task, running, named, unfinished⟩
    exact ⟨task.sendBack, associations_task running, named,
      mt taskPhase_eq_finished.1 unfinished⟩

theorem noneDead_associations {state : Exchange Addr} :
    state.associations.NoneDead ↔ state.KeepsReaders := by
  constructor
  · intro alive laddr rsock found
    exact reads_associations.1 (alive laddr rsock found)
  · intro keeps laddr rsock found
    exact reads_associations.2 (keeps laddr rsock found)

theorem spawned_of_relay
    {front : FrontPhase Addr} {laddr : Addr} {rsock : Socket}
    (relay : front.relay = .spawned laddr rsock) :
    ∃ raddr pkts groups,
      front = .spawned raddr laddr rsock pkts groups := by
  cases front with
  | spawned raddr laddr rsock pkts groups =>
      cases relay
      exact ⟨raddr, pkts, groups, rfl⟩
  | receiving | resolving | turn | missed | associated | sending =>
      cases relay

theorem inTime_associations {state : Exchange Addr} :
    state.associations.InTime ↔
      state.InsertsInTime (.front .insert) := by
  constructor
  · intro inTime _ raddr laddr rsock pkts groups spawned
    apply reads_associations.1
    apply inTime
    rw [associations, spawned]
    rfl
  · intro inserts laddr rsock relay
    rcases spawned_of_relay relay with ⟨raddr, pkts, groups, spawned⟩
    exact reads_associations.2
      (inserts rfl raddr laddr rsock pkts groups spawned)

/-! ## What keeps the readers -/

/-- A step is seen as nothing or as one event, and only an insertion as an
insertion. -/
theorem seen_cases (state : Exchange Addr) (label : ExchangeLabel Addr) :
    state.seen label = [] ∨
      ∃ event, state.seen label = [event] ∧
        (event = .insert → label = .front .insert) := by
  cases label with
  | front label =>
      cases label with
      | find =>
          rw [seen, seenFront]
          cases state.nextClient with
          | none => exact .inl rfl
          | some laddr => exact .inr ⟨_, rfl, by rintro ⟨⟩⟩
      | associate => exact .inr ⟨_, rfl, by rintro ⟨⟩⟩
      | associateFails => exact .inr ⟨_, rfl, by rintro ⟨⟩⟩
      | spawn => exact .inr ⟨_, rfl, by rintro ⟨⟩⟩
      | insert => exact .inr ⟨_, rfl, fun _ => rfl⟩
      | receive | receiveFails | resolve | resolveFails | send | sendFails =>
          exact .inl rfl
  | back rsock label =>
      cases label with
      | send accepted => exact .inl rfl
      | receive batch => exact .inr ⟨_, rfl, by rintro ⟨⟩⟩
      | sendFails => exact .inr ⟨_, rfl, by rintro ⟨⟩⟩
      | leave => exact .inr ⟨_, rfl, by rintro ⟨⟩⟩
      | remove => exact .inr ⟨_, rfl, by rintro ⟨⟩⟩

variable [DecidableEq Addr] {unset : Addr} {state next : Exchange Addr}
variable {label : ExchangeLabel Addr}

/-- What every event keeps that is in time, every step keeps that is. -/
theorem inv_associations_step
    (inv : state.associations.Inv) (inTime : state.InsertsInTime label)
    (stepped : (machine unset).step state label = some next) :
    next.associations.Inv := by
  have events := associations_step stepped
  rcases state.seen_cases label with unseen | ⟨event, seen, inserted⟩
  · rw [unseen, Machine.run_nil, Option.some.injEq] at events
    rw [← events]
    exact inv
  · rw [seen, Machine.run_singleton] at events
    apply Associations.inv_step inv _ events
    intro inserts
    apply inTime_associations.2
    rw [← inserted inserts]
    exact inTime

/-- An insertion that comes late leaves an entry without a reader. -/
theorem insertsInTime_of_keepsReaders
    (stepped : (machine unset).step state label = some next)
    (keeps : next.KeepsReaders) : state.InsertsInTime label := by
  by_cases inserts : label = .front .insert
  · subst inserts
    have events := associations_step stepped
    rw [← inTime_associations]
    by_contra late
    rcases Associations.not_noneDead_of_late late with ⟨after, step, dead⟩
    have same : next.associations = after :=
      Option.some.inj
        ((events.symm.trans (Machine.run_singleton ..)).trans step)
    rw [← same, noneDead_associations] at dead
    exact dead keeps
  · exact fun inserted => absurd inserted inserts

end Exchange

/-- Every run of the endpoint is one of the associations and their readers.
In all the states of the run every entry of the map has a reader, exactly if
in this run no task ends before its socket is inserted. -/
theorem exchange_keepsReaders_iff
    [DecidableEq Addr] (unset : Addr)
    {labels : List (ExchangeLabel Addr)} {final : Exchange Addr}
    (ran : (Exchange.machine unset).run (Exchange.start unset) labels =
      some final) :
    Associations.machine.run Associations.start
        ((Exchange.machine unset).trace Exchange.seen (Exchange.start unset)
          labels) = some final.associations ∧
      ((Exchange.machine unset).EachState Exchange.KeepsReaders
          (Exchange.start unset) labels ↔
        (Exchange.machine unset).EachStep Exchange.InsertsInTime
          (Exchange.start unset) labels) := by
  constructor
  · rw [← Exchange.associations_start unset]
    exact Exchange.associations_run ran
  · exact Machine.eachState_iff_of_needed
      (fun state : Exchange Addr => state.associations.Inv)
      Exchange.KeepsReaders Exchange.InsertsInTime
      Exchange.inv_associations_step
      (fun inv => Exchange.noneDead_associations.1 inv.alive)
      Exchange.insertsInTime_of_keepsReaders Associations.inv_start ran

/-- The task of client 7 ends before its socket is inserted. -/
def hastyRound : List (ExchangeLabel ℕ) :=
  [.front (.receive oneDatagram), .front (.resolve 9), .front .find,
    .front .associate, .front .spawn, .back 0 .leave, .back 0 .remove,
    .front .insert]

set_option maxRecDepth 10000 in
/-- Its entry has no reader. -/
theorem exchange_keepsReaders_iff_hasty :
    ¬ (Exchange.machine 0).EachState Exchange.KeepsReaders
        (Exchange.start 0) hastyRound := by
  have ran : ∃ before final,
      (Exchange.machine 0).run (Exchange.start 0) hastyRound = some final ∧
        (Exchange.machine 0).run (Exchange.start 0)
          (hastyRound.take 7) = some before ∧
        before.front.relay = .spawned 7 0 ∧
        (before.tasks 0).map BackTask.sendBack = some ⟨7, .finished⟩ :=
    ⟨_, _, rfl, rfl, rfl, rfl⟩
  rcases ran with ⟨before, final, ran, reached, relay, task⟩
  intro keeps
  have inTime := (exchange_keepsReaders_iff 0 ran).2.1 keeps
    (hastyRound.take 7) (.front .insert) [] before rfl reached
  rcases Exchange.inTime_associations.2 inTime 7 0 relay with
    ⟨seen, running, _, unfinished⟩
  have same : some seen = some ⟨7, .finished⟩ := running.symm.trans task
  rw [Option.some.injEq] at same
  rw [same] at unfinished
  exact unfinished rfl

/-! ## The socket of a client -/

namespace Exchange

/-- The relay opens a socket only for a client without an entry, and a socket
in its hands is the one of the entry, if there is one. -/
structure Heeds (state : Exchange Addr) : Prop where
  absent : ∀ laddr,
    Associations.RelayPhase.about state.front.relay = some laddr →
      state.sockmap.find laddr = none
  agrees : ∀ laddr rsock entry,
    state.front.holds = some (laddr, rsock) →
      state.sockmap.find laddr = some entry → entry = rsock

theorem heeds_start (unset : Addr) : (start unset).Heeds where
  absent laddr about := by cases about
  agrees laddr rsock entry holds := by cases holds

/-- The relay without a socket, and without a client to open one for. -/
theorem heeds_of_idle
    {state : Exchange Addr} (idle : state.front.relay = .idle)
    (empty : state.front.holds = none) : state.Heeds where
  absent laddr about := by
    rw [idle] at about
    cases about
  agrees laddr rsock entry holds := by
    rw [empty] at holds
    cases holds

variable [DecidableEq Addr] {unset : Addr} {state next : Exchange Addr}

theorem heeds_frontStep
    {label : FrontLabel Addr} (heeds : state.Heeds)
    (stepped : state.frontStep unset label = some next) : next.Heeds := by
  by_cases fails : label.fails = true
  · rw [restart_of_fails fails stepped]
    exact heeds_of_idle rfl rfl
  · cases label with
    | receive batch =>
        simp only [frontStep] at stepped
        split at stepped <;> cases stepped
        exact heeds_of_idle rfl rfl
    | resolve raddr =>
        simp only [frontStep] at stepped
        split at stepped <;> cases stepped
        exact heeds_of_idle (relay_nextTurn _ _) (holds_nextTurn _ _).1
    | find =>
        simp only [frontStep] at stepped
        split at stepped
        · split at stepped
          · next found =>
            cases stepped
            refine ⟨by rintro laddr ⟨⟩, ?_⟩
            rintro laddr rsock entry ⟨⟩ there
            exact Option.some.inj (there.symm.trans found)
          · next absent =>
            cases stepped
            refine ⟨?_, fun laddr rsock entry holds => by cases holds⟩
            rintro laddr ⟨⟩
            exact absent
        · cases stepped
    | associate =>
        simp only [frontStep] at stepped
        split at stepped
        · next raddr laddr pkts groups missed =>
          cases stepped
          have absent : state.sockmap.find laddr = none :=
            heeds.absent laddr (by rw [missed]; rfl)
          refine ⟨?_, ?_⟩
          · rintro other ⟨⟩
            exact absent
          · rintro other rsock entry ⟨⟩ found
            rw [absent] at found
            cases found
        · cases stepped
    | spawn =>
        simp only [frontStep] at stepped
        split at stepped
        · next raddr laddr rsock pkts groups associated =>
          cases stepped
          have absent : state.sockmap.find laddr = none :=
            heeds.absent laddr (by rw [associated]; rfl)
          refine ⟨?_, ?_⟩
          · rintro other ⟨⟩
            exact absent
          · rintro other socket entry ⟨⟩ found
            rw [absent] at found
            cases found
        · cases stepped
    | insert =>
        simp only [frontStep] at stepped
        split at stepped
        · next raddr laddr rsock pkts groups spawned =>
          cases stepped
          refine ⟨by rintro other ⟨⟩, ?_⟩
          rintro other socket entry ⟨⟩ found
          rw [SockMap.find_insert_self] at found
          exact (Option.some.inj found).symm
        · cases stepped
    | send accepted =>
        simp only [frontStep] at stepped
        split at stepped
        · next raddr laddr rsock rest groups sending =>
          split at stepped
          · cases stepped
          · cases stepped
            split
            · exact heeds_of_idle (relay_nextTurn _ _)
                (holds_nextTurn _ _).1
            · refine ⟨by rintro other ⟨⟩, ?_⟩
              rintro other socket entry ⟨⟩ found
              exact heeds.agrees laddr rsock entry (by rw [sending]; rfl)
                found
        · cases stepped
    | receiveFails => exact absurd rfl fails
    | resolveFails => exact absurd rfl fails
    | associateFails => exact absurd rfl fails
    | sendFails => exact absurd rfl fails

/-- A task does no more to the entries than remove one. -/
theorem heeds_taskStep
    {rsock : Socket} {task task' : BackTask Addr} (heeds : state.Heeds)
    (kept : TaskStep state next rsock task task') : next.Heeds := by
  have before {laddr : Addr} {entry : Socket}
      (found : next.sockmap.find laddr = some entry) :
      state.sockmap.find laddr = some entry := by
    rcases kept.sockmap with same | removed
    · rwa [same] at found
    · rw [removed] at found
      by_cases mine : laddr = task.laddr
      · rw [mine, SockMap.find_remove_self] at found
        cases found
      · rwa [SockMap.find_remove_of_ne _ mine] at found
  constructor
  · intro laddr about
    rw [kept.front] at about
    cases found : next.sockmap.find laddr with
    | none => rfl
    | some entry =>
        have there := before found
        rw [heeds.absent laddr about] at there
        cases there
  · intro laddr socket entry holds found
    rw [kept.front] at holds
    exact heeds.agrees laddr socket entry holds (before found)

theorem heeds_step
    {label : ExchangeLabel Addr} (heeds : state.Heeds)
    (stepped : (machine unset).step state label = some next) :
    next.Heeds := by
  cases label with
  | front label => exact heeds_frontStep heeds stepped
  | back rsock label =>
      rcases taskStep_of_backStep stepped with ⟨_, _, kept⟩
      exact heeds_taskStep heeds kept

/-! ## A client without a reader -/

/-- The client has an entry, and nobody reads for it. -/
structure CutOff
    (state : Exchange Addr) (laddr : Addr) (rsock : Socket) : Prop where
  entry : state.sockmap.find laddr = some rsock
  unread : ∀ reader, ¬ state.HasReader laddr reader

/-- What happens to the client from one state to a later one: its datagrams go
to the socket, and on none of its sockets is anything read or returned. -/
structure Unanswered
    (earlier later : Exchange Addr) (laddr : Addr) (rsock : Socket) :
    Prop where
  handed : ∃ more, later.books.handed = earlier.books.handed ++ more ∧
    ∀ handed ∈ more, handed.client = laddr → handed.socket = rsock
  quiet : ∀ socket, later.books.owner socket = some laddr →
    earlier.books.owner socket = some laddr ∧
      later.books.answered socket = earlier.books.answered socket ∧
      later.books.returned socket = earlier.books.returned socket

omit [DecidableEq Addr] in
theorem Unanswered.refl
    (state : Exchange Addr) (laddr : Addr) (rsock : Socket) :
    Unanswered state state laddr rsock where
  handed := ⟨[], (List.append_nil _).symm, fun _ none => by cases none⟩
  quiet _ mine := ⟨mine, rfl, rfl⟩

omit [DecidableEq Addr] in
theorem Unanswered.trans
    {first second third : Exchange Addr} {laddr : Addr} {rsock : Socket}
    (before : Unanswered first second laddr rsock)
    (after : Unanswered second third laddr rsock) :
    Unanswered first third laddr rsock where
  handed := by
    rcases before.handed with ⟨early, earlyHanded, earlyAgrees⟩
    rcases after.handed with ⟨late, lateHanded, lateAgrees⟩
    refine ⟨early ++ late, ?_, ?_⟩
    · rw [lateHanded, earlyHanded, List.append_assoc]
    · intro handed member
      rcases List.mem_append.1 member with there | there
      · exact earlyAgrees handed there
      · exact lateAgrees handed there
  quiet socket mine := by
    rcases after.quiet socket mine with ⟨owner, answered, returned⟩
    rcases before.quiet socket owner with ⟨owner', answered', returned'⟩
    exact ⟨owner', answered.trans answered', returned.trans returned'⟩

variable {laddr : Addr} {rsock : Socket}

omit [DecidableEq Addr] in
theorem CutOff.dead
    (cut : state.CutOff laddr rsock) (heeds : state.Heeds) :
    state.associations.Dead laddr rsock where
  found := cut.entry
  unread reader reads := cut.unread reader (reads_associations.1 reads)
  elsewhere about := by
    have absent := heeds.absent laddr about
    rw [cut.entry] at absent
    cases absent

/-- A client that is cut off stays so. -/
theorem cutOff_step
    {label : ExchangeLabel Addr} (cut : state.CutOff laddr rsock)
    (heeds : state.Heeds)
    (stepped : (machine unset).step state label = some next) :
    next.CutOff laddr rsock := by
  have dead := Associations.dead_run (cut.dead heeds)
    (associations_step stepped)
  exact ⟨dead.found, fun reader reads =>
    dead.unread reader (reads_associations.2 reads)⟩

/-- What a step of the relay hands on, it hands on to the socket in its
hands; and it opens a socket only for a client without an entry. -/
theorem books_frontStep
    {label : FrontLabel Addr} (heeds : state.Heeds)
    (stepped : state.frontStep unset label = some next) :
    (∃ more, next.books.handed = state.books.handed ++ more ∧
      ∀ handed ∈ more,
        state.front.holds = some (handed.client, handed.socket)) ∧
      next.books.answered = state.books.answered ∧
      next.books.returned = state.books.returned ∧
      ∀ socket owner, next.books.owner socket = some owner →
        state.books.owner socket = some owner ∨
          state.sockmap.find owner = none := by
  have nothing (handed : next.books.handed = state.books.handed) :
      ∃ more, next.books.handed = state.books.handed ++ more ∧
        ∀ handed ∈ more,
          state.front.holds = some (handed.client, handed.socket) :=
    ⟨[], handed.trans (List.append_nil _).symm, fun _ none => by
      cases none⟩
  have same (owner : next.books.owner = state.books.owner)
      (socket : Socket) (client : Addr)
      (mine : next.books.owner socket = some client) :
      state.books.owner socket = some client ∨
        state.sockmap.find client = none := by
    rw [owner] at mine
    exact .inl mine
  by_cases fails : label.fails = true
  · have restarted := restart_of_fails fails stepped
    subst restarted
    exact ⟨nothing rfl, rfl, rfl, same rfl⟩
  · cases label with
    | receive batch =>
        simp only [frontStep] at stepped
        split at stepped <;> cases stepped
        exact ⟨nothing rfl, rfl, rfl, same rfl⟩
    | resolve raddr =>
        simp only [frontStep] at stepped
        split at stepped <;> cases stepped
        exact ⟨nothing rfl, rfl, rfl, same rfl⟩
    | find =>
        simp only [frontStep] at stepped
        split at stepped
        · split at stepped <;> cases stepped <;>
            exact ⟨nothing rfl, rfl, rfl, same rfl⟩
        · cases stepped
    | associate =>
        simp only [frontStep] at stepped
        split at stepped
        · next raddr client pkts groups missed =>
          cases stepped
          refine ⟨nothing rfl, rfl, rfl, ?_⟩
          intro socket owner mine
          dsimp only at mine
          by_cases here : socket = state.opened
          · rw [here, Function.update_self] at mine
            cases mine
            exact .inr (heeds.absent client (by rw [missed]; rfl))
          · rw [Function.update_of_ne here] at mine
            exact .inl mine
        · cases stepped
    | spawn =>
        simp only [frontStep] at stepped
        split at stepped <;> cases stepped
        exact ⟨nothing rfl, rfl, rfl, same rfl⟩
    | insert =>
        simp only [frontStep] at stepped
        split at stepped <;> cases stepped
        exact ⟨nothing rfl, rfl, rfl, same rfl⟩
    | send accepted =>
        simp only [frontStep] at stepped
        split at stepped
        · next raddr client socket rest groups sending =>
          split at stepped
          · cases stepped
          · cases stepped
            refine ⟨⟨_, rfl, ?_⟩, rfl, rfl, same rfl⟩
            intro handed member
            rcases List.mem_map.1 member with ⟨datagram, _, rfl⟩
            rw [sending]
            rfl
        · cases stepped
    | receiveFails => exact absurd rfl fails
    | resolveFails => exact absurd rfl fails
    | associateFails => exact absurd rfl fails
    | sendFails => exact absurd rfl fails

/-- Only a task that has not finished takes a step, and it reads and returns
on its own socket alone. -/
theorem books_backStep
    {reader : Socket} {label : BackLabel Addr}
    (stepped : state.backStep reader label = some next) :
    ∃ task, state.tasks reader = some task ∧ task.phase ≠ .finished ∧
      ∀ socket, socket ≠ reader →
        next.books.answered socket = state.books.answered socket ∧
          next.books.returned socket = state.books.returned socket := by
  cases label with
  | receive batch =>
      simp only [backStep] at stepped
      split at stepped
      · next running =>
        cases stepped
        refine ⟨_, running, by rintro ⟨⟩, ?_⟩
        intro socket apart
        exact ⟨Function.update_of_ne apart _ _, rfl⟩
      · cases stepped
  | send accepted =>
      simp only [backStep] at stepped
      split at stepped
      · next running =>
        split at stepped
        · cases stepped
        · cases stepped
          refine ⟨_, running, by rintro ⟨⟩, ?_⟩
          intro socket apart
          exact ⟨rfl, Function.update_of_ne apart _ _⟩
      · cases stepped
  | sendFails =>
      simp only [backStep] at stepped
      split at stepped
      · next running =>
        cases stepped
        exact ⟨_, running, by rintro ⟨⟩, fun _ _ => ⟨rfl, rfl⟩⟩
      · cases stepped
  | leave =>
      simp only [backStep] at stepped
      split at stepped
      · next running =>
        cases stepped
        exact ⟨_, running, by rintro ⟨⟩, fun _ _ => ⟨rfl, rfl⟩⟩
      · cases stepped
  | remove =>
      simp only [backStep] at stepped
      split at stepped
      · next running =>
        cases stepped
        exact ⟨_, running, by rintro ⟨⟩, fun _ _ => ⟨rfl, rfl⟩⟩
      · cases stepped

/-- In one step the client is not answered. -/
theorem unanswered_step
    {label : ExchangeLabel Addr} (cut : state.CutOff laddr rsock)
    (heeds : state.Heeds) (owned : state.Owned)
    (stepped : (machine unset).step state label = some next) :
    Unanswered state next laddr rsock := by
  cases label with
  | front label =>
      rcases books_frontStep heeds stepped with
        ⟨⟨more, handed, held⟩, answered, returned, owners⟩
      constructor
      · refine ⟨more, handed, ?_⟩
        rintro handed member rfl
        exact (heeds.agrees _ _ _ (held handed member) cut.entry).symm
      · intro socket mine
        rcases owners socket laddr mine with before | absent
        · exact ⟨before, congrFun answered socket,
            congrFun returned socket⟩
        · rw [cut.entry] at absent
          cases absent
  | back reader label =>
      rcases taskStep_of_backStep stepped with ⟨_, _, kept⟩
      rcases books_backStep stepped with
        ⟨task, running, unfinished, others⟩
      constructor
      · exact ⟨[], kept.handed.trans (List.append_nil _).symm,
          fun _ none => by cases none⟩
      · intro socket mine
        rw [kept.owner] at mine
        have apart : socket ≠ reader := by
          rintro rfl
          have owner := owned.task socket task running
          rw [mine, Option.some.injEq] at owner
          exact cut.unread socket ⟨task, running, owner.symm, unfinished⟩
        exact ⟨mine, others socket apart⟩

theorem unanswered_run
    {middle final : Exchange Addr} {labels : List (ExchangeLabel Addr)}
    (cut : middle.CutOff laddr rsock) (heeds : middle.Heeds)
    (owned : middle.Owned ∧ middle.Following)
    (ran : (machine unset).run middle labels = some final) :
    final.CutOff laddr rsock ∧ Unanswered middle final laddr rsock := by
  have kept := Machine.run_invariant
    (fun state : Exchange Addr =>
      (state.CutOff laddr rsock ∧ state.Heeds ∧
        state.Owned ∧ state.Following) ∧
        Unanswered middle state laddr rsock)
    (fun before stepped => by
      rcases before with ⟨⟨cut, heeds, owned⟩, unanswered⟩
      exact ⟨⟨cutOff_step cut heeds stepped, heeds_step heeds stepped,
          owned_following_step owned stepped⟩,
        unanswered.trans (unanswered_step cut heeds owned.1 stepped)⟩)
    ⟨⟨cut, heeds, owned⟩, .refl middle laddr rsock⟩ ran
  exact ⟨kept.1.1, kept.2⟩

end Exchange

/-- Once a client has an entry that nobody reads for, it is never answered
again: in every continuation the entry stays, what the client sends goes to
the socket of the entry, and on none of its sockets is anything read or
returned. -/
theorem exchange_cutOff_forever
    [DecidableEq Addr] (unset : Addr)
    {earlier later : List (ExchangeLabel Addr)}
    {middle final : Exchange Addr}
    (first : (Exchange.machine unset).run (Exchange.start unset) earlier =
      some middle)
    (second : (Exchange.machine unset).run middle later = some final)
    {laddr : Addr} {rsock : Socket}
    (entry : middle.sockmap.find laddr = some rsock)
    (unread : ∀ reader, ¬ middle.HasReader laddr reader) :
    final.sockmap.find laddr = some rsock ∧
      (∃ more, final.books.handed = middle.books.handed ++ more ∧
        ∀ handed ∈ more, handed.client = laddr →
          handed.socket = rsock) ∧
      ∀ socket, final.books.owner socket = some laddr →
        final.books.answered socket = middle.books.answered socket ∧
          final.books.returned socket = middle.books.returned socket := by
  have heeds : middle.Heeds :=
    Machine.run_invariant Exchange.Heeds Exchange.heeds_step
      (Exchange.heeds_start unset) first
  have owned : middle.Owned ∧ middle.Following :=
    Machine.run_invariant
      (fun state : Exchange Addr => state.Owned ∧ state.Following)
      Exchange.owned_following_step
      ⟨Exchange.owned_start unset, fun _ => ⟨rfl, rfl⟩⟩ first
  rcases Exchange.unanswered_run ⟨entry, unread⟩ heeds owned second with
    ⟨cut, unanswered⟩
  refine ⟨cut.entry, unanswered.handed, ?_⟩
  intro socket mine
  exact (unanswered.quiet socket mine).2

/-- Client 7 sends again. -/
def secondRound : List (ExchangeLabel ℕ) :=
  [.front (.receive oneDatagram), .front (.resolve 9), .front .find,
    .front (.send 1)]

set_option maxRecDepth 10000 in
/-- What it sends after its task has ended early goes to socket 0. -/
theorem exchange_cutOff_forever_hasty :
    ∃ middle final,
      (Exchange.machine 0).run (Exchange.start 0)
          (hastyRound ++ [.front (.send 1)]) = some middle ∧
        (Exchange.machine 0).run middle secondRound = some final ∧
        final.books.handed.length = 2 ∧
        final.sockmap.find 7 = some 0 ∧
        final.books.returned 0 = middle.books.returned 0 := by
  have ran : ∃ middle final,
      (Exchange.machine 0).run (Exchange.start 0)
          (hastyRound ++ [.front (.send 1)]) = some middle ∧
        (Exchange.machine 0).run middle secondRound = some final ∧
        middle.sockmap.find 7 = some 0 ∧
        final.books.handed.length = 2 ∧
        final.books.owner 0 = some 7 ∧
        (middle.tasks 0).map BackTask.sendBack = some ⟨7, .finished⟩ ∧
        ∀ reader, middle.tasks (reader + 1) = none :=
    ⟨_, _, rfl, rfl, rfl, rfl, rfl, rfl, fun _ => rfl⟩
  rcases ran with
    ⟨middle, final, first, second, entry, twice, owner, ended, others⟩
  have unread : ∀ reader, ¬ middle.HasReader 7 reader := by
    intro reader reads
    rcases Exchange.reads_associations.2 reads with
      ⟨seen, running, _, unfinished⟩
    cases reader with
    | zero =>
        have same : some seen = some ⟨7, .finished⟩ :=
          running.symm.trans ended
        rw [Option.some.injEq] at same
        rw [same] at unfinished
        exact unfinished rfl
    | succ reader =>
        rcases reads with ⟨task, there, _⟩
        rw [others reader] at there
        cases there
  rcases exchange_cutOff_forever 0 first second entry unread with
    ⟨stays, _, quiet⟩
  exact ⟨middle, final, first, second, twice, stays, (quiet 0 owner).2⟩

end ByteHub.Udp
