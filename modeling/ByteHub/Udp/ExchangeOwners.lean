import ByteHub.Udp.ExchangeLedger

/-!
# Each socket has one client

A socket is opened for one client, and it stays with this client: only the
client's datagrams are sent on it, and what comes back on it is sent to the
client, in order and without a gap.
-/

namespace ByteHub.Udp

open ByteHub.Library

variable {Addr : Type}

/-- What is sent to a client of a datagram that has come back. -/
def Datagram.toClient (laddr : Addr) (datagram : Datagram Addr) :
    Datagram Addr :=
  ⟨datagram.payload.take packetSize, laddr⟩

/-- The socket in the hands of the relay, with its client. -/
def FrontPhase.holds : FrontPhase Addr → Option (Addr × Socket)
  | .associated _ laddr rsock _ _ => some (laddr, rsock)
  | .spawned _ laddr rsock _ _ => some (laddr, rsock)
  | .sending _ laddr rsock _ _ => some (laddr, rsock)
  | _ => none

/-- The socket that has no task yet. -/
def FrontPhase.unread : FrontPhase Addr → Option Socket
  | .associated _ _ rsock _ _ => some rsock
  | _ => none

/-- What has come back and what was returned of it: all but what the task is
about to send, or has given up. -/
def Follows (answered returned : List (Datagram Addr)) :
    Option (BackTask Addr) → Prop
  | none => answered = [] ∧ returned = []
  | some task =>
      ∃ rest,
        returned ++ rest = answered.map (Datagram.toClient task.laddr) ∧
          (task.phase = .receiving → rest = []) ∧
          ∀ left, task.phase = .sending left → rest = left

namespace Exchange

theorem holds_nextTurn (raddr : Addr) (groups : List (List (Packet Addr))) :
    (nextTurn raddr groups).holds = none ∧
      (nextTurn raddr groups).unread = none := by
  cases groups <;> exact ⟨rfl, rfl⟩

/-! ## Owners -/

/-- Everything that has to do with a socket has to do with its client. -/
structure Owned (state : Exchange Addr) : Prop where
  fresh : ∀ rsock, state.opened ≤ rsock → state.books.owner rsock = none
  entry : ∀ laddr rsock, state.sockmap.find laddr = some rsock →
    state.books.owner rsock = some laddr
  front : ∀ laddr rsock, state.front.holds = some (laddr, rsock) →
    state.books.owner rsock = some laddr
  handed : ∀ handed ∈ state.books.handed,
    state.books.owner handed.socket = some handed.client
  task : ∀ rsock task, state.tasks rsock = some task →
    state.books.owner rsock = some task.laddr
  unread : ∀ rsock, state.front.unread = some rsock →
    state.tasks rsock = none

theorem owned_start (unset : Addr) : (start unset).Owned where
  fresh _ _ := rfl
  entry laddr rsock found := by cases found
  front laddr rsock holds := by cases holds
  handed handed member := by cases member
  task rsock task running := by cases running
  unread rsock unread := by cases unread

/-- A step of the relay that takes no socket in hand and changes none. -/
theorem Owned.front_only
    {state next : Exchange Addr} (owned : state.Owned)
    (kept : next.opened = state.opened ∧ next.sockmap = state.sockmap ∧
      next.tasks = state.tasks ∧ next.books.owner = state.books.owner ∧
      next.books.handed = state.books.handed)
    (front : ∀ laddr rsock, next.front.holds = some (laddr, rsock) →
      state.books.owner rsock = some laddr)
    (unread : next.front.unread = none) : next.Owned := by
  rcases kept with ⟨opened, sockmap, tasks, owner, handed⟩
  constructor
  · rw [opened, owner]
    exact owned.fresh
  · rw [sockmap, owner]
    exact owned.entry
  · rw [owner]
    exact front
  · rw [handed, owner]
    exact owned.handed
  · rw [tasks, owner]
    exact owned.task
  · intro rsock here
    rw [unread] at here
    cases here

variable [DecidableEq Addr] {unset : Addr} {state next : Exchange Addr}

theorem owned_find
    (owned : state.Owned)
    (stepped : state.frontStep unset .find = some next) : next.Owned := by
  simp only [frontStep] at stepped
  split at stepped
  · split at stepped
    · next found =>
      cases stepped
      refine owned.front_only ⟨rfl, rfl, rfl, rfl, rfl⟩ ?_ rfl
      intro laddr rsock holds
      cases holds
      exact owned.entry _ _ found
    · cases stepped
      refine owned.front_only ⟨rfl, rfl, rfl, rfl, rfl⟩ ?_ rfl
      intro laddr rsock holds
      cases holds
  · cases stepped

/-- A socket is opened for a client. -/
theorem owned_associate
    (owned : state.Owned)
    (stepped : state.frontStep unset .associate = some next) :
    next.Owned := by
  simp only [frontStep] at stepped
  split at stepped
  · next raddr laddr pkts groups missed =>
    cases stepped
    have kept {rsock : Socket} {other : Addr}
        (mine : state.books.owner rsock = some other) :
        Function.update state.books.owner state.opened (some laddr) rsock =
          some other := by
      rw [Function.update_of_ne, mine]
      rintro rfl
      rw [owned.fresh _ (Nat.le_refl _)] at mine
      cases mine
    constructor
    · intro rsock later
      dsimp only at later ⊢
      rw [Function.update_of_ne (Nat.ne_of_gt later)]
      exact owned.fresh rsock (Nat.le_of_succ_le later)
    · exact fun other rsock found => kept (owned.entry other rsock found)
    · intro other rsock holds
      cases holds
      exact Function.update_self _ _ _
    · exact fun handed member => kept (owned.handed handed member)
    · exact fun rsock task running => kept (owned.task rsock task running)
    · intro rsock unread
      cases unread
      cases running : state.tasks state.opened with
      | none => rfl
      | some task =>
          have mine := owned.task _ _ running
          rw [owned.fresh _ (Nat.le_refl _)] at mine
          cases mine
  · cases stepped

theorem owned_spawn
    (owned : state.Owned)
    (stepped : state.frontStep unset .spawn = some next) : next.Owned := by
  simp only [frontStep] at stepped
  split at stepped
  · next raddr laddr rsock pkts groups associated =>
    cases stepped
    have mine := owned.front laddr rsock (by rw [associated]; rfl)
    constructor
    · exact owned.fresh
    · exact owned.entry
    · intro other socket holds
      cases holds
      exact mine
    · exact owned.handed
    · intro socket task running
      dsimp only at running
      by_cases same : socket = rsock
      · subst same
        rw [Function.update_self] at running
        cases running
        exact mine
      · rw [Function.update_of_ne same] at running
        exact owned.task socket task running
    · intro socket unread
      cases unread
  · cases stepped

theorem owned_insert
    (owned : state.Owned)
    (stepped : state.frontStep unset .insert = some next) : next.Owned := by
  simp only [frontStep] at stepped
  split at stepped
  · next raddr laddr rsock pkts groups spawned =>
    cases stepped
    have mine := owned.front laddr rsock (by rw [spawned]; rfl)
    constructor
    · exact owned.fresh
    · intro other socket found
      dsimp only at found ⊢
      by_cases same : other = laddr
      · subst same
        rw [SockMap.find_insert_self] at found
        cases found
        exact mine
      · rw [SockMap.find_insert_of_ne _ _ same] at found
        exact owned.entry other socket found
    · intro other socket holds
      cases holds
      exact mine
    · exact owned.handed
    · exact owned.task
    · intro socket unread
      cases unread
  · cases stepped

theorem owned_send
    {accepted : ℕ} (owned : state.Owned)
    (stepped : state.frontStep unset (.send accepted) = some next) :
    next.Owned := by
  simp only [frontStep] at stepped
  split at stepped
  · next raddr laddr rsock rest groups sending =>
    split at stepped
    · cases stepped
    · cases stepped
      have mine := owned.front laddr rsock (by rw [sending]; rfl)
      constructor
      · exact owned.fresh
      · exact owned.entry
      · intro other socket holds
        dsimp only at holds
        split at holds
        · rw [(holds_nextTurn raddr groups).1] at holds
          cases holds
        · cases holds
          exact mine
      · intro handed member
        rcases List.mem_append.1 member with before | now
        · exact owned.handed handed before
        · rcases List.mem_map.1 now with ⟨datagram, _, rfl⟩
          exact mine
      · exact owned.task
      · intro socket unread
        dsimp only at unread
        split at unread
        · rw [(holds_nextTurn raddr groups).2] at unread
          cases unread
        · cases unread
  · cases stepped

theorem owned_frontStep
    {label : FrontLabel Addr} (owned : state.Owned)
    (stepped : state.frontStep unset label = some next) : next.Owned := by
  by_cases fails : label.fails = true
  · rw [restart_of_fails fails stepped]
    refine owned.front_only ⟨rfl, rfl, rfl, rfl, rfl⟩ ?_ rfl
    intro laddr rsock holds
    cases holds
  · cases label with
    | receive batch =>
        simp only [frontStep] at stepped
        split at stepped <;> cases stepped
        refine owned.front_only ⟨rfl, rfl, rfl, rfl, rfl⟩ ?_ rfl
        intro laddr rsock holds
        cases holds
    | resolve raddr =>
        simp only [frontStep] at stepped
        split at stepped <;> cases stepped
        refine owned.front_only ⟨rfl, rfl, rfl, rfl, rfl⟩ ?_
          (holds_nextTurn _ _).2
        intro laddr rsock holds
        dsimp only at holds
        rw [(holds_nextTurn _ _).1] at holds
        cases holds
    | find => exact owned_find owned stepped
    | associate => exact owned_associate owned stepped
    | spawn => exact owned_spawn owned stepped
    | insert => exact owned_insert owned stepped
    | send accepted => exact owned_send owned stepped
    | receiveFails => exact absurd rfl fails
    | resolveFails => exact absurd rfl fails
    | associateFails => exact absurd rfl fails
    | sendFails => exact absurd rfl fails

/-- A task keeps its client. -/
theorem owned_taskStep
    {rsock : Socket} {task task' : BackTask Addr} (owned : state.Owned)
    (kept : TaskStep state next rsock task task') : next.Owned := by
  constructor
  · rw [kept.opened, kept.owner]
    exact owned.fresh
  · intro laddr socket found
    rw [kept.owner]
    rcases kept.sockmap with same | removed
    · rw [same] at found
      exact owned.entry laddr socket found
    · rw [removed] at found
      by_cases mine : laddr = task.laddr
      · rw [mine, SockMap.find_remove_self] at found
        cases found
      · rw [SockMap.find_remove_of_ne _ mine] at found
        exact owned.entry laddr socket found
  · rw [kept.front, kept.owner]
    exact owned.front
  · rw [kept.handed, kept.owner]
    exact owned.handed
  · intro socket other running
    rw [kept.tasks] at running
    rw [kept.owner]
    by_cases same : socket = rsock
    · subst same
      rw [Function.update_self] at running
      cases running
      rw [kept.laddr]
      exact owned.task _ _ kept.running
    · rw [Function.update_of_ne same] at running
      exact owned.task _ _ running
  · intro socket unread
    rw [kept.front] at unread
    have absent := owned.unread socket unread
    rw [kept.tasks, Function.update_of_ne]
    · exact absent
    · rintro rfl
      rw [kept.running] at absent
      cases absent

/-! ## Answers -/

/-- What is returned follows what has come back, on every socket. -/
def Following (state : Exchange Addr) : Prop :=
  ∀ rsock, Follows (state.books.answered rsock) (state.books.returned rsock)
    (state.tasks rsock)

/-- The relay touches neither, and spawns a task that has nothing yet. -/
theorem following_frontStep
    {label : FrontLabel Addr} (owned : state.Owned)
    (following : state.Following)
    (stepped : state.frontStep unset label = some next) :
    next.Following := by
  by_cases fails : label.fails = true
  · rw [restart_of_fails fails stepped]
    exact following
  · cases label with
    | receive batch =>
        simp only [frontStep] at stepped
        split at stepped <;> cases stepped
        exact following
    | resolve raddr =>
        simp only [frontStep] at stepped
        split at stepped <;> cases stepped
        exact following
    | find =>
        simp only [frontStep] at stepped
        split at stepped
        · split at stepped <;> cases stepped <;> exact following
        · cases stepped
    | associate =>
        simp only [frontStep] at stepped
        split at stepped <;> cases stepped
        exact following
    | spawn =>
        simp only [frontStep] at stepped
        split at stepped
        · next raddr laddr rsock pkts groups associated =>
          cases stepped
          intro socket
          dsimp only
          by_cases same : socket = rsock
          · subst same
            have before := following socket
            rw [owned.unread socket (by rw [associated]; rfl)] at before
            rw [Function.update_self, before.1, before.2]
            exact ⟨[], rfl, fun _ => rfl, fun left sending => by
              cases sending⟩
          · rw [Function.update_of_ne same]
            exact following socket
        · cases stepped
    | insert =>
        simp only [frontStep] at stepped
        split at stepped <;> cases stepped
        exact following
    | send accepted =>
        simp only [frontStep] at stepped
        split at stepped
        · split at stepped <;> cases stepped
          exact following
        · cases stepped
    | receiveFails => exact absurd rfl fails
    | resolveFails => exact absurd rfl fails
    | associateFails => exact absurd rfl fails
    | sendFails => exact absurd rfl fails

omit [DecidableEq Addr] in
/-- A change on one socket alone. -/
theorem Following.update
    (following : state.Following) (rsock : Socket)
    (others : ∀ socket, socket ≠ rsock →
      next.books.answered socket = state.books.answered socket ∧
        next.books.returned socket = state.books.returned socket ∧
        next.tasks socket = state.tasks socket)
    (here : Follows (next.books.answered rsock) (next.books.returned rsock)
      (next.tasks rsock)) : next.Following := by
  intro socket
  by_cases same : socket = rsock
  · subst same
    exact here
  · rcases others socket same with ⟨answered, returned, tasks⟩
    rw [answered, returned, tasks]
    exact following socket

theorem following_receive
    {rsock : Socket} {batch : Batch Addr} (following : state.Following)
    (stepped : state.backStep rsock (.receive batch) = some next) :
    next.Following := by
  simp only [backStep] at stepped
  split at stepped
  · next laddr registry running =>
    cases stepped
    have before := following rsock
    rw [running] at before
    rcases before with ⟨rest, whole, idle, _⟩
    rw [idle rfl, List.append_nil] at whole
    refine following.update rsock ?_ ?_
    · intro socket other
      refine ⟨?_, rfl, ?_⟩
      · exact Function.update_of_ne other _ _
      · exact Function.update_of_ne other _ _
    · dsimp only [setTask]
      rw [Function.update_self, Function.update_self]
      refine ⟨(registry.batchedRecvOn batch).iter.map fun pkt =>
        pkt.refWithAddr laddr, ?_, ?_, ?_⟩
      · rw [returned_eq, whole, List.map_append]
        rfl
      · intro none
        cases none
      · intro left sending
        cases sending
        rfl
  · cases stepped

theorem following_send
    {rsock : Socket} {accepted : ℕ} (following : state.Following)
    (stepped : state.backStep rsock (.send accepted) = some next) :
    next.Following := by
  simp only [backStep] at stepped
  split at stepped
  · next laddr registry rest running =>
    split at stepped
    · cases stepped
    · next fits =>
      cases stepped
      have before := following rsock
      rw [running] at before
      rcases before with ⟨left, whole, _, sending⟩
      have same : left = rest := sending rest rfl
      subst same
      refine following.update rsock ?_ ?_
      · intro socket other
        refine ⟨rfl, ?_, ?_⟩
        · exact Function.update_of_ne other _ _
        · exact Function.update_of_ne other _ _
      · dsimp only [setTask]
        rw [Function.update_self, Function.update_self]
        refine ⟨left.drop accepted, ?_, ?_, ?_⟩
        · rw [List.append_assoc, List.take_append_drop]
          exact whole
        · intro receiving
          dsimp only at receiving
          split at receiving
          · next all => rw [all, List.drop_length]
          · cases receiving
        · intro other going
          dsimp only at going
          split at going
          · cases going
          · cases going
            rfl
  · cases stepped

/-- A task that ends sends nothing more. -/
theorem following_ends
    {rsock : Socket} {label : BackLabel Addr}
    (ends : label = .sendFails ∨ label = .leave ∨ label = .remove)
    (following : state.Following)
    (stepped : state.backStep rsock label = some next) :
    next.Following := by
  have settle {laddr : Addr} {registry : Registry Addr}
      {phase phase' : BackPhase Addr}
      (running : state.tasks rsock = some ⟨laddr, registry, phase⟩)
      (settled : phase' = .leaving ∨ phase' = .finished) :
      Follows (state.books.answered rsock) (state.books.returned rsock)
        (some ⟨laddr, registry, phase'⟩) := by
    have before := following rsock
    rw [running] at before
    rcases before with ⟨rest, whole, _⟩
    refine ⟨rest, whole, ?_, ?_⟩
    · rintro rfl
      rcases settled with none | none <;> cases none
    · rintro left rfl
      rcases settled with none | none <;> cases none
  rcases ends with rfl | rfl | rfl
  all_goals
    simp only [backStep] at stepped
    split at stepped
  · next running =>
    cases stepped
    refine following.update rsock
      (fun socket other => ⟨rfl, rfl, Function.update_of_ne other _ _⟩) ?_
    dsimp only [setTask]
    rw [Function.update_self]
    exact settle running (.inl rfl)
  · cases stepped
  · next running =>
    cases stepped
    refine following.update rsock
      (fun socket other => ⟨rfl, rfl, Function.update_of_ne other _ _⟩) ?_
    dsimp only [setTask]
    rw [Function.update_self]
    exact settle running (.inl rfl)
  · cases stepped
  · next running =>
    cases stepped
    refine following.update rsock
      (fun socket other => ⟨rfl, rfl, Function.update_of_ne other _ _⟩) ?_
    dsimp only [setTask]
    rw [Function.update_self]
    exact settle running (.inr rfl)
  · cases stepped

theorem following_backStep
    {rsock : Socket} {label : BackLabel Addr} (following : state.Following)
    (stepped : state.backStep rsock label = some next) :
    next.Following := by
  cases label with
  | receive batch => exact following_receive following stepped
  | send accepted => exact following_send following stepped
  | sendFails => exact following_ends (.inl rfl) following stepped
  | leave => exact following_ends (.inr (.inl rfl)) following stepped
  | remove => exact following_ends (.inr (.inr rfl)) following stepped

theorem owned_following_step
    {label : ExchangeLabel Addr}
    (before : state.Owned ∧ state.Following)
    (stepped : (machine unset).step state label = some next) :
    next.Owned ∧ next.Following := by
  rcases before with ⟨owned, following⟩
  cases label with
  | front label =>
      exact ⟨owned_frontStep owned stepped,
        following_frontStep owned following stepped⟩
  | back rsock label =>
      rcases taskStep_of_backStep stepped with ⟨_, _, kept⟩
      exact ⟨owned_taskStep owned kept,
        following_backStep following stepped⟩

end Exchange

/-- The remote answers with one byte. -/
def oneAnswer : Batch ℕ where
  datagrams := [⟨[3], 9⟩]
  nonempty := by decide
  bounded := by decide

/-- In every run each socket has one client: everything sent on it is a
datagram of this client, and what was returned of the answers on it was
returned to this client, from the first answer on in order and without a
gap. -/
theorem exchange_separates
    [DecidableEq Addr] (unset : Addr)
    {labels : List (ExchangeLabel Addr)} {final : Exchange Addr}
    (ran : (Exchange.machine unset).run (Exchange.start unset) labels =
      some final) (rsock : Socket) :
    ∃ laddr,
      (∀ handed ∈ final.books.handed, handed.socket = rsock →
        handed.client = laddr ∧ ∃ datagram ∈ final.books.received,
          datagram.addr = laddr ∧
            handed.datagram.payload = datagram.payload.take packetSize) ∧
      final.books.returned rsock <+:
        (final.books.answered rsock).map (Datagram.toClient laddr) := by
  rcases Machine.run_invariant
      (fun state : Exchange Addr => state.Owned ∧ state.Following)
      Exchange.owned_following_step
      ⟨Exchange.owned_start unset, fun _ => ⟨rfl, rfl⟩⟩ ran with
    ⟨owned, following⟩
  have ledger := (Machine.run_invariant Exchange.Balanced
    Exchange.balanced_step (Exchange.balanced_start unset) ran).ledger
  have origin {handed : Handed Addr}
      (member : handed ∈ final.books.handed) :
      ∃ datagram ∈ final.books.received,
        datagram.addr = handed.client ∧
          handed.datagram.payload = datagram.payload.take packetSize := by
    have parcel : handed.parcel ∈
        final.books.received.map Datagram.parcel := by
      apply ledger.subset
      exact List.mem_append_left _ (List.mem_append_left _
        (List.mem_map_of_mem member))
    rcases List.mem_map.1 parcel with ⟨datagram, there, same⟩
    exact ⟨datagram, there, congrArg Prod.fst same,
      (congrArg Prod.snd same).symm⟩
  have follows := following rsock
  have sentBy {laddr : Addr} (mine : final.books.owner rsock = some laddr)
      {handed : Handed Addr} (member : handed ∈ final.books.handed)
      (same : handed.socket = rsock) : handed.client = laddr := by
    have owner := owned.handed handed member
    rw [same, mine] at owner
    exact (Option.some.inj owner).symm
  cases running : final.tasks rsock with
  | none =>
      rw [running] at follows
      rw [follows.2]
      cases mine : final.books.owner rsock with
      | none =>
          refine ⟨unset, ?_, List.nil_prefix⟩
          intro handed member same
          have owner := owned.handed handed member
          rw [same, mine] at owner
          cases owner
      | some laddr =>
          refine ⟨laddr, ?_, List.nil_prefix⟩
          intro handed member same
          have client := sentBy mine member same
          exact ⟨client, client ▸ origin member⟩
  | some task =>
      rw [running] at follows
      rcases follows with ⟨rest, whole, _⟩
      refine ⟨task.laddr, ?_, rest, whole⟩
      intro handed member same
      have client :=
        sentBy (owned.task rsock task running) member same
      exact ⟨client, client ▸ origin member⟩

set_option maxRecDepth 10000 in
/-- Client 7 sends two bytes and gets one back. -/
theorem exchange_separates_two_bytes :
    ∃ final, (Exchange.machine 0).run (Exchange.start 0)
        (oneRound ++ [.back 0 (.receive oneAnswer), .back 0 (.send 1)]) =
          some final ∧
      ∃ laddr, final.books.returned 0 <+:
        (final.books.answered 0).map (Datagram.toClient laddr) := by
  have ran : ∃ final, (Exchange.machine 0).run (Exchange.start 0)
      (oneRound ++ [.back 0 (.receive oneAnswer), .back 0 (.send 1)]) =
        some final :=
    ⟨_, rfl⟩
  rcases ran with ⟨final, ran⟩
  rcases exchange_separates 0 ran 0 with ⟨laddr, _, returned⟩
  exact ⟨final, ran, laddr, returned⟩

end ByteHub.Udp
