import ByteHub.Library.Machine
import ByteHub.Udp.SockMap

/-!
# Associations and their readers

The relay looks a client up, opens a socket, spawns the `send_back` task that
reads from it, and then inserts the socket into the map; the task removes the
entry of its client when it ends.  An entry has a reader as long as no task
ends before its own socket is inserted.
-/

namespace ByteHub.Udp

open ByteHub.Library

variable {Client : Type} [DecidableEq Client]

/-! ## The machine -/

/-- Where a `send_back` task stands. -/
inductive TaskPhase where
  /-- Receiving, or sending what it has received. -/
  | receiving
  /-- Timed out or failed, with the entry still to be removed. -/
  | leaving
  /-- The entry is removed. -/
  | finished
deriving DecidableEq, Repr

/-- A `send_back` task. -/
structure SendBack (Client : Type) where
  laddr : Client
  phase : TaskPhase
deriving DecidableEq, Repr

/-- Where `associate_and_relay` stands between two accesses. -/
inductive RelayPhase (Client : Type) where
  | idle
  /-- The client was not found. -/
  | missed (laddr : Client)
  | associated (laddr : Client) (socket : Socket)
  /-- The task runs, and the socket is still to be inserted. -/
  | spawned (laddr : Client) (socket : Socket)
deriving DecidableEq, Repr

/-- The map, the relay, and the tasks by the sockets they read from. -/
structure Associations (Client : Type) where
  sockmap : SockMap Client
  relay : RelayPhase Client
  tasks : Socket → Option (SendBack Client)
  /-- The number of sockets opened so far. -/
  opened : ℕ

/-- The atomic steps of the relay and of its tasks. -/
inductive AssociationLabel (Client : Type) where
  | find (laddr : Client)
  | associate
  /-- No socket can be opened; the relay starts anew. -/
  | associateFails
  | spawn
  | insert
  | receive (socket : Socket)
  /-- Receiving times out, or receiving or sending fails. -/
  | leave (socket : Socket)
  | remove (socket : Socket)
deriving DecidableEq, Repr

namespace Associations

def start : Associations Client where
  sockmap := SockMap.new
  relay := .idle
  tasks _ := none
  opened := 0

def setTask
    (state : Associations Client) (socket : Socket)
    (task : SendBack Client) : Associations Client :=
  { state with tasks := Function.update state.tasks socket (some task) }

/-- A step of the relay. -/
def relayStep (state : Associations Client) :
    AssociationLabel Client → Option (Associations Client)
  | .find laddr =>
      match state.relay with
      | .idle =>
          match state.sockmap.find laddr with
          | some _ => some state
          | none => some { state with relay := .missed laddr }
      | _ => none
  | .associate =>
      match state.relay with
      | .missed laddr =>
          some { state with
            relay := .associated laddr state.opened
            opened := state.opened + 1 }
      | _ => none
  | .associateFails =>
      match state.relay with
      | .missed _ => some { state with relay := .idle }
      | _ => none
  | .spawn =>
      match state.relay with
      | .associated laddr socket =>
          some { state.setTask socket ⟨laddr, .receiving⟩ with
            relay := .spawned laddr socket }
      | _ => none
  | .insert =>
      match state.relay with
      | .spawned laddr socket =>
          some { state with
            sockmap := state.sockmap.insert laddr socket
            relay := .idle }
      | _ => none
  | _ => none

/-- A step of the task that reads from a socket. -/
def taskStep (state : Associations Client) :
    AssociationLabel Client → Option (Associations Client)
  | .receive socket =>
      match state.tasks socket with
      | some ⟨_, .receiving⟩ => some state
      | _ => none
  | .leave socket =>
      match state.tasks socket with
      | some ⟨laddr, .receiving⟩ =>
          some (state.setTask socket ⟨laddr, .leaving⟩)
      | _ => none
  | .remove socket =>
      match state.tasks socket with
      | some ⟨laddr, .leaving⟩ =>
          some { state.setTask socket ⟨laddr, .finished⟩ with
            sockmap := state.sockmap.remove laddr }
      | _ => none
  | _ => none

/-- The relay and its tasks, in any order. -/
def machine :
    Machine (Associations Client) (AssociationLabel Client) where
  step state label :=
    match label with
    | .receive _ | .leave _ | .remove _ => state.taskStep label
    | _ => state.relayStep label

/-- A task for a client reads from a socket, or has still to remove the
entry. -/
def Reads
    (state : Associations Client) (laddr : Client) (socket : Socket) :
    Prop :=
  ∃ task, state.tasks socket = some task ∧ task.laddr = laddr ∧
    task.phase ≠ .finished

/-- Every entry of the map has its reader. -/
def NoneDead (state : Associations Client) : Prop :=
  ∀ laddr socket, state.sockmap.find laddr = some socket →
    state.Reads laddr socket

/-- A socket that is about to be inserted has its reader. -/
def InTime (state : Associations Client) : Prop :=
  ∀ laddr socket, state.relay = .spawned laddr socket →
    state.Reads laddr socket

/-! ## What keeps the entries alive -/

/-- The client the relay is opening an association for. -/
def RelayPhase.about : RelayPhase Client → Option Client
  | .idle => none
  | .missed laddr => some laddr
  | .associated laddr _ => some laddr
  | .spawned laddr _ => some laddr

/-- Every entry has its reader, and every reader that is left its entry, or
the relay is about to insert it. -/
structure Inv (state : Associations Client) : Prop where
  alive : state.NoneDead
  fresh : ∀ socket, state.opened ≤ socket → state.tasks socket = none
  owned : ∀ laddr socket, state.Reads laddr socket →
    state.sockmap.find laddr = some socket ∨
      state.relay = .spawned laddr socket
  missing : ∀ laddr, RelayPhase.about state.relay = some laddr →
    state.sockmap.find laddr = none
  unread : ∀ laddr socket, state.relay = .associated laddr socket →
    socket < state.opened ∧ state.tasks socket = none

omit [DecidableEq Client] in
theorem inv_start : (start : Associations Client).Inv where
  alive laddr socket found := by cases found
  fresh _ _ := rfl
  owned laddr socket reads := by
    rcases reads with ⟨task, spawned, _⟩
    cases spawned
  missing laddr about := by cases about
  unread laddr socket relay := by cases relay

omit [DecidableEq Client] in
/-- A client has one reader. -/
theorem Inv.reader_unique
    {state : Associations Client} (inv : state.Inv) {laddr : Client}
    {socket reader : Socket}
    (found : state.sockmap.find laddr = some reader)
    (reads : state.Reads laddr socket) : reader = socket := by
  rcases inv.owned laddr socket reads with other | relay
  · exact Option.some.inj (found.symm.trans other)
  · rw [inv.missing laddr (by rw [relay]; rfl)] at found
    cases found

section Steps

variable {state next : Associations Client}

omit [DecidableEq Client] in
/-- As long as nothing waits to be inserted, a reader has its entry. -/
theorem Inv.found_of_reads
    (inv : state.Inv)
    (settled : ∀ laddr socket, state.relay ≠ .spawned laddr socket)
    {laddr : Client} {socket : Socket}
    (reads : state.Reads laddr socket) :
    state.sockmap.find laddr = some socket := by
  rcases inv.owned laddr socket reads with found | spawned
  · exact found
  · exact absurd spawned (settled laddr socket)

omit [DecidableEq Client] in
theorem reads_setTask_of_ne
    {laddr : Client} {socket other : Socket} {task : SendBack Client}
    (differ : other ≠ socket) :
    (state.setTask socket task).Reads laddr other ↔
      state.Reads laddr other := by
  unfold Reads setTask
  dsimp only
  rw [Function.update_of_ne differ]

omit [DecidableEq Client] in
theorem reads_setTask_self
    {laddr : Client} {socket : Socket} {task : SendBack Client} :
    (state.setTask socket task).Reads laddr socket ↔
      task.laddr = laddr ∧ task.phase ≠ .finished := by
  unfold Reads setTask
  dsimp only
  rw [Function.update_self]
  constructor
  · rintro ⟨_, ⟨⟩, named⟩
    exact named
  · intro named
    exact ⟨task, rfl, named⟩

omit [DecidableEq Client] in
/-- A step of a task concerns no other socket. -/
theorem tasks_setTask_eq_none
    {socket reader : Socket} {old task : SendBack Client}
    (running : state.tasks socket = some old)
    (absent : state.tasks reader = none) :
    (state.setTask socket task).tasks reader = none := by
  have differ : reader ≠ socket := by
    rintro rfl
    rw [absent] at running
    cases running
  exact (Function.update_of_ne differ _ _).trans absent

theorem inv_find
    {laddr : Client} (inv : state.Inv)
    (stepped : state.relayStep (.find laddr) = some next) : next.Inv := by
  simp only [relayStep] at stepped
  split at stepped
  · next idle =>
    split at stepped
    · cases stepped
      exact inv
    · next absent =>
      cases stepped
      exact {
        alive := inv.alive
        fresh := inv.fresh
        owned := fun other socket reads =>
          .inl (inv.found_of_reads (by rw [idle]; rintro _ _ ⟨⟩) reads)
        missing := fun other about => by
          cases about
          exact absent
        unread := fun other socket relay => by cases relay }
  · cases stepped

theorem inv_associate
    (inv : state.Inv)
    (stepped : state.relayStep .associate = some next) : next.Inv := by
  simp only [relayStep] at stepped
  split at stepped
  · next laddr missed =>
    cases stepped
    exact {
      alive := inv.alive
      fresh := fun socket later =>
        inv.fresh socket (Nat.le_of_succ_le later)
      owned := fun other socket reads =>
        .inl (inv.found_of_reads (by rw [missed]; rintro _ _ ⟨⟩) reads)
      missing := fun other about => by
        cases about
        exact inv.missing laddr (by rw [missed]; rfl)
      unread := fun other socket relay => by
        cases relay
        exact ⟨Nat.lt_succ_self _, inv.fresh _ (Nat.le_refl _)⟩ }
  · cases stepped

theorem inv_associateFails
    (inv : state.Inv)
    (stepped : state.relayStep .associateFails = some next) :
    next.Inv := by
  simp only [relayStep] at stepped
  split at stepped
  · next laddr missed =>
    cases stepped
    exact {
      alive := inv.alive
      fresh := inv.fresh
      owned := fun other socket reads =>
        .inl (inv.found_of_reads (by rw [missed]; rintro _ _ ⟨⟩) reads)
      missing := fun other about => by cases about
      unread := fun other socket relay => by cases relay }
  · cases stepped

/-- The task of a socket that nobody reads from yet. -/
theorem inv_spawn
    (inv : state.Inv)
    (stepped : state.relayStep .spawn = some next) : next.Inv := by
  simp only [relayStep] at stepped
  split at stepped
  · next laddr socket associated =>
    cases stepped
    rcases inv.unread laddr socket associated with ⟨below, unread⟩
    have others :
        ∀ other reader, state.Reads other reader → reader ≠ socket := by
      rintro other reader ⟨task, spawned, _⟩ rfl
      rw [unread] at spawned
      cases spawned
    exact {
      alive := fun other reader found => by
        have reads := inv.alive other reader found
        exact (reads_setTask_of_ne (others other reader reads)).2 reads
      fresh := fun reader later => by
        have differ : reader ≠ socket := by
          rintro rfl
          exact absurd below (Nat.not_lt_of_le later)
        exact (Function.update_of_ne differ _ _).trans
          (inv.fresh reader later)
      owned := fun other reader reads => by
        by_cases same : reader = socket
        · subst same
          rw [← (reads_setTask_self.1 reads).1]
          exact .inr rfl
        · have readBefore := (reads_setTask_of_ne same).1 reads
          exact .inl
            (inv.found_of_reads (by rw [associated]; rintro _ _ ⟨⟩) readBefore)
      missing := fun other about => by
        cases about
        exact inv.missing laddr (by rw [associated]; rfl)
      unread := fun other reader relay => by cases relay }
  · cases stepped

/-- An insertion in time. -/
theorem inv_insert
    (inv : state.Inv) (inTime : state.InTime)
    (stepped : state.relayStep .insert = some next) : next.Inv := by
  simp only [relayStep] at stepped
  split at stepped
  · next laddr socket spawned =>
    cases stepped
    have absent := inv.missing laddr (by rw [spawned]; rfl)
    exact {
      alive := fun other reader found => by
        by_cases same : other = laddr
        · subst same
          rw [SockMap.find_insert_self] at found
          cases found
          exact inTime other socket spawned
        · rw [SockMap.find_insert_of_ne _ _ same] at found
          exact inv.alive other reader found
      fresh := inv.fresh
      owned := fun other reader reads => by
        left
        rcases inv.owned other reader reads with found | relay
        · have differ : other ≠ laddr := by
            rintro rfl
            rw [absent] at found
            cases found
          rwa [SockMap.find_insert_of_ne _ _ differ]
        · rw [spawned] at relay
          cases relay
          exact SockMap.find_insert_self _ _
      missing := fun other about => by cases about
      unread := fun other reader relay => by cases relay }
  · cases stepped

theorem inv_leave
    {socket : Socket} (inv : state.Inv)
    (stepped : state.taskStep (.leave socket) = some next) : next.Inv := by
  simp only [taskStep] at stepped
  split at stepped
  · next laddr receiving =>
    cases stepped
    have reads (other : Client) (reader : Socket) :
        (state.setTask socket ⟨laddr, .leaving⟩).Reads other reader ↔
          state.Reads other reader := by
      by_cases same : reader = socket
      · subst same
        rw [reads_setTask_self]
        unfold Reads
        rw [receiving]
        simp
      · exact reads_setTask_of_ne same
    exact {
      alive := fun other reader found =>
        (reads other reader).2 (inv.alive other reader found)
      fresh := fun reader later =>
        tasks_setTask_eq_none receiving (inv.fresh reader later)
      owned := fun other reader reading =>
        inv.owned other reader ((reads other reader).1 reading)
      missing := inv.missing
      unread := fun other reader relay => by
        rcases inv.unread other reader relay with ⟨below, unread⟩
        exact ⟨below, tasks_setTask_eq_none receiving unread⟩ }
  · cases stepped

theorem inv_remove
    {socket : Socket} (inv : state.Inv)
    (stepped : state.taskStep (.remove socket) = some next) :
    next.Inv := by
  simp only [taskStep] at stepped
  split at stepped
  · next laddr leaving =>
    cases stepped
    have reading :
        state.Reads laddr socket :=
      ⟨_, leaving, rfl, by rintro ⟨⟩⟩
    exact {
      alive := fun other reader found => by
        have differ : other ≠ laddr := by
          rintro rfl
          rw [SockMap.find_remove_self] at found
          cases found
        rw [SockMap.find_remove_of_ne _ differ] at found
        have reads := inv.alive other reader found
        have apart : reader ≠ socket := by
          rintro rfl
          rcases reads with ⟨task, running, rfl, _⟩
          rw [leaving] at running
          cases running
          exact differ rfl
        exact (reads_setTask_of_ne apart).2 reads
      fresh := fun reader later =>
        tasks_setTask_eq_none leaving (inv.fresh reader later)
      owned := fun other reader reads => by
        have apart : reader ≠ socket := by
          rintro rfl
          exact (reads_setTask_self.1 reads).2 rfl
        rcases inv.owned other reader ((reads_setTask_of_ne apart).1 reads)
          with found | relay
        · left
          have differ : other ≠ laddr := by
            rintro rfl
            exact apart (inv.reader_unique found reading)
          exact (SockMap.find_remove_of_ne _ differ).trans found
        · exact .inr relay
      missing := fun other about => by
        by_cases same : other = laddr
        · subst same
          exact SockMap.find_remove_self _
        · exact (SockMap.find_remove_of_ne _ same).trans
            (inv.missing other about)
      unread := fun other reader relay => by
        rcases inv.unread other reader relay with ⟨below, unread⟩
        exact ⟨below, tasks_setTask_eq_none leaving unread⟩ }
  · cases stepped

theorem inv_step
    {label : AssociationLabel Client} (inv : state.Inv)
    (inTime : label = .insert → state.InTime)
    (stepped : machine.step state label = some next) : next.Inv := by
  cases label with
  | find laddr => exact inv_find inv stepped
  | associate => exact inv_associate inv stepped
  | associateFails => exact inv_associateFails inv stepped
  | spawn => exact inv_spawn inv stepped
  | insert => exact inv_insert inv (inTime rfl) stepped
  | receive socket =>
      simp only [machine, taskStep] at stepped
      split at stepped
      · cases stepped
        exact inv
      · cases stepped
  | leave socket => exact inv_leave inv stepped
  | remove socket => exact inv_remove inv stepped

end Steps

/-! ## Dead entries -/

/-- An entry without a reader, and no reader of its client is left or on its
way. -/
structure Dead
    (state : Associations Client) (laddr : Client) (socket : Socket) :
    Prop where
  found : state.sockmap.find laddr = some socket
  unread : ∀ reader, ¬ state.Reads laddr reader
  elsewhere : RelayPhase.about state.relay ≠ some laddr

theorem dead_relayStep
    {state next : Associations Client} {laddr : Client} {socket : Socket}
    {label : AssociationLabel Client} (dead : state.Dead laddr socket)
    (stepped : state.relayStep label = some next) :
    next.Dead laddr socket := by
  rcases dead with ⟨found, unread, elsewhere⟩
  cases label with
  | find other =>
      simp only [relayStep] at stepped
      split at stepped
      · split at stepped
        · cases stepped
          exact ⟨found, unread, elsewhere⟩
        · next absent =>
          cases stepped
          refine ⟨found, unread, ?_⟩
          rintro ⟨⟩
          rw [absent] at found
          cases found
      · cases stepped
  | associate =>
      simp only [relayStep] at stepped
      split at stepped
      · next other missed =>
        cases stepped
        rw [missed] at elsewhere
        exact ⟨found, unread, elsewhere⟩
      · cases stepped
  | associateFails =>
      simp only [relayStep] at stepped
      split at stepped <;> cases stepped
      exact ⟨found, unread, by rintro ⟨⟩⟩
  | spawn =>
      simp only [relayStep] at stepped
      split at stepped
      · next other opened associated =>
        cases stepped
        rw [associated] at elsewhere
        refine ⟨found, ?_, elsewhere⟩
        intro reader reads
        by_cases same : reader = opened
        · subst same
          exact elsewhere (congrArg some (reads_setTask_self.1 reads).1)
        · exact unread reader ((reads_setTask_of_ne same).1 reads)
      · cases stepped
  | insert =>
      simp only [relayStep] at stepped
      split at stepped
      · next other opened spawned =>
        cases stepped
        have differ : laddr ≠ other := by
          rintro rfl
          rw [spawned] at elsewhere
          exact elsewhere rfl
        exact ⟨(SockMap.find_insert_of_ne _ _ differ).trans found, unread,
          by rintro ⟨⟩⟩
      · cases stepped
  | receive | leave | remove => cases stepped

theorem dead_taskStep
    {state next : Associations Client} {laddr : Client} {socket : Socket}
    {label : AssociationLabel Client} (dead : state.Dead laddr socket)
    (stepped : state.taskStep label = some next) :
    next.Dead laddr socket := by
  rcases dead with ⟨found, unread, elsewhere⟩
  cases label with
  | receive reader =>
      simp only [taskStep] at stepped
      split at stepped <;> cases stepped
      exact ⟨found, unread, elsewhere⟩
  | leave reader =>
      simp only [taskStep] at stepped
      split at stepped
      · next other receiving =>
        cases stepped
        refine ⟨found, ?_, elsewhere⟩
        intro another reads
        by_cases same : another = reader
        · subst same
          exact unread another ⟨_, receiving,
            (reads_setTask_self.1 reads).1, by rintro ⟨⟩⟩
        · exact unread another ((reads_setTask_of_ne same).1 reads)
      · cases stepped
  | remove reader =>
      simp only [taskStep] at stepped
      split at stepped
      · next other leaving =>
        cases stepped
        have differ : laddr ≠ other := by
          rintro rfl
          exact unread reader ⟨_, leaving, rfl, by rintro ⟨⟩⟩
        refine ⟨(SockMap.find_remove_of_ne _ differ).trans found, ?_,
          elsewhere⟩
        intro another reads
        by_cases same : another = reader
        · subst same
          exact (reads_setTask_self.1 reads).2 rfl
        · exact unread another ((reads_setTask_of_ne same).1 reads)
      · cases stepped
  | find | associate | associateFails | spawn | insert => cases stepped

theorem machine_step_cases
    {state next : Associations Client} {label : AssociationLabel Client}
    (stepped : machine.step state label = some next) :
    state.relayStep label = some next ∨
      state.taskStep label = some next := by
  cases label with
  | receive socket => exact .inr stepped
  | leave socket => exact .inr stepped
  | remove socket => exact .inr stepped
  | find laddr => exact .inl stepped
  | associate => exact .inl stepped
  | associateFails => exact .inl stepped
  | spawn => exact .inl stepped
  | insert => exact .inl stepped

/-- A dead entry stays in the map for ever. -/
theorem dead_run
    {state final : Associations Client} {laddr : Client} {socket : Socket}
    {labels : List (AssociationLabel Client)}
    (dead : state.Dead laddr socket)
    (ran : machine.run state labels = some final) :
    final.Dead laddr socket := by
  refine Machine.run_invariant
    (fun state : Associations Client => state.Dead laddr socket) ?_ dead ran
  intro state next label dead stepped
  rcases machine_step_cases stepped with relayed | tasked
  · exact dead_relayStep dead relayed
  · exact dead_taskStep dead tasked

/-! ## Runs -/

/-- A task that ends before its socket is inserted leaves a dead entry. -/
theorem not_noneDead_of_late
    {state : Associations Client} (late : ¬ state.InTime) :
    ∃ next, machine.step state .insert = some next ∧ ¬ next.NoneDead := by
  unfold InTime at late
  rcases not_forall.1 late with ⟨laddr, late⟩
  rcases not_forall.1 late with ⟨socket, late⟩
  rcases Classical.not_imp.1 late with ⟨spawned, unread⟩
  refine ⟨{ state with
    sockmap := state.sockmap.insert laddr socket
    relay := .idle }, ?_, ?_⟩
  · simp only [machine, relayStep, spawned]
  · intro alive
    exact unread (alive laddr socket (SockMap.find_insert_self _ _))

end Associations

open Associations in
/-- In the states of a run every entry has its reader, exactly if in this run
every socket that is inserted has its reader then. -/
theorem noneDead_iff (labels : List (AssociationLabel Client)) :
    (∀ before after state, labels = before ++ after →
      machine.run start before = some state → state.NoneDead) ↔
    ∀ before after state, labels = before ++ .insert :: after →
      machine.run start before = some state → state.InTime := by
  constructor
  · intro alive before after state split reached
    by_contra late
    rcases not_noneDead_of_late late with ⟨next, step, dead⟩
    apply dead
    apply alive (before ++ [.insert]) after next
    · rw [split, List.append_assoc, List.singleton_append]
    · exact machine.run_concat_eq_some.2 ⟨state, reached, step⟩
  · intro inTime before after state split reached
    refine (Machine.run_invariant_of_allowed Inv
      (fun state label => label = .insert → state.InTime) inv_step inv_start
      ?_ reached).alive
    rintro earlier label later middle whole came rfl
    apply inTime earlier (later ++ after) middle _ came
    rw [split, whole, List.append_assoc, List.cons_append]

/-- The reader of client 7 ends before its socket is inserted. -/
def hastyRun : List (AssociationLabel ℕ) :=
  [.find 7, .associate, .spawn, .leave 0, .remove 0, .insert]

/-- It leaves an entry that has no reader and stays for ever. -/
theorem hastyRun_dead :
    ∃ state, Associations.machine.run Associations.start hastyRun =
        some state ∧
      ¬ state.NoneDead ∧ state.Dead 7 0 := by
  refine ⟨_, rfl, ?_, rfl, ?_, by rintro ⟨⟩⟩
  · intro alive
    rcases alive 7 0 rfl with ⟨task, running, _, unfinished⟩
    cases running
    exact unfinished rfl
  · rintro reader ⟨task, running, _, unfinished⟩
    cases reader with
    | zero =>
        cases running
        exact unfinished rfl
    | succ reader => cases running

end ByteHub.Udp
