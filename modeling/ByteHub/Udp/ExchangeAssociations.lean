import ByteHub.Udp.Association
import ByteHub.Udp.ExchangeOwners

/-!
# The associations of a UDP endpoint

Batches, groups and payloads forgotten, the endpoint at work is the machine of
associations and their readers: a step of the relay or of a task is one step
of that machine or none.  What is known about the entries of that machine
holds at the endpoint.
-/

namespace ByteHub.Udp

open ByteHub.Library

variable {Addr : Type}

/-! ## The view -/

/-- Where the relay stands, as far as associations go. -/
def FrontPhase.relay : FrontPhase Addr → RelayPhase Addr
  | .missed _ laddr _ _ => .missed laddr
  | .associated _ laddr rsock _ _ => .associated laddr rsock
  | .spawned _ laddr rsock _ _ => .spawned laddr rsock
  | _ => .idle

def BackPhase.taskPhase : BackPhase Addr → TaskPhase
  | .receiving => .receiving
  | .sending _ => .receiving
  | .leaving => .leaving
  | .finished => .finished

def BackTask.sendBack (task : BackTask Addr) : SendBack Addr where
  laddr := task.laddr
  phase := task.phase.taskPhase

namespace Exchange

def associations (state : Exchange Addr) : Associations Addr where
  sockmap := state.sockmap
  relay := state.front.relay
  tasks rsock := (state.tasks rsock).map BackTask.sendBack
  opened := state.opened

/-- The client of the next group. -/
def nextClient (state : Exchange Addr) : Option Addr :=
  match state.front with
  | .turn _ ((first :: _) :: _) => some first.addr
  | _ => none

/-- What is seen of a step of the relay. -/
def seenFront (state : Exchange Addr) :
    FrontLabel Addr → List (AssociationLabel Addr)
  | .find => (state.nextClient.map AssociationLabel.find).toList
  | .associate => [.associate]
  | .associateFails => [.associateFails]
  | .spawn => [.spawn]
  | .insert => [.insert]
  | _ => []

/-- What is seen of a step of a task. -/
def seenBack (rsock : Socket) :
    BackLabel Addr → List (AssociationLabel Addr)
  | .receive _ => [.receive rsock]
  | .send _ => []
  | .sendFails => [.leave rsock]
  | .leave => [.leave rsock]
  | .remove => [.remove rsock]

def seen (state : Exchange Addr) :
    ExchangeLabel Addr → List (AssociationLabel Addr)
  | .front label => state.seenFront label
  | .back rsock label => seenBack rsock label

theorem relay_nextTurn
    (raddr : Addr) (groups : List (List (Packet Addr))) :
    (nextTurn raddr groups).relay = .idle := by
  cases groups <;> rfl

theorem associations_start (unset : Addr) :
    (start unset).associations = Associations.start :=
  rfl

/-- A task in its next phase is seen as one. -/
theorem associations_setTask
    (state : Exchange Addr) (rsock : Socket) (task : BackTask Addr) :
    (state.setTask rsock task).associations =
      state.associations.setTask rsock task.sendBack := by
  have tasks :
      (fun socket =>
          (Function.update state.tasks rsock (some task) socket).map
            BackTask.sendBack) =
        Function.update
          (fun socket => (state.tasks socket).map BackTask.sendBack) rsock
          (some task.sendBack) := by
    funext socket
    by_cases same : socket = rsock
    · subst same
      rw [Function.update_self, Function.update_self]
      rfl
    · rw [Function.update_of_ne same, Function.update_of_ne same]
  rw [associations, Associations.setTask]
  exact congrArg
    (fun tasks => (⟨state.sockmap, state.front.relay, tasks,
      state.opened⟩ : Associations Addr)) tasks

variable [DecidableEq Addr] {unset : Addr} {state next : Exchange Addr}

/-- A step that leaves the associations as they are. -/
theorem run_unseen
    (sockmap : next.sockmap = state.sockmap)
    (relay : next.front.relay = state.front.relay)
    (tasks : next.tasks = state.tasks)
    (opened : next.opened = state.opened) :
    Associations.machine.run state.associations [] =
      some next.associations := by
  rw [Machine.run_nil, associations, associations, sockmap, relay, tasks,
    opened]

/-! ## The steps of the relay -/

theorem associations_find
    (stepped : state.frontStep unset .find = some next) :
    Associations.machine.run state.associations (state.seenFront .find) =
      some next.associations := by
  simp only [frontStep] at stepped
  split at stepped
  · next raddr first others groups turn =>
    have client : state.nextClient = some first.addr := by
      rw [nextClient, turn]
    have idle : state.associations.relay = .idle := by
      rw [associations, turn]
      rfl
    have seen : state.seenFront .find = [.find first.addr] := by
      rw [seenFront, client]
      rfl
    rw [seen, Machine.run_singleton]
    change state.associations.relayStep (.find first.addr) = _
    simp only [Associations.relayStep, idle]
    split at stepped
    · next rsock found =>
      cases stepped
      have held :
          state.associations.sockmap.find first.addr = some rsock :=
        found
      rw [held]
      have relay :
          (relayOn raddr first.addr rsock (first :: others) groups).relay =
            state.front.relay := by
        rw [turn]
        rfl
      exact run_unseen rfl relay rfl rfl
    · next absent =>
      cases stepped
      have missing :
          state.associations.sockmap.find first.addr = none :=
        absent
      rw [missing]
      rfl
  · cases stepped

theorem associations_frontStep
    {label : FrontLabel Addr}
    (stepped : state.frontStep unset label = some next) :
    Associations.machine.run state.associations (state.seenFront label) =
      some next.associations := by
  cases label with
  | find => exact associations_find stepped
  | receive batch =>
      simp only [frontStep] at stepped
      split at stepped
      · next receiving =>
        cases stepped
        exact run_unseen rfl (by rw [receiving]; rfl) rfl rfl
      · cases stepped
  | receiveFails =>
      simp only [frontStep] at stepped
      split at stepped
      · next receiving =>
        cases stepped
        exact run_unseen rfl (by rw [receiving]; rfl) rfl rfl
      · cases stepped
  | resolve raddr =>
      simp only [frontStep] at stepped
      split at stepped
      · next resolving =>
        cases stepped
        have relay :
            (nextTurn raddr state.registry.groupByAddr.groupIter).relay =
              state.front.relay := by
          rw [relay_nextTurn, resolving]
          rfl
        exact run_unseen rfl relay rfl rfl
      · cases stepped
  | resolveFails =>
      simp only [frontStep] at stepped
      split at stepped
      · next resolving =>
        cases stepped
        exact run_unseen rfl (by rw [resolving]; rfl) rfl rfl
      · cases stepped
  | associate =>
      simp only [frontStep] at stepped
      split at stepped
      · next raddr laddr pkts groups missed =>
        cases stepped
        have about : state.associations.relay = .missed laddr := by
          rw [associations, missed]
          rfl
        rw [seenFront, Machine.run_singleton]
        change state.associations.relayStep .associate = _
        simp only [Associations.relayStep, about]
        rfl
      · cases stepped
  | associateFails =>
      simp only [frontStep] at stepped
      split at stepped
      · next raddr laddr pkts groups missed =>
        cases stepped
        have about : state.associations.relay = .missed laddr := by
          rw [associations, missed]
          rfl
        rw [seenFront, Machine.run_singleton]
        change state.associations.relayStep .associateFails = _
        simp only [Associations.relayStep, about]
        rfl
      · cases stepped
  | spawn =>
      simp only [frontStep] at stepped
      split at stepped
      · next raddr laddr rsock pkts groups associated =>
        cases stepped
        have about :
            state.associations.relay = .associated laddr rsock := by
          rw [associations, associated]
          rfl
        rw [seenFront, Machine.run_singleton]
        change state.associations.relayStep .spawn = _
        simp only [Associations.relayStep, about]
        have spawned := state.associations_setTask rsock
          ⟨laddr, Registry.new unset, .receiving⟩
        exact congrArg (fun seen : Associations Addr =>
          some { seen with relay := .spawned laddr rsock }) spawned.symm
      · cases stepped
  | insert =>
      simp only [frontStep] at stepped
      split at stepped
      · next raddr laddr rsock pkts groups spawned =>
        cases stepped
        have about :
            state.associations.relay = .spawned laddr rsock := by
          rw [associations, spawned]
          rfl
        rw [seenFront, Machine.run_singleton]
        change state.associations.relayStep .insert = _
        simp only [Associations.relayStep, about]
        rfl
      · cases stepped
  | send accepted =>
      simp only [frontStep] at stepped
      split at stepped
      · next raddr laddr rsock rest groups sending =>
        split at stepped
        · cases stepped
        · cases stepped
          refine run_unseen rfl ?_ rfl rfl
          rw [sending]
          dsimp only
          split
          · exact relay_nextTurn _ _
          · rfl
      · cases stepped
  | sendFails =>
      simp only [frontStep] at stepped
      split at stepped
      · next sending =>
        cases stepped
        exact run_unseen rfl (by rw [sending]; rfl) rfl rfl
      · cases stepped

/-! ## The steps of a task -/

omit [DecidableEq Addr] in
theorem associations_task
    {rsock : Socket} {task : BackTask Addr}
    (running : state.tasks rsock = some task) :
    state.associations.tasks rsock = some task.sendBack := by
  change (state.tasks rsock).map BackTask.sendBack = _
  rw [running]
  rfl

omit [DecidableEq Addr] in
/-- A task that goes on in the same phase is seen as it was. -/
theorem associations_setTask_same
    {rsock : Socket} {task task' : BackTask Addr}
    (running : state.tasks rsock = some task)
    (same : task'.sendBack = task.sendBack) :
    (state.setTask rsock task').associations = state.associations := by
  rw [associations_setTask, same, Associations.setTask,
    Function.update_eq_self_iff.2 (associations_task running).symm]

theorem associations_backStep
    {rsock : Socket} {label : BackLabel Addr}
    (stepped : state.backStep rsock label = some next) :
    Associations.machine.run state.associations (seenBack rsock label) =
      some next.associations := by
  cases label with
  | receive batch =>
      simp only [backStep] at stepped
      split at stepped
      · next laddr registry running =>
        cases stepped
        rw [seenBack, Machine.run_singleton]
        change state.associations.taskStep (.receive rsock) = _
        simp only [Associations.taskStep, associations_task running]
        have same :
            (state.setTask rsock ⟨laddr, registry.batchedRecvOn batch,
              .sending ((registry.batchedRecvOn batch).iter.map fun pkt =>
                pkt.refWithAddr laddr)⟩).associations =
              state.associations :=
          associations_setTask_same running rfl
        exact congrArg some same.symm
      · cases stepped
  | send accepted =>
      simp only [backStep] at stepped
      split at stepped
      · next laddr registry rest running =>
        split at stepped
        · cases stepped
        · cases stepped
          refine congrArg some (associations_setTask_same running ?_).symm
          split <;> rfl
      · cases stepped
  | sendFails =>
      simp only [backStep] at stepped
      split at stepped
      · next laddr registry rest running =>
        cases stepped
        rw [seenBack, Machine.run_singleton]
        change state.associations.taskStep (.leave rsock) = _
        simp only [Associations.taskStep, associations_task running]
        exact congrArg some
          (state.associations_setTask rsock
            ⟨laddr, registry, .leaving⟩).symm
      · cases stepped
  | leave =>
      simp only [backStep] at stepped
      split at stepped
      · next laddr registry running =>
        cases stepped
        rw [seenBack, Machine.run_singleton]
        change state.associations.taskStep (.leave rsock) = _
        simp only [Associations.taskStep, associations_task running]
        exact congrArg some
          (state.associations_setTask rsock
            ⟨laddr, registry, .leaving⟩).symm
      · cases stepped
  | remove =>
      simp only [backStep] at stepped
      split at stepped
      · next laddr registry running =>
        cases stepped
        rw [seenBack, Machine.run_singleton]
        change state.associations.taskStep (.remove rsock) = _
        simp only [Associations.taskStep, associations_task running]
        exact congrArg (fun seen : Associations Addr =>
          some { seen with sockmap := state.sockmap.remove laddr })
          (state.associations_setTask rsock
            ⟨laddr, registry, .finished⟩).symm
      · cases stepped

theorem associations_step
    {label : ExchangeLabel Addr}
    (stepped : (machine unset).step state label = some next) :
    Associations.machine.run state.associations (state.seen label) =
      some next.associations := by
  cases label with
  | front label => exact associations_frontStep stepped
  | back rsock label => exact associations_backStep stepped

/-- Every run of the endpoint is seen as a run of the associations. -/
theorem associations_run
    {final : Exchange Addr} {labels : List (ExchangeLabel Addr)}
    (ran : (machine unset).run state labels = some final) :
    Associations.machine.run state.associations
        ((machine unset).trace seen state labels) =
      some final.associations :=
  Machine.run_trace Associations.machine associations seen
    associations_step ran

end Exchange

end ByteHub.Udp
