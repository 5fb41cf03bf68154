import ByteHub.Core.Connect
import ByteHub.Core.TimedRelay
import ByteHub.Lb.BalancerRuns

/-!
# A TCP endpoint at work

Every client that is accepted has a task of its own.  The hook is asked, peers
are selected and dialled until one of them answers, the PROXY headers are
passed on, the relay runs, and the balancer is told how it ended.  The tasks
run side by side and share the balancer; every call on it is a step.

Beside the state the machine keeps the calls made on the balancer and the
peers it selected, in order.
-/

namespace ByteHub.Core

open ByteHub.Lb
open ByteHub.Library

variable {Addr Stream Error : Type}

/-- Where the task of a client stands. -/
inductive TaskPhase (Stream Error : Type) where
  /-- The hook has still to be asked. -/
  | accepted
  | selecting (loop : ConnectLoop Stream)
  /-- The selected peer is being dialled. -/
  | dialling (loop : ConnectLoop Stream)
  /-- The peer answered too late, and that is to be reported. -/
  | late (loop : ConnectLoop Stream) (stream : Stream) (ms : ℕ)
  /-- The dial failed, and that is to be reported. -/
  | failing (loop : ConnectLoop Stream) (error : Error)
  /-- The PROXY headers have still to be passed on. -/
  | connected (stream : Stream) (token : Option Token)
  | relaying (token : Option Token) (relay : TimedRelay Error)
  /-- The relay is over, and its verdict is to be reported. -/
  | judged (token : Token) (verdict : Verdict)
  | finished

structure EndpointTask (Stream Error : Type) where
  client : Client
  phase : TaskPhase Stream Error

structure Endpoint (Stream Error : Type) where
  balancer : Balancer
  tasks : ℕ → Option (EndpointTask Stream Error)
  /-- The number of clients accepted so far. -/
  accepted : ℕ
  /-- The calls made on the balancer. -/
  calls : List (Balancer.Call × UInt32)
  /-- The answers of the selections. -/
  selected : List (Option Token)

/-- The atomic steps of a task. -/
inductive TaskLabel (Addr Stream Error : Type) where
  /-- The hook lets the client pass and its address is known. -/
  | enter
  | refuse
  | select (now : UInt32)
  /-- The pool and the network answer. -/
  | dial (attempt : Attempt Addr Stream Error)
  | report (now : UInt32)
  /-- `handle_proxy` returns, with or without an error. -/
  | proxy (passed : Bool)
  | relay (label : TimedLabel Error)
  | judge

inductive EndpointLabel (Addr Stream Error : Type) where
  | accept (client : Client)
  | task (number : ℕ) (label : TaskLabel Addr Stream Error)

/-- The reading of the clock in a step. -/
def EndpointLabel.reading :
    EndpointLabel Addr Stream Error → Option UInt32
  | .task _ (.select now) => some now
  | .task _ (.report now) => some now
  | _ => none

/-- The call that reports a verdict. -/
def Verdict.call (verdict : Verdict) (token : Token) : Balancer.Call :=
  match verdict with
  | .onSuccess => .onSuccess token
  | .onFailure => .onFailure token

/-- The loop before the first selection. -/
def emptyLoop (balancer : Balancer) : ConnectLoop Stream where
  balancer := balancer
  token := none
  tried := ∅
  fallbackStream := none
  fallbackToken := none
  fallbackMs := none

/-- A call of `try_connect_with_fallback` that has returned. -/
def TaskPhase.ofConnected (connected : Connected Stream Error) :
    TaskPhase Stream Error :=
  match connected.result with
  | .ok (stream, token) => .connected stream token
  | .error _ => .finished

/-- The balancer after a round of a loop. -/
def Round.balancer : Round Stream Error → Balancer
  | .again loop => loop.balancer
  | .done connected => connected.balancer

/-- The selection at the end of a round. -/
def Round.selected : Round Stream Error → List (Option Token)
  | .again loop => [loop.token]
  | .done _ => []

/-- A task after a round of its loop. -/
def TaskPhase.ofRound : Round Stream Error → TaskPhase Stream Error
  | .again loop => .dialling loop
  | .done returned => .ofConnected returned

/-- A relay that is over: the peer is judged, if one was selected. -/
def TaskPhase.ofVerdict
    (token : Option Token) (verdict : Verdict) :
    TaskPhase Stream Error :=
  match token with
  | some token => .judged token verdict
  | none => .finished

namespace Endpoint

def start (balancer : Balancer) : Endpoint Stream Error where
  balancer := balancer
  tasks _ := none
  accepted := 0
  calls := []
  selected := []

/-- `max_latency_ms` of the health config, if there is one. -/
def maxLatency (state : Endpoint Stream Error) : Option UInt32 :=
  state.balancer.healthConfig.bind HealthCheckConfig.maxLatencyMs

/-- The relays of the endpoint. -/
def relaySetup (state : Endpoint Stream Error) (setup : RelaySetup Error) :
    RelaySetup Error :=
  { setup with maxLatencyMs := state.maxLatency }

/-- The loop of a task works on the shared balancer. -/
def lend (state : Endpoint Stream Error) (loop : ConnectLoop Stream) :
    ConnectLoop Stream :=
  { loop with balancer := state.balancer }

/-- A task in its next phase. -/
def setPhase
    (state : Endpoint Stream Error) (number : ℕ) (client : Client)
    (phase : TaskPhase Stream Error) : Endpoint Stream Error :=
  { state with
    tasks := Function.update state.tasks number (some ⟨client, phase⟩) }

/-- A report on a peer, if there is one to report on. -/
def reported
    (state : Endpoint Stream Error) (call : Option Balancer.Call)
    (now : UInt32) : Endpoint Stream Error :=
  match call with
  | none => state
  | some call =>
      { state with
        balancer := state.balancer.perform call now
        calls := state.calls ++ [(call, now)] }

/-- A selection. -/
def selecting
    (state : Endpoint Stream Error) (client : Client) (now : UInt32) :
    Endpoint Stream Error :=
  { state with
    balancer := state.balancer.perform (.next client) now
    calls := state.calls ++ [(.next client, now)]
    selected := state.selected ++ [(state.balancer.next client now).1] }

/-- The loop goes on after a report, or it returns. -/
def goOn
    (state : Endpoint Stream Error) (loop : ConnectLoop Stream)
    (error : ConnectError Error) : TaskPhase Stream Error :=
  if loop.exhausted state.balancer.total then
    .ofConnected (loop.giveUp error)
  else .selecting loop

/-- The answer to a dial. -/
def answered
    (state : Endpoint Stream Error) (ctx : CallContext Addr)
    (loop : ConnectLoop Stream) (attempt : Attempt Addr Stream Error) :
    TaskPhase Stream Error :=
  match loop.dial ctx attempt with
  | .ok stream =>
      if state.maxLatency.any fun max => max.toNat < attempt.elapsedMs then
        .late loop stream attempt.elapsedMs
      else
        match ConnectLoop.logged ctx attempt with
        | .ok _ => .connected stream loop.token
        | .error _ => .finished
  | .error error => .failing loop error

/-- A step of the task of a client. -/
def taskStep
    (ctx : CallContext Addr) (setup : RelaySetup Error)
    (state : Endpoint Stream Error) (number : ℕ) (client : Client)
    (phase : TaskPhase Stream Error) :
    TaskLabel Addr Stream Error → Option (Endpoint Stream Error)
  | .enter =>
      match phase with
      | .accepted =>
          some (state.setPhase number client
            (.selecting (emptyLoop state.balancer)))
      | _ => none
  | .refuse =>
      match phase with
      | .accepted => some (state.setPhase number client .finished)
      | _ => none
  | .select now =>
      match phase with
      | .selecting loop =>
          some ((state.selecting client now).setPhase number client
            (.dialling ((state.lend loop).selectNext client now)))
      | _ => none
  | .dial attempt =>
      match phase with
      | .dialling loop =>
          some (state.setPhase number client
            (state.answered { ctx with client := client } loop attempt))
      | _ => none
  | .report now =>
      match phase with
      | .late loop stream ms =>
          let next := ((state.lend loop).reported now).remembered stream
            loop.token ms
          some ((state.reported (loop.token.map .onFailure) now).setPhase
            number client (state.goOn next .noPeersAvailable))
      | .failing loop error =>
          let next := (state.lend loop).reported now
          some ((state.reported (loop.token.map .onFailure) now).setPhase
            number client (state.goOn next (.io error)))
      | .judged token verdict =>
          some ((state.reported (some (verdict.call token)) now).setPhase
            number client .finished)
      | _ => none
  | .proxy passed =>
      match phase with
      | .connected _ token =>
          some (state.setPhase number client
            (if passed then
              .relaying token (TimedRelay.start (state.relaySetup setup))
            else .finished))
      | _ => none
  | .relay label =>
      match phase with
      | .relaying token relay =>
          ((TimedRelay.machine (state.relaySetup setup)).step relay
            label).map fun next =>
              state.setPhase number client (.relaying token next)
      | _ => none
  | .judge =>
      match phase with
      | .relaying token relay =>
          (relay.verdict (state.relaySetup setup)).map fun verdict =>
            state.setPhase number client (.ofVerdict token verdict)
      | _ => none

/-- The endpoint and the tasks of its clients, in any order. -/
def machine (ctx : CallContext Addr) (setup : RelaySetup Error) :
    Machine (Endpoint Stream Error) (EndpointLabel Addr Stream Error) where
  step state
    | .accept client =>
        some { state.setPhase state.accepted client .accepted with
          accepted := state.accepted + 1 }
    | .task number label =>
        (state.tasks number).bind fun task =>
          state.taskStep ctx setup number task.client task.phase label

/-! ## Lemmas about the parts -/

variable {state : Endpoint Stream Error}

@[simp]
theorem setPhase_balancer
    (number : ℕ) (client : Client) (phase : TaskPhase Stream Error) :
    (state.setPhase number client phase).balancer = state.balancer :=
  rfl

@[simp]
theorem setPhase_calls
    (number : ℕ) (client : Client) (phase : TaskPhase Stream Error) :
    (state.setPhase number client phase).calls = state.calls :=
  rfl

@[simp]
theorem setPhase_selected
    (number : ℕ) (client : Client) (phase : TaskPhase Stream Error) :
    (state.setPhase number client phase).selected = state.selected :=
  rfl

@[simp]
theorem reported_tasks (call : Option Balancer.Call) (now : UInt32) :
    (state.reported call now).tasks = state.tasks := by
  cases call <;> rfl

@[simp]
theorem reported_selected (call : Option Balancer.Call) (now : UInt32) :
    (state.reported call now).selected = state.selected := by
  cases call <;> rfl

@[simp]
theorem selecting_tasks (client : Client) (now : UInt32) :
    (state.selecting client now).tasks = state.tasks :=
  rfl

/-- The balancer after a report in the loop is the one the loop leaves. -/
theorem reported_balancer
    (loop : ConnectLoop Stream) (now : UInt32) :
    (state.reported (loop.token.map .onFailure) now).balancer =
      ((state.lend loop).reported now).balancer := by
  unfold reported ConnectLoop.reported lend
  cases loop.token <;> rfl

theorem setPhase_tasks_self
    (number : ℕ) (client : Client) (phase : TaskPhase Stream Error) :
    (state.setPhase number client phase).tasks number =
      some ⟨client, phase⟩ :=
  Function.update_self number _ _

/-! ## A round of the loop -/

theorem step_task
    {ctx : CallContext Addr} {setup : RelaySetup Error} {number : ℕ}
    {client : Client} {phase : TaskPhase Stream Error}
    (found : state.tasks number = some ⟨client, phase⟩)
    (label : TaskLabel Addr Stream Error) :
    (machine ctx setup).step state (.task number label) =
      state.taskStep ctx setup number client phase label := by
  change (state.tasks number).bind _ = _
  rw [found]
  rfl

/-- Steps of one task alone can take it to the end of a round. -/
def TakesRound
    (ctx : CallContext Addr) (setup : RelaySetup Error)
    (state : Endpoint Stream Error) (number : ℕ) (client : Client)
    (round : Round Stream Error) : Prop :=
  ∃ (labels : List (TaskLabel Addr Stream Error))
      (final : Endpoint Stream Error),
    (machine ctx setup).run state (labels.map (.task number)) =
        some final ∧
      final.balancer = round.balancer ∧
      final.tasks number = some ⟨client, .ofRound round⟩ ∧
      final.selected = state.selected ++ round.selected

section Round

variable {ctx : CallContext Addr} {setup : RelaySetup Error} {number : ℕ}
variable {client : Client} {loop : ConnectLoop Stream}

/-- A report, and a selection if the loop goes on. -/
theorem takesRound_of_report
    {phase : TaskPhase Stream Error} {call : Option Balancer.Call}
    {error : ConnectError Error} {reportAt : UInt32}
    (found : state.tasks number = some ⟨client, phase⟩)
    (reports : state.taskStep ctx setup number client phase
        (.report reportAt) =
      some ((state.reported call reportAt).setPhase number client
        (state.goOn loop error)))
    (left : (state.reported call reportAt).balancer = loop.balancer)
    (selectAt : UInt32) :
    TakesRound ctx setup state number client
      (if loop.exhausted state.balancer.total then
        .done (loop.giveUp error)
      else .again (loop.selectNext client selectAt)) := by
  have stepped := (step_task found _).trans reports
  unfold goOn at stepped
  split
  · next exhausted =>
    rw [if_pos exhausted] at stepped
    refine ⟨[.report reportAt],
      (state.reported call reportAt).setPhase number client
        (.ofConnected (loop.giveUp error)), ?_, left,
      setPhase_tasks_self _ _ _, ?_⟩
    · rw [List.map_singleton, Machine.run_cons_eq_some]
      exact ⟨_, stepped, rfl⟩
    · rw [setPhase_selected, reported_selected]
      exact (List.append_nil _).symm
  · next continues =>
    rw [if_neg continues] at stepped
    let middle := (state.reported call reportAt).setPhase number client
      (.selecting loop)
    have lent : middle.lend loop = loop := by
      rw [lend, setPhase_balancer, left]
    refine ⟨[.report reportAt, .select selectAt],
      (middle.selecting client selectAt).setPhase number client
        (.dialling (loop.selectNext client selectAt)), ?_, ?_,
      setPhase_tasks_self _ _ _, ?_⟩
    · rw [List.map_cons, List.map_singleton, Machine.run_cons_eq_some]
      refine ⟨middle, stepped, ?_⟩
      rw [Machine.run_cons_eq_some]
      refine ⟨_, ?_, rfl⟩
      rw [step_task (setPhase_tasks_self _ _ _), taskStep, lent]
    · change ((state.reported call reportAt).balancer.next client
        selectAt).2 = _
      rw [left]
      rfl
    · change (state.reported call reportAt).selected ++
        [((state.reported call reportAt).balancer.next client
          selectAt).1] = _
      rw [reported_selected, left]
      rfl

/-- The answer to a dial, and what follows it. -/
theorem takesRound_of_dial
    {attempt : Attempt Addr Stream Error} {phase : TaskPhase Stream Error}
    {round : Round Stream Error}
    (found : state.tasks number = some ⟨client, .dialling loop⟩)
    (answer : state.answered { ctx with client := client } loop attempt =
      phase)
    (follows : TakesRound ctx setup (state.setPhase number client phase)
      number client round) :
    TakesRound ctx setup state number client round := by
  rcases follows with ⟨labels, final, ran, left, phased⟩
  refine ⟨.dial attempt :: labels, final, ?_, left, phased⟩
  rw [List.map_cons, Machine.run_cons_eq_some]
  refine ⟨state.setPhase number client phase, ?_, ran⟩
  rw [step_task found, taskStep, answer]

theorem takesRound_of_returned
    (connected : Connected Stream Error)
    (left : state.balancer = connected.balancer) :
    TakesRound ctx setup
      (state.setPhase number client (.ofConnected connected)) number client
      (.done connected) :=
  ⟨[], _, rfl, left, setPhase_tasks_self _ _ _, (List.append_nil _).symm⟩

/-- If no other task comes between them, the steps of a task are a round of
its loop on the shared balancer. -/
theorem takesRound
    (found : state.tasks number = some ⟨client, .dialling loop⟩)
    (attempt : Attempt Addr Stream Error) (reportAt selectAt : UInt32) :
    TakesRound ctx setup state number client
      ((state.lend loop).round { ctx with client := client }
        state.balancer.total state.maxLatency attempt reportAt
        selectAt) := by
  have same : (state.lend loop).dial { ctx with client := client } attempt =
      loop.dial { ctx with client := client } attempt := rfl
  unfold ConnectLoop.round
  rw [same]
  cases dialled : loop.dial { ctx with client := client } attempt with
  | ok stream =>
      dsimp only
      by_cases slow : (state.maxLatency.any fun max =>
          max.toNat < attempt.elapsedMs) = true
      · have answer : state.answered { ctx with client := client } loop
            attempt = .late loop stream attempt.elapsedMs := by
          rw [answered, dialled]
          exact if_pos slow
        rw [if_pos slow]
        apply takesRound_of_dial found answer
        apply takesRound_of_report (setPhase_tasks_self _ _ _) rfl
        rw [ConnectLoop.remembered_balancer]
        exact reported_balancer loop reportAt
      · rw [if_neg slow]
        cases logged : ConnectLoop.logged { ctx with client := client }
            attempt with
        | ok _ =>
            have answer : state.answered { ctx with client := client } loop
                attempt = .connected stream loop.token := by
              rw [answered, dialled]
              dsimp only
              rw [if_neg slow, logged]
            exact takesRound_of_dial found answer
              (takesRound_of_returned
                ⟨.ok (stream, loop.token), state.balancer⟩ rfl)
        | error error =>
            have answer : state.answered { ctx with client := client } loop
                attempt = .finished := by
              rw [answered, dialled]
              dsimp only
              rw [if_neg slow, logged]
            exact takesRound_of_dial found answer
              (takesRound_of_returned
                ⟨.error (.io error), state.balancer⟩ rfl)
  | error error =>
      have answer : state.answered { ctx with client := client } loop
          attempt = .failing loop error := by
        rw [answered, dialled]
      apply takesRound_of_dial found answer
      apply takesRound_of_report (setPhase_tasks_self _ _ _) rfl
      exact reported_balancer loop reportAt

end Round

end Endpoint

end ByteHub.Core
