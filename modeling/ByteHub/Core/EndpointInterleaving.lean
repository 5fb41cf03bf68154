import ByteHub.Core.EndpointConnection
import ByteHub.Library.Interleaving

/-!
# What the order of the tasks decides

Connections meet at the balancer and, if there is one, at the pool of idle
connections.  Where the clients are accepted, every task takes the same steps,
and the steps that use the balancer or the pool come in the same order, the
rest of the order makes no difference.
-/

namespace ByteHub.Core

open ByteHub.Lb
open ByteHub.Library

variable {Addr Stream Error : Type}

/-- The step calls the balancer or takes a copy of it. -/
def TaskLabel.meets : TaskLabel Addr Stream Error → Bool
  | .enter => true
  | .select _ => true
  | .report _ => true
  | _ => false

/-- What the steps of an endpoint use: the balancer, the pool of idle
connections, or the task with a number. -/
inductive EndpointResource where
  | balancer
  | pool
  | task (number : ℕ)
deriving DecidableEq, Repr

/-- A dial asks the pool first, if there is one.  An acceptance uses all there
is. -/
def EndpointLabel.uses (ctx : CallContext Addr) :
    EndpointResource → EndpointLabel Addr Stream Error → Bool
  | .pool, .accept _ => ctx.pool
  | .pool, .task _ (.dial _) => ctx.pool
  | .pool, .task _ _ => false
  | _, .accept _ => true
  | .balancer, .task _ label => label.meets
  | .task number, .task acting _ => acting == number

namespace Endpoint

section Exchange

variable {ctx : CallContext Addr} {setup : RelaySetup Error}
variable {state next : Endpoint Stream Error} {number other : ℕ}
variable {client : Client} {phase : TaskPhase Stream Error}

/-- What a step away from the balancer does depends on the latency limit and
on its own task. -/
theorem exists_phase_of_apart
    (state : Endpoint Stream Error) (number : ℕ) (client : Client)
    (phase : TaskPhase Stream Error) {label : TaskLabel Addr Stream Error}
    (apart : label.meets = false) :
    ∃ after : Option (TaskPhase Stream Error),
      ∀ later : Endpoint Stream Error,
        later.maxLatency = state.maxLatency →
          later.taskStep ctx setup number client phase label =
            after.map (later.setPhase number client) := by
  cases label with
  | enter => cases apart
  | select now => cases apart
  | report now => cases apart
  | refuse =>
      cases phase with
      | accepted => exact ⟨some .finished, fun _ _ => rfl⟩
      | _ => exact ⟨none, fun _ _ => rfl⟩
  | dial attempt =>
      cases phase with
      | dialling loop =>
          refine ⟨some (state.answered { ctx with client := client } loop
            attempt), ?_⟩
          intro later same
          rw [taskStep, answered, answered, same]
          rfl
      | _ => exact ⟨none, fun _ _ => rfl⟩
  | proxy passed =>
      cases phase with
      | connected stream token =>
          refine ⟨some (if passed then
            .relaying token (TimedRelay.start (state.relaySetup setup))
          else .finished), ?_⟩
          intro later same
          rw [taskStep, relaySetup, relaySetup, same]
          rfl
      | _ => exact ⟨none, fun _ _ => rfl⟩
  | relay label =>
      cases phase with
      | relaying token relay =>
          refine ⟨((TimedRelay.machine (state.relaySetup setup)).step relay
            label).map (.relaying token), ?_⟩
          intro later same
          rw [taskStep, relaySetup, relaySetup, same, Option.map_map]
          rfl
      | _ => exact ⟨none, fun _ _ => rfl⟩
  | judge =>
      cases phase with
      | relaying token relay =>
          refine ⟨(relay.verdict (state.relaySetup setup)).map
            (.ofVerdict token), ?_⟩
          intro later same
          rw [taskStep, relaySetup, relaySetup, same, Option.map_map]
          rfl
      | _ => exact ⟨none, fun _ _ => rfl⟩

theorem setPhase_comm
    (apart : number ≠ other) (left right : Client)
    (before after : TaskPhase Stream Error) :
    (state.setPhase number left before).setPhase other right after =
      (state.setPhase other right after).setPhase number left before := by
  rw [setPhase, setPhase, setPhase, setPhase]
  congr 1
  exact Function.update_comm apart _ _ _

/-- A step does not mind where another task stands. -/
theorem taskStep_setPhase
    (apart : number ≠ other) (left right : Client)
    (here there : TaskPhase Stream Error)
    (label : TaskLabel Addr Stream Error) :
    (state.setPhase number left here).taskStep ctx setup other right there
        label =
      (state.taskStep ctx setup other right there label).map
        fun next => next.setPhase number left here := by
  cases label with
  | enter =>
      cases there with
      | accepted => exact congrArg some (setPhase_comm apart _ _ _ _)
      | _ => rfl
  | refuse =>
      cases there with
      | accepted => exact congrArg some (setPhase_comm apart _ _ _ _)
      | _ => rfl
  | select now =>
      cases there with
      | selecting loop =>
          have moved := @setPhase_comm Stream Error
            (state.selecting right now) number other apart left right here
            (.dialling ((state.lend loop).selectNext right now))
          exact congrArg some moved
      | _ => rfl
  | dial attempt =>
      cases there with
      | dialling loop => exact congrArg some (setPhase_comm apart _ _ _ _)
      | _ => rfl
  | report now =>
      have meets (call : Option Balancer.Call)
          (after : TaskPhase Stream Error) :
          ((state.setPhase number left here).reported call now).setPhase
              other right after =
            ((state.reported call now).setPhase other right
              after).setPhase number left here := by
        rw [← setPhase_comm apart]
        cases call <;> rfl
      cases there with
      | late loop stream ms => exact congrArg some (meets _ _)
      | failing loop error => exact congrArg some (meets _ _)
      | judged token verdict => exact congrArg some (meets _ _)
      | _ => rfl
  | proxy passed =>
      cases there with
      | connected stream token =>
          exact congrArg some (setPhase_comm apart _ _ _ _)
      | _ => rfl
  | relay label =>
      cases there with
      | relaying token relay =>
          rw [taskStep, taskStep, Option.map_map]
          congr 1
          funext next
          exact setPhase_comm apart _ _ _ _
      | _ => rfl
  | judge =>
      cases there with
      | relaying token relay =>
          rw [taskStep, taskStep, Option.map_map]
          congr 1
          funext verdict
          exact setPhase_comm apart _ _ _ _
      | _ => rfl

theorem step_absent
    (absent : state.tasks number = none)
    (label : TaskLabel Addr Stream Error) :
    (machine ctx setup).step state (.task number label) = none := by
  change (state.tasks number).bind _ = none
  rw [absent]
  rfl

/-- What a step of a task leaves of another one. -/
theorem frame_of_step
    (apart : other ≠ number) {label : TaskLabel Addr Stream Error}
    (stepped : (machine ctx setup).step state (.task number label) =
      some next) :
    next.tasks other = state.tasks other ∧
      next.maxLatency = state.maxLatency := by
  have alone : Alone ctx setup number state next :=
    ⟨[label], (Machine.run_singleton _ _ _).trans stepped⟩
  refine ⟨alone.tasks_of_ne apart, ?_⟩
  rw [maxLatency, maxLatency, alone.settings_eq.2]

/-- Nothing comes after a step for a task that is not there. -/
theorem bind_absent
    (apart : other ≠ number) (absent : state.tasks other = none)
    (left right : TaskLabel Addr Stream Error) :
    (((machine ctx setup).step state (.task number left)).bind fun next =>
      (machine ctx setup).step next (.task other right)) = none := by
  rw [Option.bind_eq_none_iff]
  intro next stepped
  exact step_absent ((frame_of_step apart stepped).1.trans absent) right

/-- Steps of two tasks, one of them away from the balancer, can be
exchanged. -/
theorem exchange_tasks
    (apart : number ≠ other) {left : TaskLabel Addr Stream Error}
    (away : left.meets = false) (right : TaskLabel Addr Stream Error) :
    (machine ctx setup).run state [.task number left, .task other right] =
      (machine ctx setup).run state
        [.task other right, .task number left] := by
  rw [Machine.run_pair, Machine.run_pair]
  cases here : state.tasks number with
  | none => rw [step_absent here, bind_absent apart here]; rfl
  | some task =>
      cases there : state.tasks other with
      | none => rw [step_absent there, bind_absent apart.symm there]; rfl
      | some second =>
          rcases task with ⟨client, phase⟩
          rcases second with ⟨visitor, place⟩
          rcases exists_phase_of_apart state number client phase away with
            ⟨after, does⟩
          rw [step_task here, step_task there, does state rfl,
            Option.bind_map]
          -- The second task finds itself where it was.
          have follows (reached : TaskPhase Stream Error) :
              (machine ctx setup).step
                  (state.setPhase number client reached)
                  (.task other right) =
                (state.taskStep ctx setup other visitor place right).map
                  fun next => next.setPhase number client reached := by
            rw [step_task ((setPhase_tasks_of_ne apart.symm).trans there)]
            exact taskStep_setPhase apart client visitor reached place right
          cases moved : state.taskStep ctx setup other visitor place
              right with
          | none =>
              cases after with
              | none => rfl
              | some reached =>
                  exact (follows reached).trans (by rw [moved]; rfl)
          | some next =>
              have stepped := (step_task there right).trans moved
              rcases frame_of_step apart stepped with ⟨same, latency⟩
              have first := (step_task (same.trans here) left).trans
                (does next latency)
              change _ = (machine ctx setup).step next (.task number left)
              rw [first]
              cases after with
              | none => rfl
              | some reached =>
                  exact (follows reached).trans (by rw [moved]; rfl)

end Exchange

/-- Steps that use nothing in common can be exchanged. -/
theorem exchanges
    (ctx : CallContext Addr) (setup : RelaySetup Error) :
    (machine ctx setup :
      Machine (Endpoint Stream Error) _).Exchanges
        (EndpointLabel.uses ctx) := by
  intro state first second apart
  cases first with
  | accept client =>
      rcases second with visitor | ⟨other, right⟩
      · cases apart .balancer rfl
      · have shared := apart (.task other) rfl
        rw [EndpointLabel.uses, beq_self_eq_true] at shared
        cases shared
  | task number left =>
      have own : EndpointLabel.uses ctx (.task number)
          (.task number left : EndpointLabel Addr Stream Error) = true :=
        beq_self_eq_true number
      cases second with
      | accept client => cases apart (.task number) own
      | task other right =>
          have different : number ≠ other := by
            rintro rfl
            cases own.symm.trans (apart (.task number) own)
          cases away : left.meets with
          | false => exact exchange_tasks different away right
          | true =>
              exact (exchange_tasks different.symm (apart .balancer away)
                left).symm

end Endpoint

open Endpoint in
/-- Under round robin, whose calls exclude each other, the order of the steps
decides nothing but through the balancer and the pool: two runs in which the
clients are accepted between the same steps of each task, every task takes
the same steps, and the steps that meet at the balancer or at the pool come
in the same order, end in the same state, and one of them is possible when
the other is. -/
theorem endpoint_serializes
    (ctx : CallContext Addr) (setup : RelaySetup Error)
    {first second : List (EndpointLabel Addr Stream Error)}
    (same : ∀ resource, first.filter (EndpointLabel.uses ctx resource) =
      second.filter (EndpointLabel.uses ctx resource))
    (state : Endpoint Stream Error) (rr : RoundRobin) :
    (machine ctx setup).run { state with balancer := .roundRobin rr }
        first =
      (machine ctx setup).run { state with balancer := .roundRobin rr }
        second := by
  refine (exchanges ctx setup).run_eq_of_seen ?_ same _
  intro label
  cases label with
  | accept client => exact ⟨.balancer, rfl⟩
  | task number label => exact ⟨.task number, beq_self_eq_true number⟩

/-- Two clients come to their peers, which refuse them in some order. -/
def twoRefusals (one two : ℕ) : List (EndpointLabel ℕ Unit Unit) :=
  [.accept pairOfPeers.client, .accept pairOfPeers.client, .task 0 .enter,
    .task 1 .enter, .task 1 (.select 7), .task 0 (.select 7),
    .task one (.dial (refused ())), .task two (.dial (refused ()))]

open Endpoint in
/-- It makes no difference whose dial is answered first. -/
theorem endpoint_serializes_refusals :
    ∃ final : Endpoint Unit Unit,
      (machine pairOfPeers plainSetup).run
          (start (.roundRobin (RoundRobin.new .pair (some ⟨1, 30, none⟩))))
          (twoRefusals 0 1) = some final ∧
        (machine pairOfPeers plainSetup).run
          (start (.roundRobin (RoundRobin.new .pair (some ⟨1, 30, none⟩))))
          (twoRefusals 1 0) = some final := by
  have ran : ∃ final : Endpoint Unit Unit,
      (machine pairOfPeers plainSetup).run
          (start (.roundRobin (RoundRobin.new .pair (some ⟨1, 30, none⟩))))
          (twoRefusals 0 1) = some final :=
    ⟨_, rfl⟩
  rcases ran with ⟨final, ran⟩
  have seen (resource : EndpointResource) :
      (twoRefusals 1 0).filter (EndpointLabel.uses pairOfPeers resource) =
        (twoRefusals 0 1).filter
          (EndpointLabel.uses pairOfPeers resource) := by
    rcases resource with _ | _ | (_ | _ | number) <;> rfl
  have same := endpoint_serializes pairOfPeers plainSetup seen
    (start .off) (RoundRobin.new .pair (some ⟨1, 30, none⟩))
  exact ⟨final, ran, same.trans ran⟩

end ByteHub.Core
