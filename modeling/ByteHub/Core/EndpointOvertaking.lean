import ByteHub.Core.EndpointPatience

/-!
# Connections that overtake

The patience of a connection counts the selections that a peer lost to
others, and no smaller measure would do: in some order of the tasks the peer
is handed to a new connection whenever its turn comes, and the first
connection is refused by the others as often as one likes.
-/

namespace ByteHub.Core

open ByteHub.Lb
open ByteHub.Library

variable {Addr Stream Error : Type}

namespace Endpoint

/-- The labels lead from a fresh endpoint to the state, and the peer behaves
well on the way. -/
structure Leads
    (ctx : CallContext Addr) (setup : RelaySetup Error)
    (weights : Weights) (token : Token)
    (labels : List (EndpointLabel Addr Stream Error))
    (state : Endpoint Stream Error) : Prop where
  ran : (machine ctx setup).run
    (start (.roundRobin (RoundRobin.new weights none))) labels = some state
  behaves : (machine ctx setup).EachStep (Behaves ctx setup token)
    (start (.roundRobin (RoundRobin.new weights none))) labels

section Leads

variable {ctx : CallContext Addr} {setup : RelaySetup Error}
variable {weights : Weights} {token : Token}
variable {labels : List (EndpointLabel Addr Stream Error)}
variable {state next : Endpoint Stream Error} {number : ℕ}
variable {client : Client} {loop : ConnectLoop Stream}

theorem leads_start
    (ctx : CallContext Addr) (setup : RelaySetup Error)
    (weights : Weights) (token : Token) :
    Leads ctx setup weights token
      ([] : List (EndpointLabel Addr Stream Error))
      (start (.roundRobin (RoundRobin.new weights none))) where
  ran := rfl
  behaves := Machine.eachStep_nil _ _

theorem Leads.step
    (leads : Leads ctx setup weights token labels state)
    {label : EndpointLabel Addr Stream Error}
    (behaves : Behaves ctx setup token state label)
    (stepped : (machine ctx setup).step state label = some next) :
    Leads ctx setup weights token (labels ++ [label]) next where
  ran := (machine ctx setup).run_concat_eq_some.2
    ⟨state, leads.ran, stepped⟩
  behaves := Machine.eachStep_concat leads.behaves leads.ran behaves

theorem Leads.accept
    (leads : Leads ctx setup weights token labels state)
    (client : Client) :
    Leads ctx setup weights token (labels ++ [.accept client])
      { state.setPhase state.accepted client .accepted with
        accepted := state.accepted + 1 } :=
  leads.step (behaves_of_quiet (by rintro _ _ ⟨⟩) (by rintro _ ⟨⟩)) rfl

theorem Leads.enter
    (leads : Leads ctx setup weights token labels state)
    (found : state.tasks number = some ⟨client, .accepted⟩) :
    Leads ctx setup weights token (labels ++ [.task number .enter])
      (state.setPhase number client
        (.selecting (emptyLoop state.balancer))) :=
  leads.step (behaves_of_quiet (by rintro _ _ ⟨⟩) (by rintro _ ⟨⟩))
    (step_task found .enter)

theorem Leads.select
    (leads : Leads ctx setup weights token labels state)
    (found : state.tasks number = some ⟨client, .selecting loop⟩)
    (now : UInt32) :
    Leads ctx setup weights token (labels ++ [.task number (.select now)])
      ((state.selecting client now).setPhase number client
        (.dialling ((state.lend loop).selectNext client now))) :=
  leads.step (behaves_of_quiet (by rintro _ _ ⟨⟩) (by rintro _ ⟨⟩))
    (step_task found (.select now))

/-- Another peer refuses the client. -/
theorem Leads.refuse
    (leads : Leads ctx setup weights token labels state)
    (found : state.tasks number = some ⟨client, .dialling loop⟩)
    (other : loop.token ≠ some token) (error : Error) :
    Leads ctx setup weights token
      (labels ++ [.task number (.dial (refused error))])
      (state.setPhase number client (.failing loop error)) := by
  apply leads.step (behaves_of_other found other _)
  rw [step_task found, taskStep, answered, dial_refused]

theorem Leads.untried
    (leads : Leads ctx setup weights token labels state)
    (two : 2 ≤ weights.count) : Untried weights none token state :=
  Machine.run_invariant_of_allowed _ _ (untried_step two)
    (untried_start weights none token) leads.behaves leads.ran

theorem Leads.waiting
    (leads : Leads ctx setup weights token labels state) (number : ℕ) :
    Waiting token number state labels :=
  Machine.run_history_of_allowed (Waiting token number) _ waiting_step
    (waiting_start token number _) leads.behaves leads.ran

/-- A failure is reported, and the task selects again. -/
theorem Leads.report
    {position : ℕ} {error : Error}
    (leads : Leads ctx setup weights (Token.ofPosition position) labels
      state)
    (two : 2 ≤ weights.count) (inside : position < weights.count)
    (found : state.tasks number = some ⟨client, .failing loop error⟩) :
    ∃ next, Leads ctx setup weights (Token.ofPosition position)
        (labels ++ [.task number (.report 0)]) next ∧
      (∃ loop, next.tasks number = some ⟨client, .selecting loop⟩) ∧
        next.selected = state.selected := by
  have stepped : (machine ctx setup).step state
        (.task number (.report 0)) =
      state.taskStep ctx setup number client (.failing loop error)
        (.report 0) :=
    step_task found (.report 0)
  rw [taskStep] at stepped
  refine ⟨_, leads.step (behaves_of_quiet (by rintro _ _ ⟨⟩)
    (by rintro _ ⟨⟩)) stepped, ?_, ?_⟩
  · exact selecting_of_report (leads.untried two) two inside found trivial
      stepped
  · rw [setPhase_selected, reported_selected]

end Leads

/-- The first client still searches after some selections, those it did not
make having been answered with the peer. -/
structure Overtaken
    (ctx : CallContext Addr) (setup : RelaySetup Error)
    (weights : Weights) (token : Token) (client : Client) (turns : ℕ)
    (labels : List (EndpointLabel Addr Stream Error))
    (state : Endpoint Stream Error) : Prop where
  leads : Leads ctx setup weights token labels state
  searches : ∃ loop, state.tasks 0 = some ⟨client, .selecting loop⟩
  selected : state.selected.length = turns
  share :
    labels.countP (selects 0) + state.selected.count (some token) = turns

section Overtaken

variable {ctx : CallContext Addr} {setup : RelaySetup Error}
variable {weights : Weights} {token : Token} {client : Client}
variable {turns : ℕ} {labels : List (EndpointLabel Addr Stream Error)}
variable {state : Endpoint Stream Error}

theorem exists_overtaken_zero
    (ctx : CallContext Addr) (setup : RelaySetup Error)
    (weights : Weights) (token : Token) (client : Client) :
    ∃ (labels : List (EndpointLabel Addr Stream Error))
        (state : Endpoint Stream Error),
      Overtaken ctx setup weights token client 0 labels state := by
  have accepted := (leads_start ctx setup weights token :
    Leads ctx setup weights token _ (start _ : Endpoint Stream Error)).accept
      client
  have entered := accepted.enter (setPhase_tasks_self _ _ _)
  exact ⟨_, _, entered, ⟨_, setPhase_tasks_self _ _ _⟩, rfl, rfl⟩

/-- When the turn of the peer comes, a new client takes it. -/
theorem Overtaken.overtake
    (overtaken :
      Overtaken ctx setup weights token client turns labels state)
    (turn : (state.balancer.next client 0).1 = some token) :
    ∃ (labels : List (EndpointLabel Addr Stream Error))
        (state : Endpoint Stream Error),
      Overtaken ctx setup weights token client (turns + 1) labels
        state := by
  rcases overtaken.searches with ⟨loop, found⟩
  have later : 0 ≠ state.accepted := by
    intro none
    have empty := (overtaken.leads.waiting 0).fresh 0 none.ge
    rw [found] at empty
    cases empty
  have accepted := overtaken.leads.accept client
  have entered := accepted.enter (setPhase_tasks_self _ _ _)
  have selected := entered.select (setPhase_tasks_self _ _ _) 0
  refine ⟨_, _, selected, ⟨loop, ?_⟩, ?_, ?_⟩
  · rw [setPhase_tasks_of_ne later, selecting_tasks,
      setPhase_tasks_of_ne later]
    exact (setPhase_tasks_of_ne later).trans found
  · change (state.selected ++ [_]).length = turns + 1
    rw [List.length_append, overtaken.selected, List.length_singleton]
  · change _ + (state.selected ++
      [(state.balancer.next client 0).1]).count (some token) = turns + 1
    rw [turn, List.count_append, List.count_singleton_self,
      List.countP_append, List.countP_singleton,
      selects_of_ne later.symm, List.countP_append, List.countP_append,
      ← overtaken.share]
    exact (Nat.add_assoc _ _ _).symm

/-- When the turn of another peer comes, the first client takes it and is
refused. -/
theorem Overtaken.refuse
    {position : ℕ}
    (overtaken : Overtaken ctx setup weights (Token.ofPosition position)
      client turns labels state)
    (two : 2 ≤ weights.count) (inside : position < weights.count)
    (turn : (state.balancer.next client 0).1 ≠
      some (Token.ofPosition position))
    (error : Error) :
    ∃ (labels : List (EndpointLabel Addr Stream Error))
        (state : Endpoint Stream Error),
      Overtaken ctx setup weights (Token.ofPosition position) client
        (turns + 1) labels state := by
  rcases overtaken.searches with ⟨loop, found⟩
  have selected := overtaken.leads.select found 0
  have refused := selected.refuse (setPhase_tasks_self _ _ _) turn error
  rcases refused.report two inside (setPhase_tasks_self _ _ _) with
    ⟨next, reported, again, same⟩
  refine ⟨_, next, reported, again, ?_, ?_⟩
  · rw [same]
    change (state.selected ++ [_]).length = turns + 1
    rw [List.length_append, overtaken.selected, List.length_singleton]
  · rw [same]
    change _ + (state.selected ++
      [(state.balancer.next client 0).1]).count
        (some (Token.ofPosition position)) = turns + 1
    have other : [(state.balancer.next client 0).1].count
        (some (Token.ofPosition position)) = 0 := by
      rw [List.count_eq_zero, List.mem_singleton]
      exact turn.symm
    rw [List.count_append, other, List.countP_append, List.countP_append,
      List.countP_append, ← overtaken.share]
    exact Nat.add_right_comm (labels.countP (selects 0)) 1 _

/-- Every further selection leaves the first client searching. -/
theorem exists_overtaken
    {position : ℕ} (ctx : CallContext Addr) (setup : RelaySetup Error)
    (weights : Weights) (two : 2 ≤ weights.count)
    (inside : position < weights.count) (client : Client) (error : Error)
    (turns : ℕ) :
    ∃ (labels : List (EndpointLabel Addr Stream Error))
        (state : Endpoint Stream Error),
      Overtaken ctx setup weights (Token.ofPosition position) client turns
        labels state := by
  induction turns with
  | zero => exact exists_overtaken_zero ctx setup weights _ client
  | succ turns inductionHypothesis =>
      rcases inductionHypothesis with ⟨labels, state, overtaken⟩
      by_cases turn : (state.balancer.next client 0).1 =
          some (Token.ofPosition position)
      · exact overtaken.overtake turn
      · exact overtaken.refuse two inside turn error

end Overtaken

end Endpoint

open Endpoint in
/-- No number bounds the refusals of a connection for itself: beside other
connections it can be refused as often as one likes, though one of the peers
answers everyone who dials it. -/
theorem endpoint_overtaken
    (ctx : CallContext Addr) (setup : RelaySetup Error)
    (weights : Weights) (two : 2 ≤ weights.count)
    (small : weights.count * weights.sum ≤ 32767) {position : ℕ}
    (inside : position < weights.count)
    (others : weights.at position < weights.sum)
    (client : Client) (error : Error) (refusals : ℕ) :
    ∃ (labels : List (EndpointLabel Addr Stream Error))
        (final : Endpoint Stream Error) (loop : ConnectLoop Stream),
      (machine ctx setup).run
          (start (.roundRobin (RoundRobin.new weights none))) labels =
        some final ∧
      (machine ctx setup).EachStep
        (Behaves ctx setup (Token.ofPosition position))
        (start (.roundRobin (RoundRobin.new weights none))) labels ∧
      final.tasks 0 = some ⟨client, .selecting loop⟩ ∧
      refusals ≤ labels.countP (selects 0) := by
  have turns : ∃ (labels : List (EndpointLabel Addr Stream Error))
      (state : Endpoint Stream Error),
    Overtaken ctx setup weights (Token.ofPosition position) client
      (refusals * weights.sum) labels state :=
    exists_overtaken ctx setup weights two inside client error _
  rcases turns with ⟨labels, final, leads, ⟨loop, found⟩, selected, share⟩
  refine ⟨labels, final, loop, leads.ran, leads.behaves, found, ?_⟩
  have logged := logged_of_run leads.ran
  rw [logged.selected] at selected share
  rw [RoundRobin.count_answers_rounds two (Nat.zero_lt_of_lt others) small
    selected inside] at share
  have most : refusals * (weights.at position + 1) ≤
      refusals * weights.sum :=
    Nat.mul_le_mul_left refusals others
  rw [Nat.mul_succ] at most
  omega

open Endpoint in
/-- Beside others, a client of two equal peers can be refused a thousand
times. -/
theorem endpoint_overtaken_pair :
    ∃ (labels : List (EndpointLabel ℕ Unit Unit))
        (final : Endpoint Unit Unit) (loop : ConnectLoop Unit),
      (machine pairOfPeers plainSetup).run
          (start (.roundRobin (RoundRobin.new .pair none))) labels =
        some final ∧
      (machine pairOfPeers plainSetup).EachStep
        (Behaves pairOfPeers plainSetup (Token.ofPosition 1))
        (start (.roundRobin (RoundRobin.new .pair none))) labels ∧
      final.tasks 0 = some ⟨pairOfPeers.client, .selecting loop⟩ ∧
      1000 ≤ labels.countP (selects 0) :=
  endpoint_overtaken pairOfPeers plainSetup .pair (by decide) (by decide)
    (by decide) (by decide) pairOfPeers.client () 1000

end ByteHub.Core
