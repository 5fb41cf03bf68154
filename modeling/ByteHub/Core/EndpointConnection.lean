import ByteHub.Core.EndpointPatience

/-!
# A connection that nobody interrupts

What `connect_and_relay` does from its first line to its last, alone with the
balancer, is a run of the endpoint in which only the task of the connection
steps.  So what is known of the call in isolation happens in an endpoint too,
whatever state its other connections are in.
-/

namespace ByteHub.Core

open ByteHub.Lb
open ByteHub.Library

variable {Addr Stream Error : Type}

/-- What the outside answers to a connection after the hook. -/
structure ConnectionAnswers (Addr Stream Error : Type) where
  clock : ℕ → UInt32
  network : Network Addr Stream Error
  /-- `handle_proxy` returns without an error. -/
  proxied : Bool
  relay : List (TimedLabel Error)
  reportAt : UInt32

/-- The relay and the report on the peer: the balancer after them. -/
def ConnectionAnswers.relayed
    (outside : ConnectionAnswers Addr Stream Error) (setup : RelaySetup Error)
    (balancer : Balancer) (token : Option Token) : Option Balancer :=
  let setup := { setup with
    maxLatencyMs :=
      balancer.healthConfig.bind HealthCheckConfig.maxLatencyMs }
  ((TimedRelay.machine setup).run (TimedRelay.start setup)
      outside.relay).bind fun relay =>
    (relay.verdict setup).map fun verdict =>
      match token with
      | none => balancer
      | some token => balancer.perform (verdict.call token) outside.reportAt

/-- `connect_and_relay` after the hook: the balancer it leaves and the peers
it selected.  The call is cut off after `fuel` rounds. -/
def ConnectionAnswers.connectAndRelay
    (outside : ConnectionAnswers Addr Stream Error) (ctx : CallContext Addr)
    (setup : RelaySetup Error) (balancer : Balancer) (fuel : ℕ) :
    Option (Balancer × List (Option Token)) :=
  (tryConnectWithFallback ctx balancer outside.clock outside.network
      fuel).bind fun returned =>
    match returned.connected.result with
    | .error _ => some (returned.connected.balancer, returned.attempted)
    | .ok (_, token) =>
        (if outside.proxied then
          outside.relayed setup returned.connected.balancer token
        else some returned.connected.balancer).map fun left =>
          (left, returned.attempted)

namespace Endpoint

/-! ## Steps of one task -/

/-- Steps of one task alone lead from a state to another. -/
def Alone
    (ctx : CallContext Addr) (setup : RelaySetup Error) (number : ℕ)
    (state final : Endpoint Stream Error) : Prop :=
  ∃ labels : List (TaskLabel Addr Stream Error),
    (machine ctx setup).run state (labels.map (.task number)) = some final

section Alone

variable {ctx : CallContext Addr} {setup : RelaySetup Error} {number : ℕ}
variable {client : Client} {phase : TaskPhase Stream Error}
variable {state middle final : Endpoint Stream Error}

theorem alone_refl (state : Endpoint Stream Error) :
    Alone ctx setup number state state :=
  ⟨[], rfl⟩

theorem Alone.trans
    (first : Alone ctx setup number state middle)
    (second : Alone ctx setup number middle final) :
    Alone ctx setup number state final := by
  rcases first with ⟨before, came⟩
  rcases second with ⟨after, goes⟩
  refine ⟨before ++ after, ?_⟩
  rw [List.map_append, Machine.run_append_eq_some]
  exact ⟨middle, came, goes⟩

theorem alone_step
    (found : state.tasks number = some ⟨client, phase⟩)
    {label : TaskLabel Addr Stream Error}
    (stepped : state.taskStep ctx setup number client phase label =
      some final) :
    Alone ctx setup number state final := by
  refine ⟨[label], ?_⟩
  rw [List.map_singleton, Machine.run_singleton, step_task found]
  exact stepped

/-- The other tasks stay where they are. -/
theorem Alone.tasks_of_ne
    (alone : Alone ctx setup number state final) {other : ℕ}
    (apart : other ≠ number) :
    final.tasks other = state.tasks other := by
  rcases alone with ⟨labels, ran⟩
  refine Machine.run_invariant_of_allowed
    (fun later => later.tasks other = state.tasks other)
    (fun _ label => ∃ own, label = .task number own) ?_ rfl ?_ ran
  · rintro earlier later _ same ⟨own, rfl⟩ stepped
    rcases step_cases stepped with
      ⟨client, label_eq, _⟩ | ⟨acting, task, own, label_eq, _, moved⟩
    · cases label_eq
    · cases label_eq
      exact (moved.tasks_of_ne apart).trans same
  · intro before label after later split _
    have member : label ∈ labels.map (EndpointLabel.task number) := by
      rw [split]
      exact List.mem_append_right _ List.mem_cons_self
    rcases List.mem_map.1 member with ⟨own, _, rfl⟩
    exact ⟨own, rfl⟩

/-- Only the place of the task itself is another one. -/
theorem Alone.tasks_eq_update
    (alone : Alone ctx setup number state final)
    (ended : final.tasks number = some ⟨client, phase⟩) :
    final.tasks =
      Function.update state.tasks number (some ⟨client, phase⟩) := by
  funext other
  by_cases same : other = number
  · subst same
    rw [Function.update_self, ended]
  · rw [Function.update_of_ne same, alone.tasks_of_ne same]

/-- The number of peers and the health configuration stay. -/
theorem Alone.settings_eq
    (alone : Alone ctx setup number state final) :
    final.balancer.total = state.balancer.total ∧
      final.balancer.healthConfig = state.balancer.healthConfig := by
  rcases alone with ⟨labels, ran⟩
  refine Machine.run_invariant
    (fun later => later.balancer.total = state.balancer.total ∧
      later.balancer.healthConfig = state.balancer.healthConfig)
    ?_ ⟨rfl, rfl⟩ ran
  intro earlier later label same stepped
  rcases calls_of_step stepped with ⟨kept, _⟩ | ⟨call, now, _, moved, _⟩
  · rw [kept]
    exact same
  · rw [moved, (earlier.balancer.settings_perform call now).1,
      (earlier.balancer.settings_perform call now).2]
    exact same

end Alone

/-! ## A call -/

section Call

variable {ctx : CallContext Addr} {setup : RelaySetup Error} {number : ℕ}
variable {client : Client} {loop : ConnectLoop Stream}
variable {clock : ℕ → UInt32} {network : Network Addr Stream Error}
variable {state : Endpoint Stream Error}
variable {returned : Returned Stream Error}

/-- The rounds of a call are steps of its task. -/
theorem alone_connectRounds
    {fuel index : ℕ}
    (found : state.tasks number = some ⟨client, .dialling loop⟩)
    (owned : loop.balancer = state.balancer)
    (returns : connectRounds { ctx with client := client }
      state.balancer.total state.maxLatency clock network fuel index loop =
        some returned) :
    ∃ final later, Alone ctx setup number state final ∧
      final.balancer = returned.connected.balancer ∧
      final.tasks number =
        some ⟨client, .ofConnected returned.connected⟩ ∧
      returned.attempted = loop.token :: later ∧
      final.selected = state.selected ++ later := by
  induction fuel generalizing state index loop returned with
  | zero => cases returns
  | succ fuel inductionHypothesis =>
      have lent : state.lend loop = loop := by
        rw [lend, ← owned]
      have takes : TakesRound ctx setup state number client _ :=
        takesRound found (network index loop.token)
          (clock (2 * index + 1)) (clock (2 * index + 2))
      rcases takes with ⟨labels, middle, ran, left, phased, selected⟩
      have alone : Alone ctx setup number state middle := ⟨labels, ran⟩
      rw [lent] at left phased selected
      rw [connectRounds] at returns
      cases turn : loop.round { ctx with client := client }
          state.balancer.total state.maxLatency (network index loop.token)
          (clock (2 * index + 1)) (clock (2 * index + 2)) with
      | done connected =>
          rw [turn] at returns left phased selected
          cases returns
          exact ⟨middle, [], alone, left, phased, rfl, selected⟩
      | again next =>
          rw [turn] at returns left phased selected
          rcases Option.map_eq_some_iff.1 returns with ⟨rest, goesOn, rfl⟩
          have settings := alone.settings_eq
          have same : middle.maxLatency = state.maxLatency := by
            rw [maxLatency, maxLatency, settings.2]
          rw [← settings.1, ← same] at goesOn
          rcases inductionHypothesis phased left.symm goesOn with
            ⟨final, later, further, balancer, ended, attempted, answers⟩
          refine ⟨final, next.token :: later, alone.trans further, balancer,
            ended, ?_, ?_⟩
          · rw [attempted]
          · rw [answers, selected, List.append_assoc]
            rfl

/-- A call, from the acceptance of its client on, is a course of its task. -/
theorem alone_call
    {fuel : ℕ} (found : state.tasks number = some ⟨client, .accepted⟩)
    (returns : tryConnectWithFallback { ctx with client := client }
      state.balancer clock network fuel = some returned) :
    ∃ final, Alone ctx setup number state final ∧
      final.balancer = returned.connected.balancer ∧
      final.selected = state.selected ++ returned.attempted ∧
      final.tasks number =
        some ⟨client, .ofConnected returned.connected⟩ := by
  let entered := state.setPhase number client
    (.selecting (emptyLoop state.balancer))
  have enters : state.taskStep ctx setup number client .accepted .enter =
      some entered := rfl
  let first := (entered.selecting client (clock 0)).setPhase number client
    (.dialling (firstLoop { ctx with client := client } state.balancer
      (clock 0)))
  have selects : entered.taskStep ctx setup number client
      (.selecting (emptyLoop state.balancer)) (.select (clock 0)) =
        some first := rfl
  have begun : Alone ctx setup number state first :=
    (alone_step found enters).trans
      (alone_step (setPhase_tasks_self _ _ _) selects)
  have settings := begun.settings_eq
  have latency : first.maxLatency =
      state.balancer.healthConfig.bind HealthCheckConfig.maxLatencyMs := by
    rw [maxLatency, settings.2]
  rw [tryConnectWithFallback, ← settings.1, ← latency] at returns
  rcases alone_connectRounds (setPhase_tasks_self _ _ _) rfl returns with
    ⟨final, later, calls, balancer, phased, made, selected⟩
  refine ⟨final, begun.trans calls, balancer, ?_, phased⟩
  rw [selected, made]
  exact List.append_assoc _ _ _

end Call

/-! ## A relay -/

section Relay

variable {ctx : CallContext Addr} {setup : RelaySetup Error} {number : ℕ}
variable {client : Client} {state : Endpoint Stream Error}

/-- The steps of a relay are steps of its task. -/
theorem alone_relay
    {token : Option Token} {relay last : TimedRelay Error}
    {labels : List (TimedLabel Error)}
    (found : state.tasks number = some ⟨client, .relaying token relay⟩)
    (ran : (TimedRelay.machine (state.relaySetup setup)).run relay labels =
      some last) :
    ∃ final, Alone ctx setup number state final ∧
      final.balancer = state.balancer ∧
      final.selected = state.selected ∧
      final.tasks number = some ⟨client, .relaying token last⟩ := by
  induction labels generalizing state relay with
  | nil =>
      cases ran
      exact ⟨state, alone_refl state, rfl, rfl, found⟩
  | cons label labels inductionHypothesis =>
      rcases Machine.run_cons_eq_some _ |>.1 ran with ⟨next, step, rest⟩
      let middle := state.setPhase number client (.relaying token next)
      have stepped : state.taskStep ctx setup number client
          (.relaying token relay) (.relay label) = some middle := by
        rw [taskStep, step]
        rfl
      rcases inductionHypothesis (setPhase_tasks_self number client _) rest
        with ⟨final, alone, balancer, selected, ended⟩
      exact ⟨final, (alone_step found stepped).trans alone, balancer,
        selected, ended⟩

/-- A relay, its verdict and the report are steps of the task. -/
theorem alone_relayed
    {outside : ConnectionAnswers Addr Stream Error} {token : Option Token}
    {left : Balancer}
    (found : state.tasks number = some ⟨client,
      .relaying token (TimedRelay.start (state.relaySetup setup))⟩)
    (relayed : outside.relayed setup state.balancer token = some left) :
    ∃ final, Alone ctx setup number state final ∧
      final.balancer = left ∧ final.selected = state.selected ∧
      final.tasks number = some ⟨client, .finished⟩ := by
  rcases Option.bind_eq_some_iff.1 relayed with ⟨relay, ran, judged⟩
  rcases Option.map_eq_some_iff.1 judged with ⟨verdict, judges, reported⟩
  rcases alone_relay found ran with
    ⟨middle, alone, balancer, selected, relaying⟩
  have setups : middle.relaySetup setup = state.relaySetup setup := by
    rw [relaySetup, relaySetup, maxLatency, maxLatency, balancer]
  let after := middle.setPhase number client (.ofVerdict token verdict)
  have stepped : middle.taskStep ctx setup number client
      (.relaying token relay) .judge = some after := by
    rw [taskStep, setups]
    exact Option.map_eq_some_iff.2 ⟨verdict, judges, rfl⟩
  have ends := alone.trans (alone_step relaying stepped)
  cases token with
  | none =>
      exact ⟨after, ends, balancer.trans reported, selected,
        setPhase_tasks_self _ _ _⟩
  | some token =>
      let last := (after.reported (some (verdict.call token))
        outside.reportAt).setPhase number client .finished
      have reports : after.taskStep ctx setup number client
          (.judged token verdict) (.report outside.reportAt) = some last :=
        rfl
      refine ⟨last, ends.trans
        (alone_step (setPhase_tasks_self _ _ _) reports), ?_, selected,
        setPhase_tasks_self _ _ _⟩
      change middle.balancer.perform (verdict.call token) outside.reportAt =
        left
      rw [balancer]
      exact reported

/-- What follows a call that returned a stream. -/
theorem alone_connected
    {outside : ConnectionAnswers Addr Stream Error} {stream : Stream}
    {token : Option Token} {left : Balancer}
    (found : state.tasks number = some ⟨client, .connected stream token⟩)
    (follows : (if outside.proxied then
        outside.relayed setup state.balancer token
      else some state.balancer) = some left) :
    ∃ final, Alone ctx setup number state final ∧
      final.balancer = left ∧ final.selected = state.selected ∧
      final.tasks number = some ⟨client, .finished⟩ := by
  cases proxied : outside.proxied with
  | false =>
      rw [proxied, if_neg Bool.false_ne_true] at follows
      have refuses : state.taskStep ctx setup number client
          (.connected stream token) (.proxy false) =
            some (state.setPhase number client .finished) := rfl
      exact ⟨_, alone_step found refuses, Option.some.inj follows, rfl,
        setPhase_tasks_self _ _ _⟩
  | true =>
      rw [proxied, if_pos rfl] at follows
      let relaying := state.setPhase number client (.relaying token
        (TimedRelay.start (state.relaySetup setup)))
      have passes : state.taskStep ctx setup number client
          (.connected stream token) (.proxy true) = some relaying := rfl
      have here : relaying.tasks number = some ⟨client, .relaying token
          (TimedRelay.start (relaying.relaySetup setup))⟩ :=
        setPhase_tasks_self _ _ _
      rcases alone_relayed here follows with
        ⟨final, relays, reported, answers, ended⟩
      exact ⟨final, (alone_step found passes).trans relays, reported,
        answers, ended⟩

end Relay

end Endpoint

open Endpoint in
/-- All that `connect_and_relay` does when it runs alone with the balancer is
a run of the endpoint in which no other task takes a step: with the same
selections, the same balancer at the end, and every other task where it
was. -/
theorem endpoint_runs_connection
    (ctx : CallContext Addr) (setup : RelaySetup Error)
    {state : Endpoint Stream Error} {number : ℕ} {client : Client}
    (found : state.tasks number = some ⟨client, .accepted⟩)
    (outside : ConnectionAnswers Addr Stream Error) {fuel : ℕ}
    {left : Balancer}
    {attempted : List (Option Token)}
    (serves : outside.connectAndRelay { ctx with client := client } setup
      state.balancer fuel = some (left, attempted)) :
    ∃ (labels : List (TaskLabel Addr Stream Error))
        (final : Endpoint Stream Error),
      (machine ctx setup).run state (labels.map (.task number)) =
        some final ∧
      final.balancer = left ∧
      final.selected = state.selected ++ attempted ∧
      final.tasks =
        Function.update state.tasks number (some ⟨client, .finished⟩) := by
  rcases Option.bind_eq_some_iff.1 serves with ⟨returned, returns, rest⟩
  have call : ∃ middle, Alone ctx setup number state middle ∧ _ :=
    alone_call found returns
  rcases call with ⟨middle, called, balancer, selected, phased⟩
  cases result : returned.connected.result with
  | error error =>
      rw [result] at rest
      cases rest
      rw [TaskPhase.ofConnected, result] at phased
      have frame := called.tasks_eq_update phased
      rcases called with ⟨labels, ran⟩
      exact ⟨labels, middle, ran, balancer, selected, frame⟩
  | ok connected =>
      rcases connected with ⟨stream, token⟩
      rw [result] at rest
      rw [TaskPhase.ofConnected, result] at phased
      rcases Option.map_eq_some_iff.1 rest with ⟨_, follows, same⟩
      cases same
      rw [← balancer] at follows
      rcases alone_connected phased follows with
        ⟨final, relays, reported, answers, ended⟩
      have served := called.trans relays
      have frame := served.tasks_eq_update ended
      rcases served with ⟨labels, ran⟩
      exact ⟨labels, final, ran, reported, answers.trans selected, frame⟩

/-- The peer connects, and the relay is cut off at its deadline. -/
def cutOffAnswers : ConnectionAnswers ℕ Unit Unit where
  clock _ := 7
  network _ _ :=
    { popIdle := none
      connect := fun _ => .ok ()
      elapsedMs := 0
      localPeerAddr := .ok ()
      streamPeerAddr := .ok () }
  proxied := true
  relay := [.deadline 5000]
  reportAt := 8

/-- An endpoint with two peers and a client that was accepted. -/
def oneClient : Endpoint Unit Unit :=
  { (Endpoint.start
        (.roundRobin (RoundRobin.new .pair (some ⟨1, 30, some 5⟩)))).setPhase
      0 pairOfPeers.client .accepted with
    accepted := 1 }

open Endpoint in
/-- A peer that does not answer within the deadline is given to the client,
and a failure of it is reported. -/
theorem endpoint_runs_connection_cutOff :
    ∃ (left : Balancer) (labels : List (TaskLabel ℕ Unit Unit))
        (final : Endpoint Unit Unit),
      (machine pairOfPeers plainSetup).run oneClient
          (labels.map (.task 0)) = some final ∧
        final.balancer = left ∧
        final.selected = [some (Token.ofPosition 0)] ∧
        left.excludes ⟨1, 30, some 5⟩ 0 9 = true := by
  have serves : ∃ left,
      cutOffAnswers.connectAndRelay
          { pairOfPeers with client := pairOfPeers.client } plainSetup
          oneClient.balancer 1 =
        some (left, [some (Token.ofPosition 0)]) ∧
      left.excludes ⟨1, 30, some 5⟩ 0 9 = true :=
    ⟨_, rfl, rfl⟩
  rcases serves with ⟨left, serves, shut⟩
  have found : oneClient.tasks 0 = some ⟨pairOfPeers.client, .accepted⟩ :=
    rfl
  rcases endpoint_runs_connection pairOfPeers plainSetup found cutOffAnswers
      serves with ⟨labels, final, ran, balancer, selected, _⟩
  exact ⟨left, labels, final, ran, balancer, selected, shut⟩

end ByteHub.Core
