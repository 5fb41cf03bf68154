import ByteHub.Core.Endpoint
import ByteHub.Lb.Exclusion
import ByteHub.Lb.RoundRobinService

/-!
# The peers of a TCP endpoint

Whatever the tasks of an endpoint do and in whatever order, its balancer has
seen one sequence of calls.  So what holds of every run of a balancer holds of
the endpoint: without a health configuration the tasks together dial each
peer as often as its weight says, and a peer that answers in time and whose
relays end well is never excluded and is dialled again and again, however the
other peers behave.
-/

namespace ByteHub.Core

open ByteHub.Lb
open ByteHub.Library

variable {Addr Stream Error : Type}

namespace Endpoint

/-! ## The steps of a task -/

/-- What a task can do. -/
inductive TaskStep
    (ctx : CallContext Addr) (setup : RelaySetup Error)
    (state : Endpoint Stream Error) (number : ℕ) (client : Client) :
    TaskPhase Stream Error → TaskLabel Addr Stream Error →
      Endpoint Stream Error → Prop where
  | enter : TaskStep ctx setup state number client .accepted .enter
      (state.setPhase number client
        (.selecting (emptyLoop state.balancer)))
  | refuse : TaskStep ctx setup state number client .accepted .refuse
      (state.setPhase number client .finished)
  | select (now : UInt32) (loop : ConnectLoop Stream) :
      TaskStep ctx setup state number client (.selecting loop) (.select now)
        ((state.selecting client now).setPhase number client
          (.dialling ((state.lend loop).selectNext client now)))
  | dial (attempt : Attempt Addr Stream Error)
      (loop : ConnectLoop Stream) :
      TaskStep ctx setup state number client (.dialling loop)
        (.dial attempt)
        (state.setPhase number client
          (state.answered { ctx with client := client } loop attempt))
  | reportLate (now : UInt32) (loop : ConnectLoop Stream)
      (stream : Stream) (ms : ℕ) :
      TaskStep ctx setup state number client (.late loop stream ms)
        (.report now)
        ((state.reported (loop.token.map .onFailure) now).setPhase number
          client (state.goOn
            (((state.lend loop).reported now).remembered stream loop.token
              ms) .noPeersAvailable))
  | reportFailing (now : UInt32) (loop : ConnectLoop Stream)
      (error : Error) :
      TaskStep ctx setup state number client (.failing loop error)
        (.report now)
        ((state.reported (loop.token.map .onFailure) now).setPhase number
          client (state.goOn ((state.lend loop).reported now) (.io error)))
  | reportJudged (now : UInt32) (token : Token) (verdict : Verdict) :
      TaskStep ctx setup state number client (.judged token verdict)
        (.report now)
        ((state.reported (some (verdict.call token)) now).setPhase number
          client .finished)
  | proxy (passed : Bool) (stream : Stream) (token : Option Token) :
      TaskStep ctx setup state number client (.connected stream token)
        (.proxy passed)
        (state.setPhase number client
          (if passed then
            .relaying token (TimedRelay.start (state.relaySetup setup))
          else .finished))
  | relay (label : TimedLabel Error) (token : Option Token)
      (relay next : TimedRelay Error) :
      TaskStep ctx setup state number client (.relaying token relay)
        (.relay label)
        (state.setPhase number client (.relaying token next))
  | judge (token : Option Token) (relay : TimedRelay Error)
      (verdict : Verdict)
      (judged : relay.verdict (state.relaySetup setup) = some verdict) :
      TaskStep ctx setup state number client (.relaying token relay) .judge
        (state.setPhase number client (.ofVerdict token verdict))

section Steps

variable {ctx : CallContext Addr} {setup : RelaySetup Error}
variable {state next : Endpoint Stream Error} {number : ℕ}
variable {client : Client} {phase : TaskPhase Stream Error}

theorem taskStep_cases
    {label : TaskLabel Addr Stream Error}
    (stepped : state.taskStep ctx setup number client phase label =
      some next) :
    TaskStep ctx setup state number client phase label next := by
  cases label with
  | enter =>
      cases phase <;> cases stepped
      exact .enter
  | refuse =>
      cases phase <;> cases stepped
      exact .refuse
  | select now =>
      cases phase <;> cases stepped
      exact .select now _
  | dial attempt =>
      cases phase <;> cases stepped
      exact .dial attempt _
  | report now =>
      cases phase <;> cases stepped
      · exact .reportLate now _ _ _
      · exact .reportFailing now _ _
      · exact .reportJudged now _ _
  | proxy passed =>
      cases phase <;> cases stepped
      exact .proxy passed _ _
  | relay label =>
      cases phase with
      | relaying token relay =>
          rcases Option.map_eq_some_iff.1 stepped with ⟨other, _, rfl⟩
          exact .relay label token relay other
      | _ => cases stepped
  | judge =>
      cases phase with
      | relaying token relay =>
          rcases Option.map_eq_some_iff.1 stepped with
            ⟨verdict, judged, rfl⟩
          exact .judge token relay verdict judged
      | _ => cases stepped

/-- A step of the endpoint accepts a client, or is one of a task. -/
theorem step_cases
    {label : EndpointLabel Addr Stream Error}
    (stepped : (machine ctx setup).step state label = some next) :
    (∃ client, label = .accept client ∧
      next = { state.setPhase state.accepted client .accepted with
        accepted := state.accepted + 1 }) ∨
    ∃ number task own, label = .task number own ∧
      state.tasks number = some task ∧
      TaskStep ctx setup state number task.client task.phase own next := by
  cases label with
  | accept client =>
      cases stepped
      exact .inl ⟨client, rfl, rfl⟩
  | task number own =>
      rcases Option.bind_eq_some_iff.1 stepped with ⟨task, found, moved⟩
      exact .inr ⟨number, task, own, rfl, found, taskStep_cases moved⟩

end Steps

/-! ## The calls on the balancer -/

/-- A call as round robin takes it. -/
def plain (call : Balancer.Call × UInt32) : RoundRobin.Call × UInt32 :=
  match call.1 with
  | .next _ => (.next, call.2)
  | .onSuccess token => (.onSuccess token, call.2)
  | .onFailure token => (.onFailure token, call.2)

/-- The balancer and the answers are those of the calls made so far. -/
structure Logged
    (weights : Weights) (config : Option HealthCheckConfig)
    (state : Endpoint Stream Error) : Prop where
  balancer : state.balancer =
    .roundRobin ((RoundRobin.new weights config).performAll
      (state.calls.map plain))
  selected : state.selected =
    (RoundRobin.new weights config).answers (state.calls.map plain)

section Logged

variable {weights : Weights} {config : Option HealthCheckConfig}
variable {state next : Endpoint Stream Error}

theorem logged_start
    (weights : Weights) (config : Option HealthCheckConfig) :
    Logged weights config
      (start (.roundRobin (RoundRobin.new weights config)) :
        Endpoint Stream Error) where
  balancer := rfl
  selected := rfl

theorem Logged.setPhase
    (logged : Logged weights config state) (number : ℕ) (client : Client)
    (phase : TaskPhase Stream Error) :
    Logged weights config (state.setPhase number client phase) where
  balancer := logged.balancer
  selected := logged.selected

theorem perform_roundRobin
    (rr : RoundRobin) (call : Balancer.Call) (now : UInt32) :
    (Balancer.roundRobin rr).perform call now =
      .roundRobin (rr.perform (plain (call, now)).1 now) := by
  cases call <;> rfl

theorem plain_snd (call : Balancer.Call) (now : UInt32) :
    (plain (call, now)).2 = now := by
  cases call <;> rfl

/-- The balancer after one more call. -/
theorem Logged.perform
    (logged : Logged weights config state) (call : Balancer.Call)
    (now : UInt32) :
    state.balancer.perform call now =
      .roundRobin ((RoundRobin.new weights config).performAll
        ((state.calls ++ [(call, now)]).map plain)) := by
  rw [logged.balancer, perform_roundRobin, List.map_append,
    RoundRobin.performAll_append]
  change _ = Balancer.roundRobin
    (RoundRobin.perform _ (plain (call, now)).1 (plain (call, now)).2)
  rw [plain_snd]

theorem Logged.reported
    (logged : Logged weights config state) {call : Option Balancer.Call}
    (reports : ∀ client, call ≠ some (.next client)) (now : UInt32) :
    Logged weights config (state.reported call now) := by
  cases call with
  | none => exact logged
  | some call =>
      refine ⟨logged.perform call now, ?_⟩
      change state.selected = RoundRobin.answers _
        ((state.calls ++ [(call, now)]).map plain)
      rw [List.map_append, RoundRobin.answers_append, logged.selected]
      cases call with
      | next client => exact (reports client rfl).elim
      | onSuccess token => exact (List.append_nil _).symm
      | onFailure token => exact (List.append_nil _).symm

theorem Logged.selecting
    (logged : Logged weights config state) (client : Client)
    (now : UInt32) :
    Logged weights config (state.selecting client now) := by
  refine ⟨logged.perform (.next client) now, ?_⟩
  change state.selected ++ [(state.balancer.next client now).1] =
    RoundRobin.answers _
      ((state.calls ++ [(Balancer.Call.next client, now)]).map plain)
  rw [List.map_append, RoundRobin.answers_append, logged.selected,
    logged.balancer]
  rfl

theorem map_onFailure_ne
    (token : Option Token) (client : Client) :
    token.map Balancer.Call.onFailure ≠ some (.next client) := by
  cases token <;> nofun

theorem verdict_call_ne
    (verdict : Verdict) (token : Token) (client : Client) :
    some (verdict.call token) ≠ some (.next client) := by
  cases verdict <;> nofun

theorem logged_step
    {ctx : CallContext Addr} {setup : RelaySetup Error}
    {label : EndpointLabel Addr Stream Error}
    (logged : Logged weights config state)
    (stepped : (machine ctx setup).step state label = some next) :
    Logged weights config next := by
  rcases step_cases stepped with
    ⟨client, _, rfl⟩ | ⟨number, ⟨client, phase⟩, own, _, _, moved⟩
  · exact ⟨logged.balancer, logged.selected⟩
  · cases moved with
    | enter => exact logged.setPhase _ _ _
    | refuse => exact logged.setPhase _ _ _
    | select now loop => exact (logged.selecting _ now).setPhase _ _ _
    | dial attempt loop => exact logged.setPhase _ _ _
    | reportLate now loop stream ms =>
        exact (logged.reported (map_onFailure_ne _) now).setPhase _ _ _
    | reportFailing now loop error =>
        exact (logged.reported (map_onFailure_ne _) now).setPhase _ _ _
    | reportJudged now token verdict =>
        exact (logged.reported (verdict_call_ne _ _) now).setPhase _ _ _
    | proxy passed stream token => exact logged.setPhase _ _ _
    | relay label token relay next => exact logged.setPhase _ _ _
    | judge token relay verdict judged => exact logged.setPhase _ _ _

/-- A step calls the balancer once at most, and the call is logged. -/
theorem calls_of_step
    {ctx : CallContext Addr} {setup : RelaySetup Error}
    {label : EndpointLabel Addr Stream Error}
    (stepped : (machine ctx setup).step state label = some next) :
    (next.balancer = state.balancer ∧ next.calls = state.calls) ∨
      ∃ call now, label.reading = some now ∧
        next.balancer = state.balancer.perform call now ∧
          next.calls = state.calls ++ [(call, now)] := by
  have reports {number : ℕ} (call : Option Balancer.Call) (now : UInt32) :
      ((state.reported call now).balancer = state.balancer ∧
        (state.reported call now).calls = state.calls) ∨
      ∃ made read,
        (.task number (.report now) :
          EndpointLabel Addr Stream Error).reading = some read ∧
        (state.reported call now).balancer =
          state.balancer.perform made read ∧
        (state.reported call now).calls = state.calls ++ [(made, read)] := by
    cases call with
    | none => exact .inl ⟨rfl, rfl⟩
    | some call => exact .inr ⟨call, now, rfl, rfl, rfl⟩
  rcases step_cases stepped with
    ⟨client, _, rfl⟩ | ⟨number, ⟨client, phase⟩, own, rfl, _, moved⟩
  · exact .inl ⟨rfl, rfl⟩
  · cases moved with
    | select now loop => exact .inr ⟨.next client, now, rfl, rfl, rfl⟩
    | reportLate now loop stream ms => exact reports _ now
    | reportFailing now loop error => exact reports _ now
    | reportJudged now token verdict => exact reports _ now
    | _ => exact .inl ⟨rfl, rfl⟩

/-- The calls made so far stay where they are. -/
theorem calls_prefix_of_step
    {ctx : CallContext Addr} {setup : RelaySetup Error}
    {label : EndpointLabel Addr Stream Error}
    (stepped : (machine ctx setup).step state label = some next) :
    state.calls <+: next.calls := by
  rcases calls_of_step stepped with ⟨_, same⟩ | ⟨call, now, _, _, grown⟩
  · rw [same]
  · rw [grown]
    exact List.prefix_append _ _

end Logged

/-! ## A peer that behaves well -/

/-- The phase has a failure of the peer to report. -/
def blames (token : Token) : TaskPhase Stream Error → Prop
  | .late loop _ _ => loop.token = some token
  | .failing loop _ => loop.token = some token
  | .judged judged verdict => judged = token ∧ verdict = .onFailure
  | _ => False

/-- If the step dials the peer, it answers in time, and if the step ends a
relay with it, the verdict is a success. -/
def Behaves
    (ctx : CallContext Addr) (setup : RelaySetup Error) (token : Token)
    (state : Endpoint Stream Error)
    (label : EndpointLabel Addr Stream Error) : Prop :=
  ∀ number task, state.tasks number = some task →
    (∀ loop attempt, label = .task number (.dial attempt) →
      task.phase = .dialling loop → loop.token = some token →
        (∃ stream,
          loop.dial { ctx with client := task.client } attempt =
            .ok stream) ∧
        ¬ state.maxLatency.any fun max =>
          max.toNat < attempt.elapsedMs) ∧
    (∀ relay, label = .task number .judge →
      task.phase = .relaying (some token) relay →
        relay.verdict (state.relaySetup setup) ≠ some .onFailure)

section Behaves

variable {ctx : CallContext Addr} {setup : RelaySetup Error}
variable {token : Token} {state : Endpoint Stream Error}

/-- Steps that dial nobody and end no relay ask nothing of the peer. -/
theorem behaves_of_quiet
    {label : EndpointLabel Addr Stream Error}
    (dials : ∀ number attempt, label ≠ .task number (.dial attempt))
    (judges : ∀ number, label ≠ .task number .judge) :
    Behaves ctx setup token state label := by
  intro number task _
  constructor
  · intro loop attempt same
    exact absurd same (dials number attempt)
  · intro relay same
    exact absurd same (judges number)

/-- A dial of another peer asks nothing of this one. -/
theorem behaves_of_other
    {number : ℕ} {client : Client} {loop : ConnectLoop Stream}
    (found : state.tasks number = some ⟨client, .dialling loop⟩)
    (other : loop.token ≠ some token)
    (attempt : Attempt Addr Stream Error) :
    Behaves ctx setup token state (.task number (.dial attempt)) := by
  intro acting task there
  constructor
  · rintro dialled _ ⟨⟩ phased same
    rw [found, Option.some.injEq] at there
    subst there
    cases phased
    exact absurd same other
  · rintro relay ⟨⟩

end Behaves

/-- No failure of the peer has been reported, or is to be. -/
structure Clean (token : Token) (state : Endpoint Stream Error) : Prop where
  tasks : ∀ number task, state.tasks number = some task →
    ¬ blames token task.phase
  calls : ∀ call ∈ state.calls, call.1 ≠ .onFailure token

section Clean

variable {token : Token} {state next : Endpoint Stream Error}

theorem clean_start (token : Token) (balancer : Balancer) :
    Clean token (start balancer : Endpoint Stream Error) where
  tasks number task found := by cases found
  calls call member := by cases member

theorem Clean.setPhase
    (clean : Clean token state) (number : ℕ) (client : Client)
    {phase : TaskPhase Stream Error} (harmless : ¬ blames token phase) :
    Clean token (state.setPhase number client phase) where
  tasks other task found := by
    by_cases here : other = number
    · subst here
      change Function.update state.tasks other _ other = some task at found
      rw [Function.update_self] at found
      cases found
      exact harmless
    · change Function.update state.tasks number _ other = some task at found
      rw [Function.update_of_ne here] at found
      exact clean.tasks other task found
  calls := clean.calls

theorem Clean.selecting
    (clean : Clean token state) (client : Client) (now : UInt32) :
    Clean token (state.selecting client now) where
  tasks := clean.tasks
  calls call member := by
    rcases List.mem_append.1 member with earlier | last
    · exact clean.calls call earlier
    · rw [List.mem_singleton.1 last]
      nofun

theorem Clean.reported
    (clean : Clean token state) {call : Option Balancer.Call}
    (harmless : call ≠ some (.onFailure token)) (now : UInt32) :
    Clean token (state.reported call now) where
  tasks := by
    rw [reported_tasks]
    exact clean.tasks
  calls other member := by
    cases call with
    | none => exact clean.calls other member
    | some call =>
        rcases List.mem_append.1 member with earlier | last
        · exact clean.calls other earlier
        · rw [List.mem_singleton.1 last]
          rintro rfl
          exact harmless rfl

theorem not_blames_goOn
    (loop : ConnectLoop Stream) (error : ConnectError Error) :
    ¬ blames token (state.goOn loop error) := by
  rw [goOn, TaskPhase.ofConnected]
  split
  · split <;> exact not_false
  · exact not_false

/-- A report on another peer leaves the books of this one clean. -/
theorem Clean.reportedOther
    (clean : Clean token state) {loop : ConnectLoop Stream}
    (other : loop.token ≠ some token) (now : UInt32) :
    Clean token
      (state.reported (loop.token.map .onFailure) now) := by
  apply clean.reported
  cases named : loop.token with
  | none => nofun
  | some selected =>
      intro same
      cases same
      exact other named

theorem clean_step
    {ctx : CallContext Addr} {setup : RelaySetup Error}
    {label : EndpointLabel Addr Stream Error}
    (clean : Clean token state)
    (behaves : Behaves ctx setup token state label)
    (stepped : (machine ctx setup).step state label = some next) :
    Clean token next := by
  rcases step_cases stepped with
    ⟨client, _, rfl⟩ | ⟨number, ⟨client, phase⟩, own, same, found, moved⟩
  · have fresh :
        Clean token (state.setPhase state.accepted client .accepted) :=
      clean.setPhase _ _ not_false
    exact ⟨fresh.tasks, fresh.calls⟩
  · have harmless := clean.tasks number _ found
    rcases behaves number _ found with ⟨inTime, endsWell⟩
    cases moved with
    | enter => exact clean.setPhase _ _ not_false
    | refuse => exact clean.setPhase _ _ not_false
    | select now loop =>
        exact (clean.selecting client now).setPhase _ _ not_false
    | dial attempt loop =>
        apply clean.setPhase
        intro blamed
        rw [answered] at blamed
        split at blamed
        · next stream dialled =>
          split at blamed
          · next slow =>
            exact (inTime loop attempt same rfl blamed).2 slow
          · split at blamed <;> exact blamed
        · next error dialled =>
          rcases (inTime loop attempt same rfl blamed).1 with
            ⟨stream, connected⟩
          rw [connected] at dialled
          cases dialled
    | reportLate now loop stream ms =>
        exact (clean.reportedOther harmless now).setPhase _ _
          (not_blames_goOn _ _)
    | reportFailing now loop error =>
        exact (clean.reportedOther harmless now).setPhase _ _
          (not_blames_goOn _ _)
    | reportJudged now judged verdict =>
        have spared : some (verdict.call judged) ≠
            some (.onFailure token) := by
          cases verdict with
          | onSuccess =>
              intro equal
              cases equal
          | onFailure =>
              intro equal
              cases equal
              exact harmless ⟨rfl, rfl⟩
        exact (clean.reported spared now).setPhase _ _ not_false
    | proxy passed stream selected =>
        apply clean.setPhase
        split <;> exact not_false
    | relay label selected relay next =>
        exact clean.setPhase _ _ not_false
    | judge selected relay verdict judged =>
        apply clean.setPhase
        cases selected with
        | none => exact not_false
        | some selected =>
            rintro ⟨rfl, rfl⟩
            exact endsWell relay same rfl judged

end Clean

/-! ## Runs of the endpoint -/

section Runs

variable {ctx : CallContext Addr} {setup : RelaySetup Error}
variable {weights : Weights} {config : Option HealthCheckConfig}
variable {earlier later : List (EndpointLabel Addr Stream Error)}
variable {middle final : Endpoint Stream Error} {position : ℕ}

theorem calls_prefix_of_run
    (ran : (machine ctx setup).run middle later = some final) :
    middle.calls <+: final.calls :=
  Machine.run_invariant (fun state => middle.calls <+: state.calls)
    (fun reached stepped => reached.trans (calls_prefix_of_step stepped))
    (List.prefix_refl _) ran

theorem logged_of_run
    (ran : (machine ctx setup).run
      (start (.roundRobin (RoundRobin.new weights config))) earlier =
        some middle) :
    Logged weights config middle :=
  Machine.run_invariant (Logged weights config) logged_step
    (logged_start weights config) ran

/-- The answers of a part of a run are those of the calls made in it. -/
theorem Logged.answers_of_grown
    (first : Logged weights config middle)
    (second : Logged weights config final)
    {more : List (Balancer.Call × UInt32)}
    (grown : middle.calls ++ more = final.calls)
    {answers : List (Option Token)}
    (split : final.selected = middle.selected ++ answers) :
    answers =
      ((RoundRobin.new weights config).performAll
        (middle.calls.map plain)).answers (more.map plain) := by
  rw [second.selected, ← grown, List.map_append,
    RoundRobin.answers_append, first.selected] at split
  exact (List.append_cancel_left split).symm

theorem unblamed_plain
    {calls : List (Balancer.Call × UInt32)}
    (none : ∀ call ∈ calls,
      call.1 ≠ .onFailure (Token.ofPosition position)) :
    RoundRobin.Unblamed position (calls.map plain) := by
  intro call member
  rcases List.mem_map.1 member with ⟨⟨whole, now⟩, there, rfl⟩
  have harmless := none _ there
  cases whole with
  | next client => nofun
  | onSuccess token => nofun
  | onFailure token =>
      intro same
      cases same
      exact harmless rfl

end Runs

end Endpoint

open Endpoint in
/-- A peer that answers in time whenever it is dialled, and whose relays all
end with a success, is served, whatever the other peers do and in whatever
order the tasks run: it is never excluded, and of any selections in a row
that are more than twice the largest weight times the number of the other
peers, one selects it. -/
theorem endpoint_serves_peer
    (ctx : CallContext Addr) (setup : RelaySetup Error)
    (weights : Weights) (two : 2 ≤ weights.count)
    (fits : RoundRobin.FitsI16 weights)
    (config : Option HealthCheckConfig) {position : ℕ}
    (inside : position < weights.count)
    (positive : 1 ≤ weights.at position)
    {earlier later : List (EndpointLabel Addr Stream Error)}
    {middle final : Endpoint Stream Error}
    (before : (machine ctx setup).run
      (start (.roundRobin (RoundRobin.new weights config))) earlier =
        some middle)
    (after : (machine ctx setup).run middle later = some final)
    (behaves : (machine ctx setup).EachStep
      (Behaves ctx setup (Token.ofPosition position))
      (start (.roundRobin (RoundRobin.new weights config)))
      (earlier ++ later)) :
    (∀ cfg, config = some cfg → ∀ now,
      final.balancer.excludes cfg position now = false) ∧
    ∀ answers, final.selected = middle.selected ++ answers →
      2 * weights.cap * (weights.count - 1) < answers.length →
        some (Token.ofPosition position) ∈ answers := by
  have whole := Machine.run_append_eq_some _ |>.2 ⟨middle, before, after⟩
  have first := logged_of_run before
  have second := logged_of_run whole
  have clean : Clean (Token.ofPosition position) final :=
    Machine.run_invariant_of_allowed _ _ clean_step
      (clean_start _ _) behaves whole
  rcases calls_prefix_of_run after with ⟨more, grown⟩
  have shape := RoundRobin.shape_new weights config two
  have fresh := RoundRobin.spotless_new weights config position
  constructor
  · intro cfg checked now
    have spotless := fresh.performAll shape two inside
      (unblamed_plain clean.calls)
    rcases (shape.performAll two (final.calls.map plain)).exists_node
      inside with ⟨p, here⟩
    rcases spotless p here with ⟨_, open_⟩
    rw [Balancer.excludes, second.balancer, Balancer.counters, here,
      Bool.eq_false_iff, Ne, excluded_iff]
    rintro ⟨_, early⟩
    change now < p.checked at early
    rw [open_] at early
    exact Nat.not_lt_zero _ early
  · intro answers split long
    have quiet : ∀ call ∈ more,
        call.1 ≠ .onFailure (Token.ofPosition position) := by
      intro call member
      apply clean.calls call
      rw [← grown]
      exact List.mem_append_right _ member
    have quietBefore : ∀ call ∈ middle.calls,
        call.1 ≠ .onFailure (Token.ofPosition position) := by
      intro call member
      apply clean.calls call
      rw [← grown]
      exact List.mem_append_left _ member
    have known := first.answers_of_grown second grown split
    rw [known] at long ⊢
    exact RoundRobin.mem_answers_of_unblamed
      (shape.performAll two _)
      ((RoundRobin.balanced_new weights config two).performAll shape two
        fits _) two fits
      ((RoundRobin.keeps_earnsWeight config).performAll shape two
        (RoundRobin.earnsWeight_new weights config) _)
      inside positive
      (fresh.performAll shape two inside (unblamed_plain quietBefore))
      (unblamed_plain quiet) long

/-- Two peers, without a pool. -/
def pairOfPeers : CallContext ℕ where
  raddr := 0
  extraRaddrs := [1]
  pool := false
  client := ⟨.v4 fun _ => 0, 0⟩
  logsInfo := false

/-- Relays through a memory of one byte. -/
def plainSetup : RelaySetup Unit where
  mode := 0
  brutal := false
  linux := false
  maxLatencyMs := none
  transport := false
  bufSize := 1
  pipeSize := 1
  pipeSize_pos := by decide
  pipeError := none
  isInvalidInput _ := false

/-- Three clients are accepted, and a peer is selected for each of them. -/
def threeSelections : List (EndpointLabel ℕ Unit Unit) :=
  [.accept pairOfPeers.client, .accept pairOfPeers.client,
    .accept pairOfPeers.client, .task 2 .enter, .task 0 .enter,
    .task 0 (.select 7), .task 1 .enter, .task 2 (.select 7),
    .task 1 (.select 8)]

open Endpoint in
/-- No peer is dialled in these steps. -/
theorem behaves_threeSelections (balancer : Balancer) (token : Token) :
    (machine pairOfPeers plainSetup).EachStep
      (Behaves pairOfPeers plainSetup token)
      (start balancer : Endpoint Unit Unit) threeSelections := by
  intro before label after state split _
  have member : label ∈ threeSelections := by
    rw [split]
    exact List.mem_append_right _ List.mem_cons_self
  apply behaves_of_quiet
  · rintro number attempt rfl
    simp [threeSelections] at member
  · rintro number rfl
    simp [threeSelections] at member

open Endpoint in
/-- One of three selections between two peers is the second peer. -/
theorem endpoint_serves_peer_three :
    ∃ final : Endpoint Unit Unit,
      (machine pairOfPeers plainSetup).run
          (start (.roundRobin (RoundRobin.new .pair (some ⟨1, 30, none⟩))))
          threeSelections = some final ∧
        some (Token.ofPosition 1) ∈ final.selected := by
  have ran : ∃ final : Endpoint Unit Unit,
      (machine pairOfPeers plainSetup).run
          (start (.roundRobin (RoundRobin.new .pair (some ⟨1, 30, none⟩))))
          threeSelections = some final ∧ final.selected.length = 3 :=
    ⟨_, rfl, rfl⟩
  rcases ran with ⟨final, ran, three⟩
  have served := (endpoint_serves_peer pairOfPeers plainSetup .pair
    (by decide) (by decide) (some ⟨1, 30, none⟩)
    (show 1 < Weights.pair.count by decide) (by decide)
    (Machine.run_nil _ _) ran (behaves_threeSelections _ _)).2
    final.selected rfl (by rw [three]; decide)
  exact ⟨final, ran, served⟩

open Endpoint in
/-- Without a health configuration the tasks together share the peers
exactly: of any selections in a row that are as many as the weights sum up
to, each peer has as many as its weight, whatever the tasks report and in
whatever order they run. -/
theorem endpoint_exactly_fair
    (ctx : CallContext Addr) (setup : RelaySetup Error)
    (weights : Weights) (two : 2 ≤ weights.count)
    (positive : 0 < weights.sum)
    (small : weights.count * weights.sum ≤ 32767)
    {earlier later : List (EndpointLabel Addr Stream Error)}
    {middle final : Endpoint Stream Error}
    (before : (machine ctx setup).run
      (start (.roundRobin (RoundRobin.new weights none))) earlier =
        some middle)
    (after : (machine ctx setup).run middle later = some final)
    {answers : List (Option Token)}
    (split : final.selected = middle.selected ++ answers)
    (round : answers.length = weights.sum)
    {position : ℕ} (inside : position < weights.count) :
    answers.count (some (Token.ofPosition position)) =
      weights.at position := by
  have whole := Machine.run_append_eq_some _ |>.2 ⟨middle, before, after⟩
  rcases calls_prefix_of_run after with ⟨more, grown⟩
  have known := (logged_of_run before).answers_of_grown
    (logged_of_run whole) grown split
  rw [known] at round ⊢
  exact RoundRobin.count_answers two positive small _ _ round inside

open Endpoint in
/-- Of the two selections after the first one, one is the second peer. -/
theorem endpoint_exactly_fair_two :
    ∃ middle final : Endpoint Unit Unit,
      (machine pairOfPeers plainSetup).run
          (start (.roundRobin (RoundRobin.new .pair none)))
          (threeSelections.take 6) = some middle ∧
        (machine pairOfPeers plainSetup).run middle
          (threeSelections.drop 6) = some final ∧
        (final.selected.drop 1).count (some (Token.ofPosition 1)) = 1 := by
  have ran : ∃ middle final : Endpoint Unit Unit,
      (machine pairOfPeers plainSetup).run
          (start (.roundRobin (RoundRobin.new .pair none)))
          (threeSelections.take 6) = some middle ∧
        (machine pairOfPeers plainSetup).run middle
          (threeSelections.drop 6) = some final ∧
        final.selected = middle.selected ++ final.selected.drop 1 ∧
        (final.selected.drop 1).length = 2 :=
    ⟨_, _, rfl, rfl, rfl, rfl⟩
  rcases ran with ⟨middle, final, before, after, split, two⟩
  have share := endpoint_exactly_fair pairOfPeers plainSetup .pair
    (by decide) (by decide) (by decide) before after split two
    (show 1 < Weights.pair.count by decide)
  exact ⟨middle, final, before, after, share⟩

end ByteHub.Core
