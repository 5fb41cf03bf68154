import ByteHub.Core.EndpointService
import ByteHub.Core.FailoverRoundRobin

/-!
# How long a TCP connection searches

Connections search for a peer side by side, and each of them turns the
balancer for all.  While a connection has not come to a peer that behaves
well it does not give up, and it is refused at most so often for each time
that this peer went to another connection.
-/

namespace ByteHub.Core

open ByteHub.Lb
open ByteHub.Library

variable {Addr Stream Error : Type}

namespace Endpoint

/-- The task has still to come to the peer. -/
def awaits (token : Token) : TaskPhase Stream Error → Prop
  | .accepted => True
  | .selecting _ => True
  | .dialling loop => loop.token ≠ some token
  | .late _ _ _ => True
  | .failing _ _ => True
  | _ => False

/-- The step is a selection of the task. -/
def selects (number : ℕ) : EndpointLabel Addr Stream Error → Bool
  | .task other (.select _) => other == number
  | _ => false

theorem selects_of_ne
    {acting number : ℕ} (apart : acting ≠ number)
    (label : TaskLabel Addr Stream Error) :
    selects number (.task acting label) = false := by
  cases label with
  | select now => exact beq_eq_false_iff_ne.2 apart
  | _ => rfl

/-- The numbers that are still to be given are those of no task. -/
def Fresh (state : Endpoint Stream Error) : Prop :=
  ∀ number, state.accepted ≤ number → state.tasks number = none

/-! ## What a step leaves alone -/

section Frame

variable {ctx : CallContext Addr} {setup : RelaySetup Error}
variable {state next : Endpoint Stream Error} {number other : ℕ}
variable {client : Client} {phase : TaskPhase Stream Error}
variable {label : TaskLabel Addr Stream Error}

theorem setPhase_tasks_of_ne
    (apart : other ≠ number) :
    (state.setPhase number client phase).tasks other =
      state.tasks other :=
  Function.update_of_ne apart _ _

theorem reported_accepted (call : Option Balancer.Call) (now : UInt32) :
    (state.reported call now).accepted = state.accepted := by
  cases call <;> rfl

/-- A step of a task is no step of another one. -/
theorem TaskStep.tasks_of_ne
    (moved : TaskStep ctx setup state number client phase label next)
    (apart : other ≠ number) :
    next.tasks other = state.tasks other := by
  cases moved with
  | reportLate now loop stream ms =>
      rw [setPhase_tasks_of_ne apart, reported_tasks]
  | reportFailing now loop error =>
      rw [setPhase_tasks_of_ne apart, reported_tasks]
  | reportJudged now token verdict =>
      rw [setPhase_tasks_of_ne apart, reported_tasks]
  | _ => exact setPhase_tasks_of_ne apart

theorem TaskStep.tasks_self
    (moved : TaskStep ctx setup state number client phase label next) :
    ∃ after, next.tasks number = some ⟨client, after⟩ := by
  cases moved <;> exact ⟨_, setPhase_tasks_self _ _ _⟩

theorem TaskStep.accepted_eq
    (moved : TaskStep ctx setup state number client phase label next) :
    next.accepted = state.accepted := by
  cases moved with
  | reportLate now loop stream ms => exact reported_accepted _ now
  | reportFailing now loop error => exact reported_accepted _ now
  | reportJudged now token verdict => exact reported_accepted _ now
  | _ => rfl

/-- Only a selection selects, and its answer is dialled. -/
theorem TaskStep.selected_cases
    (moved : TaskStep ctx setup state number client phase label next) :
    (∃ now loop, label = .select now ∧
      loop.token = (state.balancer.next client now).1 ∧
      next.tasks number = some ⟨client, .dialling loop⟩ ∧
      next.calls = state.calls ++ [(.next client, now)] ∧
      next.selected = state.selected ++ [loop.token]) ∨
    ((∀ now, label ≠ .select now) ∧ next.selected = state.selected) := by
  cases moved with
  | select now loop =>
      exact .inl ⟨now, _, rfl, rfl, setPhase_tasks_self _ _ _, rfl, rfl⟩
  | reportLate now loop stream ms =>
      refine .inr ⟨by rintro now ⟨⟩, ?_⟩
      rw [setPhase_selected, reported_selected]
  | reportFailing now loop error =>
      refine .inr ⟨by rintro now ⟨⟩, ?_⟩
      rw [setPhase_selected, reported_selected]
  | reportJudged now token verdict =>
      refine .inr ⟨by rintro now ⟨⟩, ?_⟩
      rw [setPhase_selected, reported_selected]
  | _ => exact .inr ⟨by rintro now ⟨⟩, rfl⟩

theorem fresh_step
    {label : EndpointLabel Addr Stream Error} (fresh : Fresh state)
    (stepped : (machine ctx setup).step state label = some next) :
    Fresh next := by
  intro other beyond
  rcases step_cases stepped with
    ⟨client, _, rfl⟩ | ⟨acting, task, own, _, found, moved⟩
  · change state.accepted + 1 ≤ other at beyond
    change (state.setPhase _ client .accepted).tasks other = none
    rw [setPhase_tasks_of_ne (by omega)]
    exact fresh other (by omega)
  · rw [moved.accepted_eq] at beyond
    have empty := fresh other beyond
    rw [moved.tasks_of_ne _, empty]
    rintro rfl
    rw [empty] at found
    cases found

/-- What holds of a task that was accepted, and what a task keeps in its own
steps, holds of all tasks after a step. -/
theorem forall_tasks_of_step
    (property : EndpointTask Stream Error → Prop)
    {label : EndpointLabel Addr Stream Error}
    (before : ∀ number task, state.tasks number = some task → property task)
    (stepped : (machine ctx setup).step state label = some next)
    (accepted : ∀ client, property ⟨client, .accepted⟩)
    (kept : ∀ {number client phase own after}, label = .task number own →
      state.tasks number = some ⟨client, phase⟩ →
        TaskStep ctx setup state number client phase own next →
          next.tasks number = some ⟨client, after⟩ →
            property ⟨client, phase⟩ → property ⟨client, after⟩) :
    ∀ number task, next.tasks number = some task → property task := by
  intro number task found
  rcases step_cases stepped with
    ⟨client, _, rfl⟩ | ⟨acting, ⟨client, phase⟩, own, rfl, there, moved⟩
  · by_cases here : number = state.accepted
    · subst here
      cases (setPhase_tasks_self _ _ _).symm.trans found
      exact accepted client
    · exact before number task ((setPhase_tasks_of_ne here).symm.trans found)
  · by_cases here : number = acting
    · subst here
      rcases moved.tasks_self with ⟨after, reached⟩
      cases reached.symm.trans found
      exact kept rfl there moved reached (before number _ there)
    · exact before number task ((moved.tasks_of_ne here).symm.trans found)

end Frame

/-! ## The selections of a task -/

/-- While a task has not come to the peer, each of its selections was
answered with another one. -/
structure Waiting
    (token : Token) (number : ℕ) (state : Endpoint Stream Error)
    (past : List (EndpointLabel Addr Stream Error)) : Prop where
  clean : Clean token state
  fresh : Fresh state
  share :
    (∀ task, state.tasks number = some task → awaits token task.phase) →
      past.countP (selects number) + state.selected.count (some token) ≤
        state.selected.length

section Waiting

variable {ctx : CallContext Addr} {setup : RelaySetup Error}
variable {token : Token} {number : ℕ}
variable {state next : Endpoint Stream Error}
variable {past : List (EndpointLabel Addr Stream Error)}

theorem waiting_start
    (token : Token) (number : ℕ) (balancer : Balancer) :
    Waiting token number (start balancer : Endpoint Stream Error)
      ([] : List (EndpointLabel Addr Stream Error)) where
  clean := clean_start token balancer
  fresh _ _ := rfl
  share _ := Nat.le_refl 0

/-- A task that comes to the peer does not search on. -/
theorem awaits_of_step
    {client : Client} {phase : TaskPhase Stream Error}
    {label : TaskLabel Addr Stream Error}
    (found : state.tasks number = some ⟨client, phase⟩)
    (behaves : Behaves ctx setup token state (.task number label))
    (moved : TaskStep ctx setup state number client phase label next)
    (later : ∀ task, next.tasks number = some task →
      awaits token task.phase) :
    awaits token phase := by
  cases moved with
  | enter => exact trivial
  | refuse => exact trivial
  | select now loop => exact trivial
  | dial attempt loop =>
      intro same
      rcases (behaves number _ found).1 loop attempt rfl rfl same with
        ⟨⟨stream, dialled⟩, inTime⟩
      have awaited := later _ (setPhase_tasks_self _ _ _)
      rw [answered, dialled] at awaited
      dsimp only at awaited
      rw [if_neg inTime] at awaited
      split at awaited <;> exact awaited
  | reportLate now loop stream ms => exact trivial
  | reportFailing now loop error => exact trivial
  | reportJudged now judged verdict =>
      exact later _ (setPhase_tasks_self _ _ _)
  | proxy passed stream selected =>
      have awaited := later _ (setPhase_tasks_self _ _ _)
      split at awaited <;> exact awaited
  | relay label selected relay after =>
      exact later _ (setPhase_tasks_self _ _ _)
  | judge selected relay verdict judged =>
      have awaited := later _ (setPhase_tasks_self _ _ _)
      cases selected <;> exact awaited

theorem waiting_step
    {label : EndpointLabel Addr Stream Error}
    (waiting : Waiting token number state past)
    (behaves : Behaves ctx setup token state label)
    (stepped : (machine ctx setup).step state label = some next) :
    Waiting token number next (past ++ [label]) := by
  refine ⟨clean_step waiting.clean behaves stepped,
    fresh_step waiting.fresh stepped, ?_⟩
  intro later
  rw [List.countP_append, List.countP_singleton]
  rcases step_cases stepped with
    ⟨client, rfl, rfl⟩ | ⟨acting, ⟨client, phase⟩, own, rfl, found, moved⟩
  · refine waiting.share ?_
    intro task found
    have apart : number ≠ state.accepted := by
      rintro rfl
      rw [waiting.fresh _ (Nat.le_refl _)] at found
      cases found
    apply later
    exact (setPhase_tasks_of_ne apart).trans found
  · have earlier : ∀ task, state.tasks number = some task →
        awaits token task.phase := by
      intro task there
      by_cases here : number = acting
      · subst here
        rw [found] at there
        cases there
        exact awaits_of_step found behaves moved later
      · exact later task ((moved.tasks_of_ne here).trans there)
    have before := waiting.share earlier
    rcases moved.selected_cases with
      ⟨now, loop, rfl, _, dialling, _, grown⟩ | ⟨other, same⟩
    · rw [grown, List.length_append, List.length_singleton,
        List.count_append]
      by_cases here : acting = number
      · subst here
        have another : loop.token ≠ some token := later _ dialling
        have none : [loop.token].count (some token) = 0 := by
          rw [List.count_eq_zero, List.mem_singleton]
          exact another.symm
        rw [none]
        split <;> omega
      · have most : [loop.token].count (some token) ≤ 1 :=
          List.count_le_length
        rw [selects_of_ne here, if_neg Bool.false_ne_true]
        omega
    · have quiet : selects number
          (.task acting own : EndpointLabel Addr Stream Error) =
            false := by
        cases own with
        | select now => exact absurd rfl (other now)
        | _ => rfl
      rw [same, quiet]
      exact before

end Waiting

/-! ## The peers a task has tried -/

/-- The loop a task is in. -/
def loopOf : TaskPhase Stream Error → Option (ConnectLoop Stream)
  | .selecting loop => some loop
  | .dialling loop => some loop
  | .late loop _ _ => some loop
  | .failing loop _ => some loop
  | _ => none

/-- The loop has tried none but other peers, and none but a peer is selected
in it. -/
structure Spares
    (count : ℕ) (token : Token) (loop : ConnectLoop Stream) : Prop where
  tried : loop.tried ⊆ (peerIndices count).erase token.index
  selected : ∀ selected, loop.token = some selected →
    selected.index ∈ peerIndices count

section Spares

variable {count : ℕ} {token : Token} {loop : ConnectLoop Stream}

theorem Spares.lend
    (spares : Spares count token loop) (state : Endpoint Stream Error) :
    Spares count token (state.lend loop) :=
  ⟨spares.tried, spares.selected⟩

theorem Spares.reported
    (spares : Spares count token loop) (other : loop.token ≠ some token)
    (now : UInt32) : Spares count token (loop.reported now) := by
  unfold ConnectLoop.reported
  cases named : loop.token with
  | none => exact spares
  | some selected =>
      have peer := spares.selected selected named
      constructor
      · apply Finset.insert_subset _ spares.tried
        refine Finset.mem_erase.2 ⟨?_, peer⟩
        intro same
        exact other (named.trans (congrArg (some ∘ Token.mk) same))
      · rintro _ ⟨⟩
        exact peer

theorem Spares.remembered
    (spares : Spares count token loop) (stream : Stream)
    (slow : Option Token) (ms : ℕ) :
    Spares count token (loop.remembered stream slow ms) := by
  unfold ConnectLoop.remembered
  split
  · exact ⟨spares.tried, spares.selected⟩
  · exact spares

/-- A loop that has not tried the peer goes on. -/
theorem Spares.exhausted
    {position : ℕ}
    (spares : Spares count (Token.ofPosition position) loop)
    (inside : position < count) (small : count ≤ 255) :
    loop.exhausted (UInt8.ofNat count) = false := by
  have member : (Token.ofPosition position).index ∈ peerIndices count :=
    Finset.mem_image.2 ⟨position, Finset.mem_range.2 inside, rfl⟩
  have fewer := Finset.card_le_card spares.tried
  rw [Finset.card_erase_of_mem member, card_peerIndices small] at fewer
  have total : (UInt8.ofNat count).toNat = count :=
    UInt8.toNat_ofNat_of_lt' (by change count < 256; omega)
  have card : (UInt8.ofNat loop.tried.card).toNat = loop.tried.card :=
    UInt8.toNat_ofNat_of_lt' (by change loop.tried.card < 256; omega)
  have nonzero : UInt8.ofNat count ≠ 0 := by
    intro zero
    rw [zero] at total
    change 0 = count at total
    omega
  have more : ¬ UInt8.ofNat count ≤ UInt8.ofNat loop.tried.card := by
    rw [UInt8.le_iff_toNat_le, total, card]
    omega
  rw [ConnectLoop.exhausted, decide_eq_false nonzero, Bool.false_or,
    decide_eq_false more]

end Spares

/-- No task has tried the peer in its loop. -/
structure Untried
    (weights : Weights) (config : Option HealthCheckConfig) (token : Token)
    (state : Endpoint Stream Error) : Prop where
  clean : Clean token state
  logged : Logged weights config state
  loops : ∀ number task, state.tasks number = some task → ∀ loop,
    loopOf task.phase = some loop → Spares weights.count token loop

section Untried

variable {ctx : CallContext Addr} {setup : RelaySetup Error}
variable {weights : Weights} {config : Option HealthCheckConfig}
variable {token : Token} {state next : Endpoint Stream Error}

theorem untried_start
    (weights : Weights) (config : Option HealthCheckConfig)
    (token : Token) :
    Untried weights config token
      (start (.roundRobin (RoundRobin.new weights config)) :
        Endpoint Stream Error) where
  clean := clean_start token _
  logged := logged_start weights config
  loops number task found := by cases found

/-- The answer to a selection is a peer. -/
theorem Logged.next_mem
    (logged : Logged weights config state) (two : 2 ≤ weights.count)
    (client : Client) (now : UInt32) {selected : Token}
    (chosen : (state.balancer.next client now).1 = some selected) :
    selected.index ∈ peerIndices weights.count := by
  rw [logged.balancer] at chosen
  rcases RoundRobin.next_token
      ((RoundRobin.shape_new weights config two).performAll two
        (state.calls.map plain)) two now with
    ⟨position, inside, named⟩
  rw [Balancer.next, named, Option.some.injEq] at chosen
  exact Finset.mem_image.2
    ⟨position, Finset.mem_range.2 inside, congrArg Token.index chosen⟩

/-- A loop that goes on is the one that was reported in. -/
theorem loopOf_goOn
    {loop after : ConnectLoop Stream} {error : ConnectError Error}
    (goes : loopOf (state.goOn loop error) = some after) :
    after = loop := by
  unfold goOn TaskPhase.ofConnected at goes
  split at goes
  · split at goes <;> cases goes
  · cases goes
    rfl

/-- The answer to a dial leaves the loop as it is. -/
theorem loopOf_answered
    {loop after : ConnectLoop Stream}
    {attempt : Attempt Addr Stream Error}
    (goes : loopOf (state.answered ctx loop attempt) = some after) :
    after = loop := by
  unfold answered at goes
  split at goes
  · split at goes
    · cases goes
      rfl
    · split at goes <;> cases goes
  · cases goes
    rfl

/-- The loop of a task that has stepped. -/
theorem TaskStep.spares
    {number : ℕ} {client : Client} {phase : TaskPhase Stream Error}
    {label : TaskLabel Addr Stream Error}
    (untried : Untried weights config token state)
    (two : 2 ≤ weights.count)
    (found : state.tasks number = some ⟨client, phase⟩)
    (moved : TaskStep ctx setup state number client phase label next)
    {after : TaskPhase Stream Error} {loop : ConnectLoop Stream}
    (there : next.tasks number = some ⟨client, after⟩)
    (goes : loopOf after = some loop) :
    Spares weights.count token loop := by
  have known (loop : ConnectLoop Stream)
      (here : loopOf phase = some loop) :
      Spares weights.count token loop :=
    untried.loops number _ found loop here
  have harmless := untried.clean.tasks number _ found
  cases moved with
  | enter =>
      cases there.symm.trans (setPhase_tasks_self _ _ _)
      cases goes
      exact ⟨Finset.empty_subset _, by rintro selected ⟨⟩⟩
  | refuse =>
      cases there.symm.trans (setPhase_tasks_self _ _ _)
      cases goes
  | select now earlier =>
      cases there.symm.trans (setPhase_tasks_self _ _ _)
      cases goes
      have before := known earlier rfl
      exact ⟨before.tried, fun selected chosen =>
        untried.logged.next_mem two client now chosen⟩
  | dial attempt earlier =>
      cases there.symm.trans (setPhase_tasks_self _ _ _)
      rw [loopOf_answered goes]
      exact known earlier rfl
  | reportLate now earlier stream ms =>
      cases there.symm.trans (setPhase_tasks_self _ _ _)
      rw [loopOf_goOn goes]
      exact (((known earlier rfl).lend state).reported harmless
        now).remembered stream _ ms
  | reportFailing now earlier error =>
      cases there.symm.trans (setPhase_tasks_self _ _ _)
      rw [loopOf_goOn goes]
      exact ((known earlier rfl).lend state).reported harmless now
  | reportJudged now judged verdict =>
      cases there.symm.trans (setPhase_tasks_self _ _ _)
      cases goes
  | proxy passed stream selected =>
      cases there.symm.trans (setPhase_tasks_self _ _ _)
      split at goes <;> cases goes
  | relay label selected relay later =>
      cases there.symm.trans (setPhase_tasks_self _ _ _)
      cases goes
  | judge selected relay verdict judged =>
      cases there.symm.trans (setPhase_tasks_self _ _ _)
      cases selected <;> cases goes

theorem untried_step
    {label : EndpointLabel Addr Stream Error}
    (two : 2 ≤ weights.count)
    (untried : Untried weights config token state)
    (behaves : Behaves ctx setup token state label)
    (stepped : (machine ctx setup).step state label = some next) :
    Untried weights config token next where
  clean := clean_step untried.clean behaves stepped
  logged := logged_step untried.logged stepped
  loops := by
    apply forall_tasks_of_step (fun task =>
      ∀ loop, loopOf task.phase = some loop →
        Spares weights.count token loop) untried.loops stepped
    · rintro client loop ⟨⟩
    · intro number client phase own after _ found moved there _ loop goes
      exact moved.spares untried two found there goes

/-- A task that reports a failure selects again. -/
theorem selecting_of_report
    {position number : ℕ} {task : EndpointTask Stream Error}
    (untried : Untried weights config (Token.ofPosition position) state)
    (two : 2 ≤ weights.count) (inside : position < weights.count)
    (found : state.tasks number = some task)
    (searches : awaits (Token.ofPosition position) task.phase)
    {now : UInt32}
    (stepped : (machine ctx setup).step state
      (.task number (.report now)) = some next) :
    ∃ loop, next.tasks number = some ⟨task.client, .selecting loop⟩ := by
  have total : state.balancer.total = UInt8.ofNat weights.count := by
    rw [untried.logged.balancer]
    exact total_roundRobin
      ((RoundRobin.shape_new weights config two).performAll two _)
  have goesOn {loop : ConnectLoop Stream}
      (spares : Spares weights.count (Token.ofPosition position) loop)
      (error : ConnectError Error) :
      state.goOn loop error = .selecting loop := by
    rw [goOn, total, spares.exhausted inside weights.bounded]
    exact if_neg Bool.false_ne_true
  rcases task with ⟨client, phase⟩
  have harmless := untried.clean.tasks number _ found
  rw [step_task found] at stepped
  cases taskStep_cases stepped with
  | reportLate _ loop stream ms =>
      have lent := (untried.loops number _ found loop rfl).lend state
      rw [goesOn ((lent.reported harmless now).remembered stream _ ms)]
      exact ⟨_, setPhase_tasks_self _ _ _⟩
  | reportFailing _ loop error =>
      have lent := (untried.loops number _ found loop rfl).lend state
      rw [goesOn (lent.reported harmless now)]
      exact ⟨_, setPhase_tasks_self _ _ _⟩
  | reportJudged _ token verdict => exact searches.elim

end Untried

end Endpoint

open Endpoint in
/-- A connection that has not come to a peer that behaves well goes on
searching, whatever the other peers do and in whatever order the tasks run.
It has made at most so many selections, for each selection of the peer and
once more, as twice the largest weight times the number of the other
peers. -/
theorem endpoint_patience
    (ctx : CallContext Addr) (setup : RelaySetup Error)
    (weights : Weights) (two : 2 ≤ weights.count)
    (fits : RoundRobin.FitsI16 weights)
    (config : Option HealthCheckConfig) {position : ℕ}
    (inside : position < weights.count)
    (positive : 1 ≤ weights.at position)
    {labels : List (EndpointLabel Addr Stream Error)}
    {final : Endpoint Stream Error}
    (ran : (machine ctx setup).run
      (start (.roundRobin (RoundRobin.new weights config))) labels =
        some final)
    (behaves : (machine ctx setup).EachStep
      (Behaves ctx setup (Token.ofPosition position))
      (start (.roundRobin (RoundRobin.new weights config))) labels)
    {number : ℕ} {task : EndpointTask Stream Error}
    (found : final.tasks number = some task)
    (searches : awaits (Token.ofPosition position) task.phase) :
    labels.countP (selects number) ≤
        2 * weights.cap * (weights.count - 1) *
          (final.selected.count (some (Token.ofPosition position)) + 1) ∧
      ∀ now next, (machine ctx setup).step final
          (.task number (.report now)) = some next →
        ∃ loop, next.tasks number =
          some ⟨task.client, .selecting loop⟩ := by
  constructor
  · have waiting :
        Waiting (Token.ofPosition position) number final labels :=
      Machine.run_history_of_allowed
        (Waiting (Token.ofPosition position) number) _ waiting_step
        (waiting_start _ number _) behaves ran
    have share := waiting.share (by
      intro other there
      cases found.symm.trans there
      exact searches)
    have logged := logged_of_run ran
    have shape := RoundRobin.shape_new weights config two
    have most := RoundRobin.length_answers_le_of_unblamed shape
      (RoundRobin.balanced_new weights config two) two fits
      (RoundRobin.earnsWeight_new weights config) inside positive
      (RoundRobin.spotless_new weights config position)
      (unblamed_plain waiting.clean.calls)
    rw [← logged.selected] at most
    omega
  · intro now next stepped
    have untried :
        Untried weights config (Token.ofPosition position) final :=
      Machine.run_invariant_of_allowed _ _ (untried_step two)
        (untried_start weights config _) behaves ran
    exact selecting_of_report untried two inside found searches stepped

/-- A dial that is refused. -/
def refused (error : Error) : Attempt Addr Stream Error where
  popIdle := none
  connect _ := .error error
  elapsedMs := 0
  localPeerAddr := .ok ()
  streamPeerAddr := .ok ()

theorem dial_refused
    (ctx : CallContext Addr) (loop : ConnectLoop Stream) (error : Error) :
    loop.dial ctx (refused error) = .error error := by
  unfold ConnectLoop.dial refused
  cases ctx.pool && loop.token.isSome <;> rfl

/-- The first peer that is selected for a client refuses it. -/
def firstRefusal : List (EndpointLabel ℕ Unit Unit) :=
  [.accept pairOfPeers.client, .task 0 .enter, .task 0 (.select 7),
    .task 0 (.dial (refused ()))]

open Endpoint in
/-- The second peer is not dialled in these steps. -/
theorem behaves_firstRefusal :
    (machine pairOfPeers plainSetup).EachStep
      (Behaves pairOfPeers plainSetup (Token.ofPosition 1))
      (start (.roundRobin (RoundRobin.new .pair (some ⟨1, 30, none⟩))) :
        Endpoint Unit Unit)
      firstRefusal := by
  refine (Machine.eachStep_cons_iff rfl).2 ⟨?_, ?_⟩
  · exact behaves_of_quiet (by rintro _ _ ⟨⟩) (by rintro _ ⟨⟩)
  refine (Machine.eachStep_cons_iff rfl).2 ⟨?_, ?_⟩
  · exact behaves_of_quiet (by rintro _ _ ⟨⟩) (by rintro _ ⟨⟩)
  refine (Machine.eachStep_cons_iff rfl).2 ⟨?_, ?_⟩
  · exact behaves_of_quiet (by rintro _ _ ⟨⟩) (by rintro _ ⟨⟩)
  refine (Machine.eachStep_cons_iff rfl).2
    ⟨?_, Machine.eachStep_nil _ _⟩
  exact behaves_of_other rfl (by decide) _

open Endpoint in
/-- A client that one of two peers has refused has made one selection of at
most two. -/
theorem endpoint_patience_refusal :
    ∃ (final : Endpoint Unit Unit) (task : EndpointTask Unit Unit),
      (machine pairOfPeers plainSetup).run
          (start (.roundRobin (RoundRobin.new .pair (some ⟨1, 30, none⟩))))
          firstRefusal = some final ∧
        final.tasks 0 = some task ∧
        firstRefusal.countP (selects 0) ≤
          2 * (final.selected.count (some (Token.ofPosition 1)) + 1) := by
  have ran : ∃ (final : Endpoint Unit Unit) (task : EndpointTask Unit Unit),
      (machine pairOfPeers plainSetup).run
          (start (.roundRobin (RoundRobin.new .pair (some ⟨1, 30, none⟩))))
          firstRefusal = some final ∧
        final.tasks 0 = some task ∧
        awaits (Token.ofPosition 1) task.phase :=
    ⟨_, _, rfl, rfl, trivial⟩
  rcases ran with ⟨final, task, ran, found, searches⟩
  have patience := (endpoint_patience pairOfPeers plainSetup .pair
    (by decide) (by decide) (some ⟨1, 30, none⟩) (by decide) (by decide)
    ran behaves_firstRefusal found searches).1
  exact ⟨final, task, ran, found, patience⟩

end ByteHub.Core
