import Mathlib.Algebra.BigOperators.Group.Finset.Basic
import ByteHub.Core.EndpointPatience

/-!
# The dials of a peer that is down

Every selection of a peer that refuses all dials is being dialled, or has
been reported as a failure, and nothing else is reported of it.
-/

namespace ByteHub.Core

open ByteHub.Lb
open ByteHub.Library

variable {Addr Stream Error : Type}

namespace Endpoint

/-- If the step dials the peer, the dial fails. -/
def Refuses
    (ctx : CallContext Addr) (token : Token)
    (state : Endpoint Stream Error)
    (label : EndpointLabel Addr Stream Error) : Prop :=
  ∀ number task loop attempt, state.tasks number = some task →
    label = .task number (.dial attempt) → task.phase = .dialling loop →
      loop.token = some token →
        ∃ error, loop.dial { ctx with client := task.client } attempt =
          .error error

/-- A dial that succeeds is one of another peer. -/
theorem Refuses.other
    {ctx : CallContext Addr} {token : Token}
    {state : Endpoint Stream Error} {number : ℕ} {client : Client}
    {loop : ConnectLoop Stream} {attempt : Attempt Addr Stream Error}
    (refuses : Refuses ctx token state (.task number (.dial attempt)))
    (found : state.tasks number = some ⟨client, .dialling loop⟩)
    {stream : Stream}
    (dialled : loop.dial { ctx with client := client } attempt =
      .ok stream) :
    loop.token ≠ some token := by
  intro same
  rcases refuses number _ loop attempt found rfl rfl same with
    ⟨error, failed⟩
  cases dialled.symm.trans failed

/-! ## Nobody is connected to the peer -/

/-- The task has no stream of the peer. -/
def spurns (token : Token) : TaskPhase Stream Error → Prop
  | .accepted => True
  | .selecting loop => loop.fallbackToken ≠ some token
  | .dialling loop => loop.fallbackToken ≠ some token
  | .late loop _ _ =>
      loop.fallbackToken ≠ some token ∧ loop.token ≠ some token
  | .failing loop _ => loop.fallbackToken ≠ some token
  | .connected _ selected => selected ≠ some token
  | .relaying selected _ => selected ≠ some token
  | .judged selected _ => selected ≠ token
  | .finished => True

section Spurns

variable {ctx : CallContext Addr} {setup : RelaySetup Error}
variable {token : Token} {state next : Endpoint Stream Error}
variable {loop : ConnectLoop Stream}

theorem spurns_goOn
    (spurned : loop.fallbackToken ≠ some token)
    (error : ConnectError Error) :
    spurns token (state.goOn loop error) := by
  rw [goOn, TaskPhase.ofConnected]
  split
  · rw [ConnectLoop.giveUp]
    cases loop.fallbackStream with
    | none => exact trivial
    | some stream => exact spurned
  · exact spurned

theorem fallbackToken_reported (now : UInt32) :
    (loop.reported now).fallbackToken = loop.fallbackToken := by
  unfold ConnectLoop.reported
  cases loop.token <;> rfl

theorem fallbackToken_remembered
    (spurned : loop.fallbackToken ≠ some token) (stream : Stream)
    {selected : Option Token} (other : selected ≠ some token) (ms : ℕ) :
    (loop.remembered stream selected ms).fallbackToken ≠ some token := by
  unfold ConnectLoop.remembered
  split
  · exact other
  · exact spurned

/-- A step of a task that has no stream of the peer gets none. -/
theorem TaskStep.spurns
    {number : ℕ} {client : Client} {phase after : TaskPhase Stream Error}
    {label : TaskLabel Addr Stream Error}
    (refuses : Refuses ctx token state (.task number label))
    (found : state.tasks number = some ⟨client, phase⟩)
    (moved : TaskStep ctx setup state number client phase label next)
    (there : next.tasks number = some ⟨client, after⟩)
    (spurned : Endpoint.spurns token phase) :
    Endpoint.spurns token after := by
  cases moved with
  | enter =>
      cases there.symm.trans (setPhase_tasks_self _ _ _)
      rintro ⟨⟩
  | refuse =>
      cases there.symm.trans (setPhase_tasks_self _ _ _)
      exact trivial
  | select now earlier =>
      cases there.symm.trans (setPhase_tasks_self _ _ _)
      exact spurned
  | dial attempt earlier =>
      cases there.symm.trans (setPhase_tasks_self _ _ _)
      rw [answered]
      cases dialled : earlier.dial { ctx with client := client }
          attempt with
      | error error => exact spurned
      | ok stream =>
          have other := refuses.other found dialled
          dsimp only
          split
          · exact ⟨spurned, other⟩
          · split
            · exact other
            · exact trivial
  | reportLate now earlier stream ms =>
      cases there.symm.trans (setPhase_tasks_self _ _ _)
      apply spurns_goOn
      apply fallbackToken_remembered _ _ spurned.2
      rw [fallbackToken_reported]
      exact spurned.1
  | reportFailing now earlier error =>
      cases there.symm.trans (setPhase_tasks_self _ _ _)
      apply spurns_goOn
      rw [fallbackToken_reported]
      exact spurned
  | reportJudged now judged verdict =>
      cases there.symm.trans (setPhase_tasks_self _ _ _)
      exact trivial
  | proxy passed stream selected =>
      cases there.symm.trans (setPhase_tasks_self _ _ _)
      split
      · exact spurned
      · exact trivial
  | relay label selected relay later =>
      cases there.symm.trans (setPhase_tasks_self _ _ _)
      exact spurned
  | judge selected relay verdict judged =>
      cases there.symm.trans (setPhase_tasks_self _ _ _)
      cases selected with
      | none => exact trivial
      | some selected =>
          intro same
          exact spurned (congrArg some same)

end Spurns

/-! ## The ledger -/

/-- The peer that the task is dialling, or has still to report on. -/
def holding : TaskPhase Stream Error → Option Token
  | .dialling loop => loop.token
  | .late loop _ _ => loop.token
  | .failing loop _ => loop.token
  | _ => none

/-- The task holds a selection of the peer. -/
def held (token : Token) (phase : TaskPhase Stream Error) : ℕ :=
  if holding phase = some token then 1 else 0

/-- The selections of the peer that tasks hold. -/
def pending (token : Token) (state : Endpoint Stream Error) : ℕ :=
  ∑ number ∈ Finset.range state.accepted,
    (state.tasks number).elim 0 fun task => held token task.phase

/-- The call reports a failure of the peer. -/
def isFailure (token : Token) (call : Balancer.Call × UInt32) : Bool :=
  match call.1 with
  | .onFailure other => other == token
  | _ => false

theorem isFailure_iff
    {token : Token} {call : Balancer.Call} {now : UInt32} :
    isFailure token (call, now) = true ↔ call = .onFailure token := by
  cases call with
  | next client => simp [isFailure]
  | onSuccess other => simp [isFailure]
  | onFailure other => simp [isFailure]

/-- The failures of the peer that have been reported. -/
def failures (token : Token) (state : Endpoint Stream Error) : ℕ :=
  state.calls.countP (isFailure token)

section Ledger

variable {ctx : CallContext Addr} {setup : RelaySetup Error}
variable {token : Token} {state next : Endpoint Stream Error}
variable {number : ℕ} {client : Client}
variable {phase after : TaskPhase Stream Error}

theorem held_le_one (phase : TaskPhase Stream Error) :
    held token phase ≤ 1 := by
  unfold held
  split <;> omega

/-- There is one selection to hold for each task. -/
theorem pending_le (state : Endpoint Stream Error) :
    pending token state ≤ state.accepted := by
  calc
    pending token state ≤ ∑ _number ∈ Finset.range state.accepted, 1 := by
      apply Finset.sum_le_sum
      intro number _
      cases state.tasks number with
      | none => exact Nat.zero_le 1
      | some task => exact held_le_one task.phase
    _ = state.accepted := by
      rw [Finset.sum_const, Finset.card_range, Nat.nsmul_eq_mul, Nat.mul_one]

/-- What a step of a task changes of the selections held. -/
theorem TaskStep.pending_eq
    {label : TaskLabel Addr Stream Error}
    (moved : TaskStep ctx setup state number client phase label next)
    (inside : number < state.accepted)
    (found : state.tasks number = some ⟨client, phase⟩)
    (there : next.tasks number = some ⟨client, after⟩) :
    pending token next + held token phase =
      pending token state + held token after := by
  have member := Finset.mem_range.2 inside
  have others :
      ∑ other ∈ (Finset.range state.accepted).erase number,
        (next.tasks other).elim 0 (fun task => held token task.phase) =
      ∑ other ∈ (Finset.range state.accepted).erase number,
        (state.tasks other).elim 0 fun task => held token task.phase := by
    apply Finset.sum_congr rfl
    intro other different
    rw [moved.tasks_of_ne (Finset.ne_of_mem_erase different)]
  rw [pending, pending, moved.accepted_eq,
    ← Finset.add_sum_erase _ _ member, ← Finset.add_sum_erase _ _ member,
    others, found, there]
  change held token after + _ + held token phase =
    held token phase + _ + held token after
  omega

theorem held_goOn
    (loop : ConnectLoop Stream) (error : ConnectError Error) :
    held token (state.goOn loop error) = 0 := by
  apply if_neg
  rw [goOn, TaskPhase.ofConnected]
  split
  · split <;> rintro ⟨⟩
  · rintro ⟨⟩

/-- A report in the loop is one on the peer that was selected. -/
theorem failures_reported (loop : ConnectLoop Stream) (now : UInt32) :
    failures token (state.reported (loop.token.map .onFailure) now) =
      failures token state +
        if loop.token = some token then 1 else 0 := by
  cases named : loop.token with
  | none => rfl
  | some selected =>
      change (state.calls ++ [(Balancer.Call.onFailure selected, now)]).countP
        (isFailure token) = _
      rw [List.countP_append, List.countP_singleton, failures]
      simp only [isFailure_iff, Balancer.Call.onFailure.injEq,
        Option.some.injEq]

/-- A verdict on another peer is no failure of this one. -/
theorem failures_judged
    {judged : Token} (other : judged ≠ token) (verdict : Verdict)
    (now : UInt32) :
    failures token (state.reported (some (verdict.call judged)) now) =
      failures token state := by
  change (state.calls ++ [(verdict.call judged, now)]).countP
    (isFailure token) = _
  rw [List.countP_append, List.countP_singleton, failures, if_neg]
  · exact Nat.add_zero _
  · rw [isFailure_iff]
    cases verdict with
    | onSuccess => rintro ⟨⟩
    | onFailure =>
        rintro ⟨⟩
        exact other rfl

/-- The answer to a dial leaves the selection with the task, unless it was one
of another peer. -/
theorem held_answered
    {loop : ConnectLoop Stream} {attempt : Attempt Addr Stream Error}
    (refuses : Refuses ctx token state (.task number (.dial attempt)))
    (found : state.tasks number = some ⟨client, .dialling loop⟩) :
    held token
        (state.answered { ctx with client := client } loop attempt) =
      held token (.dialling loop : TaskPhase Stream Error) := by
  rw [answered]
  cases dialled : loop.dial { ctx with client := client } attempt with
  | error error => rfl
  | ok stream =>
      have other := refuses.other found dialled
      have none : held token (.dialling loop : TaskPhase Stream Error) = 0 :=
        if_neg other
      rw [none]
      dsimp only
      split
      · exact if_neg other
      · split
        · exact if_neg (by rintro ⟨⟩)
        · exact if_neg (by rintro ⟨⟩)

/-- A selection of the peer is held until its failure is reported. -/
theorem TaskStep.ledger
    {label : TaskLabel Addr Stream Error}
    (refuses : Refuses ctx token state (.task number label))
    (found : state.tasks number = some ⟨client, phase⟩)
    (moved : TaskStep ctx setup state number client phase label next)
    (there : next.tasks number = some ⟨client, after⟩)
    (spurned : Endpoint.spurns token phase) :
    held token after + failures token next +
        state.selected.count (some token) =
      held token phase + failures token state +
        next.selected.count (some token) := by
  cases moved with
  | select now loop =>
      cases there.symm.trans (setPhase_tasks_self _ _ _)
      have logged : failures token ((state.selecting client now).setPhase
          number client (.dialling ((state.lend loop).selectNext client
            now))) = failures token state := by
        change (state.calls ++ [(Balancer.Call.next client, now)]).countP
          (isFailure token) = _
        rw [List.countP_append]
        rfl
      have idle : held token (.selecting loop : TaskPhase Stream Error) =
          0 := if_neg (by rintro ⟨⟩)
      rw [logged, idle]
      change (if (state.balancer.next client now).1 = some token then 1
        else 0) + _ + _ = 0 + _ +
          (state.selected ++ [(state.balancer.next client now).1]).count
            (some token)
      rw [List.count_append, List.count_singleton]
      simp only [beq_iff_eq]
      omega
  | dial attempt loop =>
      cases there.symm.trans (setPhase_tasks_self _ _ _)
      rw [held_answered refuses found]
      rfl
  | reportLate now loop stream ms =>
      cases there.symm.trans (setPhase_tasks_self _ _ _)
      rw [held_goOn, setPhase_selected, reported_selected]
      change 0 + failures token (state.reported _ now) + _ =
        (if loop.token = some token then 1 else 0) + _ + _
      rw [failures_reported]
      omega
  | reportFailing now loop error =>
      cases there.symm.trans (setPhase_tasks_self _ _ _)
      rw [held_goOn, setPhase_selected, reported_selected]
      change 0 + failures token (state.reported _ now) + _ =
        (if loop.token = some token then 1 else 0) + _ + _
      rw [failures_reported]
      omega
  | reportJudged now judged verdict =>
      cases there.symm.trans (setPhase_tasks_self _ _ _)
      rw [setPhase_selected, reported_selected]
      change _ + failures token (state.reported _ now) + _ = _
      rw [failures_judged spurned]
      rfl
  | proxy passed stream selected =>
      cases there.symm.trans (setPhase_tasks_self _ _ _)
      cases passed <;> rfl
  | judge selected relay verdict judged =>
      cases there.symm.trans (setPhase_tasks_self _ _ _)
      cases selected <;> rfl
  | _ =>
      cases there.symm.trans (setPhase_tasks_self _ _ _)
      rfl

end Ledger

/-- Nobody has a stream of the peer, and each selection of it is held by a
task or has been reported as a failure. -/
structure Ledgered (token : Token) (state : Endpoint Stream Error) :
    Prop where
  fresh : Fresh state
  spurned : ∀ number task, state.tasks number = some task →
    spurns token task.phase
  unpraised : ∀ call ∈ state.calls, call.1 ≠ .onSuccess token
  ledger : state.selected.count (some token) =
    pending token state + failures token state

section Ledgered

variable {ctx : CallContext Addr} {setup : RelaySetup Error}
variable {token : Token} {state next : Endpoint Stream Error}

theorem ledgered_start (token : Token) (balancer : Balancer) :
    Ledgered token (start balancer : Endpoint Stream Error) where
  fresh _ _ := rfl
  spurned number task found := by cases found
  unpraised call member := by cases member
  ledger := rfl

/-- A step reports no success of a peer that no task has a stream of. -/
theorem unpraised_step
    {label : EndpointLabel Addr Stream Error}
    (ledgered : Ledgered token state)
    (stepped : (machine ctx setup).step state label = some next) :
    ∀ call ∈ next.calls, call.1 ≠ .onSuccess token := by
  have reports {call : Option Balancer.Call}
      (harmless : call ≠ some (.onSuccess token)) (now : UInt32) :
      ∀ made ∈ (state.reported call now).calls,
        made.1 ≠ .onSuccess token := by
    intro made member
    cases call with
    | none => exact ledgered.unpraised made member
    | some call =>
        rcases List.mem_append.1 member with earlier | last
        · exact ledgered.unpraised made earlier
        · rw [List.mem_singleton.1 last]
          rintro rfl
          exact harmless rfl
  rcases step_cases stepped with
    ⟨client, _, rfl⟩ | ⟨number, ⟨client, phase⟩, own, _, found, moved⟩
  · exact ledgered.unpraised
  · have spurned := ledgered.spurned number _ found
    cases moved with
    | select now loop =>
        intro made member
        rcases List.mem_append.1 member with earlier | last
        · exact ledgered.unpraised made earlier
        · rw [List.mem_singleton.1 last]
          rintro ⟨⟩
    | reportLate now loop stream ms =>
        apply reports
        cases loop.token <;> rintro ⟨⟩
    | reportFailing now loop error =>
        apply reports
        cases loop.token <;> rintro ⟨⟩
    | reportJudged now judged verdict =>
        apply reports
        intro same
        cases verdict with
        | onSuccess =>
            cases same
            exact spurned rfl
        | onFailure => cases same
    | _ => exact ledgered.unpraised

theorem ledgered_step
    {label : EndpointLabel Addr Stream Error}
    (ledgered : Ledgered token state)
    (refuses : Refuses ctx token state label)
    (stepped : (machine ctx setup).step state label = some next) :
    Ledgered token next := by
  refine ⟨fresh_step ledgered.fresh stepped, ?_,
    unpraised_step ledgered stepped, ?_⟩
  · apply forall_tasks_of_step (fun task => spurns token task.phase)
      ledgered.spurned stepped
    · intro client
      exact trivial
    · rintro number client phase own after rfl found moved there spurned
      exact moved.spurns refuses found there spurned
  · rcases step_cases stepped with
      ⟨client, rfl, rfl⟩ | ⟨number, ⟨client, phase⟩, own, rfl, found, moved⟩
    · rw [pending]
      change _ = ∑ number ∈ Finset.range (state.accepted + 1),
          Option.elim ((state.setPhase state.accepted client
            .accepted).tasks number) 0 (fun task => held token task.phase) +
        failures token state
      have earlier : ∀ number ∈ Finset.range state.accepted,
          ((state.setPhase state.accepted client .accepted).tasks
              number).elim 0 (fun task => held token task.phase) =
            (state.tasks number).elim 0 fun task =>
              held token task.phase := by
        intro number member
        rw [setPhase_tasks_of_ne (Finset.mem_range.1 member).ne]
      rw [Finset.sum_range_succ, Finset.sum_congr rfl earlier,
        setPhase_tasks_self]
      exact ledgered.ledger
    · have inside : number < state.accepted := by
        by_contra beyond
        rw [ledgered.fresh number (not_lt.1 beyond)] at found
        cases found
      rcases moved.tasks_self with ⟨after, there⟩
      have tasks : pending token next + held token phase =
          pending token state + held token after :=
        moved.pending_eq inside found there
      have books : held token after + failures token next +
            state.selected.count (some token) =
          held token phase + failures token state +
            next.selected.count (some token) :=
        moved.ledger refuses found there (ledgered.spurned number _ found)
      have before := ledgered.ledger
      omega

end Ledgered

end Endpoint

end ByteHub.Core
