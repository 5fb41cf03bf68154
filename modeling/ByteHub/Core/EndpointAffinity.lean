import ByteHub.Core.EndpointPatience
import ByteHub.Lb.IpHashService

/-!
# Clients that stay with their peer

Under IP hash an endpoint sends a client to the peer whose virtual node it
meets first.  If this peer behaves well, each connection of the client makes
one selection, is given the peer and keeps it to its end, whatever the other
peers do and however many connections there are.
-/

namespace ByteHub.Core

open ByteHub.Lb
open ByteHub.Library

variable {Addr Stream Error : Type}

namespace Endpoint

/-- The task of a client that has made some selections has come to the peer
at the first of them. -/
def staysWith
    (token : Token) (selections : ℕ) : TaskPhase Stream Error → Prop
  | .accepted => selections = 0
  | .selecting _ => selections = 0
  | .dialling loop => loop.token = some token ∧ selections = 1
  | .late _ _ _ => False
  | .failing _ _ => False
  | .connected _ selected => selected = some token ∧ selections = 1
  | .relaying selected _ => selected = some token ∧ selections = 1
  | .judged selected _ => selected = token ∧ selections = 1
  | .finished => selections ≤ 1

/-! ## The ring of an endpoint -/

section Ring

variable {ctx : CallContext Addr} {setup : RelaySetup Error}
variable {state next : Endpoint Stream Error}

/-- The balancer of the endpoint is a ring that the peer has no failure
on. -/
def Rings
    (weights : Weights) (config : Option HealthCheckConfig)
    (search : BinarySearch) (built : IpHash) (position : ℕ)
    (state : Endpoint Stream Error) : Prop :=
  ∃ ih, state.balancer = .ipHash search ih ∧
    IpHash.Unharmed weights config built position ih

theorem rings_step
    {weights : Weights} {config : Option HealthCheckConfig}
    {search : BinarySearch} {built : IpHash} {position : ℕ}
    {label : EndpointLabel Addr Stream Error}
    (two : 2 ≤ weights.count) (inside : position < weights.count)
    (rings : Rings weights config search built position state)
    (clean : Clean (Token.ofPosition position) next)
    (stepped : (machine ctx setup).step state label = some next) :
    Rings weights config search built position next := by
  rcases rings with ⟨ih, here, unharmed⟩
  rcases calls_of_step stepped with
    ⟨same, _⟩ | ⟨call, now, _, moved, grown⟩
  · exact ⟨ih, same.trans here, unharmed⟩
  · have harmless := clean.calls (call, now) (by
      rw [grown]
      exact List.mem_append_right _ List.mem_cons_self)
    rw [here] at moved
    rcases unharmed.perform two inside search harmless now with
      ⟨after, performed, kept⟩
    exact ⟨after, moved.trans performed, kept⟩

end Ring

/-! ## The tasks of a client -/

/-- The tasks of the clients that meet the peer first have come to it at
their only selection. -/
structure Sticking
    (weights : Weights) (config : Option HealthCheckConfig)
    (search : BinarySearch) (built : IpHash) (position number : ℕ)
    (state : Endpoint Stream Error)
    (past : List (EndpointLabel Addr Stream Error)) : Prop where
  clean : Clean (Token.ofPosition position) state
  rings : Rings weights config search built position state
  fresh : Fresh state
  absent : state.tasks number = none → past.countP (selects number) = 0
  stays : ∀ task, state.tasks number = some task →
    built.primary search task.client = some (Token.ofPosition position) →
      staysWith (Token.ofPosition position) (past.countP (selects number))
        task.phase

section Sticking

variable {ctx : CallContext Addr} {setup : RelaySetup Error}
variable {weights : Weights} {config : Option HealthCheckConfig}
variable {search : BinarySearch} {built : IpHash} {position number : ℕ}
variable {state next : Endpoint Stream Error}
variable {past : List (EndpointLabel Addr Stream Error)}

theorem sticking_start
    (sort : UnstableSort) (two : 2 ≤ weights.count) (number : ℕ) :
    Sticking weights config search (IpHash.new sort weights config)
      position number
      (start (.ipHash search (IpHash.new sort weights config)) :
        Endpoint Stream Error)
      ([] : List (EndpointLabel Addr Stream Error)) where
  clean := clean_start _ _
  rings := ⟨_, rfl, IpHash.unharmed_new sort weights config two position⟩
  fresh _ _ := rfl
  absent _ := rfl
  stays task found := by cases found

/-- A step of the task of a client that meets the peer first. -/
theorem staysWith_of_step
    {client : Client} {phase after : TaskPhase Stream Error}
    {label : TaskLabel Addr Stream Error} {selections : ℕ}
    (two : 2 ≤ weights.count) (inside : position < weights.count)
    (rings : Rings weights config search built position state)
    (first : built.primary search client =
      some (Token.ofPosition position))
    (found : state.tasks number = some ⟨client, phase⟩)
    (behaves : Behaves ctx setup (Token.ofPosition position) state
      (.task number label))
    (moved : TaskStep ctx setup state number client phase label next)
    (there : next.tasks number = some ⟨client, after⟩)
    (stays : staysWith (Token.ofPosition position) selections phase) :
    staysWith (Token.ofPosition position)
      (selections +
        [(.task number label : EndpointLabel Addr Stream Error)].countP
          (selects number))
      after := by
  cases moved with
  | enter =>
      cases there.symm.trans (setPhase_tasks_self _ _ _)
      exact stays
  | refuse =>
      cases there.symm.trans (setPhase_tasks_self _ _ _)
      exact Nat.le_succ_of_le stays.le
  | select now loop =>
      cases there.symm.trans (setPhase_tasks_self _ _ _)
      rcases rings with ⟨ih, here, unharmed⟩
      constructor
      · change (state.balancer.next client now).1 = _
        rw [here]
        exact unharmed.next_eq two inside first now
      · have none : selections = 0 := stays
        rw [none, List.countP_singleton, selects,
          if_pos (beq_self_eq_true number)]
  | dial attempt loop =>
      cases there.symm.trans (setPhase_tasks_self _ _ _)
      rcases stays with ⟨given, once⟩
      rcases (behaves number _ found).1 loop attempt rfl rfl given with
        ⟨⟨stream, dialled⟩, inTime⟩
      rw [answered, dialled]
      dsimp only
      rw [if_neg inTime]
      split
      · exact ⟨given, once⟩
      · exact once.le
  | reportLate now loop stream ms => exact stays.elim
  | reportFailing now loop error => exact stays.elim
  | reportJudged now judged verdict =>
      cases there.symm.trans (setPhase_tasks_self _ _ _)
      exact stays.2.le
  | proxy passed stream selected =>
      cases there.symm.trans (setPhase_tasks_self _ _ _)
      split
      · exact stays
      · exact stays.2.le
  | relay label selected relay later =>
      cases there.symm.trans (setPhase_tasks_self _ _ _)
      exact stays
  | judge selected relay verdict judged =>
      cases there.symm.trans (setPhase_tasks_self _ _ _)
      rcases stays with ⟨rfl, once⟩
      exact ⟨rfl, once⟩

theorem sticking_step
    {label : EndpointLabel Addr Stream Error}
    (two : 2 ≤ weights.count) (inside : position < weights.count)
    (sticking : Sticking weights config search built position number state
      past)
    (behaves : Behaves ctx setup (Token.ofPosition position) state label)
    (stepped : (machine ctx setup).step state label = some next) :
    Sticking weights config search built position number next
      (past ++ [label]) := by
  have clean := clean_step sticking.clean behaves stepped
  refine ⟨clean, rings_step two inside sticking.rings clean stepped,
    fresh_step sticking.fresh stepped, ?_, ?_⟩
  · intro missing
    rw [List.countP_append]
    rcases step_cases stepped with
      ⟨client, rfl, rfl⟩ | ⟨acting, task, own, rfl, found, moved⟩
    · have apart : number ≠ state.accepted := by
        rintro rfl
        cases (setPhase_tasks_self _ _ _).symm.trans missing
      exact sticking.absent ((setPhase_tasks_of_ne apart).symm.trans missing)
    · have apart : number ≠ acting := by
        rintro rfl
        rcases moved.tasks_self with ⟨after, there⟩
        cases there.symm.trans missing
      rw [sticking.absent ((moved.tasks_of_ne apart).symm.trans missing),
        List.countP_singleton, selects_of_ne apart.symm]
      rfl
  · intro task found first
    rw [List.countP_append]
    rcases step_cases stepped with
      ⟨client, rfl, rfl⟩ | ⟨acting, ⟨client, phase⟩, own, rfl, before, moved⟩
    · by_cases here : number = state.accepted
      · subst here
        cases (setPhase_tasks_self _ _ _).symm.trans found
        exact sticking.absent (sticking.fresh _ (Nat.le_refl _))
      · exact sticking.stays task
          ((setPhase_tasks_of_ne here).symm.trans found) first
    · by_cases here : number = acting
      · subst here
        rcases moved.tasks_self with ⟨after, there⟩
        cases there.symm.trans found
        exact staysWith_of_step two inside sticking.rings first before
          behaves moved there (sticking.stays _ before first)
      · rw [List.countP_singleton, selects_of_ne (Ne.symm here)]
        exact sticking.stays task
          ((moved.tasks_of_ne here).symm.trans found) first

end Sticking

end Endpoint

open Endpoint in
/-- Under IP hash every connection of a client whose first peer behaves well
makes one selection, is given this peer and stays with it, whatever the other
peers do and in whatever order the tasks run. -/
theorem endpoint_sticks
    (ctx : CallContext Addr) (setup : RelaySetup Error)
    (sort : UnstableSort) (search : BinarySearch)
    (weights : Weights) (two : 2 ≤ weights.count)
    (config : Option HealthCheckConfig) {position : ℕ}
    (inside : position < weights.count)
    {labels : List (EndpointLabel Addr Stream Error)}
    {final : Endpoint Stream Error}
    (ran : (machine ctx setup).run
      (start (.ipHash search (IpHash.new sort weights config))) labels =
        some final)
    (behaves : (machine ctx setup).EachStep
      (Behaves ctx setup (Token.ofPosition position))
      (start (.ipHash search (IpHash.new sort weights config))) labels)
    {number : ℕ} {task : EndpointTask Stream Error}
    (found : final.tasks number = some task)
    (first : (IpHash.new sort weights config).primary search task.client =
      some (Token.ofPosition position)) :
    staysWith (Token.ofPosition position) (labels.countP (selects number))
      task.phase := by
  have sticking : Sticking weights config search
      (IpHash.new sort weights config) position number final labels :=
    Machine.run_history_of_allowed
      (Sticking weights config search (IpHash.new sort weights config)
        position number)
      _ (sticking_step two inside) (sticking_start sort two number) behaves
      ran
  exact sticking.stays task found first

open Endpoint in
/-- Of two peers, one is given to a client at its only selection. -/
theorem endpoint_sticks_pair :
    ∃ (position : ℕ) (final : Endpoint Unit Unit)
        (task : EndpointTask Unit Unit),
      (machine pairOfPeers plainSetup).run
          (start (.ipHash .first
            (IpHash.new .insertion .pair (some ⟨1, 30, none⟩))))
          threeSelections = some final ∧
        final.tasks 0 = some task ∧
        staysWith (Token.ofPosition position)
          (threeSelections.countP (selects 0)) task.phase := by
  have ran : ∃ (final : Endpoint Unit Unit) (task : EndpointTask Unit Unit),
      (machine pairOfPeers plainSetup).run
          (start (.ipHash .first
            (IpHash.new .insertion .pair (some ⟨1, 30, none⟩))))
          threeSelections = some final ∧
        final.tasks 0 = some task :=
    ⟨_, _, rfl, rfl⟩
  rcases ran with ⟨final, task, ran, found⟩
  have two : 2 ≤ Weights.pair.count := by decide
  rcases (IpHash.shape_fresh .insertion .pair (some ⟨1, 30, none⟩)
      two).exists_primary two .first task.client with
    ⟨position, inside, first⟩
  exact ⟨position, final, task, ran, found,
    endpoint_sticks pairOfPeers plainSetup .insertion .first .pair two
      (some ⟨1, 30, none⟩) inside ran (behaves_threeSelections _ _) found
      first⟩

end ByteHub.Core
