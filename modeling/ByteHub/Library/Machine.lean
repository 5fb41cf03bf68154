import Mathlib.Data.Option.Basic
import Mathlib.Data.List.Induction

/-!
# Labelled machines

A machine answers each label with at most one next state; a label it does
not answer is not possible in that state.  Inputs, scheduling decisions and
the answers of an environment are all labels, so a run is determined by its
list of labels.

The rules below are the only inductions over runs: an invariant of the steps
holds after every run, a view that turns steps into steps turns runs into
runs, and a goal that can always be brought nearer can always be reached.
-/

namespace ByteHub.Library

/-- A deterministic machine with labels. -/
structure Machine (State : Type*) (Label : Type*) where
  step : State → Label → Option State

namespace Machine

variable {State Label Abstract Visible : Type*}
variable (machine : Machine State Label)

/-- The state after a list of labels, if each of them was possible. -/
def run : State → List Label → Option State
  | state, [] => some state
  | state, label :: labels =>
      (machine.step state label).bind fun next => run next labels

@[simp]
theorem run_nil (state : State) : machine.run state [] = some state :=
  rfl

theorem run_cons_eq_some
    {state final : State} {label : Label} {labels : List Label} :
    machine.run state (label :: labels) = some final ↔
      ∃ next, machine.step state label = some next ∧
        machine.run next labels = some final := by
  simp [run, Option.bind_eq_some_iff]

theorem run_singleton (state : State) (label : Label) :
    machine.run state [label] = machine.step state label := by
  rw [run]
  exact Option.bind_fun_some _

theorem run_pair (state : State) (first second : Label) :
    machine.run state [first, second] =
      (machine.step state first).bind fun next =>
        machine.step next second := by
  rw [run]
  congr 1
  funext next
  exact machine.run_singleton next second

theorem run_append (state : State) (first second : List Label) :
    machine.run state (first ++ second) =
      (machine.run state first).bind fun next => machine.run next second := by
  induction first generalizing state with
  | nil => rfl
  | cons label first inductionHypothesis =>
      rw [List.cons_append, run, run, Option.bind_assoc]
      congr 1
      funext next
      exact inductionHypothesis next

theorem run_append_eq_some
    {state final : State} {first second : List Label} :
    machine.run state (first ++ second) = some final ↔
      ∃ middle, machine.run state first = some middle ∧
        machine.run middle second = some final := by
  rw [run_append, Option.bind_eq_some_iff]

theorem run_concat_eq_some
    {state final : State} {labels : List Label} {label : Label} :
    machine.run state (labels ++ [label]) = some final ↔
      ∃ middle, machine.run state labels = some middle ∧
        machine.step middle label = some final := by
  simp [run_append_eq_some, run_cons_eq_some]

variable {machine}

/-- A property that each step keeps is kept by every run. -/
theorem run_invariant
    (invariant : State → Prop)
    (kept : ∀ {state next : State} {label : Label}, invariant state →
      machine.step state label = some next → invariant next)
    {start final : State} {labels : List Label}
    (initially : invariant start)
    (ran : machine.run start labels = some final) :
    invariant final := by
  induction labels generalizing start with
  | nil =>
      cases ran
      exact initially
  | cons label labels inductionHypothesis =>
      rcases machine.run_cons_eq_some.1 ran with ⟨next, step, rest⟩
      exact inductionHypothesis (kept initially step) rest

/-- A property that the allowed steps keep is kept by every run that takes
no others. -/
theorem run_invariant_of_allowed
    (invariant : State → Prop) (allowed : State → Label → Prop)
    (kept : ∀ {state next : State} {label : Label}, invariant state →
      allowed state label → machine.step state label = some next →
        invariant next)
    {start final : State} {labels : List Label}
    (initially : invariant start)
    (each : ∀ before label after state, labels = before ++ label :: after →
      machine.run start before = some state → allowed state label)
    (ran : machine.run start labels = some final) :
    invariant final := by
  induction labels generalizing start with
  | nil =>
      cases ran
      exact initially
  | cons label labels inductionHypothesis =>
      rcases machine.run_cons_eq_some.1 ran with ⟨next, step, rest⟩
      have first := each [] label labels start rfl rfl
      refine inductionHypothesis (kept initially first step) ?_ rest
      intro before later after state split reached
      apply each (label :: before) later after state
      · rw [split, List.cons_append]
      · exact machine.run_cons_eq_some.2 ⟨next, step, reached⟩

/-! ## Every step and every state of a run -/

/-- Every step of a run passes a test. -/
def EachStep
    (machine : Machine State Label) (test : State → Label → Prop)
    (start : State) (labels : List Label) : Prop :=
  ∀ before label after state, labels = before ++ label :: after →
    machine.run start before = some state → test state label

/-- Every state of a run has a property. -/
def EachState
    (machine : Machine State Label) (property : State → Prop)
    (start : State) (labels : List Label) : Prop :=
  ∀ before after state, labels = before ++ after →
    machine.run start before = some state → property state

theorem eachStep_nil (test : State → Label → Prop) (start : State) :
    machine.EachStep test start [] := by
  intro before label after state split
  simp at split

theorem eachStep_cons_iff
    {test : State → Label → Prop} {start next : State} {label : Label}
    {labels : List Label}
    (step : machine.step start label = some next) :
    machine.EachStep test start (label :: labels) ↔
      test start label ∧ machine.EachStep test next labels := by
  constructor
  · intro each
    refine ⟨each [] label labels start rfl rfl, ?_⟩
    intro before other after state split reached
    apply each (label :: before) other after state
    · rw [split, List.cons_append]
    · exact machine.run_cons_eq_some.2 ⟨next, step, reached⟩
  · rintro ⟨first, later⟩ before other after state split reached
    cases before with
    | nil =>
        cases split
        cases reached
        exact first
    | cons head before =>
        cases split
        rcases machine.run_cons_eq_some.1 reached with
          ⟨middle, stepped, reached⟩
        obtain rfl : next = middle :=
          Option.some.inj (step.symm.trans stepped)
        exact later before other after state rfl reached

theorem eachStep_concat
    {test : State → Label → Prop} {start middle : State}
    {labels : List Label} {label : Label}
    (each : machine.EachStep test start labels)
    (came : machine.run start labels = some middle)
    (last : test middle label) :
    machine.EachStep test start (labels ++ [label]) := by
  intro before other after state split reached
  rcases List.eq_nil_or_concat after with rfl | ⟨rest, end_, rfl⟩
  · rcases List.append_inj' split rfl with ⟨rfl, same⟩
    cases same
    cases came.symm.trans reached
    exact last
  · rw [List.concat_eq_append, ← List.cons_append, ← List.append_assoc]
      at split
    rcases List.append_inj' split rfl with ⟨earlier, _⟩
    exact each before other rest state earlier reached

theorem eachState_cons_iff
    {property : State → Prop} {start next : State} {label : Label}
    {labels : List Label}
    (step : machine.step start label = some next) :
    machine.EachState property start (label :: labels) ↔
      property start ∧ machine.EachState property next labels := by
  constructor
  · intro each
    refine ⟨each [] (label :: labels) start rfl rfl, ?_⟩
    intro before after state split reached
    apply each (label :: before) after state
    · rw [split, List.cons_append]
    · exact machine.run_cons_eq_some.2 ⟨next, step, reached⟩
  · rintro ⟨first, later⟩ before after state split reached
    cases before with
    | nil =>
        cases reached
        exact first
    | cons head before =>
        cases split
        rcases machine.run_cons_eq_some.1 reached with
          ⟨middle, stepped, reached⟩
        obtain rfl : next = middle :=
          Option.some.inj (step.symm.trans stepped)
        exact later before after state rfl reached

/-- A relation between the state and the labels so far that the allowed steps
keep holds after every run that takes no others. -/
theorem run_history_of_allowed
    (relation : State → List Label → Prop)
    (allowed : State → Label → Prop)
    (kept : ∀ {state next : State} {past : List Label} {label : Label},
      relation state past → allowed state label →
        machine.step state label = some next →
          relation next (past ++ [label]))
    {start final : State} {labels : List Label}
    (initially : relation start [])
    (each : machine.EachStep allowed start labels)
    (ran : machine.run start labels = some final) :
    relation final labels := by
  induction labels using List.reverseRecOn generalizing final with
  | nil =>
      cases ran
      exact initially
  | append_singleton labels label inductionHypothesis =>
      rcases machine.run_concat_eq_some.1 ran with ⟨middle, came, step⟩
      have last := each labels label [] middle rfl came
      refine kept (inductionHypothesis ?_ came) last step
      intro before other after state split reached
      apply each before other (after ++ [label]) state _ reached
      rw [split, List.append_assoc, List.cons_append]

/-- Where a step keeps a property exactly when it is allowed, the property
holds all along a run exactly when every step of the run is allowed. -/
theorem eachState_iff_eachStep
    (invariant property : State → Prop) (allowed : State → Label → Prop)
    (kept : ∀ {state next : State} {label : Label}, invariant state →
      machine.step state label = some next → invariant next)
    (exactly : ∀ {state next : State} {label : Label}, invariant state →
      property state → machine.step state label = some next →
        (property next ↔ allowed state label))
    {start final : State} {labels : List Label}
    (initially : invariant start) (holds : property start)
    (ran : machine.run start labels = some final) :
    machine.EachState property start labels ↔
      machine.EachStep allowed start labels := by
  induction labels generalizing start with
  | nil =>
      constructor
      · intro _
        exact eachStep_nil allowed start
      · intro _ before after state split reached
        obtain ⟨rfl, rfl⟩ := List.append_eq_nil_iff.1 split.symm
        cases reached
        exact holds
  | cons label labels inductionHypothesis =>
      rcases machine.run_cons_eq_some.1 ran with ⟨next, step, rest⟩
      rw [eachState_cons_iff step, eachStep_cons_iff step,
        and_iff_right holds, ← exactly initially holds step]
      constructor
      · intro later
        have here : property next := later [] labels next rfl rfl
        exact ⟨here,
          (inductionHypothesis (kept initially step) here rest).1 later⟩
      · rintro ⟨here, later⟩
        exact (inductionHypothesis (kept initially step) here rest).2 later

/-- Where allowed steps keep an invariant that a property rests on, and every
step to a state with the property is allowed, the property holds all along a
run exactly when every step of the run is allowed. -/
theorem eachState_iff_of_needed
    (invariant property : State → Prop) (allowed : State → Label → Prop)
    (kept : ∀ {state next : State} {label : Label}, invariant state →
      allowed state label → machine.step state label = some next →
        invariant next)
    (holds : ∀ {state : State}, invariant state → property state)
    (needed : ∀ {state next : State} {label : Label},
      machine.step state label = some next → property next →
        allowed state label)
    {start final : State} {labels : List Label}
    (initially : invariant start)
    (ran : machine.run start labels = some final) :
    machine.EachState property start labels ↔
      machine.EachStep allowed start labels := by
  constructor
  · intro each before label after state split reached
    rw [split, run_append_eq_some] at ran
    rcases ran with ⟨middle, came, rest⟩
    obtain rfl : state = middle := Option.some.inj (reached.symm.trans came)
    rcases machine.run_cons_eq_some.1 rest with ⟨next, step, _⟩
    apply needed step
    apply each (before ++ [label]) after next
    · rw [split, List.append_assoc, List.singleton_append]
    · exact machine.run_concat_eq_some.2 ⟨state, reached, step⟩
  · intro each before after state split reached
    apply holds
    apply run_invariant_of_allowed invariant allowed kept initially _ reached
    intro earlier label later middle whole came
    apply each earlier label (later ++ after) middle _ came
    rw [split, whole, List.append_assoc, List.cons_append]

/-- Two tests of steps that agree where an invariant of the first holds agree
about whole runs. -/
theorem eachStep_congr
    (invariant : State → Prop) (allowed tested : State → Label → Prop)
    (kept : ∀ {state next : State} {label : Label}, invariant state →
      allowed state label → machine.step state label = some next →
        invariant next)
    (agree : ∀ {state next : State} {label : Label}, invariant state →
      machine.step state label = some next →
        (allowed state label ↔ tested state label))
    {start final : State} {labels : List Label}
    (initially : invariant start)
    (ran : machine.run start labels = some final) :
    machine.EachStep allowed start labels ↔
      machine.EachStep tested start labels := by
  induction labels generalizing start with
  | nil =>
      exact iff_of_true (eachStep_nil allowed start)
        (eachStep_nil tested start)
  | cons label labels inductionHypothesis =>
      rcases machine.run_cons_eq_some.1 ran with ⟨next, step, rest⟩
      rw [eachStep_cons_iff step, eachStep_cons_iff step,
        ← agree initially step]
      apply and_congr_right
      intro first
      exact inductionHypothesis (kept initially first step) rest

/-- A view that turns each step into a step turns every run into a run. -/
theorem run_view
    (abstract : Machine Abstract Visible)
    (view : State → Abstract) (seen : Label → Visible)
    {invariant : State → Prop}
    (kept : ∀ {state next : State} {label : Label}, invariant state →
      machine.step state label = some next → invariant next)
    (matched : ∀ {state next : State} {label : Label}, invariant state →
      machine.step state label = some next →
        abstract.step (view state) (seen label) = some (view next))
    {start final : State} {labels : List Label}
    (initially : invariant start)
    (ran : machine.run start labels = some final) :
    abstract.run (view start) (labels.map seen) = some (view final) := by
  induction labels generalizing start with
  | nil =>
      cases ran
      rfl
  | cons label labels inductionHypothesis =>
      rcases machine.run_cons_eq_some.1 ran with ⟨next, step, rest⟩
      rw [List.map_cons, run_cons_eq_some]
      exact ⟨view next, matched initially step,
        inductionHypothesis (kept initially step) rest⟩

/-- What an observer sees of a run, some events at each step. -/
def trace
    (machine : Machine State Label) (seen : State → Label → List Visible) :
    State → List Label → List Visible
  | _, [] => []
  | state, label :: labels =>
      seen state label ++
        (machine.step state label).elim [] fun next =>
          machine.trace seen next labels

theorem trace_cons
    {seen : State → Label → List Visible} {state next : State}
    {label : Label} {labels : List Label}
    (step : machine.step state label = some next) :
    machine.trace seen state (label :: labels) =
      seen state label ++ machine.trace seen next labels := by
  rw [trace, step]
  rfl

/-- A view under which each step is a short run of another machine, possibly
an empty one, turns every run into a run. -/
theorem run_trace
    (abstract : Machine Abstract Visible)
    (view : State → Abstract) (seen : State → Label → List Visible)
    (matched : ∀ {state next : State} {label : Label},
      machine.step state label = some next →
        abstract.run (view state) (seen state label) = some (view next))
    {start final : State} {labels : List Label}
    (ran : machine.run start labels = some final) :
    abstract.run (view start) (machine.trace seen start labels) =
      some (view final) := by
  induction labels generalizing start with
  | nil =>
      cases ran
      rfl
  | cons label labels inductionHypothesis =>
      rcases machine.run_cons_eq_some.1 ran with ⟨next, step, rest⟩
      rw [trace_cons step, run_append_eq_some]
      exact ⟨view next, matched step, inductionHypothesis rest⟩

/-! ## What can be done -/

/-- Allowed labels can take one state to another. -/
def Leads
    (machine : Machine State Label) (allowed : Label → Prop)
    (start final : State) : Prop :=
  ∃ labels, (∀ label ∈ labels, allowed label) ∧
    machine.run start labels = some final

theorem leads_refl (allowed : Label → Prop) (state : State) :
    machine.Leads allowed state state :=
  ⟨[], fun _ none => absurd none List.not_mem_nil, rfl⟩

theorem leads_of_step
    {allowed : Label → Prop} {state next : State} {label : Label}
    (fits : allowed label) (step : machine.step state label = some next) :
    machine.Leads allowed state next := by
  refine ⟨[label], ?_, machine.run_cons_eq_some.2 ⟨next, step, rfl⟩⟩
  intro other member
  rw [List.mem_singleton.1 member]
  exact fits

theorem Leads.trans
    {allowed : Label → Prop} {start middle final : State}
    (first : machine.Leads allowed start middle)
    (second : machine.Leads allowed middle final) :
    machine.Leads allowed start final := by
  rcases first with ⟨before, fitsBefore, left⟩
  rcases second with ⟨after, fitsAfter, right⟩
  refine ⟨before ++ after, ?_,
    machine.run_append_eq_some.2 ⟨middle, left, right⟩⟩
  intro label member
  rcases List.mem_append.1 member with earlier | later
  · exact fitsBefore label earlier
  · exact fitsAfter label later

/-- What the allowed steps keep is kept all the way. -/
theorem Leads.invariant
    {allowed : Label → Prop} {start final : State}
    (invariant : State → Prop)
    (kept : ∀ {state next : State} {label : Label}, invariant state →
      allowed label → machine.step state label = some next →
        invariant next)
    (leads : machine.Leads allowed start final)
    (initially : invariant start) : invariant final := by
  rcases leads with ⟨labels, fits, ran⟩
  apply run_invariant_of_allowed invariant (fun _ label => allowed label)
    kept initially _ ran
  intro before label after state split _
  apply fits
  rw [split]
  exact List.mem_append_right before List.mem_cons_self

/-- If there is always a way to the goal or to a smaller measure, there is
always a way to the goal. -/
theorem exists_leads_of_measure
    {allowed : Label → Prop}
    (invariant goal : State → Prop) (measure : State → ℕ)
    (kept : ∀ {state next : State} {label : Label}, invariant state →
      allowed label → machine.step state label = some next →
        invariant next)
    (progress : ∀ state, invariant state → ¬ goal state →
      ∃ next, machine.Leads allowed state next ∧
        (goal next ∨ measure next < measure state))
    (start : State) (initially : invariant start) :
    ∃ final, machine.Leads allowed start final ∧ goal final := by
  induction bound : measure start using Nat.strongRecOn
    generalizing start with
  | ind bound inductionHypothesis =>
      by_cases there : goal start
      · exact ⟨start, leads_refl allowed start, there⟩
      · rcases progress start initially there with
          ⟨next, leads, there | smaller⟩
        · exact ⟨next, leads, there⟩
        · have nextInvariant : invariant next :=
            leads.invariant invariant kept initially
          rcases inductionHypothesis (measure next) (bound ▸ smaller) next
            nextInvariant rfl with ⟨final, later, there⟩
          exact ⟨final, leads.trans later, there⟩

/-! ## Total machines -/

/-- The machine of a total step function. -/
def total (step : State → Label → State) : Machine State Label where
  step state label := some (step state label)

theorem run_total
    (step : State → Label → State) (start : State)
    (labels : List Label) :
    (total step).run start labels = some (labels.foldl step start) := by
  induction labels generalizing start with
  | nil => rfl
  | cons label labels inductionHypothesis =>
      exact inductionHypothesis (step start label)

end Machine

end ByteHub.Library
