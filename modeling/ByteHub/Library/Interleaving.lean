import ByteHub.Library.Machine

/-!
# Interleavings

Labels use resources.  Where labels that have no resource in common can be
exchanged, a run depends on nothing but what each resource sees of it: the
labels that use the resource, in their order.
-/

namespace ByteHub.Library.Machine

variable {State Label Resource : Type*}
variable {machine : Machine State Label} {uses : Resource → Label → Bool}

/-- Labels that have no resource in common can be exchanged. -/
def Exchanges
    (machine : Machine State Label) (uses : Resource → Label → Bool) :
    Prop :=
  ∀ state first second,
    (∀ resource, uses resource first = true →
      uses resource second = false) →
      machine.run state [first, second] = machine.run state [second, first]

/-- A label moves to the front of labels that have nothing in common with
it. -/
theorem Exchanges.run_front
    (exchanges : machine.Exchanges uses) {moved : Label}
    {before : List Label}
    (apart : ∀ label ∈ before, ∀ resource, uses resource moved = true →
      uses resource label = false)
    (state : State) (after : List Label) :
    machine.run state (before ++ moved :: after) =
      machine.run state (moved :: (before ++ after)) := by
  induction before generalizing state with
  | nil => rfl
  | cons label before inductionHypothesis =>
      have later (next : State) := inductionHypothesis
        (fun other member => apart other (List.mem_cons_of_mem _ member))
        next
      have here := exchanges state moved label
        (apart label List.mem_cons_self)
      calc
        machine.run state (label :: before ++ moved :: after)
        _ = machine.run state ([label, moved] ++ (before ++ after)) := by
          rw [List.cons_append, run]
          simp only [later]
          rfl
        _ = machine.run state ([moved, label] ++ (before ++ after)) := by
          rw [run_append, run_append, here]

/-- A label that each of its resources sees first stands behind labels that
have nothing in common with it. -/
theorem exists_front
    {label : Label} {labels : List Label}
    (used : ∃ resource, uses resource label = true)
    (first : ∀ resource, uses resource label = true →
      ∃ rest, labels.filter (uses resource) = label :: rest) :
    ∃ before after, labels = before ++ label :: after ∧
      ∀ other ∈ before, ∀ resource, uses resource label = true →
        uses resource other = false := by
  rcases used with ⟨resource, here⟩
  rcases first resource here with ⟨rest, seen⟩
  rcases List.filter_eq_cons_iff.1 seen with
    ⟨before, after, rfl, skipped, _, _⟩
  refine ⟨before, after, rfl, ?_⟩
  intro other member shared there
  by_contra taken
  rw [Bool.not_eq_false] at taken
  rcases first shared there with ⟨remaining, front⟩
  have sees : other ∈ before.filter (uses shared) :=
    List.mem_filter.2 ⟨member, taken⟩
  rw [List.filter_append] at front
  cases earlier : before.filter (uses shared) with
  | nil =>
      rw [earlier] at sees
      cases sees
  | cons head tail =>
      rw [earlier, List.cons_append] at front
      have kept : head ∈ before.filter (uses shared) := by
        rw [earlier]
        exact List.mem_cons_self
      have inside := (List.mem_filter.1 kept).1
      rw [(List.cons.inj front).1] at inside
      exact skipped label inside here

/-- Two lists of labels that look the same to every resource run alike. -/
theorem Exchanges.run_eq_of_seen
    (exchanges : machine.Exchanges uses)
    (used : ∀ label, ∃ resource, uses resource label = true)
    {first second : List Label}
    (same : ∀ resource,
      first.filter (uses resource) = second.filter (uses resource))
    (state : State) :
    machine.run state first = machine.run state second := by
  induction first generalizing second state with
  | nil =>
      cases second with
      | nil => rfl
      | cons label second =>
          rcases used label with ⟨resource, uses⟩
          have seen := same resource
          rw [List.filter_cons_of_pos uses] at seen
          cases seen
  | cons label first inductionHypothesis =>
      -- The second list has the label too, behind labels that have nothing
      -- in common with it.
      have leads : ∀ resource, uses resource label = true →
          ∃ rest, second.filter (uses resource) = label :: rest := by
        intro resource here
        refine ⟨first.filter (uses resource), ?_⟩
        rw [← same, List.filter_cons_of_pos here]
      rcases exists_front (used label) leads with
        ⟨before, after, rfl, apart⟩
      rw [exchanges.run_front apart, run, run]
      congr 1
      funext next
      apply inductionHypothesis
      intro resource
      have seen := same resource
      rw [List.filter_append] at seen ⊢
      by_cases here : uses resource label = true
      · have none : before.filter (uses resource) = [] := by
          rw [List.filter_eq_nil_iff]
          intro other member
          rw [apart other member resource here]
          exact Bool.false_ne_true
        rw [List.filter_cons_of_pos here, none, List.nil_append,
          List.filter_cons_of_pos here] at seen
        rw [none, List.nil_append]
        exact (List.cons.inj seen).2
      · rw [List.filter_cons_of_neg here, List.filter_cons_of_neg here]
          at seen
        exact seen

end ByteHub.Library.Machine
