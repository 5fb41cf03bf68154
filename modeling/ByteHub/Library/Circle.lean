import Mathlib.Data.Set.Card
import Mathlib.Data.Set.Finite.Lemmas

/-!
# Arcs of a circle

Finitely many of the positions around a circle are taken.  From any position
one goes clockwise to the nearest one that is taken.  Those who come to the
same one are the arc that ends there, and begins just after the taken
position before it.
-/

namespace ByteHub.Library

variable {α : Type*}

/-- Positions around a circle: how many steps it is clockwise from one to
another. -/
structure Circle (α : Type*) where
  size : ℕ
  steps : α → α → ℕ
  steps_lt : ∀ a b, steps a b < size
  eq_of_steps : ∀ {a b}, steps a b = 0 → a = b
  /-- A way over a third position is as long, or once round longer. -/
  steps_via : ∀ a b c,
    steps a b + steps b c = steps a c ∨
      steps a b + steps b c = steps a c + size
  exists_steps : ∀ {count}, count < size → ∀ b, ∃ a, steps a b = count

namespace Circle

variable (circle : Circle α)

/-- How many steps it is to the end of an arc from what lies before it; once
round, if that is the end itself. -/
def length (before last : α) : ℕ :=
  if circle.steps before last = 0 then circle.size
  else circle.steps before last

/-- The positions after one up to another. -/
def arc (before last : α) : Set α :=
  {position | circle.steps position last < circle.length before last}

/-- The taken position that one comes to clockwise. -/
def Nearest (taken : Set α) (start last : α) : Prop :=
  last ∈ taken ∧ ∀ other ∈ taken,
    circle.steps start last ≤ circle.steps start other

/-- No position is taken between this one and the other. -/
def Precedes (taken : Set α) (before last : α) : Prop :=
  before ∈ taken ∧ ∀ other ∈ taken, other ∈ circle.arc before last →
    other = last

variable {circle} {taken : Set α} {start before last : α}

/-! ## Steps -/

@[simp]
theorem steps_self (position : α) : circle.steps position position = 0 := by
  have bounded := circle.steps_lt position position
  rcases circle.steps_via position position position with round | round
  · omega
  · omega

theorem steps_injective (last : α) :
    Function.Injective fun position => circle.steps position last := by
  intro first second same
  dsimp only at same
  have bounded := circle.steps_lt first second
  apply circle.eq_of_steps
  rcases circle.steps_via first second last with round | round
  · omega
  · omega

/-! ## Arcs -/

theorem length_self (position : α) :
    circle.length position position = circle.size :=
  if_pos (steps_self position)

theorem length_of_ne (differ : before ≠ last) :
    circle.length before last = circle.steps before last :=
  if_neg fun zero => differ (circle.eq_of_steps zero)

theorem length_le (before last : α) :
    circle.length before last ≤ circle.size := by
  rw [length]
  split
  · exact Nat.le_refl _
  · exact Nat.le_of_lt (circle.steps_lt before last)

theorem length_eq_size :
    circle.length before last = circle.size ↔ before = last := by
  constructor
  · intro whole
    by_contra differ
    have bounded := circle.steps_lt before last
    rw [length_of_ne differ] at whole
    omega
  · rintro rfl
    exact length_self before

theorem length_injective (last : α) :
    Function.Injective fun before => circle.length before last := by
  intro first second same
  dsimp only at same
  by_cases whole : first = last
  · subst whole
    rw [length_self] at same
    exact (length_eq_size.1 same.symm).symm
  · have part : second ≠ last := by
      rintro rfl
      rw [length_self] at same
      exact whole (length_eq_size.1 same)
    rw [length_of_ne whole, length_of_ne part] at same
    exact steps_injective last same

/-- An arc has as many positions as it is long. -/
theorem ncard_arc (before last : α) :
    (circle.arc before last).ncard = circle.length before last := by
  have counted :
      (fun position => circle.steps position last) ''
          circle.arc before last =
        Set.Iio (circle.length before last) := by
    ext count
    constructor
    · rintro ⟨position, inside, rfl⟩
      exact inside
    · intro inside
      rcases circle.exists_steps
          (Nat.lt_of_lt_of_le inside (length_le before last)) last with
        ⟨position, rfl⟩
      exact ⟨position, inside, rfl⟩
  rw [← Set.ncard_image_of_injective _ (steps_injective last), counted,
    ← Finset.coe_range, Set.ncard_coe_finset, Finset.card_range]

/-! ## Neighbours -/

/-- Of the taken positions the nearest one before a position is the one with
the shortest arc. -/
theorem exists_precedes (finite : taken.Finite) (isTaken : last ∈ taken) :
    ∃ before, circle.Precedes taken before last := by
  rcases taken.exists_min_image (fun before => circle.length before last)
      finite ⟨last, isTaken⟩ with ⟨before, member, shortest⟩
  refine ⟨before, member, ?_⟩
  intro other there inside
  by_contra differ
  have shorter := shortest other there
  rw [length_of_ne differ] at shorter
  exact Nat.not_lt.2 shorter inside

/-- A taken position with a longer arc is not the one before. -/
theorem Precedes.length_le
    (precedes : circle.Precedes taken before last) {other : α}
    (there : other ∈ taken) :
    circle.length before last ≤ circle.length other last := by
  by_cases same : other = last
  · subst same
    rw [length_self]
    exact Circle.length_le before other
  · by_contra shorter
    rw [length_of_ne same, Nat.not_le] at shorter
    exact same (precedes.2 other there shorter)

theorem existsUnique_precedes
    (finite : taken.Finite) (isTaken : last ∈ taken) :
    ∃! before, circle.Precedes taken before last := by
  rcases exists_precedes finite isTaken with ⟨before, precedes⟩
  refine ⟨before, precedes, ?_⟩
  intro other precedes'
  apply length_injective last
  exact Nat.le_antisymm (precedes'.length_le precedes.1)
    (precedes.length_le precedes'.1)

/-- One comes to a taken position from the arc that ends there, and from
nowhere else. -/
theorem Precedes.nearest_iff
    (precedes : circle.Precedes taken before last)
    (isTaken : last ∈ taken) :
    circle.Nearest taken start last ↔ start ∈ circle.arc before last := by
  have bounded := circle.steps_lt start last
  constructor
  · rintro ⟨_, nearest⟩
    change circle.steps start last < circle.length before last
    by_cases same : before = last
    · rw [same, length_self]
      exact bounded
    · have first := nearest before precedes.1
      have past := circle.steps_lt start before
      have apart : circle.steps before last ≠ 0 :=
        fun zero => same (circle.eq_of_steps zero)
      rw [length_of_ne same]
      rcases circle.steps_via start before last with round | round
      · omega
      · omega
  · intro inside
    change circle.steps start last < circle.length before last at inside
    refine ⟨isTaken, ?_⟩
    intro other there
    by_contra nearer
    -- The way over a nearer one ends in the arc, so that one is the end.
    have between :
        circle.steps other last ≤ circle.steps start last := by
      have inRange := circle.steps_lt other last
      rcases circle.steps_via start other last with round | round
      · omega
      · omega
    have same :=
      precedes.2 other there (Nat.lt_of_le_of_lt between inside)
    subst same
    exact nearer (Nat.le_refl _)

end Circle

end ByteHub.Library
