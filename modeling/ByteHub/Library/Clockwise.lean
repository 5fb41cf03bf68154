import Mathlib.Data.List.Rotate

/-!
# The first item clockwise

A list read as a ring.  From a place the items are met in clockwise order,
with the front following the end, and one looks for the first that passes a
test.  That item stays the first when other items cease to pass.
-/

namespace ByteHub.Library.Clockwise

variable {α : Type*}
variable {items : List α} {start : ℕ} {accepts accepts' : α → Prop}
variable {item other : α}

/-- The first item clockwise from a place that passes a test. -/
def First
    (items : List α) (start : ℕ) (accepts : α → Prop) (item : α) : Prop :=
  ∃ offset < items.length,
    items[(start + offset) % items.length]? = some item ∧
    accepts item ∧
    ∀ earlier < offset, ∀ other,
      items[(start + earlier) % items.length]? = some other →
        ¬ accepts other

theorem First.accepted (first : First items start accepts item) :
    accepts item := by
  rcases first with ⟨_, _, _, here, _⟩
  exact here

theorem First.mem (first : First items start accepts item) :
    item ∈ items := by
  rcases first with ⟨_, _, here, _⟩
  exact List.mem_of_getElem? here

/-- There is only one first item. -/
theorem First.unique
    (first : First items start accepts item)
    (first' : First items start accepts other) : item = other := by
  rcases first with ⟨offset, _, here, good, none⟩
  rcases first' with ⟨offset', _, here', good', none'⟩
  rcases Nat.lt_trichotomy offset offset' with before | rfl | after
  · exact (none' offset before item here good).elim
  · exact Option.some.inj (here.symm.trans here')
  · exact (none offset' after other here' good').elim

/-- Fewer items pass, and the first one still does. -/
theorem First.mono
    (first : First items start accepts item)
    (fewer : ∀ item ∈ items, accepts' item → accepts item)
    (stays : accepts' item) : First items start accepts' item := by
  rcases first with ⟨offset, inside, here, _, none⟩
  refine ⟨offset, inside, here, stays, ?_⟩
  intro earlier before other there good
  exact none earlier before other there
    (fewer other (List.mem_of_getElem? there) good)

/-- The first item clockwise is what a walk along the rotated ring finds. -/
theorem first_of_find?
    {test : α → Bool}
    (found : (items.rotate start).find? test = some item) :
    First items start (fun item => test item = true) item := by
  rcases List.find?_eq_some_iff_getElem.1 found with
    ⟨good, offset, inside, here, none⟩
  have inside' : offset < items.length :=
    List.length_rotate items start ▸ inside
  have seen {place : ℕ} (within : place < items.length) :
      items[(start + place) % items.length]? =
        (items.rotate start)[place]? := by
    rw [List.getElem?_rotate within, Nat.add_comm]
  refine ⟨offset, inside', ?_, good, ?_⟩
  · rw [seen inside', List.getElem?_eq_getElem inside, here]
  · intro earlier before other there passed
    have within := Nat.lt_trans before inside'
    rw [seen within, List.getElem?_eq_getElem (Nat.lt_trans before inside),
      Option.some.injEq] at there
    have skipped := none earlier before
    rw [there, passed] at skipped
    cases skipped

end ByteHub.Library.Clockwise
