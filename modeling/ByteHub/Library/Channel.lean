import Mathlib.Data.List.Basic

/-!
# Reliable ordered channels

A channel keeps what its reader has received and what is still on the way.
Items are pushed at one end until it is closed, and pulled at the other end in
the same order; the reader meets the end once the channel is closed and
empty.
-/

namespace ByteHub.Library

structure Channel (Item : Type*) where
  received : List Item
  pending : List Item
  closed : Bool
deriving Repr

namespace Channel

variable {Item : Type*}

def empty : Channel Item where
  received := []
  pending := []
  closed := false

/-- Everything ever pushed. -/
def sent (channel : Channel Item) : List Item :=
  channel.received ++ channel.pending

/-- The reader meets the end. -/
def AtEnd (channel : Channel Item) : Prop :=
  channel.closed = true ∧ channel.pending = []

instance (channel : Channel Item) : Decidable channel.AtEnd :=
  decidable_of_iff (channel.closed = true ∧ channel.pending.isEmpty = true)
    (by rw [AtEnd, List.isEmpty_iff])

/-- Items enter an open channel. -/
def push (channel : Channel Item) (items : List Item) :
    Option (Channel Item) :=
  if items.isEmpty then some channel
  else if channel.closed then none
  else some { channel with pending := channel.pending ++ items }

/-- The next items leave. -/
def pull [DecidableEq Item] (channel : Channel Item) (items : List Item) :
    Option (Channel Item) :=
  if items <+: channel.pending then
    some { channel with
      received := channel.received ++ items
      pending := channel.pending.drop items.length }
  else none

def close (channel : Channel Item) : Channel Item :=
  { channel with closed := true }

theorem received_prefix_sent (channel : Channel Item) :
    channel.received <+: channel.sent :=
  List.prefix_append _ _

theorem AtEnd.received_eq
    {channel : Channel Item} (atEnd : channel.AtEnd) :
    channel.received = channel.sent := by
  rw [sent, atEnd.2, List.append_nil]

@[simp]
theorem sent_close (channel : Channel Item) :
    channel.close.sent = channel.sent :=
  rfl

@[simp]
theorem received_close (channel : Channel Item) :
    channel.close.received = channel.received :=
  rfl

theorem AtEnd.close
    {channel : Channel Item} (atEnd : channel.AtEnd) :
    channel.close.AtEnd :=
  ⟨rfl, atEnd.2⟩

section Push

variable {channel next : Channel Item} {items : List Item}

theorem sent_push (pushed : channel.push items = some next) :
    next.sent = channel.sent ++ items := by
  unfold push at pushed
  split at pushed
  · next none =>
    cases pushed
    rw [List.isEmpty_iff.1 none, List.append_nil]
  · split at pushed
    · cases pushed
    · cases pushed
      simp [sent]

theorem received_push (pushed : channel.push items = some next) :
    next.received = channel.received := by
  unfold push at pushed
  split at pushed
  · cases pushed
    rfl
  · split at pushed <;> cases pushed
    rfl

/-- Nothing enters behind the end. -/
theorem AtEnd.push
    (atEnd : channel.AtEnd) (pushed : channel.push items = some next) :
    next.AtEnd := by
  unfold Channel.push at pushed
  split at pushed
  · cases pushed
    exact atEnd
  · rw [if_pos atEnd.1] at pushed
    cases pushed

@[simp]
theorem push_nil (channel : Channel Item) : channel.push [] = some channel :=
  rfl

/-- An open channel takes everything. -/
theorem exists_push
    (isOpen : channel.closed = false) (items : List Item) :
    ∃ next, channel.push items = some next := by
  unfold push
  split
  · exact ⟨channel, rfl⟩
  · rw [isOpen, if_neg Bool.false_ne_true]
    exact ⟨_, rfl⟩

theorem closed_push (pushed : channel.push items = some next) :
    next.closed = channel.closed := by
  unfold push at pushed
  split at pushed
  · cases pushed
    rfl
  · split at pushed <;> cases pushed
    rfl

end Push

section Pull

variable [DecidableEq Item]
variable {channel next : Channel Item} {items : List Item}

theorem received_pull (pulled : channel.pull items = some next) :
    next.received = channel.received ++ items := by
  unfold pull at pulled
  split at pulled <;> cases pulled
  rfl

theorem sent_pull (pulled : channel.pull items = some next) :
    next.sent = channel.sent := by
  unfold pull at pulled
  split at pulled
  · next isPrefix =>
    cases pulled
    rcases isPrefix with ⟨rest, pending⟩
    rw [sent, sent, ← pending, List.append_assoc, List.drop_left]
  · cases pulled

theorem AtEnd.pull
    (atEnd : channel.AtEnd) (pulled : channel.pull items = some next) :
    next.AtEnd := by
  unfold Channel.pull at pulled
  split at pulled <;> cases pulled
  exact ⟨atEnd.1, by rw [atEnd.2, List.drop_nil]⟩

theorem closed_pull (pulled : channel.pull items = some next) :
    next.closed = channel.closed := by
  unfold pull at pulled
  split at pulled <;> cases pulled
  rfl

theorem length_pending_pull (pulled : channel.pull items = some next) :
    items.length + next.pending.length = channel.pending.length := by
  unfold pull at pulled
  split at pulled
  · next isPrefix =>
    cases pulled
    rw [List.length_drop]
    have fits := isPrefix.length_le
    omega
  · cases pulled

@[simp]
theorem pull_nil (channel : Channel Item) :
    channel.pull [] = some channel := by
  rw [pull, if_pos List.nil_prefix, List.append_nil]
  rfl

/-- Some of what is on the way can be pulled. -/
theorem exists_pull_take (channel : Channel Item) (n : ℕ) :
    ∃ next, channel.pull (channel.pending.take n) = some next := by
  rw [pull, if_pos (List.take_prefix n channel.pending)]
  exact ⟨_, rfl⟩

end Pull

end Channel

end ByteHub.Library
