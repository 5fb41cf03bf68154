import Mathlib.Data.List.Rotate

/-!
# Waiting lines

Items arrive one after another.  A caller turns the line by one, so that who
stood first stands last, and everyone else joins it at its end.  While nobody
calls, the line grows in the order of arrival; while nobody joins, it is
turned as often as somebody calls.
-/

namespace ByteHub.Library.WaitingLine

variable {α : Type*}

/-! ## The line -/

/-- A caller turns the line; everyone else joins it. -/
def serve (calls : α → Bool) (waiting : List α) (x : α) : List α :=
  if calls x then waiting.rotate 1 else waiting ++ [x]

/-- The line after all items have arrived. -/
def line (calls : α → Bool) (xs : List α) : List α :=
  xs.foldl (serve calls) []

section Line

variable {calls : α → Bool} {waiting : List α} {x : α} {xs : List α}

theorem serve_of_calls (call : calls x = true) :
    serve calls waiting x = waiting.rotate 1 :=
  if_pos call

theorem serve_of_joins (joins : calls x = false) :
    serve calls waiting x = waiting ++ [x] :=
  if_neg (by rw [joins]; exact Bool.false_ne_true)

theorem foldl_serve_perm :
    (xs.foldl (serve calls) waiting).Perm
      (waiting ++ xs.filter fun x => !calls x) := by
  induction xs generalizing waiting with
  | nil => simp
  | cons x xs ih =>
      rw [List.foldl_cons]
      refine ih.trans ?_
      cases call : calls x with
      | true =>
          rw [serve_of_calls call]
          simpa [call] using
            (List.rotate_perm waiting 1).append_right
              (xs.filter fun x => !calls x)
      | false =>
          rw [serve_of_joins call]
          simp [call]

/-- Those who do not call are in the line. -/
theorem line_perm : (line calls xs).Perm (xs.filter fun x => !calls x) :=
  foldl_serve_perm

theorem length_line_le : (line calls xs).length ≤ xs.length := by
  rw [line_perm.length_eq]
  exact List.length_filter_le _ xs

theorem mem_line_iff : x ∈ line calls xs ↔ x ∈ xs ∧ calls x = false := by
  rw [line_perm.mem_iff, List.mem_filter, Bool.not_eq_true']

/-- While everyone calls, the line is only turned. -/
theorem foldl_serve_of_calls (call : ∀ x ∈ xs, calls x = true) :
    xs.foldl (serve calls) waiting = waiting.rotate xs.length := by
  induction xs generalizing waiting with
  | nil => simp
  | cons x xs ih =>
      obtain ⟨here, later⟩ := List.forall_mem_cons.1 call
      rw [List.foldl_cons, serve_of_calls here, ih later,
        List.rotate_rotate, List.length_cons, Nat.add_comm]

/-- While nobody calls, everyone joins. -/
theorem foldl_serve_of_joins (joins : ∀ x ∈ xs, calls x = false) :
    xs.foldl (serve calls) waiting = waiting ++ xs := by
  induction xs generalizing waiting with
  | nil => simp
  | cons x xs ih =>
      obtain ⟨here, later⟩ := List.forall_mem_cons.1 joins
      rw [List.foldl_cons, serve_of_joins here, ih later,
        List.append_assoc, List.singleton_append]

/-- Those who arrive after the last caller stand last, as they came. -/
theorem line_append_of_joins
    {ys : List α} (joins : ∀ y ∈ ys, calls y = false) :
    line calls (xs ++ ys) = line calls xs ++ ys := by
  rw [line, List.foldl_append, foldl_serve_of_joins joins]
  rfl

end Line

end ByteHub.Library.WaitingLine
