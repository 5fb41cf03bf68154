import ByteHub.Io.BidiCopy

/-!
# Runs of a bidirectional copy

A run of the copy is polled by its caller and answered, operation by
operation, by the two streams.  Beside the copy it records for each
direction what has passed, whether all of it is flushed, and whether the
writer's shutdown was called, and which direction has failed in the current
poll.
-/

namespace ByteHub.Io

open ByteHub.Library

variable {B Error : Type}

theorem Side.eq_other {side other : Side} (differ : side ≠ other) :
    side = other.other := by
  cases side <;> cases other <;> first | rfl | exact (differ rfl).elim

theorem Side.other_injective {side other : Side}
    (equal : side.other = other.other) : side = other := by
  rw [← Side.other_other side, equal, Side.other_other]

/-! ## Runs -/

/-- The course of one direction. -/
structure Course where
  passed : Passed
  /-- A flush has succeeded since the last byte was accepted. -/
  flushed : Bool
  shutdownCalled : Bool

def Course.start : Course where
  passed := Passed.nothing
  flushed := false
  shutdownCalled := false

namespace TransferAnswer

/-- The answer is a flush that succeeds. -/
def flushes : TransferAnswer Error → Bool
  | .copy (.flush .ok) => true
  | _ => false

/-- The answer is one to a shutdown. -/
def isShutdown : TransferAnswer Error → Bool
  | .shutdown _ => true
  | _ => false

/-- The error an answer means; a writer that accepts nothing has failed. -/
def failure : TransferAnswer Error → Option (CopyError Error)
  | .copy (.read _ (.error error)) => some (.io error)
  | .copy (.write (.error error)) => some (.io error)
  | .copy (.write (.ok 0)) => some .writeZero
  | .copy (.flush (.error error)) => some (.io error)
  | .shutdown (.error error) => some (.io error)
  | _ => none

end TransferAnswer

/-- The course after one more operation. -/
def Course.after
    (course : Course) (passed : Passed) (answer : TransferAnswer Error) :
    Course where
  passed := course.passed.append passed
  flushed := answer.flushes || (course.flushed && passed.given.isEmpty)
  shutdownCalled := course.shutdownCalled || answer.isShutdown

/-- A copy, its current or last poll, and the course of its directions, each
under the stream it reads. -/
structure BidiRun (B Error : Type) where
  bidi : BidiCopy B
  /-- None before the first poll. -/
  status : Option (BidiStatus Error)
  course : Side → Course
  /-- The direction that has failed in this poll, and its error. -/
  failed : Option (Side × CopyError Error)

/-- The caller polls, or a stream answers. -/
inductive BidiLabel (Error : Type) where
  | poll
  | answer (answer : TransferAnswer Error)
deriving DecidableEq, Repr

namespace BidiRun

/-- A copy over two buffers, each under the stream it is filled from. -/
def start (buf : Side → B) : BidiRun B Error where
  bidi :=
    { aToB := .running (CopyBuffer.new (buf .a))
      bToA := .running (CopyBuffer.new (buf .b)) }
  status := none
  course _ := Course.start
  failed := none

/-- The operation the current poll waits for. -/
def op (run : BidiRun B Error) : Option IoOp :=
  match run.status with
  | some (.running point) =>
      (run.bidi.half point.reader).op point.point point.reader
  | _ => none

/-- The poll has returned. -/
def returned (run : BidiRun B Error) :
    Option (Poll (Except (CopyError Error) (UInt64 × UInt64))) :=
  match run.status with
  | some (.returned poll) => some poll
  | _ => none

variable [AsyncIOBuf B]

/-- Polls of a copy, each answered operation by operation. -/
def machine (brutal : Bool) : Machine (BidiRun B Error) (BidiLabel Error) where
  step run
    | .poll =>
        match run.status with
        | some (.running _) => none
        | _ =>
            some { run with
              status := some (run.bidi.poll brutal)
              failed := none }
    | .answer answer =>
        match run.status with
        | some (.running point) =>
            (run.bidi.step brutal point answer).map fun result =>
              let reader := point.reader
              let passed :=
                (run.bidi.half reader).passed point.point answer
              { bidi := result.1
                status := some result.2
                course := Function.update run.course reader
                  ((run.course reader).after passed answer)
                failed :=
                  answer.failure.map fun error => (reader, error) }
        | _ => none

/-- A poll begins where none is running, and an answer takes the direction
that is being polled one operation further. -/
theorem step_cases
    {brutal : Bool} {run next : BidiRun B Error} {label : BidiLabel Error}
    (stepped : (machine brutal).step run label = some next) :
    (label = .poll ∧ (∀ point, run.status ≠ some (.running point)) ∧
        next =
          { run with
            status := some (run.bidi.poll brutal)
            failed := none }) ∨
      ∃ point answer half status,
        label = .answer answer ∧ run.status = some (.running point) ∧
          (run.bidi.half point.reader).step point.point answer =
            some (half, status) ∧
          next =
            { bidi := run.bidi.setHalf point.reader half
              status :=
                some ((run.bidi.setHalf point.reader half).afterHalf brutal
                  point status)
              course := Function.update run.course point.reader
                ((run.course point.reader).after
                  ((run.bidi.half point.reader).passed point.point answer)
                  answer)
              failed :=
                answer.failure.map fun error => (point.reader, error) } := by
  cases label with
  | poll =>
      simp only [machine] at stepped
      split at stepped
      · cases stepped
      · next rests =>
        exact .inl ⟨rfl, rests, (Option.some.inj stepped).symm⟩
  | answer answer =>
      simp only [machine] at stepped
      split at stepped
      · next point waiting =>
        rcases Option.map_eq_some_iff.1 stepped with ⟨result, moved, rfl⟩
        rcases Option.map_eq_some_iff.1 moved with
          ⟨⟨half, status⟩, halved, rfl⟩
        exact .inr
          ⟨point, answer, half, status, rfl, waiting, halved, rfl⟩
      · cases stepped

end BidiRun

/-! ## What completion means -/

/-- Everything read in a direction up to its end was accepted and flushed. -/
structure Delivered (image : UInt8 → UInt8) (course : Course) : Prop where
  ended : course.passed.ended = true
  accepted : course.passed.given = course.passed.taken.map image
  flushed : course.flushed = true

/-- The count of a finished direction; none before it is finished. -/
def TransferState.finished : TransferState B → Option UInt64
  | .done count => some count
  | _ => none

/-- One component of the result of a poll. -/
def component (amounts : UInt64 × UInt64) : Side → UInt64
  | .a => amounts.1
  | .b => amounts.2

/-- What holds in every state of every run. -/
structure BidiRun.Completes [AsyncIOBuf B]
    (brutal : Bool) (image : Side → UInt8 → UInt8)
    (run : BidiRun B Error) : Prop where
  /-- The writer is shut down only after everything was delivered. -/
  shutdown_after : ∀ side, run.op = some (.shutdown side.other) →
    Delivered (image side) (run.course side)
  /-- No write follows a shutdown. -/
  no_write_after : ∀ side, (run.course side).shutdownCalled = true →
    run.op ≠ some (.write side.other)
  /-- A finished direction has delivered everything and shut its writer
  down, and its count is that of the bytes delivered. -/
  exact_count : ∀ side count,
    (run.bidi.half side).finished = some count →
      Delivered (image side) (run.course side) ∧
        (run.course side).passed.done = true ∧
        count = UInt64.ofNat (run.course side).passed.given.length
  /-- Later polls never restart a finished direction. -/
  stays_finished : ∀ side count,
    (run.bidi.half side).finished = some count →
      ∀ labels later, (machine brutal).run run labels = some later →
        (later.bidi.half side).finished = some count ∧
          later.course side = run.course side
  /-- In the graceful build the copy is ready when both directions are
  finished, with their counts. -/
  graceful : brutal = false → ∀ amounts,
    run.returned = some (.ready (.ok amounts)) →
      ∀ side, (run.bidi.half side).finished =
        some (component amounts side)
  /-- In the brutal build a poll that leaves a direction finished is ready,
  with the count of this direction unless the other one has failed in this
  poll. -/
  brutal_ready : brutal = true → ∀ poll, run.returned = some poll →
    ∀ side count, (run.bidi.half side).finished = some count →
      (∃ amounts, poll = .ready (.ok amounts) ∧
        component amounts side = count) ∨
      ∃ error, poll = .ready (.error error) ∧
        run.failed = some (side.other, error)
  /-- It is pending only while neither is finished. -/
  brutal_pending : brutal = true → run.returned = some .pending →
    ∀ side, (run.bidi.half side).finished = none
  /-- And it is ready only with a finished direction. -/
  brutal_ok : brutal = true → ∀ amounts,
    run.returned = some (.ready (.ok amounts)) →
      ∃ side, (run.bidi.half side).finished =
        some (component amounts side)
  /-- An error of a direction ends the poll, and the copy with it. -/
  fails : ∀ side error, run.failed = some (side, error) →
    run.returned = some (.ready (.error error))
  /-- There are no other errors. -/
  fails_only : ∀ error, run.returned = some (.ready (.error error)) →
    ∃ side, run.failed = some (side, error)

/-! ## One step of a direction -/

/-- Where a step of a direction leads, by the status it leaves. -/
def HalfStep
    (next : TransferState B) (answer : TransferAnswer Error) :
    CopyStatus Error → Prop
  | .running _ => answer.failure = none
  | .returned .pending => answer.failure = none ∧ next.finished = none
  | .returned (.ready (.ok count)) =>
      answer.failure = none ∧ next.finished = some count
  | .returned (.ready (.error error)) =>
      answer.failure = some error ∧ next.finished = none

section Half

variable [AsyncIOBuf B]

/-- How the status of a copy goes with the answer to its last operation; a
copy finishes with a flush. -/
def CopyKind (answer : CopyAnswer Error) : CopyStatus Error → Prop
  | .returned (.ready (.ok _)) => answer = .flush .ok
  | .returned (.ready (.error error)) =>
      (TransferAnswer.copy answer).failure = some error
  | _ => (TransferAnswer.copy answer).failure = none

theorem copyKind_afterRead
    {copy next : CopyBuffer B} {nanos : ℕ} {answer : ReadAnswer Error}
    {status : CopyStatus Error}
    (stepped : copy.afterRead nanos answer = some (next, status)) :
    CopyKind (.read nanos answer) status := by
  cases CopyBuffer.readOutcome_of_afterRead stepped <;> rfl

theorem copyKind_afterWrite
    {copy next : CopyBuffer B} {answer : WriteAnswer Error}
    {status : CopyStatus Error}
    (stepped : copy.afterWrite answer = some (next, status)) :
    CopyKind (.write answer) status := by
  cases CopyBuffer.writeOutcome_of_afterWrite stepped with
  | waits => rfl
  | fails error => rfl
  | writesNothing => rfl
  | drains written some within =>
      cases written with
      | zero => cases some
      | succ written => rfl

theorem copyKind_of_step
    {copy next : CopyBuffer B} {point : CopyPoint}
    {answer : CopyAnswer Error} {status : CopyStatus Error}
    (stepped : copy.step point answer = some (next, status)) :
    CopyKind answer status := by
  rcases CopyBuffer.step_cases stepped with
    ⟨nanos, read, _, rfl, answered⟩ | ⟨write, _, rfl, answered⟩ |
      ⟨flush, _, rfl, answered⟩ | ⟨flush, _, rfl, answered⟩
  · exact copyKind_afterRead answered
  · exact copyKind_afterWrite answered
  · cases flush <;> cases answered <;> rfl
  · cases flush <;> cases answered <;> rfl

/-- Where a step of a direction leads. -/
theorem halfStep_of_step
    {state next : TransferState B} {point : CopyPoint}
    {answer : TransferAnswer Error} {status : CopyStatus Error}
    (stepped : state.step point answer = some (next, status)) :
    HalfStep next answer status := by
  unfold TransferState.step at stepped
  split at stepped
  · next copy answer =>
    rcases Option.map_eq_some_iff.1 stepped with
      ⟨⟨copied, copyStatus⟩, answered, made⟩
    have kind := copyKind_of_step answered
    rcases copyStatus with point' | (_ | (error | count))
    · cases made
      exact kind
    · cases made
      exact ⟨kind, rfl⟩
    · cases made
      exact ⟨kind, rfl⟩
    · cases made
      rw [show answer = .flush .ok from kind]
      rfl
  · cases stepped
    exact ⟨rfl, rfl⟩
  · cases stepped
    exact ⟨rfl, rfl⟩
  · cases stepped
    exact ⟨rfl, rfl⟩
  · cases stepped

variable [LawfulIOBuf B]

/-- The books of a direction and of its course. -/
structure CourseBooks
    (state : TransferState B) (image : UInt8 → UInt8) (capacity : ℕ)
    (course : Course) : Prop where
  books : TransferBooks state image capacity course.passed
  flushed : (∀ copy, state ≠ .running copy) → course.flushed = true
  early : ∀ copy, state = .running copy → course.shutdownCalled = false

theorem courseBooks_step
    {state next : TransferState B} {image : UInt8 → UInt8}
    {capacity : ℕ} {course : Course} {point : CopyPoint}
    {answer : TransferAnswer Error} {status : CopyStatus Error}
    (kept : CourseBooks state image capacity course)
    (nonempty : 0 < capacity)
    (stepped : state.step point answer = some (next, status)) :
    CourseBooks next image capacity
      (course.after (state.passed point answer) answer) := by
  have books := transferBooks_step kept.books nonempty stepped
  unfold TransferState.step at stepped
  split at stepped
  · next copy answer =>
    rcases Option.map_eq_some_iff.1 stepped with
      ⟨⟨copied, copyStatus⟩, answered, made⟩
    have kind := copyKind_of_step answered
    have early : (course.after
        (TransferState.passed (.running copy) point (.copy answer))
        (.copy answer)).shutdownCalled = false := by
      simp [Course.after, kept.early copy rfl, TransferAnswer.isShutdown]
    rcases copyStatus with point' | (_ | (error | count))
    · cases made
      exact ⟨books, fun other => (other _ rfl).elim, fun _ _ => early⟩
    · cases made
      exact ⟨books, fun other => (other _ rfl).elim, fun _ _ => early⟩
    · cases made
      exact ⟨books, fun other => (other _ rfl).elim, fun _ _ => early⟩
    · cases made
      refine ⟨books, fun _ => ?_, fun _ running => by cases running⟩
      rw [show answer = .flush .ok from kind]
      rfl
  all_goals cases stepped
  all_goals
    refine ⟨books, fun _ => ?_, fun _ running => by cases running⟩
    have flushed := kept.flushed fun _ running => by cases running
    simp [Course.after, flushed, TransferState.passed, Passed.nothing]

end Half

end ByteHub.Io
