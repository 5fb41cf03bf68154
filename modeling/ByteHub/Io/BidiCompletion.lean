import ByteHub.Io.BidiRun

/-!
# Completion of a bidirectional copy

The status of a poll agrees at every moment with the states of the two
directions, and each direction keeps its books.  From this follows when a
writer is shut down, what the counts are, and when a poll is ready in either
build.
-/

namespace ByteHub.Io

open ByteHub.Library

variable {B Error : Type}

/-! ## The status of a poll -/

/-- The result of a direction that has not failed, from its count. -/
def pollOf : Option UInt64 → Poll UInt64
  | some count => .ready count
  | none => .pending

/-- How the status of a poll goes with the states of the directions. -/
inductive Agrees (brutal : Bool) (bidi : BidiCopy B) :
    Option (BidiStatus Error) → Option (Side × CopyError Error) → Prop
  | idle : Agrees brutal bidi none none
  | first {point : CopyPoint} :
      Agrees brutal bidi (some (.running (.aToB point))) none
  | second {point : CopyPoint} {result : Poll UInt64} :
      result = pollOf bidi.aToB.finished →
        Agrees brutal bidi (some (.running (.bToA result point))) none
  | returned {poll : Poll (Except (CopyError Error) (UInt64 × UInt64))} :
      BidiCopy.finish brutal (pollOf bidi.aToB.finished)
          (pollOf bidi.bToA.finished) = .returned poll →
        Agrees brutal bidi (some (.returned poll)) none
  | failed {side : Side} {error : CopyError Error} :
      (bidi.half side).finished = none →
        Agrees brutal bidi (some (.returned (.ready (.error error))))
          (some (side, error))

section Status

variable {brutal : Bool} {bidi : BidiCopy B}

theorem agrees_finish
    {first second : Poll UInt64}
    (firstEq : first = pollOf bidi.aToB.finished)
    (secondEq : second = pollOf bidi.bToA.finished) :
    Agrees brutal bidi
      (some (BidiCopy.finish brutal first second : BidiStatus Error))
      none := by
  have settled :
      ∃ poll, (BidiCopy.finish brutal first second : BidiStatus Error) =
        .returned poll := by
    cases first <;> cases second <;> cases brutal <;> exact ⟨_, rfl⟩
  rcases settled with ⟨poll, equal⟩
  rw [equal]
  apply Agrees.returned
  rw [← firstEq, ← secondEq, equal]

theorem agrees_second
    {first : Poll UInt64}
    (firstEq : first = pollOf bidi.aToB.finished) :
    Agrees brutal bidi
      (some (bidi.second brutal first : BidiStatus Error)) none := by
  unfold BidiCopy.second
  split
  · next count isDone =>
    apply agrees_finish firstEq
    rw [isDone]
    rfl
  · exact .second firstEq

theorem agrees_poll :
    Agrees brutal bidi (some (bidi.poll brutal : BidiStatus Error))
      none := by
  unfold BidiCopy.poll
  split
  · next count isDone =>
    apply agrees_second
    rw [isDone]
    rfl
  · exact .first

variable {answer : TransferAnswer Error} {next : TransferState B}
variable {status : CopyStatus Error}

theorem agrees_afterFirst (stepped : HalfStep next answer status) :
    Agrees brutal { bidi with aToB := next }
      (some ({ bidi with aToB := next }.afterFirst brutal status))
      (answer.failure.map fun error => (.a, error)) := by
  rcases status with point' | (_ | (error | count))
  · rw [show answer.failure = none from stepped]
    exact .first
  · rw [stepped.1]
    apply agrees_second
    rw [stepped.2]
    rfl
  · rw [stepped.1]
    exact .failed stepped.2
  · rw [stepped.1]
    apply agrees_second
    rw [stepped.2]
    rfl

theorem agrees_afterSecond
    {first : Poll UInt64}
    (firstEq : first = pollOf bidi.aToB.finished)
    (stepped : HalfStep next answer status) :
    Agrees brutal { bidi with bToA := next }
      (some (BidiCopy.afterSecond brutal first status))
      (answer.failure.map fun error => (.b, error)) := by
  have firstKept :
      first = pollOf ({ bidi with bToA := next } : BidiCopy B).aToB.finished :=
    firstEq
  rcases status with point' | (_ | (error | count))
  · rw [show answer.failure = none from stepped]
    exact .second firstEq
  · rw [stepped.1]
    apply agrees_finish firstKept
    rw [stepped.2]
    rfl
  · rw [stepped.1]
    exact .failed stepped.2
  · rw [stepped.1]
    apply agrees_finish firstKept
    rw [stepped.2]
    rfl

/-- The status after a step of the direction being polled. -/
theorem agrees_afterHalf
    {point : BidiPoint} {failed : Option (Side × CopyError Error)}
    (before : Agrees brutal bidi (some (.running point)) failed)
    (stepped : HalfStep next answer status) :
    Agrees brutal (bidi.setHalf point.reader next)
      (some ((bidi.setHalf point.reader next).afterHalf brutal point status))
      (answer.failure.map fun error => (point.reader, error)) := by
  cases before with
  | first => exact agrees_afterFirst stepped
  | second firstEq => exact agrees_afterSecond firstEq stepped

end Status

/-! ## The invariant -/

namespace BidiRun

variable [AsyncIOBuf B] [LawfulIOBuf B]

/-- The books of both directions, and a status that agrees with them. -/
structure Inv
    (brutal : Bool) (image : Side → UInt8 → UInt8) (capacity : Side → ℕ)
    (run : BidiRun B Error) : Prop where
  books : ∀ side, CourseBooks (run.bidi.half side) (image side)
    (capacity side) (run.course side)
  agrees : Agrees brutal run.bidi run.status run.failed

variable {brutal : Bool} {image : Side → UInt8 → UInt8}
variable {capacity : Side → ℕ} {run next : BidiRun B Error}

theorem inv_start
    {buf : Side → B} (valid : ∀ side, LawfulIOBuf.Valid (buf side) 0 0) :
    Inv brutal (fun side => LawfulIOBuf.image (buf side))
      (fun side => AsyncIOBuf.capacity (buf side))
      (start buf : BidiRun B Error) where
  books side := by
    have books :
        TransferBooks (.running (CopyBuffer.new (buf side)))
          (LawfulIOBuf.image (buf side)) (AsyncIOBuf.capacity (buf side))
          Passed.nothing :=
      transferBooks_new (valid side)
    cases side <;>
      exact {
        books := books
        flushed := fun other => (other _ rfl).elim
        early := fun _ _ => rfl }
  agrees := .idle

theorem inv_step
    {label : BidiLabel Error} (nonempty : ∀ side, 0 < capacity side)
    (inv : Inv brutal image capacity run)
    (stepped : (machine brutal).step run label = some next) :
    Inv brutal image capacity next := by
  rcases step_cases stepped with
    ⟨_, _, rfl⟩ | ⟨point, answer, half, status, _, waiting, halved, rfl⟩
  · exact { books := inv.books, agrees := agrees_poll }
  · have agrees := inv.agrees
    rw [waiting] at agrees
    constructor
    · intro side
      have kept := courseBooks_step (inv.books point.reader)
        (nonempty point.reader) halved
      by_cases same : side = point.reader
      · subst same
        simpa using kept
      · have opposite : side = point.reader.other :=
          Side.eq_other same
        have untouched := inv.books point.reader.other
        subst opposite
        simpa [Function.update_of_ne same] using untouched
    · exact agrees_afterHalf agrees (halfStep_of_step halved)

/-! ## The invariant says that the copy completes -/

omit [AsyncIOBuf B] [LawfulIOBuf B] in
/-- The operation a poll waits for is one of the direction being polled. -/
theorem op_eq_some
    {op : IoOp} (waits : run.op = some op) :
    ∃ point : BidiPoint,
      (run.bidi.half point.reader).op point.point point.reader =
        some op := by
  unfold BidiRun.op at waits
  split at waits
  · next point waiting => exact ⟨point, waits⟩
  · cases waits

omit [AsyncIOBuf B] [LawfulIOBuf B] in
/-- A shutdown is called by a direction that has copied everything. -/
theorem shuttingDown_of_op
    {side : Side} (waits : run.op = some (.shutdown side.other)) :
    ∃ count, run.bidi.half side = .shuttingDown count := by
  rcases op_eq_some waits with ⟨point, waits⟩
  cases state : run.bidi.half point.reader with
  | running copy =>
      rw [state] at waits
      rcases Option.map_eq_some_iff.1 waits with ⟨op, _, equal⟩
      cases op <;> cases equal
  | shuttingDown count =>
      rw [state] at waits
      injection waits with equal
      injection equal with equal
      exact ⟨count, Side.other_injective equal ▸ state⟩
  | done count =>
      rw [state] at waits
      cases waits

omit [AsyncIOBuf B] [LawfulIOBuf B] in
/-- A write is issued by a direction that is still copying, and has
something to write. -/
theorem running_of_op
    {side : Side} (waits : run.op = some (.write side.other)) :
    ∃ copy, run.bidi.half side = .running copy ∧ copy.pos < copy.cap := by
  rcases op_eq_some waits with ⟨point, waits⟩
  cases state : run.bidi.half point.reader with
  | running copy =>
      rw [state] at waits
      rcases Option.map_eq_some_iff.1 waits with ⟨op, arrived, equal⟩
      cases op with
      | write =>
          injection equal with equal
          exact ⟨copy, Side.other_injective equal ▸ state,
            CopyBuffer.op_write arrived⟩
      | read => cases equal
      | idleFlush => cases equal
      | finalFlush => cases equal
  | shuttingDown count =>
      rw [state] at waits
      cases waits
  | done count =>
      rw [state] at waits
      cases waits

/-- What is to be written is held. -/
theorem Inv.holds_of_op
    (inv : Inv brutal image capacity run) {side : Side}
    (waits : run.op = some (.write side.other)) :
    (run.bidi.half side).held ≠ [] := by
  rcases running_of_op waits with ⟨copy, state, some_⟩
  have books := (inv.books side).books
  rw [state] at books ⊢
  intro none
  have length := LawfulIOBuf.slice_length books.1.valid
  have empty : AsyncIOBuf.slice copy.buf copy.pos copy.cap = [] := none
  rw [empty, List.length_nil] at length
  omega

theorem Inv.shutdown_after
    (inv : Inv brutal image capacity run) {side : Side}
    (waits : run.op = some (.shutdown side.other)) :
    Delivered (image side) (run.course side) := by
  rcases shuttingDown_of_op waits with ⟨count, state⟩
  have kept := inv.books side
  rw [state] at kept
  rcases kept.books with ⟨given, ended, _, _⟩
  exact ⟨ended, given, kept.flushed fun _ running => by cases running⟩

theorem Inv.no_write_after
    (inv : Inv brutal image capacity run) {side : Side}
    (called : (run.course side).shutdownCalled = true) :
    run.op ≠ some (.write side.other) := by
  intro waits
  rcases running_of_op waits with ⟨copy, state, _⟩
  rw [(inv.books side).early copy state] at called
  cases called

omit [AsyncIOBuf B] [LawfulIOBuf B] in
theorem done_of_finished
    {state : TransferState B} {count : UInt64}
    (finished : state.finished = some count) : state = .done count := by
  cases state <;> cases finished
  rfl

theorem Inv.exact_count
    (inv : Inv brutal image capacity run) {side : Side} {count : UInt64}
    (finished : (run.bidi.half side).finished = some count) :
    Delivered (image side) (run.course side) ∧
      (run.course side).passed.done = true ∧
      count = UInt64.ofNat (run.course side).passed.given.length := by
  have kept := inv.books side
  rw [done_of_finished finished] at kept
  rcases kept.books with ⟨given, ended, isDone, amount⟩
  have flushed := kept.flushed fun _ running => by cases running
  exact ⟨⟨ended, given, flushed⟩, isDone, amount⟩

omit [LawfulIOBuf B] in
/-- A step leaves a finished direction as it is. -/
theorem finished_step
    {label : BidiLabel Error} {side : Side} {count : UInt64}
    {course : Course}
    (kept : (run.bidi.half side).finished = some count ∧
      run.course side = course)
    (stepped : (machine brutal).step run label = some next) :
    (next.bidi.half side).finished = some count ∧
      next.course side = course := by
  rcases step_cases stepped with
    ⟨_, _, rfl⟩ | ⟨point, answer, half, status, _, _, halved, rfl⟩
  · exact kept
  · have other : side ≠ point.reader := by
      rintro rfl
      rw [done_of_finished kept.1] at halved
      simp [TransferState.step] at halved
    have opposite : side = point.reader.other :=
      Side.eq_other other
    subst opposite
    simpa [Function.update_of_ne other] using kept

omit [AsyncIOBuf B] [LawfulIOBuf B] in
/-- A returned poll combines the directions, unless one has failed. -/
theorem returned_cases
    {poll : Poll (Except (CopyError Error) (UInt64 × UInt64))}
    (agrees : Agrees brutal run.bidi run.status run.failed)
    (returned : run.returned = some poll) :
    (run.failed = none ∧
      BidiCopy.finish brutal (pollOf run.bidi.aToB.finished)
        (pollOf run.bidi.bToA.finished) = .returned poll) ∨
    ∃ side error, run.failed = some (side, error) ∧
      poll = .ready (.error error) ∧
      (run.bidi.half side).finished = none := by
  unfold BidiRun.returned at returned
  generalize run.failed = failed at agrees ⊢
  split at returned
  · next other status =>
    cases returned
    rw [status] at agrees
    cases agrees with
    | returned combined => exact .inl ⟨rfl, combined⟩
    | failed unfinished => exact .inr ⟨_, _, rfl, rfl, unfinished⟩
  · cases returned

omit [AsyncIOBuf B] [LawfulIOBuf B] in
theorem failed_returned
    {side : Side} {error : CopyError Error}
    (agrees : Agrees brutal run.bidi run.status run.failed)
    (failed : run.failed = some (side, error)) :
    run.returned = some (.ready (.error error)) := by
  unfold BidiRun.returned
  rw [failed] at agrees
  generalize run.status = status at agrees ⊢
  cases agrees with
  | failed unfinished => rfl

end BidiRun

section Finish

variable {aToB bToA : Option UInt64} {amounts : UInt64 × UInt64}

theorem finish_graceful
    (finished :
      (BidiCopy.finish false (pollOf aToB) (pollOf bToA) :
        BidiStatus Error) = .returned (.ready (.ok amounts))) :
    aToB = some amounts.1 ∧ bToA = some amounts.2 := by
  cases aToB <;> cases bToA <;> cases finished
  exact ⟨rfl, rfl⟩

theorem finish_ne_error
    {brutal : Bool} {error : CopyError Error} :
    (BidiCopy.finish brutal (pollOf aToB) (pollOf bToA) :
      BidiStatus Error) ≠ .returned (.ready (.error error)) := by
  cases aToB <;> cases bToA <;> cases brutal <;> rintro ⟨⟩

/-- With a finished direction the brutal build is ready. -/
theorem finish_brutal
    {poll : Poll (Except (CopyError Error) (UInt64 × UInt64))}
    (finished : BidiCopy.finish true (pollOf aToB) (pollOf bToA) =
      .returned poll) :
    (aToB = none ∧ bToA = none ∧ poll = .pending) ∨
      ∃ amounts, poll = .ready (.ok amounts) ∧
        (∀ count, aToB = some count → amounts.1 = count) ∧
        (∀ count, bToA = some count → amounts.2 = count) ∧
        (aToB = some amounts.1 ∨ bToA = some amounts.2) := by
  cases aToB <;> cases bToA <;> cases finished <;>
    simp

end Finish

namespace BidiRun

variable [AsyncIOBuf B] [LawfulIOBuf B]
variable {brutal : Bool} {image : Side → UInt8 → UInt8}
variable {capacity : Side → ℕ} {run : BidiRun B Error}

theorem Inv.graceful
    (inv : Inv false image capacity run) {amounts : UInt64 × UInt64}
    (returned : run.returned = some (.ready (.ok amounts))) (side : Side) :
    (run.bidi.half side).finished = some (component amounts side) := by
  rcases returned_cases inv.agrees returned with
    ⟨_, combined⟩ | ⟨_, _, _, isError, _⟩
  · rcases finish_graceful combined with ⟨first, second⟩
    cases side with
    | a => exact first
    | b => exact second
  · cases isError

theorem Inv.brutal_ready
    (inv : Inv true image capacity run)
    {poll : Poll (Except (CopyError Error) (UInt64 × UInt64))}
    (returned : run.returned = some poll) {side : Side} {count : UInt64}
    (finished : (run.bidi.half side).finished = some count) :
    (∃ amounts, poll = .ready (.ok amounts) ∧
      component amounts side = count) ∨
    ∃ error, poll = .ready (.error error) ∧
      run.failed = some (side.other, error) := by
  rcases returned_cases inv.agrees returned with
    ⟨_, combined⟩ | ⟨broken, error, failed, isError, unfinished⟩
  · left
    rcases finish_brutal combined with
      ⟨first, second, _⟩ | ⟨amounts, ready, first, second, _⟩
    · cases side with
      | a => exact absurd (first.symm.trans finished) (by simp)
      | b => exact absurd (second.symm.trans finished) (by simp)
    · refine ⟨amounts, ready, ?_⟩
      cases side with
      | a => exact first count finished
      | b => exact second count finished
  · right
    have differ : broken ≠ side := by
      rintro rfl
      exact absurd (unfinished.symm.trans finished) (by simp)
    rw [Side.eq_other differ] at failed
    exact ⟨error, isError, failed⟩

theorem Inv.brutal_pending
    (inv : Inv true image capacity run)
    (returned : run.returned = some .pending) (side : Side) :
    (run.bidi.half side).finished = none := by
  cases state : (run.bidi.half side).finished with
  | none => rfl
  | some count =>
      rcases inv.brutal_ready returned state with
        ⟨_, isReady, _⟩ | ⟨_, isReady, _⟩
      · cases isReady
      · cases isReady

theorem Inv.brutal_ok
    (inv : Inv true image capacity run) {amounts : UInt64 × UInt64}
    (returned : run.returned = some (.ready (.ok amounts))) :
    ∃ side, (run.bidi.half side).finished =
      some (component amounts side) := by
  rcases returned_cases inv.agrees returned with
    ⟨_, combined⟩ | ⟨_, _, _, isError, _⟩
  · rcases finish_brutal combined with
      ⟨_, _, isPending⟩ | ⟨amounts', ready, _, _, some_finished⟩
    · cases isPending
    · cases ready
      rcases some_finished with first | second
      · exact ⟨.a, first⟩
      · exact ⟨.b, second⟩
  · cases isError

theorem Inv.fails_only
    (inv : Inv brutal image capacity run) {error : CopyError Error}
    (returned : run.returned = some (.ready (.error error))) :
    ∃ side, run.failed = some (side, error) := by
  rcases returned_cases inv.agrees returned with
    ⟨_, combined⟩ | ⟨side, _, failed, isError, _⟩
  · exact (finish_ne_error combined).elim
  · cases isError
    exact ⟨side, failed⟩

theorem Inv.completes (inv : Inv brutal image capacity run) :
    run.Completes brutal image where
  shutdown_after _ waits := inv.shutdown_after waits
  no_write_after _ called := inv.no_write_after called
  exact_count _ _ finished := inv.exact_count finished
  stays_finished side count finished _ _ ran :=
    Machine.run_invariant
      (fun later => (later.bidi.half side).finished = some count ∧
        later.course side = run.course side)
      finished_step ⟨finished, rfl⟩ ran
  graceful isGraceful _ returned side := by
    subst isGraceful
    exact inv.graceful returned side
  brutal_ready isBrutal _ returned _ _ finished := by
    subst isBrutal
    exact inv.brutal_ready returned finished
  brutal_pending isBrutal returned side := by
    subst isBrutal
    exact inv.brutal_pending returned side
  brutal_ok isBrutal _ returned := by
    subst isBrutal
    exact inv.brutal_ok returned
  fails _ _ failed := failed_returned inv.agrees failed
  fails_only _ returned := inv.fails_only returned

theorem completes_of_run
    {buf : Side → B} (valid : ∀ side, LawfulIOBuf.Valid (buf side) 0 0)
    (nonempty : ∀ side, 0 < AsyncIOBuf.capacity (buf side))
    {labels : List (BidiLabel Error)} {final : BidiRun B Error}
    (ran : (machine brutal).run (start buf) labels = some final) :
    final.Completes brutal fun side => LawfulIOBuf.image (buf side) :=
  (Machine.run_invariant
    (fun run => Inv brutal (fun side => LawfulIOBuf.image (buf side))
      (fun side => AsyncIOBuf.capacity (buf side)) run)
    (inv_step nonempty) (inv_start valid) ran).completes

end BidiRun

/-- A bidirectional copy through memory or through pipes completes, in both
builds. -/
theorem bidiCopy_completes {Error : Type} (brutal : Bool) :
    (∀ buf : Side → MemBuf, (∀ side, 0 < (buf side).bytes.length) →
      ∀ (labels : List (BidiLabel Error)) final,
        (BidiRun.machine brutal).run (BidiRun.start buf) labels =
            some final →
          final.Completes brutal fun side => obfuscate (buf side).mode) ∧
    (∀ pipe : Side → Pipe, (∀ side, (pipe side).content = []) →
      ∀ (labels : List (BidiLabel Error)) final,
        (BidiRun.machine brutal).run (BidiRun.start pipe) labels =
            some final →
          final.Completes brutal fun _ => id) := by
  constructor
  · intro buf nonempty labels final ran
    exact BidiRun.completes_of_run (fun _ => Nat.zero_le _) nonempty ran
  · intro pipe empty labels final ran
    have valid :
        ∀ side, LawfulIOBuf.Valid (pipe side) 0 0 := by
      intro side
      refine ⟨?_, Nat.zero_le _⟩
      rw [empty side, List.length_nil]
    exact BidiRun.completes_of_run valid (fun side => (pipe side).size_pos)
      ran

/-- One byte goes from `a` to `b`, which is idle; then `a` ends. -/
def oneByteRun : List (BidiLabel Unit) :=
  [.poll, .answer (.copy (.read 1 (.data [7]))),
    .answer (.copy (.write (.ok 1))), .answer (.copy (.read 2 .pending)),
    .answer (.copy (.flush .ok)), .answer (.copy (.read 3 .pending)),
    .poll, .answer (.copy (.read 4 .eof)), .answer (.copy (.flush .ok)),
    .answer (.shutdown .ok), .answer (.copy (.read 5 .pending))]

/-- Two buffers of two bytes without obfuscation. -/
def plainBuf (_ : Side) : MemBuf := ⟨[0, 0], 0⟩

theorem bidiCopy_completes_one_byte :
    ∃ final, (BidiRun.machine true).run (BidiRun.start plainBuf)
        oneByteRun = some final ∧
      final.returned = some (.ready (.ok (1, 0))) ∧
      final.Completes true fun side => obfuscate (plainBuf side).mode :=
  ⟨_, rfl, rfl,
    (bidiCopy_completes true).1 plainBuf (fun _ => Nat.zero_lt_two)
      oneByteRun _ rfl⟩

end ByteHub.Io
