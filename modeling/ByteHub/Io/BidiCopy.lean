import ByteHub.Io.CopyConservation

/-!
# Copying in both directions

A transfer runs a copy from one stream to the other, then shuts the writer
down, then is done.  A poll of the bidirectional copy polls the transfer from
`a` to `b` and then the one from `b` to `a`, each until it is pending or done.
The build decides whether the copy is ready with the first or with the last of
the two.
-/

namespace ByteHub.Io

open ByteHub.Library

variable {B Error : Type}

/-- The two streams. -/
inductive Side where
  | a
  | b
deriving DecidableEq, Repr

def Side.other : Side → Side
  | .a => .b
  | .b => .a

@[simp]
theorem Side.other_other (side : Side) : side.other.other = side := by
  cases side <;> rfl

/-- The operations on the streams. -/
inductive IoOp where
  | read (side : Side)
  | write (side : Side)
  | flush (side : Side)
  | shutdown (side : Side)
deriving DecidableEq, Repr

/-- What passes in one operation from a reader to a writer. -/
structure Passed where
  /-- Bytes the reader hands over. -/
  taken : List UInt8
  /-- Bytes the writer accepts. -/
  given : List UInt8
  /-- The reader reports its end. -/
  ended : Bool
  /-- The transfer is done: the writer is shut down. -/
  done : Bool
deriving DecidableEq, Repr

namespace Passed

def nothing : Passed := ⟨[], [], false, false⟩

def take (bytes : List UInt8) : Passed := ⟨bytes, [], false, false⟩

def give (bytes : List UInt8) : Passed := ⟨[], bytes, false, false⟩

def finish : Passed := ⟨[], [], true, false⟩

/-- All that has passed after one more operation. -/
def append (earlier later : Passed) : Passed where
  taken := earlier.taken ++ later.taken
  given := earlier.given ++ later.given
  ended := earlier.ended || later.ended
  done := earlier.done || later.done

@[simp]
theorem append_nothing (earlier : Passed) :
    earlier.append nothing = earlier := by
  simp [append, nothing]

@[simp]
theorem nothing_append (later : Passed) :
    nothing.append later = later := by
  simp [append, nothing]

theorem append_assoc (first second third : Passed) :
    (first.append second).append third =
      first.append (second.append third) := by
  simp [append, Bool.or_assoc]

end Passed

/-! ## One direction -/

inductive TransferState (B : Type) where
  | running (copy : CopyBuffer B)
  | shuttingDown (count : UInt64)
  | done (count : UInt64)
deriving DecidableEq, Repr

/-- Answer to the operation a transfer has arrived at. -/
inductive TransferAnswer (Error : Type) where
  | copy (answer : CopyAnswer Error)
  | shutdown (answer : DoneAnswer Error)
deriving DecidableEq, Repr

namespace TransferState

/-- The operation a transfer arrives at. -/
def op (state : TransferState B) (point : CopyPoint) (reader : Side) :
    Option IoOp :=
  match state with
  | .running copy =>
      (copy.op point).map fun
        | .read => .read reader
        | .write => .write reader.other
        | .idleFlush => .flush reader.other
        | .finalFlush => .flush reader.other
  | .shuttingDown _ => some (.shutdown reader.other)
  | .done _ => none

variable [AsyncIOBuf B]

/-- The bytes a transfer has read and not yet written. -/
def held : TransferState B → List UInt8
  | .running copy => copy.held
  | _ => []

/-- The copy goes on, fails, or has moved everything. -/
def afterCopy : CopyBuffer B × CopyStatus Error →
    TransferState B × CopyStatus Error
  | (_, .returned (.ready (.ok count))) =>
      (.shuttingDown count, .running .head)
  | (copy, status) => (.running copy, status)

/-- One operation of a transfer. -/
def step (state : TransferState B) (point : CopyPoint)
    (answer : TransferAnswer Error) :
    Option (TransferState B × CopyStatus Error) :=
  match state, answer with
  | .running copy, .copy answer => (copy.step point answer).map afterCopy
  | .shuttingDown count, .shutdown .pending =>
      some (.shuttingDown count, .returned .pending)
  | .shuttingDown count, .shutdown (.error error) =>
      some (.shuttingDown count, CopyBuffer.failed (.io error))
  | .shuttingDown count, .shutdown .ok =>
      some (.done count, .returned (.ready (.ok count)))
  | _, _ => none

/-- What passes in a step. -/
def passed (state : TransferState B) (point : CopyPoint)
    (answer : TransferAnswer Error) : Passed :=
  match state, answer with
  | .running copy, .copy answer =>
      { taken := copy.takenBy point answer
        given := copy.givenBy point answer
        ended := copy.endedBy point answer
        done := false }
  | .shuttingDown _, .shutdown .ok => { Passed.nothing with done := true }
  | _, _ => Passed.nothing

end TransferState

/-- The books of a transfer: those of its copy, then everything read is
written. -/
def TransferBooks [AsyncIOBuf B] [LawfulIOBuf B]
    (state : TransferState B) (image : UInt8 → UInt8) (capacity : ℕ)
    (all : Passed) : Prop :=
  match state with
  | .running copy =>
      Conserves copy image capacity all.taken all.given all.ended ∧
        all.done = false
  | .shuttingDown count =>
      all.given = all.taken.map image ∧ all.ended = true ∧
        all.done = false ∧ count = UInt64.ofNat all.given.length
  | .done count =>
      all.given = all.taken.map image ∧ all.ended = true ∧
        all.done = true ∧ count = UInt64.ofNat all.given.length

section Books

variable [AsyncIOBuf B] [LawfulIOBuf B]
variable {state next : TransferState B} {image : UInt8 → UInt8}
variable {capacity : ℕ} {all : Passed}

theorem transferBooks_new
    {buf : B} (valid : LawfulIOBuf.Valid buf 0 0) :
    TransferBooks (.running (CopyBuffer.new buf)) (LawfulIOBuf.image buf)
      (AsyncIOBuf.capacity buf) Passed.nothing :=
  ⟨conserves_new buf valid, rfl⟩

/-- What is written and what is held is what was read. -/
theorem TransferBooks.bytes
    (books : TransferBooks state image capacity all) :
    all.given ++ state.held = all.taken.map image := by
  cases state with
  | running copy => exact books.1.bytes
  | shuttingDown count => exact (List.append_nil _).trans books.1
  | done count => exact (List.append_nil _).trans books.1

theorem TransferBooks.given_prefix
    (books : TransferBooks state image capacity all) :
    all.given <+: all.taken.map image :=
  ⟨state.held, books.bytes⟩

theorem TransferBooks.of_done
    (books : TransferBooks state image capacity all)
    (isDone : all.done = true) :
    all.given = all.taken.map image ∧ all.ended = true := by
  cases state with
  | running copy => exact absurd isDone (by simp [books.2])
  | shuttingDown count => exact absurd isDone (by simp [books.2.2.1])
  | done count => exact ⟨books.1, books.2.1⟩

theorem transferBooks_afterCopy
    {copy : CopyBuffer B} {point : CopyPoint} {answer : CopyAnswer Error}
    {result : CopyBuffer B × CopyStatus Error}
    (books : TransferBooks (.running copy) image capacity all)
    (nonempty : 0 < capacity)
    (stepped : copy.step point answer = some result) :
    TransferBooks (TransferState.afterCopy result).1 image capacity
      (all.append
        (TransferState.passed (.running copy) point (.copy answer))) := by
  rcases result with ⟨copied, status⟩
  have kept := conserves_step books.1 nonempty stepped
  have open_ :
      (all.append (TransferState.passed (.running copy) point
        (.copy answer))).done = false := by
    simp [Passed.append, TransferState.passed, books.2]
  rcases status with point' | (_ | (error | count))
  · exact ⟨kept, open_⟩
  · exact ⟨kept, open_⟩
  · exact ⟨kept, open_⟩
  · rcases CopyBuffer.step_finished stepped with ⟨met, isDone, amount⟩
    refine ⟨?_, kept.ended isDone, open_, amount.trans kept.count⟩
    have bytes := kept.bytes
    rwa [kept.held_nil met, List.append_nil] at bytes

/-- A step of a transfer keeps the books. -/
theorem transferBooks_step
    {point : CopyPoint} {answer : TransferAnswer Error}
    {status : CopyStatus Error}
    (books : TransferBooks state image capacity all)
    (nonempty : 0 < capacity)
    (stepped : state.step point answer = some (next, status)) :
    TransferBooks next image capacity
      (all.append (state.passed point answer)) := by
  unfold TransferState.step at stepped
  split at stepped
  · rcases Option.map_eq_some_iff.1 stepped with ⟨result, copied, equal⟩
    have kept := transferBooks_afterCopy books nonempty copied
    rwa [equal] at kept
  · cases stepped
    simpa [TransferState.passed] using books
  · cases stepped
    simpa [TransferState.passed] using books
  · cases stepped
    rcases books with ⟨given, ended, _, amount⟩
    simpa [TransferBooks, TransferState.passed, Passed.append,
      Passed.nothing] using ⟨given, ended, amount⟩
  · cases stepped

end Books

/-! ## Both directions -/

structure BidiCopy (B : Type) where
  aToB : TransferState B
  bToA : TransferState B
deriving DecidableEq, Repr

/-- Where a poll stands: in the first transfer, or in the second with the
result of the first. -/
inductive BidiPoint where
  | aToB (point : CopyPoint)
  | bToA (first : Poll UInt64) (point : CopyPoint)
deriving DecidableEq, Repr

/-- The stream that the transfer being polled reads. -/
def BidiPoint.reader : BidiPoint → Side
  | .aToB _ => .a
  | .bToA _ _ => .b

def BidiPoint.point : BidiPoint → CopyPoint
  | .aToB point => point
  | .bToA _ point => point

/-- A poll goes on or has returned. -/
inductive BidiStatus (Error : Type) where
  | running (point : BidiPoint)
  | returned (poll : Poll (Except (CopyError Error) (UInt64 × UInt64)))

namespace BidiCopy

/-- The transfer that reads a stream. -/
def half (bidi : BidiCopy B) : Side → TransferState B
  | .a => bidi.aToB
  | .b => bidi.bToA

def setHalf (bidi : BidiCopy B) (side : Side) (half : TransferState B) :
    BidiCopy B :=
  match side with
  | .a => { bidi with aToB := half }
  | .b => { bidi with bToA := half }

@[simp]
theorem half_setHalf
    (bidi : BidiCopy B) (side : Side) (half : TransferState B) :
    (bidi.setHalf side half).half side = half := by
  cases side <;> rfl

@[simp]
theorem half_setHalf_other
    (bidi : BidiCopy B) (side : Side) (half : TransferState B) :
    (bidi.setHalf side half).half side.other = bidi.half side.other := by
  cases side <;> rfl

/-- The result of a poll in which neither transfer fails. -/
def finish (brutal : Bool) :
    Poll UInt64 → Poll UInt64 → BidiStatus Error
  | .ready a, .ready b => .returned (.ready (.ok (a, b)))
  | .pending, .ready b =>
      if brutal then .returned (.ready (.ok (0, b)))
      else .returned .pending
  | .ready a, .pending =>
      if brutal then .returned (.ready (.ok (a, 0)))
      else .returned .pending
  | .pending, .pending => .returned .pending

/-- Go on with the second transfer. -/
def second (brutal : Bool) (bidi : BidiCopy B) (first : Poll UInt64) :
    BidiStatus Error :=
  match bidi.bToA with
  | .done count => finish brutal first (.ready count)
  | _ => .running (.bToA first .head)

/-- Begin a poll. -/
def poll (brutal : Bool) (bidi : BidiCopy B) : BidiStatus Error :=
  match bidi.aToB with
  | .done count => bidi.second brutal (.ready count)
  | _ => .running (.aToB .head)

/-- The transfer from `a` to `b` has made a step. -/
def afterFirst (brutal : Bool) (bidi : BidiCopy B) :
    CopyStatus Error → BidiStatus Error
  | .running point => .running (.aToB point)
  | .returned (.ready (.error error)) => .returned (.ready (.error error))
  | .returned (.ready (.ok count)) => bidi.second brutal (.ready count)
  | .returned .pending => bidi.second brutal .pending

/-- The transfer from `b` to `a` has made a step. -/
def afterSecond (brutal : Bool) (first : Poll UInt64) :
    CopyStatus Error → BidiStatus Error
  | .running point => .running (.bToA first point)
  | .returned (.ready (.error error)) => .returned (.ready (.error error))
  | .returned (.ready (.ok count)) => finish brutal first (.ready count)
  | .returned .pending => finish brutal first .pending

/-- The transfer being polled has made a step. -/
def afterHalf (brutal : Bool) (bidi : BidiCopy B) :
    BidiPoint → CopyStatus Error → BidiStatus Error
  | .aToB _, status => bidi.afterFirst brutal status
  | .bToA first _, status => afterSecond brutal first status

variable [AsyncIOBuf B]

/-- One operation of a poll. -/
def step (brutal : Bool) (bidi : BidiCopy B) (point : BidiPoint)
    (answer : TransferAnswer Error) :
    Option (BidiCopy B × BidiStatus Error) :=
  ((bidi.half point.reader).step point.point answer).map fun result =>
    let next := bidi.setHalf point.reader result.1
    (next, next.afterHalf brutal point result.2)

end BidiCopy

end ByteHub.Io
