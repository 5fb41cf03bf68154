import ByteHub.Io.Buffer
import ByteHub.Library.Machine

/-!
# Copying from a reader to a writer

`poll_copy` reads into its buffer when the buffer is empty, writes until it is
empty again, flushes when the reader has nothing, and ends with a flush once
the reader has ended.  It can be suspended at each of these operations.

The loop is cut at its operations: a step takes the answer of the reader or
writer to the operation the loop has arrived at.
-/

namespace ByteHub.Io

open ByteHub.Library

variable {B Error : Type}

/-- A copy in progress. -/
structure CopyBuffer (B : Type) where
  readDone : Bool
  needFlush : Bool
  pos : ℕ
  cap : ℕ
  amt : UInt64
  buf : B
deriving DecidableEq, Repr

/-- Answer to `poll_read`. -/
inductive ReadAnswer (Error : Type) where
  | pending
  | error (error : Error)
  | eof
  | data (bytes : List UInt8)
deriving DecidableEq, Repr

/-- The bytes a reader hands over. -/
def ReadAnswer.bytes : ReadAnswer Error → List UInt8
  | .data bytes => bytes
  | _ => []

def ReadAnswer.isEof : ReadAnswer Error → Bool
  | .eof => true
  | _ => false

/-- Answer to `poll_write`. -/
inductive WriteAnswer (Error : Type) where
  | pending
  | error (error : Error)
  | ok (written : ℕ)
deriving DecidableEq, Repr

/-- How many bytes a writer accepts. -/
def WriteAnswer.written : WriteAnswer Error → ℕ
  | .ok written => written
  | _ => 0

/-- Answer to `poll_flush` and `poll_shutdown`. -/
inductive DoneAnswer (Error : Type) where
  | pending
  | error (error : Error)
  | ok
deriving DecidableEq, Repr

/-- Answer to the operation a copy has arrived at.  A read also looks at the
clock. -/
inductive CopyAnswer (Error : Type) where
  | read (nanos : ℕ) (answer : ReadAnswer Error)
  | write (answer : WriteAnswer Error)
  | flush (answer : DoneAnswer Error)
deriving DecidableEq, Repr

/-- Why a copy failed. -/
inductive CopyError (Error : Type) where
  | io (error : Error)
  | writeZero
deriving DecidableEq, Repr

/-- Answer of a poll. -/
inductive Poll (α : Type) where
  | pending
  | ready (value : α)
deriving DecidableEq, Repr

/-- Where a running call stands: at the head of the loop, or flushing because
the reader has nothing. -/
inductive CopyPoint where
  | head
  | idleFlush
deriving DecidableEq, Repr

/-- A call of `poll_copy` goes on or has returned. -/
inductive CopyStatus (Error : Type) where
  | running (point : CopyPoint)
  | returned (poll : Poll (Except (CopyError Error) UInt64))

/-- The operations of the loop. -/
inductive CopyOp where
  | read
  | write
  | idleFlush
  | finalFlush
deriving DecidableEq, Repr

namespace CopyBuffer

def new (buf : B) : CopyBuffer B where
  readDone := false
  needFlush := false
  pos := 0
  cap := 0
  amt := 0
  buf := buf

/-- The operation the loop arrives at; none if it spins. -/
def op (copy : CopyBuffer B) : CopyPoint → Option CopyOp
  | .idleFlush => some .idleFlush
  | .head =>
      if copy.pos = copy.cap ∧ copy.readDone = false then some .read
      else if copy.pos < copy.cap then some .write
      else if copy.pos = copy.cap ∧ copy.readDone then some .finalFlush
      else none

/-- The positions meet where the loop reads. -/
theorem op_read
    {copy : CopyBuffer B} {point : CopyPoint}
    (reads : copy.op point = some .read) :
    copy.pos = copy.cap ∧ copy.readDone = false := by
  cases point with
  | head =>
      simp only [CopyBuffer.op] at reads
      split at reads
      · assumption
      · split at reads
        · cases reads
        · split at reads <;> cases reads
  | idleFlush => cases reads

/-- There is something to write where the loop writes. -/
theorem op_write
    {copy : CopyBuffer B} {point : CopyPoint}
    (writes : copy.op point = some .write) : copy.pos < copy.cap := by
  cases point with
  | head =>
      simp only [CopyBuffer.op] at writes
      split at writes
      · cases writes
      · split at writes
        · assumption
        · split at writes <;> cases writes
  | idleFlush => cases writes

/-- The reader has ended and nothing is held where the loop ends. -/
theorem op_finalFlush
    {copy : CopyBuffer B} {point : CopyPoint}
    (ends : copy.op point = some .finalFlush) :
    copy.pos = copy.cap ∧ copy.readDone = true := by
  cases point with
  | head =>
      simp only [CopyBuffer.op] at ends
      split at ends
      · cases ends
      · split at ends
        · cases ends
        · split at ends
          · assumption
          · cases ends
  | idleFlush => cases ends

/-- Only the flush of an idle reader is not at the head of the loop. -/
theorem op_head
    {copy : CopyBuffer B} {point : CopyPoint} {op : CopyOp}
    (arrived : copy.op point = some op) (other : op ≠ .idleFlush) :
    point = .head := by
  cases point with
  | head => rfl
  | idleFlush =>
      cases arrived
      exact absurd rfl other

/-- A call returns an error. -/
def failed (error : CopyError Error) : CopyStatus Error :=
  .returned (.ready (.error error))

variable [AsyncIOBuf B]

/-- The bytes that have been read and not yet written. -/
def held (copy : CopyBuffer B) : List UInt8 :=
  AsyncIOBuf.slice copy.buf copy.pos copy.cap

/-- The reader has answered. -/
def afterRead
    (copy : CopyBuffer B) (nanos : ℕ) :
    ReadAnswer Error → Option (CopyBuffer B × CopyStatus Error)
  | .pending =>
      if copy.needFlush then some (copy, .running .idleFlush)
      else some (copy, .returned .pending)
  | .error error => some (copy, failed (.io error))
  | .eof => some ({ copy with readDone := true }, .running .head)
  | .data bytes =>
      -- A reader fills what it is offered, and nothing only if there is none.
      if AsyncIOBuf.offered copy.buf nanos < bytes.length then none
      else if bytes.length = 0 then
        if AsyncIOBuf.offered copy.buf nanos = 0 then
          some ({ copy with readDone := true }, .running .head)
        else none
      else
        some ({ copy with
          pos := 0
          cap := bytes.length
          buf := AsyncIOBuf.filled copy.buf bytes }, .running .head)

/-- The writer has answered. -/
def afterWrite (copy : CopyBuffer B) :
    WriteAnswer Error → Option (CopyBuffer B × CopyStatus Error)
  | .pending => some (copy, .returned .pending)
  | .error error => some (copy, failed (.io error))
  | .ok written =>
      if copy.cap - copy.pos < written then none
      else if written = 0 then some (copy, failed .writeZero)
      else
        some ({ copy with
          pos := copy.pos + written
          amt := copy.amt + UInt64.ofNat written
          needFlush := true
          buf := AsyncIOBuf.drained copy.buf written }, .running .head)

/-- The flush of an idle reader has been answered. -/
def afterIdleFlush (copy : CopyBuffer B) :
    DoneAnswer Error → CopyBuffer B × CopyStatus Error
  | .pending => (copy, .returned .pending)
  | .error error => (copy, failed (.io error))
  | .ok => ({ copy with needFlush := false }, .returned .pending)

/-- The last flush has been answered. -/
def afterFinalFlush (copy : CopyBuffer B) :
    DoneAnswer Error → CopyBuffer B × CopyStatus Error
  | .pending => (copy, .returned .pending)
  | .error error => (copy, failed (.io error))
  | .ok => (copy, .returned (.ready (.ok copy.amt)))

/-- One operation of a running call, if the answer is one to it. -/
def step (copy : CopyBuffer B) (point : CopyPoint)
    (answer : CopyAnswer Error) :
    Option (CopyBuffer B × CopyStatus Error) :=
  match copy.op point, answer with
  | some .read, .read nanos answer => copy.afterRead nanos answer
  | some .write, .write answer => copy.afterWrite answer
  | some .idleFlush, .flush answer => some (copy.afterIdleFlush answer)
  | some .finalFlush, .flush answer => some (copy.afterFinalFlush answer)
  | _, _ => none

/-- What the answer of a reader makes of a copy. -/
inductive ReadOutcome (copy : CopyBuffer B) (nanos : ℕ) :
    ReadAnswer Error → CopyBuffer B → CopyStatus Error → Prop where
  | flushes (dirty : copy.needFlush = true) :
      ReadOutcome copy nanos .pending copy (.running .idleFlush)
  | waits (clean : copy.needFlush = false) :
      ReadOutcome copy nanos .pending copy (.returned .pending)
  | fails (error : Error) :
      ReadOutcome copy nanos (.error error) copy (failed (.io error))
  | ends :
      ReadOutcome copy nanos .eof { copy with readDone := true }
        (.running .head)
  | offersNothing (none : AsyncIOBuf.offered copy.buf nanos = 0) :
      ReadOutcome copy nanos (.data []) { copy with readDone := true }
        (.running .head)
  | fills (bytes : List UInt8) (some : 0 < bytes.length)
      (fits : bytes.length ≤ AsyncIOBuf.offered copy.buf nanos) :
      ReadOutcome copy nanos (.data bytes)
        { copy with
          pos := 0
          cap := bytes.length
          buf := AsyncIOBuf.filled copy.buf bytes } (.running .head)

theorem readOutcome_of_afterRead
    {copy next : CopyBuffer B} {nanos : ℕ} {answer : ReadAnswer Error}
    {status : CopyStatus Error}
    (stepped : copy.afterRead nanos answer = some (next, status)) :
    ReadOutcome copy nanos answer next status := by
  cases answer with
  | pending =>
      simp only [afterRead] at stepped
      split at stepped
      · next dirty =>
        cases stepped
        exact .flushes dirty
      · next clean =>
        cases stepped
        exact .waits (Bool.eq_false_iff.2 clean)
  | error error =>
      cases stepped
      exact .fails error
  | eof =>
      cases stepped
      exact .ends
  | data bytes =>
      simp only [afterRead] at stepped
      split at stepped
      · cases stepped
      · next fits =>
        split at stepped
        · next empty =>
          split at stepped
          · next none =>
            cases stepped
            rw [List.eq_nil_of_length_eq_zero empty]
            exact .offersNothing none
          · cases stepped
        · next some =>
          cases stepped
          exact .fills bytes (Nat.pos_of_ne_zero some)
            (Nat.le_of_not_lt fits)

/-- What the answer of a writer makes of a copy. -/
inductive WriteOutcome (copy : CopyBuffer B) :
    WriteAnswer Error → CopyBuffer B → CopyStatus Error → Prop where
  | waits : WriteOutcome copy .pending copy (.returned .pending)
  | fails (error : Error) :
      WriteOutcome copy (.error error) copy (failed (.io error))
  | writesNothing : WriteOutcome copy (.ok 0) copy (failed .writeZero)
  | drains (written : ℕ) (some : 0 < written)
      (within : written ≤ copy.cap - copy.pos) :
      WriteOutcome copy (.ok written)
        { copy with
          pos := copy.pos + written
          amt := copy.amt + UInt64.ofNat written
          needFlush := true
          buf := AsyncIOBuf.drained copy.buf written } (.running .head)

theorem writeOutcome_of_afterWrite
    {copy next : CopyBuffer B} {answer : WriteAnswer Error}
    {status : CopyStatus Error}
    (stepped : copy.afterWrite answer = some (next, status)) :
    WriteOutcome copy answer next status := by
  cases answer with
  | pending =>
      cases stepped
      exact .waits
  | error error =>
      cases stepped
      exact .fails error
  | ok written =>
      simp only [afterWrite] at stepped
      split at stepped
      · cases stepped
      · next within =>
        split at stepped
        · next zero =>
          subst zero
          cases stepped
          exact .writesNothing
        · next some =>
          cases stepped
          exact .drains written (Nat.pos_of_ne_zero some)
            (Nat.le_of_not_lt within)

/-- The ways a running call takes a step. -/
theorem step_cases
    {copy next : CopyBuffer B} {point : CopyPoint}
    {answer : CopyAnswer Error} {status : CopyStatus Error}
    (stepped : copy.step point answer = some (next, status)) :
    (∃ nanos read, copy.op point = some .read ∧
        answer = .read nanos read ∧
        copy.afterRead nanos read = some (next, status)) ∨
      (∃ write, copy.op point = some .write ∧ answer = .write write ∧
        copy.afterWrite write = some (next, status)) ∨
      (∃ flush, copy.op point = some .idleFlush ∧ answer = .flush flush ∧
        copy.afterIdleFlush flush = (next, status)) ∨
      ∃ flush, copy.op point = some .finalFlush ∧ answer = .flush flush ∧
        copy.afterFinalFlush flush = (next, status) := by
  unfold step at stepped
  split at stepped
  · next nanos read arrived =>
    exact .inl ⟨nanos, read, arrived, rfl, stepped⟩
  · next write arrived =>
    exact .inr (.inl ⟨write, arrived, rfl, stepped⟩)
  · next flush arrived =>
    exact .inr (.inr (.inl
      ⟨flush, arrived, rfl, Option.some.inj stepped⟩))
  · next flush arrived =>
    exact .inr (.inr (.inr
      ⟨flush, arrived, rfl, Option.some.inj stepped⟩))
  · cases stepped

theorem afterRead_not_finished
    {copy next : CopyBuffer B} {nanos : ℕ} {answer : ReadAnswer Error}
    {n : UInt64} :
    copy.afterRead nanos answer ≠
      some (next, .returned (.ready (.ok n))) := by
  intro stepped
  cases readOutcome_of_afterRead stepped

theorem afterWrite_not_finished
    {copy next : CopyBuffer B} {answer : WriteAnswer Error} {n : UInt64} :
    copy.afterWrite answer ≠
      some (next, .returned (.ready (.ok n))) := by
  intro stepped
  cases writeOutcome_of_afterWrite stepped

/-- A call finishes at the last flush. -/
theorem step_finished
    {copy next : CopyBuffer B} {point : CopyPoint}
    {answer : CopyAnswer Error} {n : UInt64}
    (stepped : copy.step point answer =
      some (next, .returned (.ready (.ok n)))) :
    next.pos = next.cap ∧ next.readDone = true ∧ n = next.amt := by
  rcases step_cases stepped with
    ⟨_, _, _, _, answered⟩ | ⟨_, _, _, answered⟩ | ⟨flush, _, _, answered⟩ |
      ⟨flush, arrived, _, answered⟩
  · exact absurd answered afterRead_not_finished
  · exact absurd answered afterWrite_not_finished
  · cases flush <;> cases answered
  · cases flush with
    | ok =>
        cases answered
        exact ⟨(op_finalFlush arrived).1, (op_finalFlush arrived).2, rfl⟩
    | pending => cases answered
    | error error => cases answered

/-- The bytes a step takes from the reader. -/
def takenBy (copy : CopyBuffer B) (point : CopyPoint)
    (answer : CopyAnswer Error) : List UInt8 :=
  match copy.op point, answer with
  | some .read, .read _ answer => answer.bytes
  | _, _ => []

/-- The bytes a step gives to the writer. -/
def givenBy (copy : CopyBuffer B) (point : CopyPoint)
    (answer : CopyAnswer Error) : List UInt8 :=
  match copy.op point, answer with
  | some .write, .write answer => copy.held.take answer.written
  | _, _ => []

/-- Whether the reader ends in a step. -/
def endedBy (copy : CopyBuffer B) (point : CopyPoint)
    (answer : CopyAnswer Error) : Bool :=
  match copy.op point, answer with
  | some .read, .read _ answer => answer.isEof
  | _, _ => false

end CopyBuffer

end ByteHub.Io
