import ByteHub.Library.Machine
import Mathlib.Tactic.Common

/-!
# Peeking into a stream

A `PeekStream` keeps what it has read ahead in a buffer between the cursors
`rd` and `wr`.  Peeking fills the buffer and copies from it, reading empties
it first and then goes to the stream underneath.

The stream underneath is given by its answers.  An awaited call is written
with the answers it has received, so a call with too few of them was dropped
before it was finished.
-/

namespace ByteHub.Io

open ByteHub.Library

/-- Slice indexing, which panics outside of its bounds. -/
def slice (bytes : List UInt8) (start stop : ℕ) : Option (List UInt8) :=
  if start ≤ stop ∧ stop ≤ bytes.length then
    some ((bytes.drop start).take (stop - start))
  else none

theorem slice_eq_some
    {bytes piece : List UInt8} {start stop : ℕ}
    (cut : slice bytes start stop = some piece) :
    piece = (bytes.drop start).take (stop - start) ∧
      piece.length = stop - start := by
  simp only [slice, Option.ite_none_right_eq_some, Option.some.injEq] at cut
  rcases cut with ⟨⟨ordered, inside⟩, rfl⟩
  refine ⟨rfl, ?_⟩
  rw [List.length_take, List.length_drop]
  omega

theorem slice_inside
    {bytes : List UInt8} {start stop : ℕ}
    (ordered : start ≤ stop) (inside : stop ≤ bytes.length) :
    slice bytes start stop =
      some ((bytes.drop start).take (stop - start)) :=
  if_pos ⟨ordered, inside⟩

/-- What the stream underneath answers to one read. -/
inductive PeekAnswer
  | ready (bytes : List UInt8)
  | error
deriving DecidableEq, Repr

/-- The bytes an answer brings. -/
def PeekAnswer.bytes : PeekAnswer → List UInt8
  | .ready bytes => bytes
  | .error => []

/-- How a call on a `PeekStream` ends. -/
inductive PeekReply
  | done (bytes : List UInt8)
  | failed
  /-- The call was dropped while it waited. -/
  | dropped
  | panicked
deriving DecidableEq, Repr

/-- A stream with a buffer in front of it. -/
structure PeekStream where
  rd : ℕ
  wr : ℕ
  buf : List UInt8
  rd_le : rd ≤ wr
  wr_le : wr ≤ buf.length
deriving DecidableEq, Repr

namespace PeekStream

def new (buf : List UInt8) : PeekStream where
  rd := 0
  wr := 0
  buf := buf
  rd_le := Nat.le_refl 0
  wr_le := Nat.zero_le _

/-- The bytes read ahead and not yet read. -/
def filledSlice (stream : PeekStream) : Option (List UInt8) :=
  slice stream.buf stream.rd stream.wr

def capacity (stream : PeekStream) : ℕ :=
  stream.buf.length

def filled (stream : PeekStream) : ℕ :=
  stream.wr - stream.rd

def unfilled (stream : PeekStream) : ℕ :=
  stream.buf.length - stream.wr

def tryReset (stream : PeekStream) : PeekStream :=
  if stream.filled = 0 then
    { stream with
      rd := 0
      wr := 0
      rd_le := Nat.le_refl 0
      wr_le := Nat.zero_le _ }
  else stream

/-- One read of the stream underneath into `buf[wr..]`. -/
def fill (stream : PeekStream) (bytes : List UInt8) : PeekStream where
  rd := stream.rd
  wr := stream.wr + bytes.length
  buf :=
    stream.buf.take stream.wr ++ bytes ++
      stream.buf.drop (stream.wr + bytes.length)
  rd_le := Nat.le_add_right_of_le stream.rd_le
  wr_le := by
    have inside := stream.wr_le
    simp only [List.length_append, List.length_take, List.length_drop]
    omega

/-- `left.copy_from_slice(&self.filled_slice()[..self.rd + len])`, where
`left` has length `len`. -/
def copyFilled (stream : PeekStream) (len : ℕ) : PeekReply :=
  match stream.filledSlice with
  | none => .panicked
  | some unread =>
      match slice unread 0 (stream.rd + len) with
      | none => .panicked
      | some source =>
          if source.length = len then .done source else .panicked

/--
Peek into a buffer of length `room`.  A list of answers that the call cannot
have received gives `none`.
-/
def peek
    (stream : PeekStream) (room : ℕ) (answers : List PeekAnswer) :
    Option (PeekStream × PeekReply) :=
  let stream := stream.tryReset
  match answers with
  | [] =>
      if 0 < stream.unfilled then some (stream, .dropped)
      else some (stream, stream.copyFilled (min stream.filled room))
  | answer :: rest =>
      if 0 < stream.unfilled ∧ rest = [] then
        match answer with
        | .error => some (stream, .failed)
        | .ready bytes =>
            if bytes.length ≤ stream.unfilled then
              let stream := stream.fill bytes
              some (stream, stream.copyFilled (min stream.filled room))
            else none
      else none

/-- The loop of `peek_exact`, then its copy of `len` bytes. -/
def peekRequired
    (len : ℕ) : PeekStream → ℕ → List PeekAnswer →
      Option (PeekStream × PeekReply)
  | stream, 0, [] => some (stream, stream.copyFilled len)
  | _, 0, _ :: _ => none
  | stream, _ + 1, [] => some (stream, .dropped)
  | stream, _ + 1, [.error] => some (stream, .failed)
  | _, _ + 1, .error :: _ :: _ => none
  | stream, required + 1, .ready bytes :: answers =>
      if bytes.length ≤ stream.unfilled then
        peekRequired len (stream.fill bytes)
          (required + 1 - bytes.length) answers
      else none

/-- Peek exactly `len` bytes. -/
def peekExact
    (stream : PeekStream) (len : ℕ) (answers : List PeekAnswer) :
    Option (PeekStream × PeekReply) :=
  if len ≤ stream.capacity then
    let stream := stream.tryReset
    peekRequired len stream (len - stream.filled) answers
  else some (stream, .panicked)

/-- Read into a buffer with `remaining` bytes of room. -/
def pollRead
    (stream : PeekStream) (remaining : ℕ) (answers : List PeekAnswer) :
    Option (PeekStream × PeekReply) :=
  match answers with
  | [] =>
      if stream.rd = stream.wr then some (stream, .dropped)
      else
        let len := min (stream.wr - stream.rd) remaining
        match slice stream.buf stream.rd (stream.rd + len) with
        | none => some (stream, .panicked)
        | some bytes =>
            some
              ({ stream with
                  rd := stream.rd + len
                  rd_le := by
                    have ordered := stream.rd_le
                    have bounded :
                        min (stream.wr - stream.rd) remaining ≤
                          stream.wr - stream.rd :=
                      Nat.min_le_left _ _
                    omega },
                .done bytes)
  | answer :: rest =>
      if stream.rd = stream.wr ∧ rest = [] then
        match answer with
        | .error => some (stream, .failed)
        | .ready bytes =>
            if bytes.length ≤ remaining then some (stream, .done bytes)
            else none
      else none

end PeekStream

/-- The calls on a `PeekStream`. -/
inductive PeekCall
  | peek (room : ℕ) (answers : List PeekAnswer)
  | peekExact (len : ℕ) (answers : List PeekAnswer)
  | pollRead (remaining : ℕ) (answers : List PeekAnswer)
deriving DecidableEq, Repr

namespace PeekCall

def answers : PeekCall → List PeekAnswer
  | .peek _ answers => answers
  | .peekExact _ answers => answers
  | .pollRead _ answers => answers

/-- The bytes the stream underneath gave during a call. -/
def received (call : PeekCall) : List UInt8 :=
  call.answers.flatMap PeekAnswer.bytes

/-- A buffer for `peek_exact` is no longer than the capacity. -/
def WithinCapacity (capacity : ℕ) : PeekCall → Prop
  | .peek _ _ => True
  | .peekExact len _ => len ≤ capacity
  | .pollRead _ _ => True

def apply
    (stream : PeekStream) : PeekCall → Option (PeekStream × PeekReply)
  | .peek room answers => stream.peek room answers
  | .peekExact len answers => stream.peekExact len answers
  | .pollRead remaining answers => stream.pollRead remaining answers

end PeekCall

/-! ## Sessions -/

/-- What a peek asks for: as much as there is, up to the length of a buffer,
or exactly as much as the buffer is long. -/
inductive PeekRequest
  | upTo (room : ℕ)
  | exactly (len : ℕ)
deriving DecidableEq, Repr

/-- How many bytes answer a request when so many are read ahead. -/
def PeekRequest.size (ahead : ℕ) : PeekRequest → ℕ
  | .upTo room => min ahead room
  | .exactly len => len

/-- What a call asks to see; a read asks for nothing. -/
def PeekCall.request : PeekCall → Option PeekRequest
  | .peek room _ => some (.upTo room)
  | .peekExact len _ => some (.exactly len)
  | .pollRead _ _ => none

/-- A successful peek: what it asked for, how much had been read before it
and received by its end, and the bytes it has returned. -/
structure Sighting where
  request : PeekRequest
  readBefore : ℕ
  receivedBy : ℕ
  bytes : List UInt8
deriving DecidableEq, Repr

/-- How many bytes the peek has to show. -/
def Sighting.size (sighting : Sighting) : ℕ :=
  sighting.request.size (sighting.receivedBy - sighting.readBefore)

/-- A stream with the record of its calls. -/
structure PeekSession where
  stream : PeekStream
  /-- All that the stream underneath has given. -/
  received : List UInt8
  /-- All that `poll_read` has returned. -/
  returned : List UInt8
  sightings : List Sighting
  panicked : Bool
deriving DecidableEq, Repr

namespace PeekSession

def new (buf : List UInt8) : PeekSession where
  stream := PeekStream.new buf
  received := []
  returned := []
  sightings := []
  panicked := false

/-- The record after a call that has left `stream` and ended in `reply`. -/
def record
    (session : PeekSession) (stream : PeekStream) (call : PeekCall)
    (reply : PeekReply) : PeekSession :=
  let received := session.received ++ call.received
  match reply, call.request with
  | .done bytes, none =>
      { session with
        stream := stream
        received := received
        returned := session.returned ++ bytes }
  | .done bytes, some request =>
      { session with
        stream := stream
        received := received
        sightings :=
          session.sightings ++
            [⟨request, session.returned.length, received.length, bytes⟩] }
  | .panicked, _ =>
      { session with
        stream := stream
        received := received
        panicked := true }
  | _, _ =>
      { session with
        stream := stream
        received := received }

end PeekSession

/-- Calls one after the other, until one panics. -/
def peekSessions : Machine PeekSession PeekCall where
  step session call :=
    if session.panicked then none
    else
      (call.apply session.stream).map fun outcome =>
        session.record outcome.1 call outcome.2

end ByteHub.Io
