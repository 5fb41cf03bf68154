import ByteHub.Io.RelayControl
import ByteHub.Io.TunnelDelivery

/-!
# A transfer can go on

A transfer that is not finished can always wait, and where its reader has
ended or has something left, and its writer is open, it can always take one
more step towards its end.
-/

namespace ByteHub.Io

open ByteHub.Library

variable {B Error : Type}

/-- A hop that the two channels allow. -/
theorem Line.hop_of
    {passed : Passed} {into out into' pushed : Channel UInt8}
    (atEnd : passed.ended = true → into.AtEnd)
    (pulled : into.pull passed.taken = some into')
    (entered : out.push passed.given = some pushed) :
    hop passed into out =
      some (into', if passed.done then pushed.close else pushed) := by
  rw [hop, if_neg fun both => both.2 (atEnd both.1), pulled,
    Option.bind_some, entered, Option.map_some]

/-- What a copy does at the head of its loop. -/
theorem CopyBuffer.op_head_cases
    (copy : CopyBuffer B) (within : copy.pos ≤ copy.cap) :
    (copy.op .head = some .read ∧ copy.pos = copy.cap ∧
        copy.readDone = false) ∨
      (copy.op .head = some .write ∧ copy.pos < copy.cap) ∨
      (copy.op .head = some .finalFlush ∧ copy.pos = copy.cap ∧
        copy.readDone = true) := by
  by_cases writes : copy.pos < copy.cap
  · refine .inr (.inl ⟨?_, writes⟩)
    rw [op, if_neg fun both => Nat.ne_of_lt writes both.1, if_pos writes]
  · have met : copy.pos = copy.cap := by omega
    cases isDone : copy.readDone with
    | false => exact .inl ⟨if_pos ⟨met, isDone⟩, met, rfl⟩
    | true =>
        refine .inr (.inr ⟨?_, met, rfl⟩)
        rw [op, if_neg fun both => by simp [isDone] at both,
          if_neg writes, if_pos ⟨met, isDone⟩]

namespace TransferState

/-- What is left to do for a transfer that holds some bytes: they are to be
written, and the end of the reader, the last flush and the shutdown are to
come. -/
def remaining : TransferState B → ℕ
  | .running copy =>
      copy.cap - copy.pos + if copy.readDone then 2 else 3
  | .shuttingDown _ => 1
  | .done _ => 0

variable [AsyncIOBuf B]

/-! ## Waiting -/

variable (Error) in
/-- A stream that is not ready. -/
theorem waits_idleFlush
    {state : TransferState B} (open_ : state.finished = none) :
    ∃ answer : TransferAnswer Error, answer.isError = false ∧
      state.passed .idleFlush answer = Passed.nothing ∧
      state.step .idleFlush answer = some (state, .returned .pending) := by
  cases state with
  | running copy => exact ⟨.copy (.flush .pending), rfl, rfl, rfl⟩
  | shuttingDown count => exact ⟨.shutdown .pending, rfl, rfl, rfl⟩
  | done count => cases open_

variable (Error) in
/-- A copy whose reader has nothing flushes what it has written, and then
waits for the flush. -/
theorem waits_head
    {state : TransferState B} (open_ : state.finished = none)
    (within : ∀ copy, state = .running copy → copy.pos ≤ copy.cap) :
    ∃ answer : TransferAnswer Error, answer.isError = false ∧
      state.passed .head answer = Passed.nothing ∧
      (state.step .head answer = some (state, .returned .pending) ∨
        state.step .head answer = some (state, .running .idleFlush)) := by
  cases state with
  | done count => cases open_
  | shuttingDown count => exact ⟨.shutdown .pending, rfl, rfl, .inl rfl⟩
  | running copy =>
      rcases copy.op_head_cases (within copy rfl) with
        ⟨op, _, _⟩ | ⟨op, _⟩ | ⟨op, _, _⟩
      · refine ⟨.copy (.read 0 .pending), rfl, ?_, ?_⟩
        · simp [passed, CopyBuffer.takenBy, CopyBuffer.givenBy,
            CopyBuffer.endedBy, op, ReadAnswer.bytes, ReadAnswer.isEof,
            Passed.nothing]
        · simp only [step, CopyBuffer.step, op, CopyBuffer.afterRead]
          split
          · exact .inr rfl
          · exact .inl rfl
      · refine ⟨.copy (.write .pending), rfl, ?_, .inl ?_⟩
        · simp [passed, CopyBuffer.takenBy, CopyBuffer.givenBy,
            CopyBuffer.endedBy, op, WriteAnswer.written, Passed.nothing]
        · simp [step, CopyBuffer.step, op, CopyBuffer.afterWrite, afterCopy]
      · refine ⟨.copy (.flush .pending), rfl, ?_, .inl ?_⟩
        · simp [passed, CopyBuffer.takenBy, CopyBuffer.givenBy,
            CopyBuffer.endedBy, op, Passed.nothing]
        · simp [step, CopyBuffer.step, op, CopyBuffer.afterFinalFlush,
            afterCopy]

/-! ## Going on -/

section Passed

variable {copy : CopyBuffer B}

theorem passed_read
    (op : copy.op .head = some .read) (nanos : ℕ)
    (answer : ReadAnswer Error) :
    passed (.running copy) .head (.copy (.read nanos answer)) =
      ⟨answer.bytes, [], answer.isEof, false⟩ := by
  simp [passed, CopyBuffer.takenBy, CopyBuffer.givenBy,
    CopyBuffer.endedBy, op]

theorem passed_write
    (op : copy.op .head = some .write) (answer : WriteAnswer Error) :
    passed (.running copy) .head (.copy (.write answer)) =
      ⟨[], copy.held.take answer.written, false, false⟩ := by
  simp [passed, CopyBuffer.takenBy, CopyBuffer.givenBy,
    CopyBuffer.endedBy, op]

theorem passed_flush
    (op : copy.op .head = some .finalFlush) (answer : DoneAnswer Error) :
    passed (.running copy) .head (.copy (.flush answer)) =
      Passed.nothing := by
  simp [passed, CopyBuffer.takenBy, CopyBuffer.givenBy,
    CopyBuffer.endedBy, op, Passed.nothing]

end Passed

/-- A transfer can take a step that finishes it or leaves less to do. -/
def Advances (Error : Type) (state : TransferState B)
    (into out : Channel UInt8) : Prop :=
  ∃ (answer : TransferAnswer Error) (next : TransferState B)
      (status : CopyStatus Error) (into' out' : Channel UInt8),
    answer.isError = false ∧
      state.step .head answer = some (next, status) ∧
      Line.hop (state.passed .head answer) into out = some (into', out') ∧
      ((state.passed .head answer).done = true ∨
        status = .running .head ∧
          2 * into'.pending.length + next.remaining <
            2 * into.pending.length + state.remaining)

section Copies

variable {copy : CopyBuffer B} {into out : Channel UInt8}

theorem advances_of_atEnd
    (op : copy.op .head = some .read) (isOpen : copy.readDone = false)
    (atEnd : into.AtEnd) :
    Advances Error (.running copy) into out := by
  refine ⟨.copy (.read 0 .eof), .running { copy with readDone := true },
    .running .head, into, out, rfl, ?_, ?_, .inr ⟨rfl, ?_⟩⟩
  · simp [step, CopyBuffer.step, op, CopyBuffer.afterRead, afterCopy]
  · rw [passed_read op]
    exact Line.hop_of (fun _ => atEnd) (Channel.pull_nil into)
      (Channel.push_nil out)
  · simp [remaining, isOpen]

theorem advances_of_data
    {bytes : List UInt8} {into' : Channel UInt8}
    (op : copy.op .head = some .read) (met : copy.pos = copy.cap)
    (isOpen : copy.readDone = false) (some : 0 < bytes.length)
    (fits : bytes.length ≤ AsyncIOBuf.offered copy.buf 0)
    (pulled : into.pull bytes = Option.some into') :
    Advances Error (.running copy) into out := by
  have left := Channel.length_pending_pull pulled
  refine ⟨.copy (.read 0 (.data bytes)),
    .running { copy with
      pos := 0
      cap := bytes.length
      buf := AsyncIOBuf.filled copy.buf bytes },
    .running .head, into', out, rfl, ?_, ?_, .inr ⟨rfl, ?_⟩⟩
  · simp only [step, CopyBuffer.step, op, CopyBuffer.afterRead,
      if_neg (Nat.not_lt.2 fits), if_neg (Nat.ne_of_gt some),
      Option.map_some, afterCopy]
  · rw [passed_read op]
    exact Line.hop_of (fun none => by cases none) pulled
      (Channel.push_nil out)
  · simp only [remaining, isOpen, met]
    omega

theorem advances_of_held
    (op : copy.op .head = some .write) (ahead : copy.pos < copy.cap)
    (writable : out.closed = false) :
    Advances Error (.running copy) into out := by
  rcases Channel.exists_push writable
      (copy.held.take (copy.cap - copy.pos)) with ⟨out', entered⟩
  have some : copy.cap - copy.pos ≠ 0 := by omega
  refine ⟨.copy (.write (.ok (copy.cap - copy.pos))),
    .running { copy with
      pos := copy.pos + (copy.cap - copy.pos)
      amt := copy.amt + UInt64.ofNat (copy.cap - copy.pos)
      needFlush := true
      buf := AsyncIOBuf.drained copy.buf (copy.cap - copy.pos) },
    .running .head, into, out', beq_eq_false_iff_ne.2 some, ?_, ?_,
    .inr ⟨rfl, ?_⟩⟩
  · simp only [step, CopyBuffer.step, op, CopyBuffer.afterWrite,
      if_neg (Nat.lt_irrefl _), if_neg some, Option.map_some, afterCopy]
  · rw [passed_write op]
    exact Line.hop_of (fun none => by cases none)
      (Channel.pull_nil into) entered
  · simp only [remaining]
    omega

theorem advances_of_readDone
    (op : copy.op .head = some .finalFlush) (isDone : copy.readDone = true) :
    Advances Error (.running copy) into out := by
  refine ⟨.copy (.flush .ok), .shuttingDown copy.amt, .running .head, into,
    out, rfl, ?_, ?_, .inr ⟨rfl, ?_⟩⟩
  · simp [step, CopyBuffer.step, op, CopyBuffer.afterFinalFlush, afterCopy]
  · rw [passed_flush op]
    exact Line.hop_of (fun none => by cases none)
      (Channel.pull_nil into) (Channel.push_nil out)
  · simp only [remaining, isDone, if_true]
    omega

end Copies

variable [LawfulIOBuf B]

variable (Error) in
/-- So it can as long as it is not finished, if nothing comes behind what is
on the way to it and its writer is open. -/
theorem advances
    {state : TransferState B} {image : UInt8 → UInt8} {capacity : ℕ}
    {all : Passed} {into out : Channel UInt8}
    (books : TransferBooks state image capacity all)
    (nonempty : 0 < capacity) (open_ : state.finished = none)
    (ended : into.closed = true) (writable : out.closed = false) :
    Advances Error state into out := by
  cases state with
  | done count => cases open_
  | shuttingDown count =>
      refine ⟨.shutdown .ok, .done count, _, into, out.close, rfl, rfl, ?_,
        .inl rfl⟩
      exact Line.hop_of (fun none => by cases none)
        (Channel.pull_nil into) (Channel.push_nil out)
  | running copy =>
      have kept := books.1
      rcases copy.op_head_cases kept.pos_le with
        ⟨op, met, isOpen⟩ | ⟨op, ahead⟩ | ⟨op, _, isDone⟩
      · by_cases empty : into.pending = []
        · exact advances_of_atEnd op isOpen ⟨ended, empty⟩
        · have room : 0 < AsyncIOBuf.offered copy.buf 0 := by
            have valid := kept.valid
            rw [← met] at valid
            exact LawfulIOBuf.offered_pos 0 valid
              (kept.capacity_eq ▸ nonempty)
          have waiting := List.length_pos_iff.2 empty
          rcases into.exists_pull_take (AsyncIOBuf.offered copy.buf 0) with
            ⟨into', pulled⟩
          apply advances_of_data op met isOpen _ _ pulled
          · rw [List.length_take]
            omega
          · exact List.length_take_le _ _
      · exact advances_of_held op ahead writable
      · exact advances_of_readDone op isDone

end TransferState

end ByteHub.Io
