import ByteHub.Io.CopyBuffer

/-!
# A copy loses nothing

Whatever the reader and the writer answer, the bytes accepted by the writer
followed by those still held are the images of the bytes the reader handed
over.  The count is that of the accepted bytes, a read is issued only when
nothing is held, and the copy ends only after a real end of the reader.
-/

namespace ByteHub.Io

open ByteHub.Library

section Conservation

variable {B Error : Type} [AsyncIOBuf B] [LawfulIOBuf B]

/-- The books of a copy: what was taken from the reader, what was given to
the writer, and what is held in between. -/
structure Conserves
    (copy : CopyBuffer B) (image : UInt8 → UInt8) (capacity : ℕ)
    (taken given : List UInt8) (sawEof : Bool) : Prop where
  valid : LawfulIOBuf.Valid copy.buf copy.pos copy.cap
  image_eq : LawfulIOBuf.image copy.buf = image
  capacity_eq : AsyncIOBuf.capacity copy.buf = capacity
  pos_le : copy.pos ≤ copy.cap
  bytes : given ++ copy.held = taken.map image
  count : copy.amt = UInt64.ofNat given.length
  ended : copy.readDone = true → sawEof = true

variable {copy next : CopyBuffer B} {image : UInt8 → UInt8}
variable {capacity : ℕ} {taken given : List UInt8} {sawEof : Bool}

theorem conserves_new
    (buf : B) (valid : LawfulIOBuf.Valid buf 0 0) :
    Conserves (CopyBuffer.new buf) (LawfulIOBuf.image buf)
      (AsyncIOBuf.capacity buf) [] [] false where
  valid := valid
  image_eq := rfl
  capacity_eq := rfl
  pos_le := Nat.le_refl 0
  bytes := by
    apply List.eq_nil_of_length_eq_zero
    simpa [CopyBuffer.held, CopyBuffer.new] using
      LawfulIOBuf.slice_length valid
  count := rfl
  ended isDone := absurd isDone Bool.false_ne_true

/-- Nothing is held once the positions meet. -/
theorem Conserves.held_nil
    (books : Conserves copy image capacity taken given sawEof)
    (met : copy.pos = copy.cap) : copy.held = [] := by
  apply List.eq_nil_of_length_eq_zero
  rw [CopyBuffer.held, LawfulIOBuf.slice_length books.valid, met,
    Nat.sub_self]

theorem conserves_afterRead
    {nanos : ℕ} {answer : ReadAnswer Error} {status : CopyStatus Error}
    (books : Conserves copy image capacity taken given sawEof)
    (nonempty : 0 < capacity) (met : copy.pos = copy.cap)
    (stepped : copy.afterRead nanos answer = some (next, status)) :
    Conserves next image capacity (taken ++ answer.bytes) given
      (sawEof || answer.isEof) := by
  have validHere : LawfulIOBuf.Valid copy.buf copy.pos copy.pos := by
    have valid := books.valid
    rwa [← met] at valid
  cases CopyBuffer.readOutcome_of_afterRead stepped with
  | flushes dirty =>
      simpa [ReadAnswer.bytes, ReadAnswer.isEof] using books
  | waits clean =>
      simpa [ReadAnswer.bytes, ReadAnswer.isEof] using books
  | fails error =>
      simpa [ReadAnswer.bytes, ReadAnswer.isEof] using books
  | ends =>
      exact {
        valid := books.valid
        image_eq := books.image_eq
        capacity_eq := books.capacity_eq
        pos_le := books.pos_le
        bytes := by
          change given ++ copy.held = (taken ++ []).map image
          rw [List.append_nil]
          exact books.bytes
        count := books.count
        ended := fun _ => by simp [ReadAnswer.isEof] }
  | offersNothing none =>
      -- A buffer with a capacity offers room once it is empty.
      have room :=
        LawfulIOBuf.offered_pos nanos validHere
          (books.capacity_eq ▸ nonempty)
      exact absurd none (Nat.ne_of_gt room)
  | fills bytes some fits =>
      have before : given = taken.map image := by
        simpa [books.held_nil met] using books.bytes
      exact {
        valid := LawfulIOBuf.valid_filled validHere fits
        image_eq := by
          rw [LawfulIOBuf.image_filled, books.image_eq]
        capacity_eq := by
          rw [LawfulIOBuf.capacity_filled validHere fits,
            books.capacity_eq]
        pos_le := Nat.zero_le _
        bytes := by
          rw [CopyBuffer.held, LawfulIOBuf.slice_filled validHere fits,
            books.image_eq, before, ReadAnswer.bytes, List.map_append]
        count := books.count
        ended := by
          simpa [ReadAnswer.isEof] using books.ended }

theorem conserves_afterWrite
    {answer : WriteAnswer Error} {status : CopyStatus Error}
    (books : Conserves copy image capacity taken given sawEof)
    (stepped : copy.afterWrite answer = some (next, status)) :
    Conserves next image capacity taken
      (given ++ copy.held.take answer.written) sawEof := by
  cases CopyBuffer.writeOutcome_of_afterWrite stepped with
  | waits => simpa [WriteAnswer.written] using books
  | fails error => simpa [WriteAnswer.written] using books
  | writesNothing => simpa [WriteAnswer.written] using books
  | drains written some within =>
      have accepted : (copy.held.take written).length = written := by
        rw [List.length_take, CopyBuffer.held,
          LawfulIOBuf.slice_length books.valid]
        exact Nat.min_eq_left within
      exact {
        valid := LawfulIOBuf.valid_drained books.valid within
        image_eq := by
          rw [LawfulIOBuf.image_drained, books.image_eq]
        capacity_eq := by
          rw [LawfulIOBuf.capacity_drained, books.capacity_eq]
        pos_le := by
          have posLe := books.pos_le
          dsimp only
          omega
        bytes := by
          change given ++ copy.held.take written ++
            AsyncIOBuf.slice (AsyncIOBuf.drained copy.buf written)
              (copy.pos + written) copy.cap = taken.map image
          rw [LawfulIOBuf.slice_drained books.valid within,
            List.append_assoc]
          exact (congrArg (given ++ ·)
            (List.take_append_drop written copy.held)).trans books.bytes
        count := by
          rw [WriteAnswer.written, List.length_append, accepted,
            UInt64.ofNat_add, ← books.count]
        ended := books.ended }

/-- A flush moves no bytes. -/
theorem conserves_afterIdleFlush
    (books : Conserves copy image capacity taken given sawEof)
    (answer : DoneAnswer Error) :
    Conserves (copy.afterIdleFlush answer).1 image capacity taken given
      sawEof := by
  cases answer with
  | ok =>
      exact {
        valid := books.valid
        image_eq := books.image_eq
        capacity_eq := books.capacity_eq
        pos_le := books.pos_le
        bytes := books.bytes
        count := books.count
        ended := books.ended }
  | pending => exact books
  | error error => exact books

theorem conserves_afterFinalFlush
    (books : Conserves copy image capacity taken given sawEof)
    (answer : DoneAnswer Error) :
    Conserves (copy.afterFinalFlush answer).1 image capacity taken given
      sawEof := by
  cases answer <;> exact books

/-- A step of a running call keeps the books. -/
theorem conserves_step
    {point : CopyPoint} {answer : CopyAnswer Error}
    {status : CopyStatus Error}
    (books : Conserves copy image capacity taken given sawEof)
    (nonempty : 0 < capacity)
    (stepped : copy.step point answer = some (next, status)) :
    Conserves next image capacity
      (taken ++ copy.takenBy point answer)
      (given ++ copy.givenBy point answer)
      (sawEof || copy.endedBy point answer) := by
  rcases CopyBuffer.step_cases stepped with
    ⟨nanos, read, arrived, rfl, answered⟩ | ⟨write, arrived, rfl, answered⟩ |
    ⟨flush, arrived, rfl, answered⟩ | ⟨flush, arrived, rfl, answered⟩
  · have kept :=
      conserves_afterRead books nonempty (CopyBuffer.op_read arrived).1
        answered
    simpa [CopyBuffer.takenBy, CopyBuffer.givenBy, CopyBuffer.endedBy,
      arrived] using kept
  · have kept := conserves_afterWrite books answered
    simpa [CopyBuffer.takenBy, CopyBuffer.givenBy, CopyBuffer.endedBy,
      arrived] using kept
  · have kept := conserves_afterIdleFlush books flush
    rw [answered] at kept
    simpa [CopyBuffer.takenBy, CopyBuffer.givenBy, CopyBuffer.endedBy,
      arrived] using kept
  · have kept := conserves_afterFinalFlush books flush
    rw [answered] at kept
    simpa [CopyBuffer.takenBy, CopyBuffer.givenBy, CopyBuffer.endedBy,
      arrived] using kept

end Conservation

/-! ## Runs of calls -/

/-- A copy together with what has passed through it. -/
structure CopyRun (B Error : Type) where
  copy : CopyBuffer B
  /-- The current or the last call; none before the first. -/
  call : Option (CopyStatus Error)
  /-- The bytes the reader has handed over. -/
  taken : List UInt8
  /-- The bytes the writer has accepted. -/
  given : List UInt8
  /-- The reader has reported its end. -/
  sawEof : Bool

/-- The caller polls, or the reader or writer answers. -/
inductive CopyLabel (Error : Type) where
  | poll
  | answer (answer : CopyAnswer Error)
deriving DecidableEq, Repr

namespace CopyRun

variable {B Error : Type}

def start (buf : B) : CopyRun B Error where
  copy := CopyBuffer.new buf
  call := none
  taken := []
  given := []
  sawEof := false

variable [AsyncIOBuf B]

/-- The operation the running call waits for. -/
def op (run : CopyRun B Error) : Option CopyOp :=
  match run.call with
  | some (.running point) => run.copy.op point
  | _ => none

/-- Calls of `poll_copy`, each answered operation by operation. -/
def machine : Machine (CopyRun B Error) (CopyLabel Error) where
  step run
    | .poll =>
        match run.call with
        | some (.running _) => none
        | _ => some { run with call := some (.running .head) }
    | .answer answer =>
        match run.call with
        | some (.running point) =>
            (run.copy.step point answer).map fun result =>
              { copy := result.1
                call := some result.2
                taken := run.taken ++ run.copy.takenBy point answer
                given := run.given ++ run.copy.givenBy point answer
                sawEof := run.sawEof || run.copy.endedBy point answer }
        | _ => none

/-- A poll begins a call where none is running, and an answer takes the
running call one operation further. -/
theorem step_cases
    {run next : CopyRun B Error} {label : CopyLabel Error}
    (stepped : machine.step run label = some next) :
    (label = .poll ∧ (∀ point, run.call ≠ some (.running point)) ∧
        next = { run with call := some (.running .head) }) ∨
      ∃ point answer copy status,
        label = .answer answer ∧ run.call = some (.running point) ∧
          run.copy.step point answer = some (copy, status) ∧
          next =
            { copy := copy
              call := some status
              taken := run.taken ++ run.copy.takenBy point answer
              given := run.given ++ run.copy.givenBy point answer
              sawEof := run.sawEof || run.copy.endedBy point answer } := by
  cases label with
  | poll =>
      simp only [machine] at stepped
      split at stepped
      · cases stepped
      · next rests =>
        exact .inl ⟨rfl, rests, (Option.some.inj stepped).symm⟩
  | answer answer =>
      simp only [machine] at stepped
      split at stepped
      · next point running =>
        rcases Option.map_eq_some_iff.1 stepped with
          ⟨⟨copy, status⟩, answered, rfl⟩
        exact .inr
          ⟨point, answer, copy, status, rfl, running, answered, rfl⟩
      · cases stepped

/-- Nothing is lost, doubled or reordered on the way through a buffer. -/
structure Accounted
    (run : CopyRun B Error) (image : UInt8 → UInt8) (capacity : ℕ) :
    Prop where
  bytes : run.given ++ run.copy.held = run.taken.map image
  held_length : run.copy.held.length = run.copy.cap - run.copy.pos
  pos_le : run.copy.pos ≤ run.copy.cap
  cap_le : run.copy.cap ≤ capacity
  count : run.copy.amt = UInt64.ofNat run.given.length
  reads_empty : run.op = some .read → run.copy.held = []
  ended : ∀ {n : UInt64}, run.call = some (.returned (.ready (.ok n))) →
    run.sawEof = true ∧ run.copy.held = [] ∧ n = run.copy.amt

variable [LawfulIOBuf B]

/-- The invariant of a run: its books, and a real end behind each finished
call. -/
structure Inv
    (run : CopyRun B Error) (image : UInt8 → UInt8) (capacity : ℕ) :
    Prop where
  books : Conserves run.copy image capacity run.taken run.given run.sawEof
  finished : ∀ {n : UInt64},
    run.call = some (.returned (.ready (.ok n))) →
      run.copy.pos = run.copy.cap ∧ run.copy.readDone = true ∧
        n = run.copy.amt

theorem inv_start
    (buf : B) (valid : LawfulIOBuf.Valid buf 0 0) :
    Inv (start buf : CopyRun B Error) (LawfulIOBuf.image buf)
      (AsyncIOBuf.capacity buf) where
  books := conserves_new buf valid
  finished called := by simp [start] at called

theorem inv_step
    {image : UInt8 → UInt8} {capacity : ℕ} (nonempty : 0 < capacity)
    {run next : CopyRun B Error} {label : CopyLabel Error}
    (inv : Inv run image capacity)
    (stepped : machine.step run label = some next) :
    Inv next image capacity := by
  rcases step_cases stepped with
    ⟨_, _, rfl⟩ | ⟨point, answer, copy, status, _, _, answered, rfl⟩
  · exact { books := inv.books, finished := fun called => by cases called }
  · refine
      { books := conserves_step inv.books nonempty answered
        finished := ?_ }
    intro n called
    cases called
    exact CopyBuffer.step_finished answered

theorem Inv.accounted
    {image : UInt8 → UInt8} {capacity : ℕ} {run : CopyRun B Error}
    (inv : Inv run image capacity) :
    run.Accounted image capacity where
  bytes := inv.books.bytes
  held_length := LawfulIOBuf.slice_length inv.books.valid
  pos_le := inv.books.pos_le
  cap_le := by
    rw [← inv.books.capacity_eq]
    exact LawfulIOBuf.cap_le inv.books.valid
  count := inv.books.count
  reads_empty reads := by
    unfold op at reads
    split at reads
    · exact inv.books.held_nil (CopyBuffer.op_read reads).1
    · cases reads
  ended called := by
    rcases inv.finished called with ⟨met, isDone, amount⟩
    exact ⟨inv.books.ended isDone, inv.books.held_nil met, amount⟩

/-- Every run over a lawful buffer is accounted for. -/
theorem accounted_of_run
    {buf : B} (valid : LawfulIOBuf.Valid buf 0 0)
    (nonempty : 0 < AsyncIOBuf.capacity buf)
    {labels : List (CopyLabel Error)} {final : CopyRun B Error}
    (ran : machine.run (start buf) labels = some final) :
    final.Accounted (LawfulIOBuf.image buf) (AsyncIOBuf.capacity buf) :=
  (Machine.run_invariant
    (fun run => Inv run (LawfulIOBuf.image buf) (AsyncIOBuf.capacity buf))
    (inv_step nonempty) (inv_start buf valid) ran).accounted

end CopyRun

/-- A copy through memory or through a pipe conserves the stream. -/
theorem pollCopy_conserves {Error : Type} :
    (∀ buf : MemBuf, 0 < buf.bytes.length →
      ∀ (labels : List (CopyLabel Error)) final,
        CopyRun.machine.run (CopyRun.start buf) labels = some final →
          final.Accounted (obfuscate buf.mode) buf.bytes.length) ∧
    (∀ pipe : Pipe, pipe.content = [] →
      ∀ (labels : List (CopyLabel Error)) final,
        CopyRun.machine.run (CopyRun.start pipe) labels = some final →
          final.Accounted id pipe.size) := by
  constructor
  · intro buf nonempty labels final ran
    exact CopyRun.accounted_of_run (Nat.zero_le _) nonempty ran
  · intro pipe empty labels final ran
    have valid : LawfulIOBuf.Valid pipe 0 0 := by
      refine ⟨?_, Nat.zero_le _⟩
      rw [empty, List.length_nil]
    exact CopyRun.accounted_of_run valid pipe.size_pos ran

/-- A run in mode 1: two bytes arrive, are written one at a time and are
flushed while the reader is idle; then the reader ends. -/
def twoBytesRun : List (CopyLabel Unit) :=
  [.poll, .answer (.read 7 (.data [1, 2])),
    .answer (.write (.ok 1)), .answer (.write .pending),
    .poll, .answer (.write (.ok 1)), .answer (.read 8 .pending),
    .answer (.flush .ok), .poll, .answer (.read 9 .eof),
    .answer (.flush .ok)]

/-- The state it ends in. -/
def twoBytesEnd : CopyRun MemBuf Unit where
  copy :=
    { readDone := true
      needFlush := false
      pos := 2
      cap := 2
      amt := 2
      buf := ⟨[0x5B, 0x58, 0, 0], 1⟩ }
  call := some (.returned (.ready (.ok 2)))
  taken := [1, 2]
  given := [0x5B, 0x58]
  sawEof := true

theorem pollCopy_conserves_two_bytes :
    CopyRun.machine.run (CopyRun.start ⟨[0, 0, 0, 0], 1⟩) twoBytesRun =
        some twoBytesEnd ∧
      twoBytesEnd.Accounted (obfuscate 1) 4 :=
  ⟨rfl,
    pollCopy_conserves.1 ⟨[0, 0, 0, 0], 1⟩ (by decide) twoBytesRun
      twoBytesEnd rfl⟩

end ByteHub.Io
