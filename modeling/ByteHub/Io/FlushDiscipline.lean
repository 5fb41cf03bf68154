import ByteHub.Io.CopyBuffer
import ByteHub.Io.CopyConservation

/-!
# When a copy flushes

A writer may hold what it has accepted until it is flushed.  Beside a copy we
record the bytes accepted since the last flush that was completed, and whether
the reader, or a flush, was pending in the current call.  A call that waits
for the reader leaves nothing unflushed, unless it waits for the flush itself,
and a call that ends well leaves nothing unflushed at all.
-/

namespace ByteHub.Io

open ByteHub.Library

variable {B Error : Type}

/-! ## What is recorded -/

/-- A copy, and what its writer has not been made to pass on. -/
structure FlushRun (B Error : Type) where
  run : CopyRun B Error
  /-- The bytes accepted since the last completed flush. -/
  unflushed : List UInt8
  /-- The reader was pending in the current or the last call. -/
  readerPending : Bool
  /-- A flush was pending in the current or the last call. -/
  flushPending : Bool

/-- The unflushed bytes after an operation has been answered. -/
def unflushedAfter (unflushed held : List UInt8) :
    CopyOp → CopyAnswer Error → List UInt8
  | .write, .write answer => unflushed ++ held.take answer.written
  | .idleFlush, .flush .ok => []
  | .finalFlush, .flush .ok => []
  | _, _ => unflushed

/-- The reader has nothing yet. -/
def CopyAnswer.readerPending : CopyAnswer Error → Bool
  | .read _ .pending => true
  | _ => false

/-- The writer has not completed a flush yet. -/
def CopyAnswer.flushPending : CopyAnswer Error → Bool
  | .flush .pending => true
  | _ => false

namespace FlushRun

def start (buf : B) : FlushRun B Error where
  run := CopyRun.start buf
  unflushed := []
  readerPending := false
  flushPending := false

variable [AsyncIOBuf B]

/-- The record after a step of the calls. -/
def record
    (state : FlushRun B Error) (label : CopyLabel Error)
    (next : CopyRun B Error) : FlushRun B Error where
  run := next
  unflushed :=
    match label, state.run.op with
    | .answer answer, some op =>
        unflushedAfter state.unflushed state.run.copy.held op answer
    | _, _ => state.unflushed
  readerPending :=
    match label with
    | .poll => false
    | .answer answer => state.readerPending || answer.readerPending
  flushPending :=
    match label with
    | .poll => false
    | .answer answer => state.flushPending || answer.flushPending

/-- The calls of a copy, with the record kept. -/
def machine : Machine (FlushRun B Error) (CopyLabel Error) where
  step state label :=
    (CopyRun.machine.step state.run label).map (state.record label)

/-- The record restrains nothing: every run of calls is one with a
record. -/
theorem exists_run
    {state : FlushRun B Error} {labels : List (CopyLabel Error)}
    {final : CopyRun B Error}
    (ran : CopyRun.machine.run state.run labels = some final) :
    ∃ recorded : FlushRun B Error,
      machine.run state labels = some recorded ∧ recorded.run = final := by
  induction labels generalizing state with
  | nil =>
      cases ran
      exact ⟨state, rfl, rfl⟩
  | cons label labels inductionHypothesis =>
      rcases CopyRun.machine.run_cons_eq_some.1 ran with
        ⟨next, stepped, rest⟩
      have recorded :
          machine.step state label = some (state.record label next) :=
        Option.map_eq_some_iff.2 ⟨next, stepped, rfl⟩
      rcases @inductionHypothesis (state.record label next) rest with
        ⟨final, runs, same⟩
      exact ⟨final, machine.run_cons_eq_some.2 ⟨_, recorded, runs⟩, same⟩

/-- The unflushed bytes are the last of those the writer has accepted.  A
call that has returned `Pending` since the reader is pending has left none of
them, or waits for the flush; a call that has returned a count has left
none. -/
structure Disciplined (state : FlushRun B Error) : Prop where
  accepted : state.unflushed <:+ state.run.given
  waiting : state.run.call = some (.returned .pending) →
    state.readerPending = true →
      state.unflushed = [] ∨ state.flushPending = true
  finished : ∀ {n : UInt64},
    state.run.call = some (.returned (.ready (.ok n))) →
      state.unflushed = []

/-- The flag of the copy is up while something is unflushed, and no call goes
on at the head of its loop once the reader was pending. -/
structure Inv (state : FlushRun B Error) : Prop where
  flagged : state.run.copy.needFlush = false → state.unflushed = []
  onwards : state.run.call = some (.running .head) →
    state.readerPending = false
  disciplined : state.Disciplined

end FlushRun

/-! ## One operation -/

/-- What is unflushed, and who is waited for, where an operation ends. -/
def FlushOutcome
    (point : CopyPoint) (answer : CopyAnswer Error)
    (unflushed : List UInt8) : CopyStatus Error → Prop
  | .running .head => point = .head ∧ answer.readerPending = false
  | .running .idleFlush => True
  | .returned .pending =>
      point = .head ∧ answer.readerPending = false ∨ unflushed = [] ∨
        answer.flushPending = true
  | .returned (.ready (.ok _)) => unflushed = []
  | .returned (.ready (.error _)) => True

section Step

variable [AsyncIOBuf B] {copy next : CopyBuffer B}
variable {status : CopyStatus Error} {unflushed : List UInt8}

theorem flushOutcome_afterRead
    {nanos : ℕ} {answer : ReadAnswer Error}
    (flagged : copy.needFlush = false → unflushed = [])
    (stepped : copy.afterRead nanos answer = some (next, status)) :
    (next.needFlush = false → unflushed = []) ∧
      FlushOutcome .head (.read nanos answer) unflushed status := by
  cases CopyBuffer.readOutcome_of_afterRead stepped with
  | flushes dirty => exact ⟨flagged, trivial⟩
  | waits clean => exact ⟨flagged, .inr (.inl (flagged clean))⟩
  | fails error => exact ⟨flagged, trivial⟩
  | ends => exact ⟨flagged, rfl, rfl⟩
  | offersNothing none => exact ⟨flagged, rfl, rfl⟩
  | fills bytes some fits => exact ⟨flagged, rfl, rfl⟩

theorem flushOutcome_afterWrite
    {answer : WriteAnswer Error}
    (flagged : copy.needFlush = false → unflushed = [])
    (stepped : copy.afterWrite answer = some (next, status)) :
    (next.needFlush = false →
        unflushed ++ copy.held.take answer.written = []) ∧
      FlushOutcome .head (.write answer)
        (unflushed ++ copy.held.take answer.written) status := by
  have kept (none : answer.written = 0) :
      copy.needFlush = false →
        unflushed ++ copy.held.take answer.written = [] := by
    intro clean
    rw [none, flagged clean]
    rfl
  cases CopyBuffer.writeOutcome_of_afterWrite stepped with
  | waits => exact ⟨kept rfl, .inl ⟨rfl, rfl⟩⟩
  | fails error => exact ⟨kept rfl, trivial⟩
  | writesNothing => exact ⟨kept rfl, trivial⟩
  | drains written some within =>
      exact ⟨(fun clean => by cases clean), rfl, rfl⟩

theorem flushOutcome_step
    {point : CopyPoint} {answer : CopyAnswer Error}
    (flagged : copy.needFlush = false → unflushed = [])
    (stepped : copy.step point answer = some (next, status)) :
    ∃ op, copy.op point = some op ∧
      (next.needFlush = false →
        unflushedAfter unflushed copy.held op answer = []) ∧
      FlushOutcome point answer
        (unflushedAfter unflushed copy.held op answer) status := by
  rcases CopyBuffer.step_cases stepped with
    ⟨nanos, read, arrived, rfl, answered⟩ | ⟨write, arrived, rfl, answered⟩ |
    ⟨flush, arrived, rfl, answered⟩ | ⟨flush, arrived, rfl, answered⟩
  · obtain rfl := CopyBuffer.op_head arrived (by rintro ⟨⟩)
    exact ⟨_, arrived, flushOutcome_afterRead flagged answered⟩
  · obtain rfl := CopyBuffer.op_head arrived (by rintro ⟨⟩)
    exact ⟨_, arrived, flushOutcome_afterWrite flagged answered⟩
  · refine ⟨_, arrived, ?_⟩
    cases flush with
    | pending =>
        cases answered
        exact ⟨flagged, .inr (.inr rfl)⟩
    | error error =>
        cases answered
        exact ⟨flagged, trivial⟩
    | ok =>
        cases answered
        exact ⟨fun _ => rfl, .inr (.inl rfl)⟩
  · refine ⟨_, arrived, ?_⟩
    cases flush with
    | pending =>
        cases answered
        exact ⟨flagged, .inr (.inr rfl)⟩
    | error error =>
        cases answered
        exact ⟨flagged, trivial⟩
    | ok =>
        cases answered
        exact ⟨fun _ => rfl, rfl⟩

end Step

/-- What is unflushed is at the end of what has been accepted. -/
theorem unflushedAfter_suffix
    [AsyncIOBuf B] {copy : CopyBuffer B} {point : CopyPoint}
    {answer : CopyAnswer Error} {op : CopyOp}
    (arrived : copy.op point = some op)
    {unflushed given : List UInt8} (accepted : unflushed <:+ given) :
    unflushedAfter unflushed copy.held op answer <:+
      given ++ copy.givenBy point answer := by
  have passed (none : copy.givenBy point answer = []) :
      unflushed <:+ given ++ copy.givenBy point answer := by
    rwa [none, List.append_nil]
  cases op with
  | read =>
      apply passed
      simp [CopyBuffer.givenBy, arrived]
  | write =>
      cases answer with
      | write answer =>
          rcases accepted with ⟨earlier, rfl⟩
          refine ⟨earlier, ?_⟩
          simp [unflushedAfter, CopyBuffer.givenBy, arrived]
      | read nanos answer =>
          apply passed
          simp [CopyBuffer.givenBy, arrived]
      | flush answer =>
          apply passed
          simp [CopyBuffer.givenBy, arrived]
  | idleFlush | finalFlush =>
      have same := passed (by simp [CopyBuffer.givenBy, arrived])
      cases answer with
      | read nanos answer => exact same
      | write answer => exact same
      | flush answer =>
          cases answer with
          | ok => exact List.nil_suffix
          | pending => exact same
          | error error => exact same

/-! ## Runs -/

namespace FlushRun

theorem inv_start (buf : B) : Inv (start buf : FlushRun B Error) where
  flagged _ := rfl
  onwards called := by cases called
  disciplined :=
    { accepted := List.nil_suffix
      waiting := fun called => by cases called
      finished := fun called => by cases called }

variable [AsyncIOBuf B]

/-- A poll begins with nobody waited for. -/
theorem inv_polled {state : FlushRun B Error} (inv : Inv state) :
    Inv (state.record .poll
      { state.run with call := some (.running .head) }) where
  flagged := inv.flagged
  onwards _ := rfl
  disciplined :=
    { accepted := inv.disciplined.accepted
      waiting := fun called => by cases called
      finished := fun called => by cases called }

/-- An answer to the operation that a running call has arrived at. -/
theorem inv_answered
    {state : FlushRun B Error} {point : CopyPoint}
    {answer : CopyAnswer Error} {copy : CopyBuffer B}
    {status : CopyStatus Error} (inv : Inv state)
    (running : state.run.call = some (.running point))
    (answered : state.run.copy.step point answer = some (copy, status))
    {taken : List UInt8} {sawEof : Bool} :
    Inv (state.record (.answer answer)
      { copy := copy
        call := some status
        taken := taken
        given := state.run.given ++ state.run.copy.givenBy point answer
        sawEof := sawEof }) := by
  rcases flushOutcome_step inv.flagged answered with
    ⟨op, arrived, flagged, outcome⟩
  have waits : state.run.op = some op := by
    rw [CopyRun.op, running]
    exact arrived
  have recorded (run : CopyRun B Error) :
      (state.record (.answer answer) run).unflushed =
        unflushedAfter state.unflushed state.run.copy.held op answer := by
    simp only [record, waits]
  constructor
  · rw [recorded]
    exact flagged
  · intro called
    cases called
    obtain ⟨rfl, advanced⟩ := outcome
    exact Bool.or_eq_false_iff.2 ⟨inv.onwards running, advanced⟩
  · constructor
    · rw [recorded]
      exact unflushedAfter_suffix arrived inv.disciplined.accepted
    · intro called pending
      cases called
      rw [recorded]
      rcases outcome with ⟨rfl, advanced⟩ | clean | waiting
      · have idle :
            (state.readerPending || answer.readerPending) = false :=
          Bool.or_eq_false_iff.2 ⟨inv.onwards running, advanced⟩
        exact absurd pending (Bool.eq_false_iff.1 idle)
      · exact .inl clean
      · exact .inr (Bool.or_eq_true_iff.2 (.inr waiting))
    · intro n called
      cases called
      rw [recorded]
      exact outcome

theorem inv_step
    {state next : FlushRun B Error} {label : CopyLabel Error}
    (inv : Inv state) (stepped : machine.step state label = some next) :
    Inv next := by
  rcases Option.map_eq_some_iff.1 stepped with ⟨run, moved, rfl⟩
  rcases CopyRun.step_cases moved with
    ⟨rfl, _, rfl⟩ |
      ⟨point, answer, copy, status, rfl, running, answered, rfl⟩
  · exact inv_polled inv
  · exact inv_answered inv running answered

/-- Whatever the reader and the writer answer, every state of every run of
calls is disciplined. -/
theorem disciplined_of_run
    {buf : B} {labels : List (CopyLabel Error)} {final : FlushRun B Error}
    (ran : machine.run (start buf) labels = some final) :
    final.Disciplined :=
  (Machine.run_invariant Inv inv_step (inv_start buf) ran).disciplined

end FlushRun

/-- In every run of calls over any buffer the copy keeps the discipline of
flushing. -/
theorem pollCopy_flushes [AsyncIOBuf B]
    (buf : B) (labels : List (CopyLabel Error)) (final : CopyRun B Error)
    (ran : CopyRun.machine.run (CopyRun.start buf) labels = some final) :
    ∃ recorded : FlushRun B Error,
      FlushRun.machine.run (FlushRun.start buf) labels = some recorded ∧
        recorded.run = final ∧ recorded.Disciplined := by
  rcases @FlushRun.exists_run _ _ _ (FlushRun.start buf) _ _ ran with
    ⟨recorded, runs, same⟩
  exact ⟨recorded, runs, same, FlushRun.disciplined_of_run runs⟩

theorem pollCopy_flushes_two_bytes :
    ∃ recorded : FlushRun MemBuf Unit,
      FlushRun.machine.run (FlushRun.start ⟨[0, 0, 0, 0], 1⟩) twoBytesRun =
          some recorded ∧
        recorded.run = twoBytesEnd ∧ recorded.Disciplined :=
  pollCopy_flushes ⟨[0, 0, 0, 0], 1⟩ twoBytesRun twoBytesEnd rfl

end ByteHub.Io
