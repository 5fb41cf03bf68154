import ByteHub.Io.ActiveProbe
import ByteHub.Io.BidiCompletion
import ByteHub.Io.RelayFault

/-!
# The control of an obfuscating relay

Beside its books a relay keeps its place: there is a rest of a header while
one is written and a rest of garbage while it is read, the status of the
current poll agrees with the two directions, and a relay that returns `Ok`
has sent its header, in the graceful build after both directions were done.
-/

namespace ByteHub.Io

open ByteHub.Library

variable {B Error : Type} {key : ObfsKey} {all : Passed}

/-! ## A header has gone out -/

/-- A whole header has gone out. -/
def HeaderSent (key : ObfsKey) (all : Passed) : Prop :=
  ∃ header : Header key, header.wire <+: all.given

theorem EncoderReady.headerSent (ready : EncoderReady key all) :
    HeaderSent key all := by
  rcases ready with ⟨_, header, sent⟩
  rw [List.append_nil] at sent
  exact ⟨header, scramble all.taken, sent.symm⟩

theorem HeaderSent.later
    {later : Passed} (sent : HeaderSent key all)
    (given : all.given <+: later.given) : HeaderSent key later := by
  rcases sent with ⟨header, isPrefix⟩
  exact ⟨header, isPrefix.trans given⟩

theorem Encodes.headerSent
    (encodes : Encodes key all) (isDone : all.done = true) :
    HeaderSent key all := by
  rcases encodes with ⟨header, _, whole⟩
  exact ⟨header, scramble all.taken, (whole isDone).1.symm⟩

/-- A header is never empty. -/
theorem Header.wire_append_ne_nil
    (header : Header key) (rest : List UInt8) : header.wire ++ rest ≠ [] := by
  apply List.ne_nil_of_length_pos
  rw [List.length_append, Header.wire, List.length_append,
    header.wireHeader_length]
  omega

section Copying

variable [AsyncIOBuf B] [LawfulIOBuf B]
variable {state : TransferState B} {capacity : ℕ} {before : Passed → Prop}

theorem Copying.headerSent
    (copying : Copying (EncoderReady key) capacity state all) :
    HeaderSent key all := by
  rcases copying with ⟨earlier, copied, ready, rfl, _⟩
  exact ready.headerSent.later (List.prefix_append _ _)

/-- A direction is done when its transfer is. -/
theorem Copying.done_iff
    (copying : Copying before capacity state all)
    (open_ : ∀ {earlier}, before earlier → earlier.done = false) :
    all.done = true ↔ ∃ count, state = .done count := by
  rcases copying with ⟨earlier, copied, first, rfl, books⟩
  rw [Passed.append, open_ first, Bool.false_or]
  cases state with
  | running copy =>
      constructor
      · intro isDone
        rw [books.2] at isDone
        cases isDone
      · rintro ⟨count, same⟩
        cases same
  | shuttingDown count =>
      constructor
      · intro isDone
        rw [books.2.2.1] at isDone
        cases isDone
      · rintro ⟨count, same⟩
        cases same
  | done count =>
      constructor
      · intro _
        exact ⟨count, rfl⟩
      · intro _
        exact books.2.2.1

end Copying

theorem TransferState.finished_eq_some_iff
    {state : TransferState B} {count : UInt64} :
    state.finished = some count ↔ state = .done count := by
  cases state with
  | running copy => simp [finished]
  | shuttingDown other => simp [finished]
  | done other => simp [finished]

theorem TransferState.finished_eq_none
    {state : TransferState B} (open_ : ∀ count, state ≠ .done count) :
    state.finished = none := by
  cases state with
  | running copy => rfl
  | shuttingDown count => rfl
  | done count => exact absurd rfl (open_ count)

/-! ## The direction that is polled -/

/-- A running poll is at a direction that is not finished. -/
def BidiCopy.Polls (bidi : BidiCopy B) (status : BidiStatus Error) : Prop :=
  ∀ point, status = .running point →
    (bidi.half point.reader).finished = none

namespace BidiCopy

variable {bidi : BidiCopy B} {brutal : Bool}

theorem polls_of_returned
    (poll : Poll (Except (CopyError Error) (UInt64 × UInt64))) :
    bidi.Polls (.returned poll) := by
  intro point running
  cases running

theorem polls_finish (first second : Poll UInt64) :
    bidi.Polls (finish brutal first second : BidiStatus Error) := by
  intro point running
  cases first <;> cases second <;> cases brutal <;> cases running

theorem polls_second (first : Poll UInt64) :
    bidi.Polls (bidi.second brutal first : BidiStatus Error) := by
  unfold second
  split
  · exact polls_finish _ _
  · next open_ =>
    intro point running
    cases running
    exact TransferState.finished_eq_none open_

theorem polls_poll : bidi.Polls (bidi.poll brutal : BidiStatus Error) := by
  unfold poll
  split
  · exact polls_second _
  · next open_ =>
    intro point running
    cases running
    exact TransferState.finished_eq_none open_

/-- A direction that goes on within a poll is not finished. -/
theorem finished_of_running
    [AsyncIOBuf B] {state next : TransferState B} {point point' : CopyPoint}
    {answer : TransferAnswer Error}
    (stepped : state.step point answer = some (next, .running point')) :
    next.finished = none := by
  unfold TransferState.step at stepped
  split at stepped
  · rcases Option.map_eq_some_iff.1 stepped with
      ⟨⟨copy, status⟩, _, equal⟩
    rcases status with other | (_ | (error | count))
    · cases equal; rfl
    · cases equal
    · cases equal
    · cases equal; rfl
  · cases stepped
  · cases stepped
  · cases stepped
  · cases stepped

/-- A step leaves a poll at a direction that is not finished. -/
theorem polls_afterHalf
    [AsyncIOBuf B] {point : BidiPoint} {answer : TransferAnswer Error}
    {next : TransferState B} {status : CopyStatus Error}
    (stepped : (bidi.half point.reader).step point.point answer =
      some (next, status)) :
    (bidi.setHalf point.reader next).Polls
      ((bidi.setHalf point.reader next).afterHalf brutal point status) := by
  cases point with
  | aToB point =>
      rcases status with point' | (_ | (error | count))
      · intro other running
        cases running
        exact finished_of_running stepped
      · exact polls_second _
      · exact polls_of_returned _
      · exact polls_second _
  | bToA first point =>
      rcases status with point' | (_ | (error | count))
      · intro other running
        cases running
        exact finished_of_running stepped
      · exact polls_finish _ _
      · exact polls_of_returned _
      · exact polls_finish _ _

end BidiCopy

/-! ## The place of a relay -/

namespace RelayPhase

/-- The status of the current or last poll. -/
def statusOf : Option BidiPoint → BidiStatus Error
  | some point => .running point
  | none => .returned .pending

/-- What the phase of a relay says beside its books. -/
def Settled
    (config : RelayConfig B) (encoder decoder : Passed) :
    RelayPhase B Error → Prop
  | .writeAll rest => rest ≠ []
  | .readGarbage left => 0 < left
  | .copying bidi point =>
      Agrees config.brutal bidi
          (some (statusOf point : BidiStatus Error)) none ∧
        bidi.Polls (statusOf point : BidiStatus Error)
  | .returned (.ok _) =>
      HeaderSent config.key encoder ∧
        (config.brutal = false →
          encoder.done = true ∧ decoder.done = true)
  | _ => True

variable {config : RelayConfig B} {encoder decoder : Passed}

theorem settled_startCopy :
    (startCopy config : RelayPhase B Error).Settled config encoder
      decoder := by
  refine ⟨.first, ?_⟩
  intro point running
  cases running
  rfl

theorem settled_sendHeader (nanos : ℕ) (firstChunk : List UInt8) :
    (sendHeader config nanos firstChunk : RelayPhase B Error).Settled config
      encoder decoder := by
  rcases exists_header_of_generate config.key (SimpleRng.new nanos) with
    ⟨header, generated⟩
  rw [sendHeader, generated]
  exact header.wire_append_ne_nil _

theorem settled_headerSent :
    (headerSent config : RelayPhase B Error).Settled config encoder
      decoder := by
  unfold headerSent
  split
  · trivial
  · exact settled_startCopy

theorem settled_headerRead :
    (headerRead config : RelayPhase B Error).Settled config encoder
      decoder := by
  unfold headerRead
  split
  · exact settled_startCopy
  · trivial

theorem settled_gotHeader (got : List UInt8) :
    (gotHeader config got : RelayPhase B Error).Settled config encoder
      decoder := by
  unfold gotHeader
  split
  · trivial
  · split
    · trivial
    · trivial
    · exact settled_headerRead
    · exact Nat.succ_pos _

variable [AsyncIOBuf B] [LawfulIOBuf B]

/-- A copy ends as its directions say. -/
theorem settled_ofStatus
    {bidi : BidiCopy B} {status : BidiStatus Error}
    {failed : Option (Side × CopyError Error)} {point : Option BidiPoint}
    (books : (.copying bidi point : RelayPhase B Error).Books config encoder
      decoder)
    (agrees : Agrees config.brutal bidi (some status) failed)
    (polls : bidi.Polls status) :
    (ofStatus bidi status).Settled config encoder decoder := by
  rcases books with ⟨sending, receiving⟩
  rcases status with point | (_ | (error | amounts))
  · cases agrees with
    | first => exact ⟨.first, polls⟩
    | second firstEq => exact ⟨.second firstEq, polls⟩
  · cases agrees with
    | returned finished => exact ⟨.returned finished, polls⟩
  · trivial
  · refine ⟨sending.headerSent, fun graceful => ?_⟩
    cases agrees with
    | returned finished =>
        rw [graceful] at finished
        rcases finish_graceful finished with ⟨first, second⟩
        have isDone (side : Side) : ∃ count, bidi.half side = .done count := by
          cases side
          · exact ⟨_, TransferState.finished_eq_some_iff.1 first⟩
          · exact ⟨_, TransferState.finished_eq_some_iff.1 second⟩
        exact ⟨(sending.done_iff fun ready => ready.1).2 (isDone _),
          (receiving.done_iff fun ready => ready.2.1).2 (isDone _)⟩

end RelayPhase

namespace RelayRun

variable [AsyncIOBuf B] [LawfulIOBuf B]
variable {config : RelayConfig B}

/-- A relay is where its phase says. -/
def Settled (config : RelayConfig B) (run : RelayRun B Error) : Prop :=
  run.phase.Settled config (run.flow (plainSide config.mode))
    (run.flow (wireSide config.mode))

omit [AsyncIOBuf B] [LawfulIOBuf B] in
theorem settled_start (obfuscating : config.mode = 1 ∨ config.mode = 2) :
    (start config : RelayRun B Error).Settled config := by
  unfold Settled start RelayPhase.start
  dsimp only
  rcases obfuscating with one | two
  · rw [if_pos one]
    trivial
  · rw [if_neg (by rw [two]; decide), if_pos two]
    trivial

theorem settled_step
    (obfuscating : Obfuscating config) {run next : RelayRun B Error}
    {label : RelayLabel Error} (inv : run.Inv config)
    (settled : run.Settled config)
    (stepped : (machine config).step run label = some next) :
    next.Settled config := by
  rcases Option.map_eq_some_iff.1 stepped with ⟨phase, moved, rfl⟩
  rcases run with ⟨current, flow⟩
  unfold Settled at settled ⊢
  unfold Inv at inv
  dsimp only at inv settled moved ⊢
  unfold RelayPhase.step at moved
  split at moved
  · rcases RelayPhase.afterFirst_cases moved with
      ⟨rfl, rfl⟩ | ⟨_, rfl, rfl⟩ | ⟨rfl, rfl⟩ | ⟨_, rfl, _, _, rfl⟩
    · trivial
    · exact RelayPhase.settled_sendHeader _ _
    · exact RelayPhase.settled_sendHeader _ _
    · exact RelayPhase.settled_sendHeader _ _
  · cases moved
    exact RelayPhase.settled_sendHeader _ _
  · next rest answer =>
    rcases RelayPhase.afterWrite_cases moved with
      ⟨rfl, rfl⟩ | ⟨_, rfl, rfl⟩ | ⟨rfl, rfl⟩ | ⟨rfl, _, rfl⟩ |
        ⟨written, rfl, _, part, rfl⟩
    · exact settled
    · trivial
    · trivial
    · exact RelayPhase.settled_headerSent
    · apply List.ne_nil_of_length_pos
      rw [List.length_drop]
      exact Nat.sub_pos_of_lt part
  · rcases RelayPhase.afterHeader_cases moved with
      ⟨rfl, rfl⟩ | ⟨_, rfl, rfl⟩ | ⟨rfl, rfl⟩ | ⟨_, rfl, _, _, rfl⟩
    · trivial
    · trivial
    · trivial
    · exact RelayPhase.settled_gotHeader _
  · rcases RelayPhase.afterGarbage_cases moved with
      ⟨rfl, rfl⟩ | ⟨_, rfl, rfl⟩ | ⟨rfl, rfl⟩ | ⟨_, rfl, _, rfl⟩ |
        ⟨_, rfl, fewer, rfl⟩
    · exact settled
    · trivial
    · trivial
    · exact RelayPhase.settled_headerRead
    · exact Nat.sub_pos_of_lt fewer
  · cases moved
    trivial
  · next bidi =>
    cases moved
    have books : (.copying bidi none : RelayPhase B Error).Books config
        (flow (plainSide config.mode)) (flow (wireSide config.mode)) :=
      inv
    have agrees :
        Agrees config.brutal bidi
          (some (bidi.poll config.brutal : BidiStatus Error)) none :=
      agrees_poll
    have kept := RelayPhase.settled_ofStatus books agrees
      BidiCopy.polls_poll
    simpa [RelayPhase.reader, RelayPhase.passed] using kept
  · next bidi point answer =>
    rcases Option.map_eq_some_iff.1 moved with ⟨⟨_, _⟩, copied, rfl⟩
    rcases Option.map_eq_some_iff.1 copied with
      ⟨⟨half, status⟩, halved, equal⟩
    cases equal
    exact RelayPhase.settled_ofStatus (books_copies obfuscating inv halved)
      (agrees_afterHalf settled.1 (halfStep_of_step halved))
      (BidiCopy.polls_afterHalf halved)
  · cases moved

end RelayRun

end ByteHub.Io
