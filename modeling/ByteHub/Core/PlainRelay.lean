import ByteHub.Io.BidiCompletion

/-!
# Falling back from splice

A plain relay in mode 0 on Linux first copies through pipes.  An error of
the kind `InvalidInput` drops this copy together with its pipes, and a copy
through memory is started on the same two streams.  What the pipes held is
then gone, so the relay loses nothing exactly if they were empty.
-/

namespace ByteHub.Core

open ByteHub.Io ByteHub.Library

variable {Error : Type}

/-! ## Streams that have a peer -/

/-- A stream hands over what its peer has sent, in order, and reports its
end after that, however often it is asked. -/
structure HandsOver (sent : List UInt8) (passed : Passed) : Prop where
  in_order : passed.taken <+: sent
  at_end : passed.ended = true → passed.taken = sent

instance (sent : List UInt8) (passed : Passed) :
    Decidable (HandsOver sent passed) :=
  decidable_of_iff
    (passed.taken <+: sent ∧ (passed.ended = true → passed.taken = sent))
    ⟨fun both => ⟨both.1, both.2⟩, fun hands => ⟨hands.1, hands.2⟩⟩

instance (holds : Side → Prop) [DecidablePred holds] :
    Decidable (∀ side, holds side) :=
  decidable_of_iff (holds .a ∧ holds .b)
    ⟨fun both side => by
      cases side
      · exact both.1
      · exact both.2, fun all => ⟨all .a, all .b⟩⟩

theorem handsOver_nothing (sent : List UInt8) :
    HandsOver sent Passed.nothing where
  in_order := List.nil_prefix
  at_end ended := absurd ended Bool.false_ne_true

/-! ## The relay -/

structure PlainSetup (Error : Type) where
  /-- The build with `brutal-shutdown`. -/
  brutal : Bool
  /-- The answer to `Pipe::new` for the copy that reads a side. -/
  newPipe : Side → Except Error { size : ℕ // 0 < size }
  /-- `buf_size()`, which is `0x2000` and never set to anything else. -/
  bufSize : ℕ
  bufSize_pos : 0 < bufSize
  /-- An error of the kind `InvalidInput`. -/
  isInvalidInput : Error → Bool

/-- The two buffers of `bidi_copy` in mode 0. -/
def PlainSetup.memory (setup : PlainSetup Error) (_ : Side) : MemBuf where
  bytes := List.replicate setup.bufSize 0
  mode := 0

/-- A copy in its first poll. -/
def beginCopy {B : Type} (brutal : Bool) (buf : Side → B) :
    BidiRun B Error :=
  let begun : BidiRun B Error := BidiRun.start buf
  { begun with status := some (begun.bidi.poll brutal) }

/-- What is dropped with a copy through pipes: how far its directions have
got, and the bytes in its pipes. -/
structure Dropped where
  course : Side → Io.Course
  held : Side → List UInt8

def droppedBy (run : BidiRun Pipe Error) : Dropped where
  course := run.course
  held side := (run.bidi.half side).held

/-- The copy through pipes, the copy through memory that took over, or no
copy for want of a pipe. -/
inductive PlainPhase (Error : Type) where
  | splicing (run : BidiRun Pipe Error)
  | copying (dropped : Dropped) (run : BidiRun MemBuf Error)
  | refused (error : Error)

/-- A future that is ready is not polled again. -/
def isReady {B : Type} (run : BidiRun B Error) : Bool :=
  match run.returned with
  | some (.ready _) => true
  | _ => false

/-- The result of a copy without its counts. -/
def outcome {B : Type} (run : BidiRun B Error) :
    Option (Except (CopyError Error) Unit) :=
  match run.returned with
  | some (.ready (.ok _)) => some (.ok ())
  | some (.ready (.error error)) => some (.error error)
  | _ => none

namespace PlainPhase

variable (setup : PlainSetup Error)

/-- `bidi_copy` takes over. -/
def fallBack (dropped : Dropped) : PlainPhase Error :=
  .copying dropped (beginCopy setup.brutal setup.memory)

/-- There is no pipe. -/
def refuse (error : Error) : PlainPhase Error :=
  if setup.isInvalidInput error then
    fallBack setup ⟨fun _ => Io.Course.start, fun _ => []⟩
  else .refused error

def start : PlainPhase Error :=
  match setup.newPipe .a, setup.newPipe .b with
  | .error error, _ => refuse setup error
  | .ok _, .error error => refuse setup error
  | .ok first, .ok second =>
      .splicing (beginCopy setup.brutal fun
        | .a => ⟨[], first.1, first.2⟩
        | .b => ⟨[], second.1, second.2⟩)

/-- The copy through pipes has made a step. -/
def afterSplice (run : BidiRun Pipe Error) : PlainPhase Error :=
  match run.returned with
  | some (.ready (.error (.io error))) =>
      if setup.isInvalidInput error then fallBack setup (droppedBy run)
      else .splicing run
  | _ => .splicing run

/-- The current copy is polled or answered. -/
def advance (phase : PlainPhase Error) (label : BidiLabel Error) :
    Option (PlainPhase Error) :=
  match phase with
  | .splicing run =>
      if isReady run then none
      else
        ((BidiRun.machine setup.brutal).step run label).map
          (afterSplice setup)
  | .copying dropped run =>
      if isReady run then none
      else
        ((BidiRun.machine setup.brutal).step run label).map
          (.copying dropped)
  | .refused _ => none

/-- All that has passed from a side to the other one. -/
def passed (phase : PlainPhase Error) (side : Side) : Passed :=
  match phase with
  | .splicing run => (run.course side).passed
  | .copying dropped run =>
      (dropped.course side).passed.append (run.course side).passed
  | .refused _ => Passed.nothing

/-- The writer of the direction that reads a side was told to shut down. -/
def shutdownCalled (phase : PlainPhase Error) (side : Side) : Bool :=
  match phase with
  | .splicing run => (run.course side).shutdownCalled
  | .copying dropped run =>
      (dropped.course side).shutdownCalled ||
        (run.course side).shutdownCalled
  | .refused _ => false

def op : PlainPhase Error → Option IoOp
  | .splicing run => run.op
  | .copying _ run => run.op
  | .refused _ => none

/-- The count of the direction that reads a side; none before it is
finished. -/
def finished (phase : PlainPhase Error) (side : Side) : Option UInt64 :=
  match phase with
  | .splicing run => (run.bidi.half side).finished
  | .copying _ run => (run.bidi.half side).finished
  | .refused _ => none

/-- What `run_relay` returns. -/
def result : PlainPhase Error → Option (Except (CopyError Error) Unit)
  | .splicing run => outcome run
  | .copying _ run => outcome run
  | .refused error => some (.error (.io error))

/-- A relay between two peers that send the given bytes. -/
def machine (sent : Side → List UInt8) :
    Machine (PlainPhase Error) (BidiLabel Error) where
  step phase label :=
    (advance setup phase label).filter fun next =>
      ∀ side, HandsOver (sent side) (next.passed side)

end PlainPhase

/-! ## What the relay should do -/

/-- What a direction passes on by its end is what was sent into it, and no
write follows a shutdown. -/
structure LosesNothing
    (setup : PlainSetup Error) (sent : Side → List UInt8)
    (labels : List (BidiLabel Error)) (final : PlainPhase Error) :
    Prop where
  received : ∀ side count, final.finished side = some count →
    (final.passed side).given = sent side
  no_write_after : (PlainPhase.machine setup sent).EachState
    (fun phase => ∀ side, phase.shutdownCalled side = true →
      phase.op ≠ some (.write side.other))
    (PlainPhase.start setup) labels

/-! ## The invariant -/

/-- A copy that keeps its books and changes no byte. -/
def Copies {B : Type} [AsyncIOBuf B] [LawfulIOBuf B]
    (brutal : Bool) (run : BidiRun B Error) : Prop :=
  ∃ capacity : Side → ℕ, (∀ side, 0 < capacity side) ∧
    BidiRun.Inv brutal (fun _ byte => byte) capacity run

/-- The books of a direction that is dropped. -/
structure DropBooks
    (sent : List UInt8) (course : Io.Course) (held : List UInt8) : Prop where
  bytes : course.passed.given ++ held = course.passed.taken
  hands : HandsOver sent course.passed
  shut : course.shutdownCalled = true →
    course.passed.ended = true ∧ held = []

theorem dropBooks_start (sent : List UInt8) :
    DropBooks sent Io.Course.start [] where
  bytes := rfl
  hands := handsOver_nothing sent
  shut called := absurd called Bool.false_ne_true

section Copies

variable {B : Type} [AsyncIOBuf B] [LawfulIOBuf B] {brutal : Bool}
variable {run next : BidiRun B Error}

theorem copies_beginCopy
    {buf : Side → B} (brutal : Bool)
    (valid : ∀ side, LawfulIOBuf.Valid (buf side) 0 0)
    (nonempty : ∀ side, 0 < AsyncIOBuf.capacity (buf side))
    (plain : ∀ side byte, LawfulIOBuf.image (buf side) byte = byte) :
    Copies brutal (beginCopy brutal buf : BidiRun B Error) := by
  refine ⟨fun side => AsyncIOBuf.capacity (buf side), nonempty, ?_⟩
  have inv : BidiRun.Inv brutal
      (fun side => LawfulIOBuf.image (buf side))
      (fun side => AsyncIOBuf.capacity (buf side))
      (beginCopy brutal buf : BidiRun B Error) :=
    @BidiRun.inv_step _ _ _ _ _ _ _ _ _ .poll nonempty
      (BidiRun.inv_start valid) rfl
  have image_eq :
      (fun side => LawfulIOBuf.image (buf side)) = fun _ byte => byte := by
    funext side byte
    exact plain side byte
  rwa [image_eq] at inv

theorem Copies.step
    {label : BidiLabel Error} (copies : Copies brutal run)
    (stepped : (BidiRun.machine brutal).step run label = some next) :
    Copies brutal next := by
  rcases copies with ⟨capacity, nonempty, inv⟩
  exact ⟨capacity, nonempty, BidiRun.inv_step nonempty inv stepped⟩

/-- What was written and what is held is what was read. -/
theorem Copies.bytes (copies : Copies brutal run) (side : Side) :
    (run.course side).passed.given ++ (run.bidi.half side).held =
      (run.course side).passed.taken := by
  rcases copies with ⟨capacity, _, inv⟩
  have bytes := (inv.books side).books.bytes
  rwa [List.map_id'] at bytes

/-- A direction whose writer was told to shut down has passed on all it read
up to the end. -/
theorem Copies.of_shutdown
    (copies : Copies brutal run) {side : Side}
    (called : (run.course side).shutdownCalled = true) :
    (run.course side).passed.ended = true ∧
      (run.bidi.half side).held = [] := by
  rcases copies with ⟨capacity, _, inv⟩
  have kept := inv.books side
  cases state : run.bidi.half side with
  | running copy =>
      rw [kept.early copy state] at called
      cases called
  | shuttingDown count =>
      rw [state] at kept
      exact ⟨kept.books.2.1, rfl⟩
  | done count =>
      rw [state] at kept
      exact ⟨kept.books.2.1, rfl⟩

theorem Copies.of_finished
    (copies : Copies brutal run) {side : Side} {count : UInt64}
    (finished : (run.bidi.half side).finished = some count) :
    (run.course side).passed.ended = true ∧
      (run.course side).passed.given =
        (run.course side).passed.taken := by
  rcases copies with ⟨capacity, _, inv⟩
  have delivered := (inv.exact_count finished).1
  have accepted := delivered.accepted
  rw [List.map_id'] at accepted
  exact ⟨delivered.ended, accepted⟩

theorem Copies.dropBooks
    {sent : List UInt8} {side : Side} (copies : Copies brutal run)
    (hands : HandsOver sent (run.course side).passed) :
    DropBooks sent (run.course side) (run.bidi.half side).held where
  bytes := copies.bytes side
  hands := hands
  shut := copies.of_shutdown

end Copies

namespace PlainPhase

/-- Both copies keep their books, and the streams hand over what was sent. -/
def Inv
    (setup : PlainSetup Error) (sent : Side → List UInt8) :
    PlainPhase Error → Prop
  | .splicing run =>
      Copies setup.brutal run ∧
        ∀ side, HandsOver (sent side) (run.course side).passed
  | .copying dropped run =>
      (∀ side, DropBooks (sent side) (dropped.course side)
        (dropped.held side)) ∧
      Copies setup.brutal run ∧
      ∀ side, HandsOver (sent side)
        ((dropped.course side).passed.append (run.course side).passed)
  | .refused _ => True

variable {setup : PlainSetup Error} {sent : Side → List UInt8}

theorem inv_fallBack
    {dropped : Dropped}
    (books : ∀ side, DropBooks (sent side) (dropped.course side)
      (dropped.held side)) :
    Inv setup sent (fallBack setup dropped) := by
  refine ⟨books, ?_, ?_⟩
  · apply copies_beginCopy
    · intro side
      exact Nat.zero_le _
    · intro side
      change 0 < (List.replicate setup.bufSize 0).length
      rw [List.length_replicate]
      exact setup.bufSize_pos
    · intro side byte
      rfl
  · intro side
    change HandsOver _ (Passed.append _ Passed.nothing)
    rw [Passed.append_nothing]
    exact (books side).hands

theorem inv_refuse (error : Error) :
    Inv setup sent (refuse setup error) := by
  unfold refuse
  split
  · apply inv_fallBack
    intro side
    exact dropBooks_start (sent side)
  · trivial

theorem inv_start : Inv setup sent (start setup) := by
  unfold start
  cases setup.newPipe .a with
  | error error => exact inv_refuse error
  | ok first =>
      cases setup.newPipe .b with
      | error error => exact inv_refuse error
      | ok second =>
          constructor
          · apply copies_beginCopy
            · intro side
              cases side <;> exact ⟨rfl, Nat.zero_le _⟩
            · intro side
              cases side
              · exact first.2
              · exact second.2
            · intro side byte
              rfl
          · intro side
            exact handsOver_nothing (sent side)

/-- After a step the copy through pipes goes on, or it has been dropped for
an error of the kind. -/
theorem afterSplice_cases (run : BidiRun Pipe Error) :
    afterSplice setup run = .splicing run ∨
      ∃ error, run.returned = some (.ready (.error (.io error))) ∧
        setup.isInvalidInput error = true ∧
        afterSplice setup run = fallBack setup (droppedBy run) := by
  unfold afterSplice
  split
  · next error returned =>
    cases kind : setup.isInvalidInput error with
    | true => exact .inr ⟨error, returned, kind, rfl⟩
    | false => exact .inl rfl
  · exact .inl rfl

theorem inv_afterSplice
    {run : BidiRun Pipe Error} (copies : Copies setup.brutal run)
    (hands : ∀ side,
      HandsOver (sent side) ((afterSplice setup run).passed side)) :
    Inv setup sent (afterSplice setup run) := by
  rcases @afterSplice_cases _ setup run with
    goesOn | ⟨error, _, _, dropped⟩
  · rw [goesOn] at hands ⊢
    exact ⟨copies, hands⟩
  · rw [dropped] at hands ⊢
    apply inv_fallBack
    intro side
    apply copies.dropBooks
    have here := hands side
    change HandsOver _ (Passed.append _ Passed.nothing) at here
    rwa [Passed.append_nothing] at here

theorem inv_step
    {phase next : PlainPhase Error} {label : BidiLabel Error}
    (inv : Inv setup sent phase)
    (stepped : (machine setup sent).step phase label = some next) :
    Inv setup sent next := by
  rcases Option.filter_eq_some_iff.1 stepped with ⟨moved, hands⟩
  have handed := of_decide_eq_true hands
  cases phase with
  | splicing run =>
      simp only [advance] at moved
      split at moved
      · cases moved
      · rcases Option.map_eq_some_iff.1 moved with ⟨later, step, rfl⟩
        exact inv_afterSplice (inv.1.step step) handed
  | copying dropped run =>
      simp only [advance] at moved
      split at moved
      · cases moved
      · rcases Option.map_eq_some_iff.1 moved with ⟨later, step, rfl⟩
        exact ⟨inv.1, inv.2.1.step step, handed⟩
  | refused error => cases moved

theorem inv_of_run
    {labels : List (BidiLabel Error)} {final : PlainPhase Error}
    (ran : (machine setup sent).run (start setup) labels = some final) :
    Inv setup sent final :=
  Machine.run_invariant (Inv setup sent) inv_step inv_start ran

/-! ## Shutdowns -/

/-- A direction that was shut down before the fallback holds nothing after
it: its reader only reports the end again. -/
theorem held_nil_of_dropped
    {dropped : Dropped} {run : BidiRun MemBuf Error} {side : Side}
    (inv : Inv setup sent (.copying dropped run))
    (called : (dropped.course side).shutdownCalled = true) :
    (run.bidi.half side).held = [] := by
  rcases inv with ⟨books, copies, hands⟩
  rcases (books side).shut called with ⟨ended, _⟩
  have all := (books side).hands.at_end ended
  have within : (dropped.course side).passed.taken ++
      (run.course side).passed.taken <+: sent side :=
    (hands side).in_order
  have length := within.length_le
  rw [List.length_append, all] at length
  have bytes := congrArg List.length (copies.bytes side)
  rw [List.length_append] at bytes
  apply List.eq_nil_of_length_eq_zero
  omega

theorem Inv.no_write_after
    {phase : PlainPhase Error} (inv : Inv setup sent phase) {side : Side}
    (called : phase.shutdownCalled side = true) :
    phase.op ≠ some (.write side.other) := by
  cases phase with
  | splicing run =>
      rcases inv.1 with ⟨capacity, _, books⟩
      exact books.no_write_after called
  | copying dropped run =>
      rcases inv.2.1 with ⟨capacity, _, books⟩
      rcases Bool.or_eq_true_iff.1 called with before | after
      · intro waits
        exact books.holds_of_op waits (held_nil_of_dropped inv before)
      · exact books.no_write_after after
  | refused error => cases called

/-! ## What is received -/

/-- A direction that ends in the copy through memory has passed on all but
what the pipe held. -/
theorem received_eq_sent_iff
    {dropped : Dropped} {run : BidiRun MemBuf Error} {side : Side}
    {count : UInt64} (inv : Inv setup sent (.copying dropped run))
    (finished : (run.bidi.half side).finished = some count) :
    (passed (.copying dropped run) side).given = sent side ↔
      dropped.held side = [] := by
  rcases inv with ⟨books, copies, hands⟩
  rcases copies.of_finished finished with ⟨ended, given⟩
  have all : (dropped.course side).passed.taken ++
      (run.course side).passed.taken = sent side := by
    apply (hands side).at_end
    change (_ || (run.course side).passed.ended) = true
    rw [ended, Bool.or_true]
  change (dropped.course side).passed.given ++
    (run.course side).passed.given = sent side ↔ _
  rw [← all, ← (books side).bytes, given]
  constructor
  · intro equal
    have length := congrArg List.length equal
    simp only [List.length_append] at length
    apply List.eq_nil_of_length_eq_zero
    omega
  · intro empty
    rw [empty, List.append_nil]

/-! ## Every run that falls back and completes -/

/-- A copy that is ready without an error has a finished direction, and in
the graceful build two. -/
theorem finished_of_outcome
    {B : Type} [AsyncIOBuf B] [LawfulIOBuf B] {brutal : Bool}
    {run : BidiRun B Error} (copies : Copies brutal run)
    (completes : outcome run = some (.ok ())) :
    (brutal = false → ∀ side, ∃ count,
        (run.bidi.half side).finished = some count) ∧
      ∃ side count, (run.bidi.half side).finished = some count := by
  rcases copies with ⟨capacity, _, inv⟩
  unfold outcome at completes
  split at completes
  · next amounts returned =>
    cases brutal with
    | false =>
        have both := inv.graceful returned
        exact ⟨fun _ side => ⟨_, both side⟩, .a, _, both .a⟩
    | true =>
        rcases inv.brutal_ok returned with ⟨side, finished⟩
        exact ⟨(by rintro ⟨⟩), side, _, finished⟩
  · cases completes
  · cases completes

/-- A relay that falls back from splice and completes loses nothing exactly
if the pipes of the directions it finishes were empty when they were
dropped; in the graceful build it finishes both. -/
theorem losesNothing_iff
    (setup : PlainSetup Error) (sent : Side → List UInt8)
    {labels : List (BidiLabel Error)} {dropped : Dropped}
    {run : BidiRun MemBuf Error}
    (ran : (machine setup sent).run (start setup) labels =
      some (.copying dropped run))
    (completes : result (.copying dropped run) = some (.ok ())) :
    (setup.brutal = false → ∀ side, ∃ count,
        finished (.copying dropped run) side = some count) ∧
      (∃ side count, finished (.copying dropped run) side = some count) ∧
      (LosesNothing setup sent labels (.copying dropped run) ↔
        ∀ side count, finished (.copying dropped run) side = some count →
          dropped.held side = []) := by
  have inv := inv_of_run ran
  rcases finished_of_outcome inv.2.1 completes with ⟨both, one⟩
  refine ⟨both, one, ?_⟩
  constructor
  · intro loses side count ended
    exact (received_eq_sent_iff inv ended).1
      (loses.received side count ended)
  · intro empty
    constructor
    · intro side count ended
      exact (received_eq_sent_iff inv ended).2 (empty side count ended)
    · intro before after phase _ reached side called
      exact (inv_of_run reached).no_write_after called

end PlainPhase

/-! ## Two runs -/

/-- A setup in the graceful build in which every error is of the kind. -/
def anySetup (bufSize : ℕ) (bufSize_pos : 0 < bufSize) :
    PlainSetup Unit where
  brutal := false
  newPipe _ := .ok ⟨0x10000, by decide⟩
  bufSize := bufSize
  bufSize_pos := bufSize_pos
  isInvalidInput _ := true

/-- The client sends one byte and ends, the remote ends at once. -/
def oneByte : Side → List UInt8
  | .a => [7]
  | .b => []

/-- The byte is in the pipe when the write to the remote fails. -/
def writeFails : List (BidiLabel Unit) :=
  [.answer (.copy (.read 0 (.data [7]))),
    .answer (.copy (.write (.error ()))),
    .answer (.copy (.read 0 .eof)), .answer (.copy (.flush .ok)),
    .answer (.shutdown .ok),
    .answer (.copy (.read 0 .eof)), .answer (.copy (.flush .ok)),
    .answer (.shutdown .ok)]

/-- The relay completes, and the byte is lost. -/
theorem writeFails_loses :
    ∃ dropped run,
      (PlainPhase.machine (anySetup 0x2000 (by decide)) oneByte).run
          (PlainPhase.start (anySetup 0x2000 (by decide))) writeFails =
        some (.copying dropped run) ∧
      PlainPhase.result (.copying dropped run) = some (.ok ()) ∧
      ¬ LosesNothing (anySetup 0x2000 (by decide)) oneByte writeFails
        (.copying dropped run) := by
  refine ⟨_, _, rfl, rfl, ?_⟩
  intro loses
  have received := loses.received .a 0 rfl
  cases received

/-- The first read fails, before anything is in a pipe. -/
def readFails : List (BidiLabel Unit) :=
  [.answer (.copy (.read 0 (.error ()))),
    .answer (.copy (.read 0 (.data [7]))),
    .answer (.copy (.write (.ok 1))),
    .answer (.copy (.read 0 .eof)), .answer (.copy (.flush .ok)),
    .answer (.shutdown .ok),
    .answer (.copy (.read 0 .eof)), .answer (.copy (.flush .ok)),
    .answer (.shutdown .ok)]

theorem losesNothing_iff_readFails :
    ∃ dropped run,
      (PlainPhase.machine (anySetup 4 (by decide)) oneByte).run
          (PlainPhase.start (anySetup 4 (by decide))) readFails =
        some (.copying dropped run) ∧
      (LosesNothing (anySetup 4 (by decide)) oneByte readFails
          (.copying dropped run) ↔
        ∀ side count,
          PlainPhase.finished (.copying dropped run) side = some count →
            dropped.held side = []) :=
  ⟨_, _, rfl,
    (@PlainPhase.losesNothing_iff Unit (anySetup 4 (by decide)) oneByte
      readFails _ _ rfl rfl).2.2⟩

end ByteHub.Core
