import ByteHub.Io.RelayBooks
import ByteHub.Io.RelayFault

/-!
# The relay phase and its verdict

With a latency limit the relay copies through memory, over a remote stream
that records when its first byte arrived, and races against a deadline.
Without one it first tries to splice, in mode 0 and on Linux, and falls back
to the copy.  An endpoint with a transport does neither: its relay is that
of the transport, of which only the result is seen.  The verdict on the peer
is taken from how the relay ended.

The history keeps what a verdict should depend on: what the two streams did.
-/

namespace ByteHub.Core

open ByteHub.Io ByteHub.Library

/-- The buffers of a relay: memory or a pipe. -/
abbrev RelayBuf : Type := MemBuf ⊕ Pipe

structure RelaySetup (Error : Type) where
  mode : UInt8
  brutal : Bool
  linux : Bool
  /-- `max_latency_ms` of the health config, if there is one. -/
  maxLatencyMs : Option UInt32
  /-- The endpoint has a transport. -/
  transport : Bool
  bufSize : ℕ
  pipeSize : ℕ
  pipeSize_pos : 0 < pipeSize
  /-- The error of `Pipe::new`, if one of the two pipes is not made. -/
  pipeError : Option Error
  /-- An error of the kind `InvalidInput`. -/
  isInvalidInput : Error → Bool

/-- Whether the pipes, the memory or a transport are in use. -/
inductive RelayStage where
  | splice
  | copy
  | transport
deriving DecidableEq, Repr

namespace RelaySetup

variable {Error : Type} (setup : RelaySetup Error)

/-- The limit that `relay_plain_timed` watches. -/
def limit : Option UInt32 :=
  if setup.transport then none else setup.maxLatencyMs

def timed : Bool :=
  setup.limit.isSome

/-- `relay_plain_timed` and the obfuscation modes go through memory. -/
def firstStage : RelayStage :=
  if setup.transport then .transport
  else if !setup.timed && setup.linux && setup.mode == 0 then .splice
  else .copy

/-- The error for want of a pipe with which the relay returns at once. -/
def refusal : Option Error :=
  match setup.firstStage with
  | .splice => setup.pipeError
  | _ => none

def config : RelayStage → RelayConfig RelayBuf
  | .splice =>
      { mode := setup.mode
        brutal := setup.brutal
        key := obfsKey
        aToBBuf := .inr ⟨[], setup.pipeSize, setup.pipeSize_pos⟩
        bToABuf := .inr ⟨[], setup.pipeSize, setup.pipeSize_pos⟩ }
  | .copy | .transport =>
      { mode := setup.mode
        brutal := setup.brutal
        key := obfsKey
        aToBBuf := .inl ⟨List.replicate setup.bufSize 0, setup.mode⟩
        bToABuf := .inl ⟨List.replicate setup.bufSize 0, setup.mode⟩ }

@[simp]
theorem config_mode (stage : RelayStage) :
    (setup.config stage).mode = setup.mode := by
  cases stage <;> rfl

end RelaySetup

/-! ## What the streams did -/

/-- What the client, on side `a`, and the remote, on side `b`, have done. -/
structure History where
  /-- The remote stream failed. -/
  remoteFailed : Bool
  /-- The client stream failed and took the relay with it. -/
  clientFailed : Bool
  /-- The relay failed of itself, for want of a pipe or in the transport. -/
  selfFailed : Bool
  /-- The remote ended before its first byte. -/
  silentEnd : Bool
  /-- A byte of the remote was read. -/
  answered : Bool
  /-- A byte of the remote was read after the first microsecond. -/
  answeredLater : Bool
  /-- The remote accepted a byte of the client. -/
  delivered : Bool
  deadlineFired : Bool
deriving DecidableEq, Repr

namespace History

def start : History :=
  ⟨false, false, false, false, false, false, false, false⟩

variable {B Error : Type} [AsyncIOBuf B]

/-- Bytes of the remote are read in a step. -/
def answers (config : RelayConfig B) (run : RelayRun B Error)
    (label : RelayLabel Error) : Bool :=
  run.phase.reader config == .b && !(run.phase.passed label).taken.isEmpty

/-- The remote accepts bytes of the client in a step.  Behind a header they
are as many as the first chunk has. -/
def delivers (config : RelayConfig B) (run : RelayRun B Error)
    (label : RelayLabel Error) : Bool :=
  run.phase.reader config == .a &&
    match run.phase, label with
    | .writeAll rest, .write (.ok written) =>
        rest.length < written + (run.flow .a).taken.length
    | phase, label => !(phase.passed label).given.isEmpty

/-- The remote ends in a step. -/
def remoteEnds (config : RelayConfig B) (run : RelayRun B Error)
    (label : RelayLabel Error) : Bool :=
  run.phase.reader config == .b && (run.phase.passed label).ended

/-- The history after an operation, the given number of microseconds after
the start. -/
def after (history : History) (config : RelayConfig B)
    (run : RelayRun B Error) (us : UInt64) (label : RelayLabel Error) :
    History where
  remoteFailed :=
    history.remoteFailed || run.phase.fault config label == some .b
  clientFailed :=
    history.clientFailed ||
      (!run.phase.swallows && run.phase.fault config label == some .a)
  selfFailed := history.selfFailed
  silentEnd :=
    history.silentEnd ||
      (!history.answered && remoteEnds config run label)
  answered := history.answered || answers config run label
  answeredLater :=
    history.answeredLater || (answers config run label && us != 0)
  delivered := history.delivered || delivers config run label
  deadlineFired := history.deadlineFired

end History

/-! ## The machine -/

/-- The deadline is ahead, was met, or has ended the relay. -/
inductive Timer where
  | running
  | met
  | aborted
deriving DecidableEq, Repr

structure TimedRelay (Error : Type) where
  stage : RelayStage
  run : RelayRun RelayBuf Error
  /-- `0` as long as no byte has been recorded. -/
  firstByteUs : UInt64
  timer : Timer
  history : History

/-- How the relay of a transport ends.  Its error was brought about by one of
the two streams or by neither. -/
structure TransportEnd (Error : Type) where
  /-- The remote has ended before its first byte. -/
  silentEnd : Bool
  failed : Option (Option Side × Error)
deriving DecidableEq, Repr

/-- What the relay of a transport returns. -/
def TransportEnd.result
    {Error : Type} (ending : TransportEnd Error) :
    Except (RelayError Error) (UInt64 × UInt64) :=
  match ending.failed with
  | none => .ok (0, 0)
  | some (_, error) => .error (.copy (.io error))

/-- A stream, or with `none` the transport itself, has brought the error
about. -/
def TransportEnd.failedBy
    {Error : Type} (ending : TransportEnd Error) (cause : Option Side) :
    Bool :=
  ending.failed.any fun failure => failure.1 == cause

/-- The relay makes a step, some microseconds after the start; the copy takes
over from the splice; the deadline fires; or the relay of a transport is
over. -/
inductive TimedLabel (Error : Type) where
  | io (us : UInt64) (label : RelayLabel Error)
  | fallback
  | deadline (us : UInt64)
  | transport (ending : TransportEnd Error)
deriving DecidableEq, Repr

/-- What is reported to the balancer for the selected peer. -/
inductive Verdict where
  | onSuccess
  | onFailure
deriving DecidableEq, Repr

namespace TimedRelay

variable {Error : Type} (setup : RelaySetup Error)

/-- A relay whose pipes are not made returns before it has begun. -/
def startRun : RelayRun RelayBuf Error :=
  let begun : RelayRun RelayBuf Error :=
    RelayRun.start (setup.config setup.firstStage)
  match setup.refusal with
  | some error =>
      { begun with phase := .returned (.error (.copy (.io error))) }
  | none => begun

def start : TimedRelay Error where
  stage := setup.firstStage
  run := startRun setup
  firstByteUs := 0
  timer := .running
  history := { History.start with selfFailed := setup.refusal.isSome }

/-- The remote stream stores the time of a read that brings bytes, if it has
stored none but zero. -/
def recordFirstByte (relay : TimedRelay Error) (us : UInt64)
    (label : RelayLabel Error) : UInt64 :=
  if setup.timed ∧
      History.answers (setup.config relay.stage) relay.run label = true ∧
      relay.firstByteUs = 0 then us
  else relay.firstByteUs

def isReturned : RelayPhase RelayBuf Error → Bool
  | .returned _ => true
  | _ => false

def ioStep (relay : TimedRelay Error) (us : UInt64)
    (label : RelayLabel Error) : Option (TimedRelay Error) :=
  if relay.timer = .aborted ∨ relay.stage = .transport then none
  else
    let config := setup.config relay.stage
    ((RelayRun.machine config).step relay.run label).map fun next =>
      { relay with
        run := next
        firstByteUs := relay.recordFirstByte setup us label
        history := relay.history.after config relay.run us label }

/-- Splicing is not possible here: copy instead.  Neither stream has failed,
but the remote may have ended. -/
def fallbackStep (relay : TimedRelay Error) : Option (TimedRelay Error) :=
  match relay.stage, relay.run.phase with
  | .splice, .returned (.error (.copy (.io error))) =>
      if setup.isInvalidInput error then
        some { relay with
          stage := .copy
          run := RelayRun.start (setup.config .copy)
          history :=
            { relay.history with
              remoteFailed := false
              clientFailed := false
              selfFailed := false } }
      else none
  | _, _ => none

/-- The deadline has come. -/
def deadlineDue (us : UInt64) : Bool :=
  match setup.limit with
  | some ms => ms.toUInt64 * 1000 ≤ us
  | none => false

def deadlineStep (relay : TimedRelay Error) (us : UInt64) :
    Option (TimedRelay Error) :=
  if deadlineDue setup us = true ∧ relay.timer = .running ∧
      isReturned relay.run.phase = false then
    some { relay with
      timer := if relay.firstByteUs = 0 then .aborted else .met
      history := { relay.history with deadlineFired := true } }
  else none

/-- The relay of a transport is over. -/
def transportStep
    (relay : TimedRelay Error) (ending : TransportEnd Error) :
    Option (TimedRelay Error) :=
  if relay.stage = .transport ∧ isReturned relay.run.phase = false then
    some { relay with
      run := { relay.run with phase := .returned ending.result }
      history :=
        { relay.history with
          remoteFailed :=
            relay.history.remoteFailed || ending.failedBy (some .b)
          clientFailed :=
            relay.history.clientFailed || ending.failedBy (some .a)
          selfFailed := relay.history.selfFailed || ending.failedBy none
          silentEnd := relay.history.silentEnd || ending.silentEnd } }
  else none

def machine : Machine (TimedRelay Error) (TimedLabel Error) where
  step relay
    | .io us label => relay.ioStep setup us label
    | .fallback => relay.fallbackStep setup
    | .deadline us => relay.deadlineStep setup us
    | .transport ending => relay.transportStep ending

/-- The error makes the copy take over. -/
def fallsBack (relay : TimedRelay Error) : RelayError Error → Bool
  | .copy (.io error) => relay.stage == .splice && setup.isInvalidInput error
  | _ => false

/-- The verdict, once the relay phase is over. -/
def verdict (relay : TimedRelay Error) : Option Verdict :=
  if relay.timer = .aborted then some .onFailure
  else
    match relay.run.phase with
    | .returned (.ok _) =>
        -- `latency_exceeded` is set when no byte was recorded.
        if setup.timed ∧ relay.timer = .running ∧ relay.firstByteUs = 0 then
          some .onFailure
        else some .onSuccess
    | .returned (.error error) =>
        if relay.fallsBack setup error then none else some .onFailure
    | _ => none

end TimedRelay

end ByteHub.Core
