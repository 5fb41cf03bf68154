import ByteHub.Io.Relay

/-!
# Which stream makes a relay fail

A relay returns an error because one of its streams answered with an error,
accepted nothing, or sent no header where one was due.  The error itself does
not tell which of the two streams it was.
-/

namespace ByteHub.Io

open ByteHub.Library

variable {B Error : Type}

def IoOp.side : IoOp → Side
  | .read side => side
  | .write side => side
  | .flush side => side
  | .shutdown side => side

def ReadAnswer.isError : ReadAnswer Error → Bool
  | .error _ => true
  | _ => false

/-- An error, or a writer that accepts nothing. -/
def WriteAnswer.isError : WriteAnswer Error → Bool
  | .error _ => true
  | .ok written => written == 0
  | .pending => false

def DoneAnswer.isError : DoneAnswer Error → Bool
  | .error _ => true
  | _ => false

def CopyAnswer.isError : CopyAnswer Error → Bool
  | .read _ answer => answer.isError
  | .write answer => answer.isError
  | .flush answer => answer.isError

def TransferAnswer.isError : TransferAnswer Error → Bool
  | .copy answer => answer.isError
  | .shutdown answer => answer.isError

def RelayLabel.isError : RelayLabel Error → Bool
  | .first _ answer => answer.isError
  | .write answer => answer.isError
  | .read answer => answer.isError
  | .copy answer => answer.isError
  | _ => false

namespace RelayPhase

variable (config : RelayConfig B)

/-- A header is cut short or does not pass. -/
def rejects : RelayPhase B Error → RelayLabel Error → Bool
  | .readHeader _, .read .eof => true
  | .readGarbage _, .read .eof => true
  | .readHeader got, .read (.data bytes) =>
      14 ≤ (got ++ bytes).length &&
        !(checkHeader config.key (got ++ bytes)).isOk
  | _, _ => false

/-- The stream that fails in a step. -/
def fault (phase : RelayPhase B Error) (label : RelayLabel Error) :
    Option Side :=
  if label.isError || phase.rejects config label then
    (phase.op config).map IoOp.side
  else none

/-- A failed read of the first chunk counts as no data. -/
def swallows : RelayPhase B Error → Bool
  | .readFirst => true
  | _ => false

/-- The relay has failed, or will once it has slept. -/
def failed : RelayPhase B Error → Bool
  | .dropProbe => true
  | .returned (.error _) => true
  | _ => false

end RelayPhase

/-! ## Copies -/

namespace CopyStatus

/-- A call returns an error. -/
def isFailed : CopyStatus Error → Bool
  | .returned (.ready (.error _)) => true
  | _ => false

end CopyStatus

def BidiStatus.isFailed : BidiStatus Error → Bool
  | .returned (.ready (.error _)) => true
  | _ => false

theorem BidiCopy.finish_isFailed (brutal : Bool) (first second : Poll UInt64) :
    (finish brutal first second : BidiStatus Error).isFailed = false := by
  cases first <;> cases second <;> cases brutal <;> rfl

theorem BidiCopy.second_isFailed
    (brutal : Bool) (bidi : BidiCopy B) (first : Poll UInt64) :
    (bidi.second brutal first : BidiStatus Error).isFailed = false := by
  unfold second
  split
  · exact finish_isFailed _ _ _
  · rfl

theorem BidiCopy.poll_isFailed (brutal : Bool) (bidi : BidiCopy B) :
    (bidi.poll brutal : BidiStatus Error).isFailed = false := by
  unfold poll
  split
  · exact second_isFailed _ _ _
  · rfl

theorem BidiCopy.afterHalf_isFailed
    (brutal : Bool) (bidi : BidiCopy B) (point : BidiPoint)
    (status : CopyStatus Error) :
    (bidi.afterHalf brutal point status).isFailed = status.isFailed := by
  cases point <;>
  · rcases status with point' | (_ | (error | count))
    · rfl
    · first
        | exact second_isFailed _ _ _
        | exact finish_isFailed _ _ _
    · rfl
    · first
        | exact second_isFailed _ _ _
        | exact finish_isFailed _ _ _

section Copies

variable [AsyncIOBuf B]

theorem CopyBuffer.isFailed_afterRead
    {copy next : CopyBuffer B} {nanos : ℕ} {answer : ReadAnswer Error}
    {status : CopyStatus Error}
    (stepped : copy.afterRead nanos answer = some (next, status)) :
    status.isFailed = (CopyAnswer.read nanos answer).isError := by
  cases readOutcome_of_afterRead stepped <;> rfl

theorem CopyBuffer.isFailed_afterWrite
    {copy next : CopyBuffer B} {answer : WriteAnswer Error}
    {status : CopyStatus Error}
    (stepped : copy.afterWrite answer = some (next, status)) :
    status.isFailed = (CopyAnswer.write answer).isError := by
  cases writeOutcome_of_afterWrite stepped with
  | waits => rfl
  | fails error => rfl
  | writesNothing => rfl
  | drains written some within =>
      exact (beq_eq_false_iff_ne.2 (Nat.ne_of_gt some)).symm

/-- A copy fails at an error and nowhere else. -/
theorem CopyBuffer.step_isFailed
    {copy : CopyBuffer B} {point : CopyPoint} {answer : CopyAnswer Error}
    {result : CopyBuffer B × CopyStatus Error}
    (stepped : copy.step point answer = some result) :
    result.2.isFailed = answer.isError := by
  rcases result with ⟨copied, status⟩
  rcases CopyBuffer.step_cases stepped with
    ⟨nanos, read, _, rfl, answered⟩ | ⟨write, _, rfl, answered⟩ |
      ⟨flush, _, rfl, answered⟩ | ⟨flush, _, rfl, answered⟩
  · exact isFailed_afterRead answered
  · exact isFailed_afterWrite answered
  · cases flush <;> cases answered <;> rfl
  · cases flush <;> cases answered <;> rfl

theorem TransferState.step_isFailed
    {state : TransferState B} {point : CopyPoint}
    {answer : TransferAnswer Error}
    {result : TransferState B × CopyStatus Error}
    (stepped : state.step point answer = some result) :
    result.2.isFailed = answer.isError := by
  unfold TransferState.step at stepped
  split at stepped
  · rcases Option.map_eq_some_iff.1 stepped with ⟨copied, moved, rfl⟩
    have kept := CopyBuffer.step_isFailed moved
    rcases copied with ⟨copy, point' | (_ | (error | count))⟩ <;>
      exact kept
  · cases stepped; rfl
  · cases stepped; rfl
  · cases stepped; rfl
  · cases stepped

theorem BidiCopy.step_isFailed
    {brutal : Bool} {bidi : BidiCopy B} {point : BidiPoint}
    {answer : TransferAnswer Error} {result : BidiCopy B × BidiStatus Error}
    (stepped : bidi.step brutal point answer = some result) :
    result.2.isFailed = answer.isError := by
  rcases Option.map_eq_some_iff.1 stepped with ⟨half, moved, rfl⟩
  exact (afterHalf_isFailed _ _ _ _).trans
    (TransferState.step_isFailed moved)

/-- A step of a transfer belongs to one of its operations. -/
theorem TransferState.exists_op_of_step
    {state : TransferState B} {point : CopyPoint}
    {answer : TransferAnswer Error}
    {result : TransferState B × CopyStatus Error}
    (stepped : state.step point answer = some result) (reader : Side) :
    ∃ op, state.op point reader = some op := by
  unfold TransferState.step at stepped
  split at stepped
  · next copy answer =>
    rcases Option.map_eq_some_iff.1 stepped with ⟨copied, moved, _⟩
    unfold CopyBuffer.step at moved
    cases arrived : copy.op point with
    | none =>
        rw [arrived] at moved
        cases moved
    | some op =>
        rw [TransferState.op, arrived]
        exact ⟨_, rfl⟩
  · exact ⟨_, rfl⟩
  · exact ⟨_, rfl⟩
  · exact ⟨_, rfl⟩
  · cases stepped

end Copies

/-! ## Relays -/

namespace RelayPhase

variable (config : RelayConfig B)

theorem ofStatus_failed
    (bidi : BidiCopy B) (status : BidiStatus Error) :
    (ofStatus bidi status).failed = status.isFailed := by
  rcases status with point | (_ | (error | amounts)) <;> rfl

theorem startCopy_failed :
    (startCopy config : RelayPhase B Error).failed = false := by
  unfold startCopy
  rw [ofStatus_failed, BidiCopy.poll_isFailed]

theorem sendHeader_failed (nanos : ℕ) (firstChunk : List UInt8) :
    (sendHeader config nanos firstChunk : RelayPhase B Error).failed =
      false := by
  rcases exists_header_of_generate config.key (SimpleRng.new nanos) with
    ⟨header, generated⟩
  rw [sendHeader, generated]
  rfl

theorem headerSent_failed :
    (headerSent config : RelayPhase B Error).failed = false := by
  unfold headerSent
  split
  · rfl
  · exact startCopy_failed config

theorem headerRead_failed :
    (headerRead config : RelayPhase B Error).failed = false := by
  unfold headerRead
  split
  · exact startCopy_failed config
  · rfl

theorem gotHeader_failed (got : List UInt8) :
    (gotHeader config got : RelayPhase B Error).failed =
      (14 ≤ got.length && !(checkHeader config.key got).isOk) := by
  unfold gotHeader
  split
  · next short =>
    rw [decide_eq_false (Nat.not_le.2 short)]
    rfl
  · next long =>
    rw [decide_eq_true (Nat.not_lt.1 long), Bool.true_and]
    cases checked : checkHeader config.key got with
    | error error => cases error <;> rfl
    | ok left =>
        cases left with
        | zero => exact headerRead_failed config
        | succ left => rfl

variable [AsyncIOBuf B] {config}

/-- A relay fails at a fault that it does not swallow. -/
theorem step_failed
    {phase next : RelayPhase B Error} {label : RelayLabel Error}
    (stepped : phase.step config label = some next) :
    next.failed =
      (phase.failed || (!phase.swallows &&
        (label.isError || phase.rejects config label))) := by
  unfold step at stepped
  split at stepped
  · rcases afterFirst_cases stepped with
      ⟨rfl, rfl⟩ | ⟨_, rfl, rfl⟩ | ⟨rfl, rfl⟩ | ⟨_, rfl, _, _, rfl⟩
    · rfl
    · exact sendHeader_failed _ _ _
    · exact sendHeader_failed _ _ _
    · exact sendHeader_failed _ _ _
  · cases stepped
    exact sendHeader_failed _ _ _
  · have accepted {written : ℕ} (positive : 0 < written) :
        (false || (!false && ((written == 0) || false))) = false := by
      simp [Nat.ne_of_gt positive]
    rcases afterWrite_cases stepped with
      ⟨rfl, rfl⟩ | ⟨_, rfl, rfl⟩ | ⟨rfl, rfl⟩ | ⟨rfl, positive, rfl⟩ |
        ⟨_, rfl, positive, _, rfl⟩
    · rfl
    · rfl
    · rfl
    · exact (headerSent_failed _).trans (accepted positive).symm
    · exact (accepted positive).symm
  · rcases afterHeader_cases stepped with
      ⟨rfl, rfl⟩ | ⟨_, rfl, rfl⟩ | ⟨rfl, rfl⟩ | ⟨_, rfl, _, _, rfl⟩
    · rfl
    · rfl
    · rfl
    · exact gotHeader_failed _ _
  · rcases afterGarbage_cases stepped with
      ⟨rfl, rfl⟩ | ⟨_, rfl, rfl⟩ | ⟨rfl, rfl⟩ | ⟨_, rfl, _, rfl⟩ |
        ⟨_, rfl, _, rfl⟩
    · rfl
    · rfl
    · rfl
    · exact headerRead_failed _
    · rfl
  · cases stepped; rfl
  · cases stepped
    exact (ofStatus_failed _ _).trans (BidiCopy.poll_isFailed _ _)
  · rcases Option.map_eq_some_iff.1 stepped with ⟨result, moved, rfl⟩
    rw [ofStatus_failed, BidiCopy.step_isFailed moved]
    exact (Bool.or_false _).symm
  · cases stepped

omit [AsyncIOBuf B] in
theorem fails_of_fault
    {phase : RelayPhase B Error} {label : RelayLabel Error} {side : Side}
    (faulty : phase.fault config label = some side) :
    (label.isError || phase.rejects config label) = true := by
  unfold fault at faulty
  split at faulty
  · assumption
  · cases faulty

/-- Every fault is the fault of a stream. -/
theorem exists_fault
    {phase next : RelayPhase B Error} {label : RelayLabel Error}
    (stepped : phase.step config label = some next)
    (fails : (label.isError || phase.rejects config label) = true) :
    ∃ side, phase.fault config label = some side := by
  rw [fault, if_pos fails]
  unfold step at stepped
  split at stepped
  · exact ⟨_, rfl⟩
  · exact ⟨_, rfl⟩
  · exact ⟨_, rfl⟩
  · exact ⟨_, rfl⟩
  · exact ⟨_, rfl⟩
  · cases fails
  · cases fails
  · rcases Option.map_eq_some_iff.1 stepped with ⟨result, moved, _⟩
    rcases Option.map_eq_some_iff.1 moved with ⟨half, halfMoved, _⟩
    rcases TransferState.exists_op_of_step halfMoved _ with ⟨op, arrived⟩
    exact ⟨op.side, by rw [RelayPhase.op, arrived]; rfl⟩
  · cases stepped

end RelayPhase

end ByteHub.Io
