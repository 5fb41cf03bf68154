import ByteHub.Core.TimedRelay

/-!
# When a peer is blamed

The verdict blames a peer for its own fault, except in three cases: the
stream of the client made the relay fail, the relay failed of itself, or,
under a latency limit, no byte of the peer was read after the first
microsecond although it did not have to answer.
-/

namespace ByteHub.Core

open ByteHub.Io ByteHub.Library

/-- The peer is at fault: it ended before its first byte, it failed, or it
left bytes of the client unanswered until the deadline. -/
def History.AtFault (history : History) : Prop :=
  history.silentEnd = true ∨ history.remoteFailed = true ∨
    (history.deadlineFired = true ∧ history.delivered = true ∧
      history.answered = false)

/-- The peer is not at fault, and either the stream of the client failed, or
the relay failed of itself, or there is a latency limit, no byte of the peer
was read after the first microsecond, and, if the deadline fired, a byte had
been read or none of the client had been delivered. -/
def History.Misjudged (history : History) (timed : Bool) : Prop :=
  history.silentEnd = false ∧ history.remoteFailed = false ∧
    (history.clientFailed = true ∨ history.selfFailed = true ∨
      (timed = true ∧ history.answeredLater = false ∧
        (history.deadlineFired = true →
          history.answered = true ∨ history.delivered = false)))

/-! ## Reading the header of the client -/

/-- A header is still being read, or has been rejected. -/
def readsHeader {B Error : Type} : RelayPhase B Error → Bool
  | .readHeader _ => true
  | .readGarbage _ => true
  | .dropProbe => true
  | _ => false

section Phases

variable {B Error : Type} {config : RelayConfig B}

theorem ofStatus_readsHeader
    (bidi : BidiCopy B) (status : BidiStatus Error) :
    readsHeader (RelayPhase.ofStatus bidi status) = false := by
  rcases status with point | (_ | (error | amounts)) <;> rfl

theorem startCopy_readsHeader :
    readsHeader (RelayPhase.startCopy config : RelayPhase B Error) =
      false := by
  unfold RelayPhase.startCopy
  exact ofStatus_readsHeader _ _

theorem sendHeader_readsHeader (nanos : ℕ) (firstChunk : List UInt8) :
    readsHeader (RelayPhase.sendHeader config nanos firstChunk :
      RelayPhase B Error) = false := by
  unfold RelayPhase.sendHeader
  split <;> rfl

theorem wireSide_eq_a {mode : UInt8} (wire : wireSide mode = .a) :
    mode = 2 := by
  unfold wireSide plainSide at wire
  split at wire
  · assumption
  · cases wire

theorem fault_readHeader
    {got : List UInt8} {label : RelayLabel Error} {side : Side}
    (fault : (.readHeader got : RelayPhase B Error).fault config label =
      some side) :
    wireSide config.mode = side := by
  unfold RelayPhase.fault at fault
  split at fault <;> cases fault
  rfl

variable [AsyncIOBuf B]

/-- In mode 2 the header of the client comes first. -/
theorem readsHeader_of_step
    {phase next : RelayPhase B Error} {label : RelayLabel Error}
    (two : config.mode = 2) (stepped : phase.step config label = some next)
    (reads : readsHeader next = true) : readsHeader phase = true := by
  unfold RelayPhase.step at stepped
  split at stepped
  · exfalso
    rcases RelayPhase.afterFirst_cases stepped with
      ⟨_, rfl⟩ | ⟨_, _, rfl⟩ | ⟨_, rfl⟩ | ⟨_, _, _, _, rfl⟩
    · cases reads
    · simp [sendHeader_readsHeader] at reads
    · simp [sendHeader_readsHeader] at reads
    · simp [sendHeader_readsHeader] at reads
  · cases stepped
    simp [sendHeader_readsHeader] at reads
  · exfalso
    rcases RelayPhase.afterWrite_cases stepped with
      ⟨_, rfl⟩ | ⟨_, _, rfl⟩ | ⟨_, rfl⟩ | ⟨_, _, rfl⟩ | ⟨_, _, _, _, rfl⟩
    · cases reads
    · cases reads
    · cases reads
    · rw [RelayPhase.headerSent, two, if_neg (by decide),
        startCopy_readsHeader] at reads
      cases reads
    · cases reads
  · rfl
  · rfl
  · rfl
  · cases stepped
    simp [ofStatus_readsHeader] at reads
  · rcases Option.map_eq_some_iff.1 stepped with ⟨result, _, rfl⟩
    simp [ofStatus_readsHeader] at reads
  · cases stepped

/-- A probe is dropped while its header is read. -/
theorem exists_readHeader_of_step
    {phase : RelayPhase B Error} {label : RelayLabel Error}
    (stepped : phase.step config label = some .dropProbe) :
    ∃ got, phase = .readHeader got := by
  have notFailed {other : RelayPhase B Error} (equal : other = .dropProbe) :
      other.failed ≠ false := by
    rw [equal]
    intro impossible
    cases impossible
  unfold RelayPhase.step at stepped
  split at stepped
  · exfalso
    rcases RelayPhase.afterFirst_cases stepped with
      ⟨_, sent⟩ | ⟨_, _, sent⟩ | ⟨_, sent⟩ | ⟨_, _, _, _, sent⟩
    · cases sent
    · exact notFailed sent.symm (RelayPhase.sendHeader_failed _ _ _)
    · exact notFailed sent.symm (RelayPhase.sendHeader_failed _ _ _)
    · exact notFailed sent.symm (RelayPhase.sendHeader_failed _ _ _)
  · exact absurd (RelayPhase.sendHeader_failed _ _ _)
      (notFailed (Option.some.inj stepped))
  · exfalso
    rcases RelayPhase.afterWrite_cases stepped with
      ⟨_, sent⟩ | ⟨_, _, sent⟩ | ⟨_, sent⟩ | ⟨_, _, sent⟩ |
        ⟨_, _, _, _, sent⟩
    · cases sent
    · cases sent
    · cases sent
    · exact notFailed sent.symm (RelayPhase.headerSent_failed _)
    · cases sent
  · next got answer => exact ⟨got, rfl⟩
  · exfalso
    rcases RelayPhase.afterGarbage_cases stepped with
      ⟨_, read⟩ | ⟨_, _, read⟩ | ⟨_, read⟩ | ⟨_, _, _, read⟩ |
        ⟨_, _, _, read⟩
    · cases read
    · cases read
    · cases read
    · exact notFailed read.symm (RelayPhase.headerRead_failed _)
    · cases read
  · cases stepped
  · next bidi =>
    exfalso
    refine notFailed (Option.some.inj stepped) ?_
    rw [RelayPhase.ofStatus_failed, BidiCopy.poll_isFailed]
  · rcases Option.map_eq_some_iff.1 stepped with ⟨⟨bidi, status⟩, _, equal⟩
    rcases status with point | (_ | (error | amounts)) <;> cases equal
  · cases stepped

/-- Nothing of the client passes a relay that reads a header. -/
theorem delivers_of_readsHeader
    {run : RelayRun B Error} (reads : readsHeader run.phase = true)
    (label : RelayLabel Error) :
    History.delivers config run label = false := by
  rcases run with ⟨phase, flow⟩
  have given : (phase.passed label).given = [] := by
    cases phase with
    | readHeader got =>
        cases label <;> try rfl
        next answer => cases answer <;> rfl
    | readGarbage left =>
        cases label <;> try rfl
        next answer => cases answer <;> rfl
    | dropProbe => cases label <;> rfl
    | readFirst => cases reads
    | writeAll rest => cases reads
    | copying bidi point => cases reads
    | returned result => cases reads
  cases phase with
  | writeAll rest => cases reads
  | readHeader got => simp [History.delivers, given]
  | readGarbage left => simp [History.delivers, given]
  | dropProbe => simp [History.delivers, given]
  | readFirst => cases reads
  | copying bidi point => cases reads
  | returned result => cases reads

end Phases

/-! ## The end of a transport -/

theorem TransportEnd.result_failed
    {Error : Type} (ending : TransportEnd Error)
    (failed :
      (.returned ending.result : RelayPhase RelayBuf Error).failed = true) :
    ending.failedBy (some .a) = true ∨ ending.failedBy none = true ∨
      ending.failedBy (some .b) = true := by
  rcases ending with ⟨silentEnd, _ | ⟨_ | (_ | _), error⟩⟩
  · cases failed
  · exact .inr (.inl rfl)
  · exact .inl rfl
  · exact .inr (.inr rfl)

theorem TransportEnd.failed_of_failedBy
    {Error : Type} {ending : TransportEnd Error} {cause : Option Side}
    (by_ : ending.failedBy cause = true) :
    (.returned ending.result : RelayPhase RelayBuf Error).failed =
      true := by
  rcases ending with ⟨silentEnd, _ | ⟨culprit, error⟩⟩
  · cases by_
  · rfl

/-! ## The invariant -/

namespace TimedRelay

variable {Error : Type} {setup : RelaySetup Error}

/-- What the verdict looks at agrees with the history. -/
structure Inv (setup : RelaySetup Error) (relay : TimedRelay Error) :
    Prop where
  spliced : relay.stage = .splice → setup.mode = 0
  recorded : setup.timed = true →
    (relay.firstByteUs = 0 ↔ relay.history.answeredLater = false)
  later : relay.history.answeredLater = true →
    relay.history.answered = true
  failed : relay.run.phase.failed = true →
    relay.history.clientFailed = true ∨ relay.history.selfFailed = true ∨
      relay.history.remoteFailed = true
  client : relay.history.clientFailed = true →
    relay.run.phase.failed = true
  refused : relay.history.selfFailed = true →
    relay.run.phase.failed = true ∧ setup.timed = false
  transported : relay.stage = .transport →
    setup.timed = false ∧
      (isReturned relay.run.phase = false →
        relay.run.phase.failed = false)
  running : relay.timer = .running → relay.history.deadlineFired = false
  met : relay.timer = .met → relay.history.answeredLater = true
  aborted : relay.timer = .aborted →
    setup.timed = true ∧ relay.history.deadlineFired = true ∧
      relay.history.answeredLater = false ∧
      (relay.history.clientFailed = true →
        relay.history.delivered = false)
  reading : setup.mode = 2 → readsHeader relay.run.phase = true →
    relay.history.delivered = false
  probe : relay.run.phase = .dropProbe →
    relay.history.clientFailed = true → setup.mode = 2

theorem start_failed {B : Type} (config : RelayConfig B) :
    (RelayPhase.start config : RelayPhase B Error).failed = false := by
  unfold RelayPhase.start
  split
  · rfl
  · split
    · rfl
    · exact RelayPhase.startCopy_failed config

/-- A relay splices without a limit, and in mode 0 only. -/
theorem splices_of_firstStage (splices : setup.firstStage = .splice) :
    setup.timed = false ∧ setup.mode = 0 := by
  unfold RelaySetup.firstStage at splices
  split at splices
  · cases splices
  · split at splices
    · next plain =>
      simp only [Bool.and_eq_true, Bool.not_eq_true', beq_iff_eq] at plain
      exact ⟨plain.1.1, plain.2⟩
    · cases splices

theorem timed_of_transport (through : setup.firstStage = .transport) :
    setup.timed = false := by
  unfold RelaySetup.firstStage at through
  split at through
  · next transport =>
    rw [RelaySetup.timed, RelaySetup.limit, if_pos transport]
    rfl
  · split at through <;> cases through

/-- A relay fails at its start for want of a pipe alone. -/
theorem startRun_failed :
    (startRun setup).phase.failed = setup.refusal.isSome := by
  unfold startRun
  cases setup.refusal with
  | none => exact start_failed _
  | some error => rfl

theorem inv_start : (start setup : TimedRelay Error).Inv setup where
  spliced spliced := (splices_of_firstStage spliced).2
  recorded _ := ⟨fun _ => rfl, fun _ => rfl⟩
  later later := by cases later
  failed failed := .inr (.inl (startRun_failed.symm.trans failed))
  client failed := by cases failed
  refused refused := by
    refine ⟨startRun_failed.trans refused, ?_⟩
    change setup.refusal.isSome = true at refused
    unfold RelaySetup.refusal at refused
    split at refused
    · next splices => exact (splices_of_firstStage splices).1
    · cases refused
  transported through := by
    refine ⟨timed_of_transport through, fun _ => ?_⟩
    refine startRun_failed.trans ?_
    change setup.firstStage = .transport at through
    rw [RelaySetup.refusal, through]
    rfl
  running _ := rfl
  met met := by cases met
  aborted aborted := by cases aborted
  reading _ _ := rfl
  probe _ failed := by cases failed

/-- The stored time is zero as long as no byte came after the first
microsecond. -/
theorem recorded_after
    {relay : TimedRelay Error} (timed : setup.timed = true)
    (recorded : relay.firstByteUs = 0 ↔
      relay.history.answeredLater = false)
    (us : UInt64) (label : RelayLabel Error) :
    relay.recordFirstByte setup us label = 0 ↔
      (relay.history.after (setup.config relay.stage) relay.run us
        label).answeredLater = false := by
  simp only [recordFirstByte, History.after, timed, true_and]
  cases answers : History.answers (setup.config relay.stage) relay.run
      label with
  | false => simpa using recorded
  | true =>
      by_cases zero : relay.firstByteUs = 0
      · simp [zero, recorded.1 zero]
      · have later := mt recorded.2 zero
        simp [zero, later]

theorem inv_ioStep
    {relay next : TimedRelay Error} {us : UInt64}
    {label : RelayLabel Error} (inv : relay.Inv setup)
    (stepped : relay.ioStep setup us label = some next) :
    next.Inv setup := by
  unfold ioStep at stepped
  split at stepped
  · cases stepped
  · next open_ =>
    rcases not_or.1 open_ with ⟨alive, here⟩
    rcases Option.map_eq_some_iff.1 stepped with ⟨run, ran, rfl⟩
    rcases Option.map_eq_some_iff.1 ran with ⟨phase, moved, rfl⟩
    exact {
      spliced := inv.spliced
      recorded := fun timed =>
        recorded_after timed (inv.recorded timed) us label
      later := fun later => by
        rcases Bool.or_eq_true_iff.1 later with earlier | now
        · exact Bool.or_eq_true_iff.2 (.inl (inv.later earlier))
        · exact Bool.or_eq_true_iff.2 (.inr (Bool.and_eq_true_iff.1 now).1)
      failed := fun failed => by
        rw [RelayPhase.step_failed moved, Bool.or_eq_true_iff] at failed
        rcases failed with earlier | now
        · rcases inv.failed earlier with client | refused | remote
          · exact .inl (Bool.or_eq_true_iff.2 (.inl client))
          · exact .inr (.inl refused)
          · exact .inr (.inr (Bool.or_eq_true_iff.2 (.inl remote)))
        · rcases Bool.and_eq_true_iff.1 now with ⟨kept, fails⟩
          rcases RelayPhase.exists_fault moved fails with ⟨side, fault⟩
          cases side with
          | a => exact .inl (by simp [History.after, kept, fault])
          | b => exact .inr (.inr (by simp [History.after, fault]))
      client := fun failed => by
        rw [RelayPhase.step_failed moved]
        rcases Bool.or_eq_true_iff.1 failed with earlier | now
        · rw [inv.client earlier]
          rfl
        · rcases Bool.and_eq_true_iff.1 now with ⟨kept, fault⟩
          have fails := RelayPhase.fails_of_fault (eq_of_beq fault)
          rw [kept, fails, Bool.and_true, Bool.or_true]
      refused := fun refused => by
        rcases inv.refused refused with ⟨failed, untimed⟩
        rw [RelayPhase.step_failed moved, failed]
        exact ⟨rfl, untimed⟩
      transported := fun through => absurd through here
      running := inv.running
      met := fun met => by
        exact Bool.or_eq_true_iff.2 (.inl (inv.met met))
      aborted := fun aborted => absurd aborted alive
      reading := fun two reads => by
        have before :=
          readsHeader_of_step ((setup.config_mode _).trans two) moved reads
        simp only [History.after, inv.reading two before,
          delivers_of_readsHeader before, Bool.or_false]
      probe := fun dropped failed => by
        dsimp only at dropped
        rw [dropped] at moved
        rcases exists_readHeader_of_step moved with ⟨got, reading⟩
        rcases Bool.or_eq_true_iff.1 failed with earlier | now
        · have phaseFailed := inv.client earlier
          rw [reading] at phaseFailed
          cases phaseFailed
        · have fault := eq_of_beq (Bool.and_eq_true_iff.1 now).2
          rw [reading] at fault
          rw [← setup.config_mode relay.stage]
          exact wireSide_eq_a (fault_readHeader fault) }

theorem inv_fallbackStep
    {relay next : TimedRelay Error} (inv : relay.Inv setup)
    (stepped : relay.fallbackStep setup = some next) :
    next.Inv setup := by
  unfold fallbackStep at stepped
  split at stepped
  · next error spliced returned =>
    split at stepped
    · cases stepped
      have zero := inv.spliced spliced
      exact {
        spliced := fun again => by cases again
        recorded := inv.recorded
        later := inv.later
        failed := fun failed =>
          Bool.noConfusion (failed.symm.trans (start_failed _))
        client := fun failed => by cases failed
        refused := fun refused => by cases refused
        transported := fun through => by cases through
        running := inv.running
        met := inv.met
        aborted := fun aborted => by
          rcases inv.aborted aborted with ⟨timed, fired, later, _⟩
          exact ⟨timed, fired, later, fun failed => by cases failed⟩
        reading := fun two _ => by
          rw [zero] at two
          exact absurd two (by decide)
        probe := fun _ failed => by cases failed }
    · cases stepped
  · cases stepped

/-- A running relay that has failed at its client has delivered nothing of
it: it delays a probe. -/
theorem Inv.undelivered
    {relay : TimedRelay Error} (inv : relay.Inv setup)
    (open_ : isReturned relay.run.phase = false)
    (failed : relay.history.clientFailed = true) :
    relay.history.delivered = false := by
  have phaseFailed := inv.client failed
  cases phase : relay.run.phase with
  | dropProbe =>
      exact inv.reading (inv.probe phase failed) (by rw [phase]; rfl)
  | returned result =>
      rw [phase] at open_
      cases open_
  | readFirst => simp [phase, RelayPhase.failed] at phaseFailed
  | writeAll rest => simp [phase, RelayPhase.failed] at phaseFailed
  | readHeader got => simp [phase, RelayPhase.failed] at phaseFailed
  | readGarbage left => simp [phase, RelayPhase.failed] at phaseFailed
  | copying bidi point => simp [phase, RelayPhase.failed] at phaseFailed

theorem inv_deadlineStep
    {relay next : TimedRelay Error} {us : UInt64} (inv : relay.Inv setup)
    (stepped : relay.deadlineStep setup us = some next) :
    next.Inv setup := by
  unfold deadlineStep at stepped
  split at stepped
  · next due =>
    rcases due with ⟨due, running, open_⟩
    cases stepped
    have timed : setup.timed = true := by
      unfold deadlineDue at due
      unfold RelaySetup.timed
      split at due
      · next some_ => rw [some_]; rfl
      · cases due
    have recorded := inv.recorded timed
    exact {
      spliced := inv.spliced
      recorded := inv.recorded
      later := inv.later
      failed := inv.failed
      client := inv.client
      refused := inv.refused
      transported := inv.transported
      running := fun stillRunning => by
        dsimp only at stillRunning
        split at stillRunning <;> cases stillRunning
      met := fun met => by
        dsimp only at met ⊢
        split at met
        · cases met
        · next some_ =>
          rw [recorded] at some_
          exact Bool.eq_true_of_not_eq_false some_
      aborted := fun aborted => by
        dsimp only at aborted ⊢
        split at aborted
        · next none =>
          exact ⟨timed, rfl, recorded.1 none, inv.undelivered open_⟩
        · cases aborted
      reading := inv.reading
      probe := inv.probe }
  · cases stepped

theorem inv_transportStep
    {relay next : TimedRelay Error} {ending : TransportEnd Error}
    (inv : relay.Inv setup)
    (stepped : relay.transportStep ending = some next) :
    next.Inv setup := by
  unfold transportStep at stepped
  split at stepped
  · next through =>
    rcases through with ⟨through, open_⟩
    rcases inv.transported through with ⟨untimed, settled⟩
    have sound := settled open_
    have whole : relay.history.selfFailed = false :=
      Bool.eq_false_iff.2 fun refused => by
        rw [(inv.refused refused).1] at sound
        cases sound
    have blameless : relay.history.clientFailed = false :=
      Bool.eq_false_iff.2 fun failed => by
        rw [inv.client failed] at sound
        cases sound
    cases stepped
    exact {
      spliced := inv.spliced
      recorded := inv.recorded
      later := inv.later
      failed := fun failed => by
        dsimp only
        rcases ending.result_failed failed with client | self | remote
        · rw [client, Bool.or_true]
          exact .inl rfl
        · rw [self, Bool.or_true]
          exact .inr (.inl rfl)
        · rw [remote, Bool.or_true]
          exact .inr (.inr rfl)
      client := fun client => by
        dsimp only at client
        rw [blameless, Bool.false_or] at client
        exact TransportEnd.failed_of_failedBy client
      refused := fun self => by
        dsimp only at self
        rw [whole, Bool.false_or] at self
        exact ⟨TransportEnd.failed_of_failedBy self, untimed⟩
      transported := fun _ => ⟨untimed, fun again => by cases again⟩
      running := inv.running
      met := inv.met
      aborted := fun aborted => by
        have timed := (inv.aborted aborted).1
        rw [untimed] at timed
        cases timed
      reading := fun _ reads => by cases reads
      probe := fun dropped => by cases dropped }
  · cases stepped

theorem inv_step
    {relay next : TimedRelay Error} {label : TimedLabel Error}
    (inv : relay.Inv setup)
    (stepped : (machine setup).step relay label = some next) :
    next.Inv setup := by
  cases label with
  | io us label => exact inv_ioStep inv stepped
  | fallback => exact inv_fallbackStep inv stepped
  | deadline us => exact inv_deadlineStep inv stepped
  | transport ending => exact inv_transportStep inv stepped

/-! ## The verdict -/

/-- A relay that the deadline ended is blamed on the peer. -/
theorem Inv.atFault_iff_of_aborted
    {relay : TimedRelay Error} (inv : relay.Inv setup)
    (aborted : relay.timer = .aborted) :
    relay.history.AtFault ↔ ¬ relay.history.Misjudged setup.timed := by
  rcases inv.aborted aborted with ⟨timed, fired, later, client⟩
  have whole : relay.history.selfFailed = false :=
    Bool.eq_false_iff.2 fun refused => by
      rw [(inv.refused refused).2] at timed
      cases timed
  unfold History.AtFault History.Misjudged
  rw [timed, fired, later, whole]
  cases silent : relay.history.silentEnd <;>
  cases remote : relay.history.remoteFailed <;>
  cases answered : relay.history.answered <;>
  cases delivered : relay.history.delivered <;>
  cases failed : relay.history.clientFailed <;>
  simp_all

/-- So is one that failed. -/
theorem Inv.atFault_iff_of_failed
    {relay : TimedRelay Error} (inv : relay.Inv setup)
    (alive : relay.timer ≠ .aborted)
    (failed : relay.run.phase.failed = true) :
    relay.history.AtFault ↔ ¬ relay.history.Misjudged setup.timed := by
  have heard (fired : relay.history.deadlineFired = true) :
      relay.history.answered = true := by
    cases timer : relay.timer with
    | running =>
        rw [inv.running timer] at fired
        cases fired
    | met => exact inv.later (inv.met timer)
    | aborted => exact absurd timer alive
  have side := inv.failed failed
  unfold History.AtFault History.Misjudged
  cases silent : relay.history.silentEnd <;>
  cases remote : relay.history.remoteFailed <;>
  cases client : relay.history.clientFailed <;>
  cases fired : relay.history.deadlineFired <;>
  simp_all

/-- Of a relay that has returned its amounts the client has not failed, and
it has its pipes. -/
theorem Inv.sound_of_ok
    {relay : TimedRelay Error} (inv : relay.Inv setup)
    {amounts : UInt64 × UInt64}
    (returned : relay.run.phase = .returned (.ok amounts)) :
    relay.history.clientFailed = false ∧
      relay.history.selfFailed = false := by
  have sound : ¬ relay.run.phase.failed = true := by
    rw [returned]
    exact Bool.false_ne_true
  exact ⟨Bool.eq_false_iff.2 fun failed => sound (inv.client failed),
    Bool.eq_false_iff.2 fun refused => sound (inv.refused refused).1⟩

/-- A relay with a recorded first byte, or one whose timer was met, has been
answered late enough. -/
theorem Inv.answeredLater_of_heard
    {relay : TimedRelay Error} (inv : relay.Inv setup)
    (timed : setup.timed = true) (alive : relay.timer ≠ .aborted)
    (heard : ¬ (relay.timer = .running ∧ relay.firstByteUs = 0)) :
    relay.history.answeredLater = true := by
  rw [← Bool.not_eq_false]
  intro quiet
  cases timer : relay.timer with
  | running => exact heard ⟨timer, (inv.recorded timed).2 quiet⟩
  | met =>
      rw [inv.met timer] at quiet
      cases quiet
  | aborted => exact alive timer

/-- What a verdict says about the history. -/
theorem Inv.blamed_iff
    {relay : TimedRelay Error} (inv : relay.Inv setup) {verdict : Verdict}
    (judged : relay.verdict setup = some verdict) :
    (verdict = .onFailure → relay.history.AtFault) ↔
      ¬ relay.history.Misjudged setup.timed := by
  unfold TimedRelay.verdict at judged
  split at judged
  · next aborted =>
    cases judged
    simpa using inv.atFault_iff_of_aborted aborted
  · next alive =>
    split at judged
    · next amounts returned =>
      rcases inv.sound_of_ok returned with ⟨client, whole⟩
      split at judged
      · next silent =>
        rcases silent with ⟨timed, running, none⟩
        cases judged
        have later := (inv.recorded timed).1 none
        have fired := inv.running running
        unfold History.AtFault History.Misjudged
        rw [client, whole, timed, later, fired]
        cases relay.history.silentEnd <;>
          cases relay.history.remoteFailed <;> simp
      · next heard =>
        cases judged
        constructor
        · rintro - ⟨_, _, failed | refused | ⟨timed, quiet, _⟩⟩
          · rw [client] at failed
            cases failed
          · rw [whole] at refused
            cases refused
          · have later :=
              inv.answeredLater_of_heard timed alive fun unheard =>
                heard ⟨timed, unheard⟩
            rw [later] at quiet
            cases quiet
        · intro _ blamed
          cases blamed
    · next error returned =>
      split at judged
      · cases judged
      · cases judged
        simpa using inv.atFault_iff_of_failed alive (by rw [returned]; rfl)
    · cases judged

end TimedRelay

/-- The brutal build, in mode 0, with a limit of half a second. -/
def halfSecondSetup : RelaySetup Unit where
  mode := 0
  brutal := true
  linux := true
  maxLatencyMs := some 500
  transport := false
  bufSize := 16
  pipeSize := 16
  pipeSize_pos := by decide
  pipeError := none
  isInvalidInput _ := false

/-- The remote closes at once. -/
def remoteCloses : List (TimedLabel Unit) :=
  [.io 90 (.copy (.copy (.read 0 .pending))),
    .io 100 (.copy (.copy (.read 0 .eof))),
    .io 110 (.copy (.copy (.flush .ok))),
    .io 120 (.copy (.shutdown .ok))]

/-- The client closes without having sent anything. -/
def clientCloses : List (TimedLabel Unit) :=
  [.io 100 (.copy (.copy (.read 0 .eof))),
    .io 110 (.copy (.copy (.flush .ok))),
    .io 120 (.copy (.shutdown .ok)),
    .io 130 (.copy (.copy (.read 0 .pending)))]

end ByteHub.Core
