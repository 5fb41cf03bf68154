import ByteHub.Io.TransferProgress
import ByteHub.Io.TunnelTrust

/-!
# A tunnel can always be finished

From every state of a tunnel in the graceful build in which no relay has
failed, both relays can return `Ok` with everything delivered, without another
byte from the peers: once the sources are closed the client sends its header,
the server reads it and answers with its own, and then the directions are
copied to their ends one after the other.
-/

namespace ByteHub.Io

open ByteHub.Library

variable {B Error : Type}

/-- No stream answers with an error, and the peers send nothing more. -/
def TunnelLabel.quiet : TunnelLabel Error → Bool
  | .send _ _ => false
  | label => label.ordinary

namespace RelayPhase

/-- The relay is through with the headers. -/
def begun : RelayPhase B Error → Bool
  | .copying _ _ => true
  | .returned _ => true
  | _ => false

theorem begun_cases
    {phase : RelayPhase B Error} (isBegun : phase.begun = true) :
    (∃ bidi point, phase = .copying bidi point) ∨
      ∃ result, phase = .returned result := by
  cases phase with
  | copying bidi point => exact .inl ⟨bidi, point, rfl⟩
  | returned result => exact .inr ⟨result, rfl⟩
  | readFirst => cases isBegun
  | writeAll rest => cases isBegun
  | readHeader got => cases isBegun
  | dropProbe => cases isBegun
  | readGarbage left => cases isBegun

theorem begun_ofStatus (bidi : BidiCopy B) (status : BidiStatus Error) :
    (ofStatus bidi status).begun = true := by
  rcases status with point | (_ | (error | amounts)) <;> rfl

theorem begun_of_step
    [AsyncIOBuf B] {config : RelayConfig B} {phase next : RelayPhase B Error}
    {label : RelayLabel Error} (isBegun : phase.begun = true)
    (moves : phase.step config label = some next) :
    next.begun = true := by
  unfold step at moves
  split at moves
  · cases isBegun
  · cases isBegun
  · cases isBegun
  · cases isBegun
  · cases isBegun
  · cases isBegun
  · cases moves
    exact begun_ofStatus _ _
  · rcases Option.map_eq_some_iff.1 moves with ⟨result, _, rfl⟩
    exact begun_ofStatus _ _
  · cases moves

/-! ## Waiting -/

variable [AsyncIOBuf B]

/-- A step in which nothing passes. -/
def Idles (config : RelayConfig B) (phase next : RelayPhase B Error) :
    Prop :=
  ∃ label, label.isError = false ∧ phase.passed label = Passed.nothing ∧
    phase.step config label = some next

omit [AsyncIOBuf B] in
theorem setHalf_half (bidi : BidiCopy B) (side : Side) :
    bidi.setHalf side (bidi.half side) = bidi := by
  cases side <;> rfl

section Idles

variable {config : RelayConfig B} {bidi : BidiCopy B}

/-- A direction that is left as it was. -/
theorem idles_of_step
    {point : BidiPoint} {answer : TransferAnswer Error}
    {status : CopyStatus Error} (fine : answer.isError = false)
    (nothing : (bidi.half point.reader).passed point.point answer =
      Passed.nothing)
    (stepped : (bidi.half point.reader).step point.point answer =
      some (bidi.half point.reader, status)) :
    Idles config (.copying bidi (some point))
      (ofStatus bidi (bidi.afterHalf config.brutal point status)) := by
  refine ⟨.copy answer, fine, nothing, ?_⟩
  simp [step, BidiCopy.step, stepped, setHalf_half]

variable (Error config) in
/-- The poll of a direction can wait for its stream. -/
theorem idles_pending
    (point : BidiPoint)
    (open_ : (bidi.half point.reader).finished = none)
    (within : ∀ copy, bidi.half point.reader = .running copy →
      copy.pos ≤ copy.cap) :
    Relation.ReflTransGen (Idles config)
      (.copying bidi (some point) : RelayPhase B Error)
      (ofStatus bidi
        (bidi.afterHalf config.brutal point (.returned .pending))) := by
  have flushing (point : BidiPoint) (idle : point.point = .idleFlush)
      (open_ : (bidi.half point.reader).finished = none) :
      Relation.ReflTransGen (Idles config)
        (.copying bidi (some point) : RelayPhase B Error)
        (ofStatus bidi
          (bidi.afterHalf config.brutal point (.returned .pending))) := by
    rcases TransferState.waits_idleFlush Error open_ with
      ⟨answer, fine, nothing, stepped⟩
    rw [← idle] at nothing stepped
    exact .single (idles_of_step fine nothing stepped)
  cases arrived : point.point with
  | idleFlush => exact flushing point arrived open_
  | head =>
      rcases TransferState.waits_head Error open_ within with
        ⟨answer, fine, nothing, stepped | stepped⟩
      · rw [← arrived] at nothing stepped
        exact .single (idles_of_step fine nothing stepped)
      · rw [← arrived] at nothing stepped
        have first : Idles config (.copying bidi (some point))
            (ofStatus bidi
              (bidi.afterHalf config.brutal point (.running .idleFlush))) :=
          idles_of_step fine nothing stepped
        cases point with
        | aToB point =>
            exact .head first (flushing (.aToB .idleFlush) rfl open_)
        | bToA result point =>
            exact .head first (flushing (.bToA result .idleFlush) rfl open_)

/-- A poll of the graceful build can end without a change. -/
theorem idles_to_rest
    (graceful : config.brutal = false) {point : BidiPoint}
    (polls : bidi.Polls (.running point : BidiStatus Error))
    (within : ∀ side copy, bidi.half side = .running copy →
      copy.pos ≤ copy.cap) :
    Relation.ReflTransGen (Idles config)
      (.copying bidi (some point) : RelayPhase B Error)
      (.copying bidi none) := by
  have second (first : Poll UInt64) (point : CopyPoint)
      (open_ : (bidi.half .b).finished = none) :
      Relation.ReflTransGen (Idles config)
        (.copying bidi (some (.bToA first point)) : RelayPhase B Error)
        (.copying bidi none) := by
    have waits := idles_pending Error config
      (.bToA first point) open_ (within .b)
    rw [graceful] at waits
    cases first <;> exact waits
  cases point with
  | bToA first point => exact second first point (polls _ rfl)
  | aToB point =>
      have waits := idles_pending Error config
        (.aToB point) (polls _ rfl) (within .a)
      refine waits.trans ?_
      rw [graceful]
      change Relation.ReflTransGen (Idles config)
        (ofStatus bidi (bidi.second false .pending)) _
      unfold BidiCopy.second
      split
      · exact .refl
      · next open_ =>
        exact second _ _ (TransferState.finished_eq_none open_)

/-- And the next poll can come to any direction that is not finished. -/
theorem idles_to_head
    (graceful : config.brutal = false) {side : Side}
    (open_ : (bidi.half side).finished = none)
    (within : ∀ side copy, bidi.half side = .running copy →
      copy.pos ≤ copy.cap) :
    ∃ point : BidiPoint, point.reader = side ∧ point.point = .head ∧
      Relation.ReflTransGen (Idles config)
        (.copying bidi none : RelayPhase B Error)
        (.copying bidi (some point)) := by
  have polled : Idles config (.copying bidi none : RelayPhase B Error)
      (ofStatus bidi (bidi.poll config.brutal)) :=
    ⟨.poll, rfl, rfl, rfl⟩
  rw [graceful] at polled
  cases side with
  | a =>
      refine ⟨.aToB .head, rfl, rfl, .single ?_⟩
      unfold BidiCopy.poll at polled
      split at polled
      · next count isDone =>
        rw [BidiCopy.half, isDone] at open_
        cases open_
      · exact polled
  | b =>
      have goOn (first : Poll UInt64) :
          bidi.second false first =
            (.running (.bToA first .head) : BidiStatus Error) := by
        unfold BidiCopy.second
        split
        · next count isDone =>
          rw [BidiCopy.half, isDone] at open_
          cases open_
        · rfl
      unfold BidiCopy.poll at polled
      split at polled
      · next count _ =>
        refine ⟨.bToA (.ready count) .head, rfl, rfl, .single ?_⟩
        rwa [goOn] at polled
      · next openA =>
        refine ⟨.bToA .pending .head, rfl, rfl, .head polled ?_⟩
        have waits := idles_pending Error config
          (.aToB .head) (TransferState.finished_eq_none openA) (within .a)
        rw [graceful] at waits
        change Relation.ReflTransGen (Idles config) _
          (ofStatus bidi (bidi.second false .pending)) at waits
        rwa [goOn] at waits

end Idles

end RelayPhase

/-- Nothing passes through any relay. -/
theorem Line.pass_nothing (line : Line) (encodes : Bool) :
    line.pass encodes Passed.nothing = some line := by
  have hopped (into out : Channel UInt8) :
      hop Passed.nothing into out = some (into, out) :=
    hop_of (fun none => by cases none) (Channel.pull_nil into)
      (Channel.push_nil out)
  cases encodes <;> simp [pass, hopped]

namespace Tunnel

variable [AsyncIOBuf B] [LawfulIOBuf B]
variable {config : Party → RelayConfig B} {key : ObfsKey}
variable {tunnel next : Tunnel B Error}

/-! ## Ways -/

/-- The invariant, with no relay failed. -/
structure Well
    (config : Party → RelayConfig B) (tunnel : Tunnel B Error) : Prop where
  sound : tunnel.Sound config
  calm : ∀ party, (tunnel.relay party).phase.failed = false

/-- What never goes back in a tunnel to which nothing more is sent. -/
structure Later (tunnel next : Tunnel B Error) : Prop where
  source_sent : ∀ side,
    (next.line side).source.sent = (tunnel.line side).source.sent
  source_closed : ∀ side, (tunnel.line side).source.closed = true →
    (next.line side).source.closed = true
  given : ∀ party side, ((tunnel.relay party).flow side).given <+:
    ((next.relay party).flow side).given
  done : ∀ party side, ((tunnel.relay party).flow side).done = true →
    ((next.relay party).flow side).done = true
  begun : ∀ party, (tunnel.relay party).phase.begun = true →
    (next.relay party).phase.begun = true

omit [AsyncIOBuf B] [LawfulIOBuf B] in
theorem Later.refl (tunnel : Tunnel B Error) : Later tunnel tunnel where
  source_sent _ := rfl
  source_closed _ := id
  given _ _ := List.prefix_refl _
  done _ _ := id
  begun _ := id

omit [AsyncIOBuf B] [LawfulIOBuf B] in
theorem Later.trans
    {first second third : Tunnel B Error} (early : Later first second)
    (late : Later second third) : Later first third where
  source_sent side := (late.source_sent side).trans (early.source_sent side)
  source_closed side := late.source_closed side ∘ early.source_closed side
  given party side := (early.given party side).trans (late.given party side)
  done party side := late.done party side ∘ early.done party side
  begun party := late.begun party ∘ early.begun party

omit [LawfulIOBuf B] in
theorem later_of_step
    {label : TunnelLabel Error} (quiet : label.quiet = true)
    (stepped : (machine config).step tunnel label = some next) :
    Later tunnel next := by
  cases label with
  | send side bytes => cases quiet
  | relay party label =>
      rcases relayStep_eq_some_iff.1 stepped with
        ⟨phase, line, moves, passes, rfl⟩
      constructor
      · intro side
        by_cases reads :
            side = (tunnel.relay party).phase.reader (config party)
        · subst reads
          rw [moved_line_reader]
          exact Line.source_sent_of_pass passes
        · rw [moved_line_other reads]
      · intro side isClosed
        rw [source_closed_moved passes]
        exact isClosed
      · intro other side
        rw [moved_flow]
        split
        · exact List.prefix_append _ _
        · exact List.prefix_refl _
      · intro other side isDone
        rw [moved_flow]
        split
        · rw [Passed.append, isDone, Bool.true_or]
        · exact isDone
      · intro other isBegun
        by_cases mine : other = party
        · subst mine
          rw [moved_phase_self]
          exact RelayPhase.begun_of_step isBegun moves
        · rw [moved_relay_other mine]
          exact isBegun
  | close side =>
      cases stepped
      refine ⟨?_, ?_, fun _ _ => List.prefix_refl _, fun _ _ => id,
        fun _ => id⟩
      · intro other
        by_cases here : other = side
        · subst here
          simp
        · simp [Function.update_of_ne here]
      · intro other isClosed
        by_cases here : other = side
        · subst here
          simp [Channel.close]
        · simpa [Function.update_of_ne here] using isClosed
  | leave party =>
      simp only [machine] at stepped
      split at stepped
      · cases stepped
        have same (side : Side) :
            ((tunnel.line side).leave (encoder side = party)).source =
              (tunnel.line side).source := by
          unfold Line.leave
          split <;> rfl
        refine ⟨?_, ?_, fun _ _ => List.prefix_refl _, fun _ _ => id,
          fun _ => id⟩
        · intro side
          rw [same]
        · intro side isClosed
          rw [same]
          exact isClosed
      · cases stepped

/-- A tunnel to which nothing more is sent, and whose streams do not fail,
can come from one state to another. -/
def Way (config : Party → RelayConfig B) (tunnel next : Tunnel B Error) :
    Prop :=
  (machine config).Leads (fun label => label.quiet = true) tunnel next

omit [LawfulIOBuf B] in
theorem Way.refl (tunnel : Tunnel B Error) : Way config tunnel tunnel :=
  Machine.leads_refl _ tunnel

omit [LawfulIOBuf B] in
theorem Way.trans
    {middle : Tunnel B Error} (first : Way config tunnel middle)
    (second : Way config middle next) : Way config tunnel next :=
  Machine.Leads.trans first second

omit [LawfulIOBuf B] in
theorem Way.later (way : Way config tunnel next) : Later tunnel next :=
  way.invariant (Later tunnel)
    (fun before quiet stepped =>
      before.trans (later_of_step quiet stepped)) (Later.refl tunnel)

theorem ordinary_of_quiet {label : TunnelLabel Error}
    (quiet : label.quiet = true) : label.ordinary = true := by
  cases label with
  | send side bytes => cases quiet
  | relay party label => exact quiet
  | close side => rfl
  | leave party => rfl

theorem Well.step
    (paired : Paired config key) {label : TunnelLabel Error}
    (well : tunnel.Well config) (quiet : label.quiet = true)
    (stepped : (machine config).step tunnel label = some next) :
    next.Well config where
  sound := well.sound.step paired stepped
  calm := well.sound.calm_step paired well.calm (ordinary_of_quiet quiet)
    stepped

theorem Way.well
    (paired : Paired config key) (way : Way config tunnel next)
    (well : tunnel.Well config) : next.Well config :=
  way.invariant (fun tunnel => tunnel.Well config)
    (fun before quiet stepped => before.step paired quiet stepped) well

/-! ## Single steps -/

omit [LawfulIOBuf B] in
/-- A relay makes a step. -/
theorem way_moved
    {party : Party} {label : RelayLabel Error} {phase : RelayPhase B Error}
    {line : Line} (fine : label.isError = false)
    (moves : (tunnel.relay party).phase.step (config party) label =
      some phase)
    (passes :
      (tunnel.line ((tunnel.relay party).phase.reader (config party))).pass
          (encoder ((tunnel.relay party).phase.reader (config party)) =
            party)
          ((tunnel.relay party).phase.passed label) = some line) :
    Way config tunnel (tunnel.moved config party label phase line) := by
  have stepped :
      (machine config).step tunnel (.relay party label) =
        some (tunnel.moved config party label phase line) :=
    relayStep_eq_some_iff.2 ⟨phase, line, moves, passes, rfl⟩
  apply Machine.leads_of_step _ stepped
  simp [TunnelLabel.quiet, TunnelLabel.ordinary, fine]

omit [LawfulIOBuf B] in
/-- A relay makes a step for which its two channels are ready. -/
theorem exists_way_of_hop
    {party : Party} {side : Side} {label : RelayLabel Error}
    {phase : RelayPhase B Error} {passed : Passed}
    {into out : Channel UInt8} (fine : label.isError = false)
    (moves : (tunnel.relay party).phase.step (config party) label =
      some phase)
    (reads : (tunnel.relay party).phase.reader (config party) = side)
    (passing : (tunnel.relay party).phase.passed label = passed)
    (hopped : Line.hop passed (tunnel.intoOf party side)
      (tunnel.outOf party side) = some (into, out)) :
    ∃ next, Way config tunnel next ∧ (next.relay party).phase = phase ∧
      next.intoOf party side = into ∧
      (next.relay party).flow side =
        ((tunnel.relay party).flow side).append passed := by
  subst reads
  subst passing
  rcases Line.exists_pass_of_hop hopped with ⟨line, passes, pulled, _⟩
  refine ⟨_, way_moved fine moves passes, moved_phase_self, ?_, ?_⟩
  · rw [intoOf, moved_line_reader]
    exact pulled
  · rw [moved_flow, if_pos ⟨rfl, rfl⟩]

omit [LawfulIOBuf B] in
/-- A relay idles. -/
theorem exists_way_of_idles
    {party : Party} {phase phase' : RelayPhase B Error}
    (chain :
      Relation.ReflTransGen (RelayPhase.Idles (config party)) phase phase')
    (here : (tunnel.relay party).phase = phase) :
    ∃ next, Way config tunnel next ∧ (next.relay party).phase = phase' ∧
      next.line = tunnel.line := by
  induction chain using Relation.ReflTransGen.head_induction_on
    generalizing tunnel with
  | refl => exact ⟨tunnel, Way.refl _, here, rfl⟩
  | head idle _ inductionHypothesis =>
      rcases idle with ⟨label, fine, nothing, moves⟩
      rw [← here] at nothing moves
      have passes := (tunnel.line
        ((tunnel.relay party).phase.reader (config party))).pass_nothing
        (encoder ((tunnel.relay party).phase.reader (config party)) = party)
      rw [← nothing] at passes
      have first := way_moved fine moves passes
      rcases inductionHypothesis
          (moved_phase_self :
            ((tunnel.moved config party label _ _).relay party).phase = _)
        with ⟨next, way, there, same⟩
      refine ⟨next, first.trans way, there, ?_⟩
      rw [same]
      exact Function.update_eq_self _ _

/-! ## The headers -/

/-- The link of a relay that still encodes is open. -/
theorem Well.out_open
    (well : tunnel.Well config) {party : Party} {side : Side}
    (isOpen : ((tunnel.relay party).flow side).done = false)
    (going : (tunnel.relay party).phase.hasReturned = false) :
    (tunnel.outOf party side).closed = false := by
  rw [Bool.eq_false_iff]
  intro closed
  rcases well.sound.closed party side closed with isDone | returned
  · rw [isOpen] at isDone
    cases isDone
  · rw [going] at returned
    cases returned

/-- A header that is being written can be written. -/
theorem exists_way_of_writeAll
    (paired : Paired config key) (well : tunnel.Well config) {side : Side}
    {rest : List UInt8}
    (writes : (tunnel.relay (encoder side)).phase = .writeAll rest) :
    ∃ next, Way config tunnel next ∧
      (next.relay (encoder side)).phase =
        RelayPhase.headerSent (config (encoder side)) := by
  have reads : (tunnel.relay (encoder side)).phase.reader
      (config (encoder side)) = side := by
    rw [writes]
    exact paired.plainSide_encoder side
  have books := well.sound.inv.relay (encoder side)
  have settled := well.sound.settled (encoder side)
  unfold RelayRun.Inv at books
  unfold RelayRun.Settled at settled
  rw [writes] at books settled
  rw [paired.plainSide_encoder] at books
  have some : rest.length ≠ 0 :=
    fun none => settled (List.eq_nil_of_length_eq_zero none)
  have writable : (tunnel.outOf (encoder side) side).closed = false :=
    well.out_open books.1.1 (by rw [writes]; rfl)
  have moves : (tunnel.relay (encoder side)).phase.step
      (config (encoder side)) (.write (.ok rest.length) : RelayLabel Error) =
        Option.some (RelayPhase.headerSent (config (encoder side))) := by
    rw [writes]
    simp [RelayPhase.step, RelayPhase.afterWrite, some]
  have passing : (tunnel.relay (encoder side)).phase.passed
      (.write (.ok rest.length) : RelayLabel Error) = Passed.give rest := by
    rw [writes, RelayPhase.passed, List.take_length]
  rcases Channel.exists_push writable rest with ⟨out, entered⟩
  have fine : (.write (.ok rest.length) : RelayLabel Error).isError = false :=
    beq_eq_false_iff_ne.2 some
  rcases exists_way_of_hop fine moves reads passing
      (Line.hop_of (fun none => by cases none) (Channel.pull_nil _)
        entered) with ⟨next, way, phase, _⟩
  exact ⟨next, way, phase⟩

/-- A header can be made and written. -/
theorem exists_way_headerSent
    (paired : Paired config key) (well : tunnel.Well config) (side : Side)
    (writing : (tunnel.relay (encoder side)).phase = .readFirst ∨
      ∃ rest, (tunnel.relay (encoder side)).phase = .writeAll rest) :
    ∃ next, Way config tunnel next ∧
      (next.relay (encoder side)).phase =
        RelayPhase.headerSent (config (encoder side)) := by
  rcases writing with reads | ⟨rest, writes⟩
  · have idle : RelayPhase.Idles (config (encoder side))
        (.readFirst : RelayPhase B Error)
        (RelayPhase.sendHeader (config (encoder side)) 0 []) :=
      ⟨.firstTimeout 0, rfl, rfl, rfl⟩
    rcases exists_way_of_idles (.single idle) reads with
      ⟨middle, way, made, _⟩
    rcases exists_header_of_generate (config (encoder side)).key
        (SimpleRng.new 0) with ⟨header, generated⟩
    rw [RelayPhase.sendHeader, generated] at made
    rcases exists_way_of_writeAll paired (way.well paired well) made with
      ⟨next, onward, phase⟩
    exact ⟨next, way.trans onward, phase⟩
  · exact exists_way_of_writeAll paired well writes

/-- How the link goes on behind what its decoder has read of a header. -/
theorem Well.pending
    (well : tunnel.Well config) {side : Side} {header : Header key}
    (sent : header.wire <+: ((tunnel.relay (encoder side)).flow side).given) :
    header.wire <+: (tunnel.line side).link.received ++
      (tunnel.line side).link.pending := by
  have link := (well.sound.inv.line side).link_sent
  rw [Channel.sent] at link
  rwa [link]

omit [AsyncIOBuf B] [LawfulIOBuf B] in
theorem intoOf_decoder (tunnel : Tunnel B Error) (side : Side) :
    tunnel.intoOf (decoder side) side = (tunnel.line side).link := by
  rw [intoOf, decide_eq_false (encoder_ne_decoder side)]
  rfl

omit [AsyncIOBuf B] [LawfulIOBuf B] in
/-- The header of the peer leads on, at once or through its garbage. -/
theorem gotHeader_cases
    {config : RelayConfig B} (same : config.key = key)
    (header : Header key) :
    (RelayPhase.gotHeader config header.wireHeader : RelayPhase B Error) =
        RelayPhase.headerRead config ∨
      ∃ left, (RelayPhase.gotHeader config header.wireHeader :
        RelayPhase B Error) = .readGarbage left := by
  rw [RelayPhase.gotHeader, if_neg (by rw [header.wireHeader_length]; omega),
    same, header.checkHeader_wireHeader]
  cases header.garbage.length with
  | zero => exact .inl rfl
  | succ left => exact .inr ⟨left + 1, rfl⟩

/-- What is left of a header can be read. -/
theorem exists_way_of_readHeader
    (paired : Paired config key) (well : tunnel.Well config) {side : Side}
    {got : List UInt8}
    (reads : (tunnel.relay (decoder side)).phase = .readHeader got)
    (sent : HeaderSent key ((tunnel.relay (encoder side)).flow side)) :
    ∃ next, Way config tunnel next ∧
      ((next.relay (decoder side)).phase =
          RelayPhase.headerRead (config (decoder side)) ∨
        ∃ left, (next.relay (decoder side)).phase = .readGarbage left) := by
  rcases sent with ⟨header, given⟩
  rcases well.sound.received_of_readHeader paired reads with
    ⟨received, short⟩
  have whole := well.pending given
  rw [received] at whole
  rcases whole with ⟨rest, equal⟩
  rcases (tunnel.line side).link.exists_pull_take (14 - got.length) with
    ⟨link, pulled⟩
  generalize taken : (tunnel.line side).link.pending.take (14 - got.length) =
    bytes at pulled
  have long : (got ++ bytes).length = 14 := by
    have amount := congrArg List.length equal
    rw [Header.wire] at amount
    simp only [List.length_append, header.wireHeader_length] at amount
    rw [List.length_append, ← taken, List.length_take]
    omega
  have own : got ++ bytes = header.wireHeader := by
    apply wireHeader_of_prefix long
    rw [equal, ← taken]
    exact (List.prefix_append_right_inj got).2 (List.take_prefix _ _)
  have fits : ¬ (bytes.length = 0 ∨ 14 - got.length < bytes.length) := by
    rw [List.length_append] at long
    omega
  have moves : (tunnel.relay (decoder side)).phase.step
      (config (decoder side)) (.read (.data bytes) : RelayLabel Error) =
        some (RelayPhase.gotHeader (config (decoder side))
          header.wireHeader) := by
    rw [reads, ← own]
    exact if_neg fits
  have reader : (tunnel.relay (decoder side)).phase.reader
      (config (decoder side)) = side := by
    rw [reads]
    exact paired.wireSide_decoder side
  have passing : (tunnel.relay (decoder side)).phase.passed
      (.read (.data bytes) : RelayLabel Error) = Passed.take bytes := by
    rw [reads]
    rfl
  rw [← intoOf_decoder] at pulled
  rcases exists_way_of_hop rfl moves reader passing
      (Line.hop_of (fun none => by cases none) pulled
        (Channel.push_nil _)) with ⟨next, way, phase, _⟩
  refine ⟨next, way, ?_⟩
  rw [phase]
  exact gotHeader_cases (paired.key _) header

/-- What is left of its garbage can be read. -/
theorem exists_way_of_readGarbage
    (paired : Paired config key) (well : tunnel.Well config) {side : Side}
    {left : ℕ}
    (reads : (tunnel.relay (decoder side)).phase = .readGarbage left)
    (sent : HeaderSent key ((tunnel.relay (encoder side)).flow side)) :
    ∃ next, Way config tunnel next ∧
      (next.relay (decoder side)).phase =
        RelayPhase.headerRead (config (decoder side)) := by
  rcases sent with ⟨header, given⟩
  rcases well.sound.received_of_readGarbage paired reads with
    ⟨some, wire, garbage, received, fourteen, checked⟩
  have whole := well.pending given
  rw [received] at whole
  rcases whole with ⟨rest, equal⟩
  have own : wire = header.wireHeader := by
    apply wireHeader_of_prefix fourteen
    rw [equal, List.append_assoc]
    exact List.prefix_append _ _
  rw [own, header.checkHeader_wireHeader] at checked
  have amount := Except.ok.inj checked
  have enough : left ≤ (tunnel.line side).link.pending.length := by
    have lengths := congrArg List.length equal
    rw [Header.wire] at lengths
    simp only [List.length_append, header.wireHeader_length,
      fourteen] at lengths
    omega
  rcases (tunnel.line side).link.exists_pull_take left with ⟨link, pulled⟩
  generalize taken : (tunnel.line side).link.pending.take left = bytes
    at pulled
  have long : bytes.length = left := by
    rw [← taken, List.length_take]
    omega
  have moves : (tunnel.relay (decoder side)).phase.step
      (config (decoder side)) (.read (.data bytes) : RelayLabel Error) =
        Option.some (RelayPhase.headerRead (config (decoder side))) := by
    have fits : ¬ (bytes.length = 0 ∨ left < bytes.length) := by omega
    rw [reads]
    exact (if_neg fits).trans (if_pos long)
  have reader : (tunnel.relay (decoder side)).phase.reader
      (config (decoder side)) = side := by
    rw [reads]
    exact paired.wireSide_decoder side
  have passing : (tunnel.relay (decoder side)).phase.passed
      (.read (.data bytes) : RelayLabel Error) = Passed.take bytes := by
    rw [reads]
    rfl
  rw [← intoOf_decoder] at pulled
  rcases exists_way_of_hop rfl moves reader passing
      (Line.hop_of (fun none => by cases none) pulled
        (Channel.push_nil _)) with ⟨next, way, phase, _⟩
  exact ⟨next, way, phase⟩

/-- A header whose encoder has sent it can be read. -/
theorem exists_way_headerRead
    (paired : Paired config key) (well : tunnel.Well config) (side : Side)
    (reading : (∃ got, (tunnel.relay (decoder side)).phase =
        .readHeader got) ∨
      ∃ left, (tunnel.relay (decoder side)).phase = .readGarbage left)
    (sent : HeaderSent key ((tunnel.relay (encoder side)).flow side)) :
    ∃ next, Way config tunnel next ∧
      (next.relay (decoder side)).phase =
        RelayPhase.headerRead (config (decoder side)) := by
  rcases reading with ⟨got, reads⟩ | ⟨left, reads⟩
  · rcases exists_way_of_readHeader paired well reads sent with
      ⟨middle, way, phase | ⟨left, reads⟩⟩
    · exact ⟨middle, way, phase⟩
    · rcases exists_way_of_readGarbage paired (way.well paired well) reads
          (sent.later (way.later.given _ _)) with ⟨next, onward, phase⟩
      exact ⟨next, way.trans onward, phase⟩
  · exact exists_way_of_readGarbage paired well reads sent

/-- A relay that is through with its own header has sent it. -/
theorem Well.headerSent
    (paired : Paired config key) (well : tunnel.Well config) (side : Side)
    (through : (tunnel.relay (encoder side)).phase.begun = true ∨
      (config (encoder side)).mode = 1 ∧
        ((∃ got, (tunnel.relay (encoder side)).phase = .readHeader got) ∨
          ∃ left, (tunnel.relay (encoder side)).phase =
            .readGarbage left)) :
    HeaderSent key ((tunnel.relay (encoder side)).flow side) := by
  have books := well.sound.inv.relay (encoder side)
  have settled := well.sound.settled (encoder side)
  have calm := well.calm (encoder side)
  unfold RelayRun.Inv at books
  unfold RelayRun.Settled at settled
  rw [paired.plainSide_encoder] at books settled
  rw [← paired.key (encoder side)]
  rcases through with begun | ⟨one, ⟨got, reads⟩ | ⟨left, reads⟩⟩
  · rcases RelayPhase.begun_cases begun with
      ⟨bidi, point, phase⟩ | ⟨result, phase⟩
    · rw [phase] at books
      have sending := books.1
      rw [paired.plainSide_encoder] at sending
      exact sending.headerSent
    · rw [phase] at settled calm
      cases result with
      | ok amounts => exact settled.1
      | error error => cases calm
  · rw [reads] at books
    have beside := books.1
    rw [EncoderBeside, if_pos one] at beside
    exact beside.headerSent
  · rw [reads] at books
    have beside := books.1
    rw [EncoderBeside, if_pos one] at beside
    exact beside.headerSent

/-- Where a relay that has not failed can be. -/
theorem Well.phase_cases
    (well : tunnel.Well config) (party : Party) :
    ((tunnel.relay party).phase = .readFirst ∨
        ∃ rest, (tunnel.relay party).phase = .writeAll rest) ∨
      ((∃ got, (tunnel.relay party).phase = .readHeader got) ∨
        ∃ left, (tunnel.relay party).phase = .readGarbage left) ∨
      (tunnel.relay party).phase.begun = true := by
  have calm := well.calm party
  cases phase : (tunnel.relay party).phase with
  | readFirst => exact .inl (.inl rfl)
  | writeAll rest => exact .inl (.inr ⟨rest, rfl⟩)
  | readHeader got => exact .inr (.inl (.inl ⟨got, rfl⟩))
  | readGarbage left => exact .inr (.inl (.inr ⟨left, rfl⟩))
  | dropProbe =>
      rw [phase] at calm
      cases calm
  | copying bidi point => exact .inr (.inr rfl)
  | returned result => exact .inr (.inr rfl)

/-- The client can send its header. -/
theorem exists_way_client_sent
    (paired : Paired config key) (well : tunnel.Well config) :
    ∃ next, Way config tunnel next ∧
      HeaderSent key ((next.relay .client).flow .a) := by
  rcases well.phase_cases .client with writing | reading | begun
  · rcases exists_way_headerSent paired well .a writing with
      ⟨next, way, phase⟩
    have reads : (next.relay .client).phase = .readHeader [] := by
      rw [show (next.relay .client).phase = _ from phase]
      exact if_pos paired.client
    exact ⟨next, way, (way.well paired well).headerSent paired .a
      (.inr ⟨paired.client, .inl ⟨[], reads⟩⟩)⟩
  · exact ⟨tunnel, Way.refl _, well.headerSent paired .a
      (.inr ⟨paired.client, reading⟩)⟩
  · exact ⟨tunnel, Way.refl _, well.headerSent paired .a
      (.inl begun)⟩

/-- Then the server can answer it. -/
theorem exists_way_server_begun
    (paired : Paired config key) (well : tunnel.Well config)
    (sent : HeaderSent key ((tunnel.relay .client).flow .a)) :
    ∃ next, Way config tunnel next ∧
      (next.relay .server).phase.begun = true := by
  have answers {tunnel : Tunnel B Error} (well : tunnel.Well config)
      (writing : (tunnel.relay .server).phase = .readFirst ∨
        ∃ rest, (tunnel.relay .server).phase = .writeAll rest) :
      ∃ next, Way config tunnel next ∧
        (next.relay .server).phase.begun = true := by
    rcases exists_way_headerSent paired well .b writing with
      ⟨next, way, phase⟩
    refine ⟨next, way, ?_⟩
    rw [show (next.relay .server).phase = _ from phase,
      RelayPhase.headerSent, if_neg (by rw [encoder, paired.server]; decide)]
    rfl
  rcases well.phase_cases .server with writing | reading | begun
  · exact answers well writing
  · rcases exists_way_headerRead paired well .a reading sent with
      ⟨middle, way, phase⟩
    have first : (middle.relay .server).phase = .readFirst := by
      rw [show (middle.relay .server).phase = _ from phase]
      exact if_neg (by rw [decoder, paired.server]; decide)
    rcases answers (way.well paired well) (.inl first) with
      ⟨next, onward, begun⟩
    exact ⟨next, way.trans onward, begun⟩
  · exact ⟨tunnel, Way.refl _, begun⟩

/-- And the client can read the answer. -/
theorem exists_way_begun
    (paired : Paired config key) (well : tunnel.Well config) :
    ∃ next, Way config tunnel next ∧
      ∀ party, (next.relay party).phase.begun = true := by
  rcases exists_way_client_sent paired well with ⟨first, wayFirst, sent⟩
  have wellFirst := wayFirst.well paired well
  rcases exists_way_server_begun paired wellFirst sent with
    ⟨second, waySecond, server⟩
  have wellSecond := waySecond.well paired wellFirst
  have answered : HeaderSent key ((second.relay .server).flow .b) :=
    wellSecond.headerSent paired .b (.inl server)
  have reads {tunnel : Tunnel B Error} (well : tunnel.Well config)
      (answered : HeaderSent key ((tunnel.relay .server).flow .b))
      (reading : (∃ got, (tunnel.relay .client).phase = .readHeader got) ∨
        ∃ left, (tunnel.relay .client).phase = .readGarbage left) :
      ∃ next, Way config tunnel next ∧
        (next.relay .client).phase.begun = true := by
    rcases exists_way_headerRead paired well .b reading answered with
      ⟨next, way, phase⟩
    refine ⟨next, way, ?_⟩
    rw [show (next.relay .client).phase = _ from phase,
      RelayPhase.headerRead, if_pos (by rw [decoder, paired.client])]
    rfl
  have client : ∃ third, Way config second third ∧
      (third.relay .client).phase.begun = true := by
    rcases wellSecond.phase_cases .client with writing | reading | begun
    · rcases exists_way_headerSent paired wellSecond .a writing with
        ⟨middle, way, phase⟩
      have header : (middle.relay .client).phase = .readHeader [] := by
        rw [show (middle.relay .client).phase = _ from phase]
        exact if_pos paired.client
      rcases reads (way.well paired wellSecond)
          (answered.later (way.later.given _ _)) (.inl ⟨[], header⟩) with
        ⟨third, onward, begun⟩
      exact ⟨third, way.trans onward, begun⟩
    · exact reads wellSecond answered reading
    · exact ⟨second, Way.refl _, begun⟩
  rcases client with ⟨third, wayThird, begun⟩
  refine ⟨third, (wayFirst.trans waySecond).trans wayThird, ?_⟩
  intro party
  cases party with
  | client => exact begun
  | server => exact wayThird.later.begun _ server

/-! ## The directions -/

/-- The books of either direction of a copying relay. -/
theorem Well.copies
    (paired : Paired config key) (well : tunnel.Well config) {party : Party}
    {bidi : BidiCopy B} {point : Option BidiPoint}
    (phase : (tunnel.relay party).phase = .copying bidi point)
    (side : Side) :
    (∃ capacity copied, 0 < capacity ∧ TransferBooks (bidi.half side)
        (fun byte => byte ^^^ 0x5A) capacity copied) ∧
      (((tunnel.relay party).flow side).done = true ↔
        ∃ count, bidi.half side = .done count) := by
  have books := well.sound.inv.relay party
  have nonempty := (paired.obfuscating party).nonempty
  unfold RelayRun.Inv at books
  rw [phase] at books
  rcases books with ⟨sending, receiving⟩
  rcases eq_plainSide_or_wireSide side (config party).mode with
    rfl | rfl
  · refine ⟨?_, sending.done_iff fun ready => ready.1⟩
    rcases sending with ⟨_, copied, _, _, books⟩
    exact ⟨_, copied, nonempty _, books⟩
  · refine ⟨?_, receiving.done_iff fun ready => ready.2.1⟩
    rcases receiving with ⟨_, copied, _, _, books⟩
    exact ⟨_, copied, nonempty _, books⟩

theorem Well.finished_iff
    (paired : Paired config key) (well : tunnel.Well config) {party : Party}
    {bidi : BidiCopy B} {point : Option BidiPoint}
    (phase : (tunnel.relay party).phase = .copying bidi point)
    (side : Side) :
    ((tunnel.relay party).flow side).done = false ↔
      (bidi.half side).finished = none := by
  have exactly := (well.copies paired phase side).2
  rw [← Bool.not_eq_true, exactly, ← Option.not_isSome_iff_eq_none,
    Option.isSome_iff_exists]
  simp only [TransferState.finished_eq_some_iff]

theorem Well.within
    (paired : Paired config key) (well : tunnel.Well config) {party : Party}
    {bidi : BidiCopy B} {point : Option BidiPoint}
    (phase : (tunnel.relay party).phase = .copying bidi point)
    (side : Side) (copy : CopyBuffer B)
    (running : bidi.half side = .running copy) : copy.pos ≤ copy.cap := by
  rcases (well.copies paired phase side).1 with ⟨_, copied, _, books⟩
  rw [running] at books
  exact books.1.pos_le

/-- In the graceful build a relay that has not failed returns when both of
its directions are done. -/
theorem Well.done_of_returned
    (well : tunnel.Well config) {party : Party}
    (graceful : (config party).brutal = false)
    {result : Except (RelayError Error) (UInt64 × UInt64)}
    (phase : (tunnel.relay party).phase = .returned result) (side : Side) :
    ((tunnel.relay party).flow side).done = true := by
  have settled := well.sound.settled party
  have calm := well.calm party
  unfold RelayRun.Settled at settled
  rw [phase] at settled calm
  cases result with
  | error error => cases calm
  | ok amounts =>
      rcases settled.2 graceful with ⟨sent, received⟩
      rcases eq_plainSide_or_wireSide side (config party).mode with
        rfl | rfl
      · exact sent
      · exact received

omit [AsyncIOBuf B] [LawfulIOBuf B] in
/-- What is left to do for a relay in a direction. -/
def left (tunnel : Tunnel B Error) (party : Party) (side : Side) : ℕ :=
  2 * (tunnel.intoOf party side).pending.length +
    match (tunnel.relay party).phase with
    | .copying bidi _ => (bidi.half side).remaining
    | _ => 0

/-- A copying relay can come to a direction that is not done. -/
theorem exists_way_to_head
    (paired : Paired config key) (well : tunnel.Well config)
    {party : Party} {side : Side} {bidi : BidiCopy B}
    {point : Option BidiPoint} (graceful : (config party).brutal = false)
    (phase : (tunnel.relay party).phase = .copying bidi point)
    (isOpen : ((tunnel.relay party).flow side).done = false) :
    ∃ next at_, Way config tunnel next ∧
      (next.relay party).phase = .copying bidi (some at_) ∧
      at_.reader = side ∧ at_.point = .head ∧ next.line = tunnel.line := by
  have open_ := (well.finished_iff paired phase side).1 isOpen
  have within := well.within paired phase
  rcases RelayPhase.idles_to_head graceful open_ within with
    ⟨head, reads, atHead, chain⟩
  have whole : Relation.ReflTransGen (RelayPhase.Idles (config party))
      (.copying bidi point : RelayPhase B Error)
      (.copying bidi (some head)) := by
    cases point with
    | none => exact chain
    | some point =>
        have settled := well.sound.settled party
        unfold RelayRun.Settled at settled
        rw [phase] at settled
        exact (RelayPhase.idles_to_rest graceful settled.2 within).trans
          chain
  rcases exists_way_of_idles whole phase with ⟨next, way, there, same⟩
  exact ⟨next, head, way, there, reads, atHead, same⟩

/-- A direction whose reader has nothing to come but what is on the way can
be brought nearer to its end. -/
theorem exists_way_nearer
    (paired : Paired config key) (well : tunnel.Well config)
    {party : Party} {side : Side} {bidi : BidiCopy B}
    {point : Option BidiPoint} (graceful : (config party).brutal = false)
    (phase : (tunnel.relay party).phase = .copying bidi point)
    (isOpen : ((tunnel.relay party).flow side).done = false)
    (ended : (tunnel.intoOf party side).closed = true) :
    ∃ next, Way config tunnel next ∧
      (((next.relay party).flow side).done = true ∨
        next.left party side < tunnel.left party side) := by
  rcases exists_way_to_head paired well graceful phase isOpen with
    ⟨middle, head, way, there, reads, atHead, same⟩
  have wellMiddle := way.well paired well
  have open_ := (well.finished_iff paired phase side).1 isOpen
  have openMiddle :=
    (wellMiddle.finished_iff paired there side).2 open_
  have into : middle.intoOf party side = tunnel.intoOf party side := by
    rw [intoOf, intoOf, same]
  have writable := wellMiddle.out_open openMiddle (by rw [there]; rfl)
  rcases (well.copies paired phase side).1 with
    ⟨capacity, copied, nonempty, books⟩
  rcases TransferState.advances Error books nonempty open_
      (into.symm ▸ ended) writable with
    ⟨answer, half, status, into', out', fine, stepped, hopped, nearer⟩
  have ordinary : (.copy answer : RelayLabel Error).isError = false := fine
  subst reads
  rw [← atHead] at stepped hopped nearer
  have moves : (middle.relay party).phase.step (config party)
      (.copy answer : RelayLabel Error) =
        some (RelayPhase.ofStatus (bidi.setHalf head.reader half)
          ((bidi.setHalf head.reader half).afterHalf (config party).brutal
            head status)) := by
    rw [there]
    simp [RelayPhase.step, BidiCopy.step, stepped]
  have reader : (middle.relay party).phase.reader (config party) =
      head.reader := by
    rw [there]
    rfl
  have passing : (middle.relay party).phase.passed
      (.copy answer : RelayLabel Error) =
        (bidi.half head.reader).passed head.point answer := by
    rw [there]
    rfl
  rcases exists_way_of_hop ordinary moves reader passing hopped with
    ⟨next, onward, phaseNext, intoNext, flow⟩
  refine ⟨next, way.trans onward, ?_⟩
  rcases nearer with isDone | ⟨running, less⟩
  · left
    rw [flow, Passed.append, isDone, Bool.or_true]
  · right
    have after : next.left party head.reader =
        2 * into'.pending.length + half.remaining := by
      rw [left, intoNext, phaseNext, running]
      cases head <;> simp [BidiCopy.afterHalf, BidiCopy.afterFirst,
        BidiCopy.afterSecond, RelayPhase.ofStatus, BidiCopy.setHalf,
        BidiCopy.half, BidiPoint.reader]
    have before : tunnel.left party head.reader =
        2 * (middle.intoOf party head.reader).pending.length +
          (bidi.half head.reader).remaining := by
      rw [left, phase, into]
    rw [after, before]
    exact less

/-- A copying relay is not done with both directions. -/
theorem Well.exists_open
    (paired : Paired config key) (well : tunnel.Well config) {party : Party}
    {bidi : BidiCopy B} {point : Option BidiPoint}
    (graceful : (config party).brutal = false)
    (phase : (tunnel.relay party).phase = .copying bidi point) :
    ∃ side, ((tunnel.relay party).flow side).done = false := by
  have settled := well.sound.settled party
  unfold RelayRun.Settled at settled
  rw [phase] at settled
  rcases settled with ⟨agrees, polls⟩
  cases point with
  | some point =>
      exact ⟨point.reader,
        (well.finished_iff paired phase _).2 (polls point rfl)⟩
  | none =>
      rw [graceful] at agrees
      cases agrees with
      | returned finished =>
          cases first : bidi.aToB.finished with
          | none =>
              exact ⟨.a, (well.finished_iff paired phase .a).2 first⟩
          | some countA =>
              cases second : bidi.bToA.finished with
              | none =>
                  exact ⟨.b, (well.finished_iff paired phase .b).2 second⟩
              | some countB =>
                  rw [first, second] at finished
                  cases finished

/-- A direction can be finished once nothing more comes to its relay. -/
theorem exists_way_done
    (paired : Paired config key)
    (graceful : ∀ party, (config party).brutal = false)
    (well : tunnel.Well config) (party : Party) {side : Side}
    (begun : (tunnel.relay party).phase.begun = true)
    (sourceClosed : (tunnel.line side).source.closed = true)
    (encoded : party = decoder side →
      ((tunnel.relay (encoder side)).flow side).done = true) :
    ∃ next, Way config tunnel next ∧
      ((next.relay party).flow side).done = true := by
  apply Machine.exists_leads_of_measure
    (fun next => next.Well config ∧ Later tunnel next)
    (fun next => ((next.relay party).flow side).done = true)
    (fun next => next.left party side)
  · intro state next label before quiet stepped
    exact ⟨before.1.step paired quiet stepped,
      before.2.trans (later_of_step quiet stepped)⟩
  · rintro state ⟨wellState, later⟩ isOpen
    rw [Bool.not_eq_true] at isOpen
    have ended : (state.intoOf party side).closed = true := by
      rcases eq_encoder_or_decoder party side with rfl | rfl
      · rw [intoOf, decide_eq_true rfl]
        exact later.source_closed side sourceClosed
      · have closed := wellState.sound.closes (encoder side) side
          (later.done _ _ (encoded rfl))
        rw [outOf, decide_eq_true rfl] at closed
        rw [intoOf_decoder]
        exact closed
    rcases RelayPhase.begun_cases (later.begun party begun) with
      ⟨bidi, point, phase⟩ | ⟨result, phase⟩
    · exact exists_way_nearer paired wellState (graceful party) phase
        isOpen ended
    · have isDone :=
        wellState.done_of_returned (graceful party) phase side
      rw [isOpen] at isDone
      cases isDone
  · exact ⟨well, Later.refl tunnel⟩

/-- Both directions of both relays can be finished, one after the other. -/
theorem exists_way_all_done
    (paired : Paired config key)
    (graceful : ∀ party, (config party).brutal = false)
    (well : tunnel.Well config)
    (begun : ∀ party, (tunnel.relay party).phase.begun = true)
    (closed : ∀ side, (tunnel.line side).source.closed = true) :
    ∃ next, Way config tunnel next ∧
      ∀ party side, ((next.relay party).flow side).done = true := by
  have line {tunnel : Tunnel B Error} (well : tunnel.Well config)
      (begun : ∀ party, (tunnel.relay party).phase.begun = true) (side : Side)
      (closed : (tunnel.line side).source.closed = true) :
      ∃ next, Way config tunnel next ∧
        ∀ party, ((next.relay party).flow side).done = true := by
    rcases exists_way_done paired graceful well (encoder side)
        (begun (encoder side)) closed
        (fun same => absurd same (encoder_ne_decoder side)) with
      ⟨middle, way, encoded⟩
    rcases exists_way_done paired graceful (way.well paired well)
        (decoder side) (way.later.begun _ (begun (decoder side)))
        (way.later.source_closed side closed) (fun _ => encoded) with
      ⟨next, onward, decoded⟩
    refine ⟨next, way.trans onward, fun party => ?_⟩
    rcases eq_encoder_or_decoder party side with rfl | rfl
    · exact onward.later.done _ _ encoded
    · exact decoded
  rcases line well begun .a (closed .a) with ⟨middle, way, first⟩
  rcases line (way.well paired well)
      (fun party => way.later.begun party (begun party)) .b
      (way.later.source_closed .b (closed .b)) with ⟨next, onward, second⟩
  refine ⟨next, way.trans onward, fun party side => ?_⟩
  cases side with
  | a => exact onward.later.done _ _ (first party)
  | b => exact second party

omit [LawfulIOBuf B] in
variable (config) in
/-- The peers can close. -/
theorem exists_way_closed (tunnel : Tunnel B Error) :
    ∃ next, Way config tunnel next ∧
      ∀ side, (next.line side).source.closed = true := by
  have close (tunnel : Tunnel B Error) (side : Side) :
      ∃ next, Way config tunnel next ∧
        (next.line side).source.closed = true := by
    have stepped : ∃ next,
        (machine config).step tunnel (.close side) = some next ∧
          (next.line side).source.closed = true := by
      refine ⟨_, rfl, ?_⟩
      simp [Channel.close]
    rcases stepped with ⟨next, stepped, closed⟩
    exact ⟨next, Machine.leads_of_step rfl stepped, closed⟩
  rcases close tunnel .a with ⟨middle, way, first⟩
  rcases close middle .b with ⟨next, onward, second⟩
  refine ⟨next, way.trans onward, fun side => ?_⟩
  cases side with
  | a => exact onward.later.source_closed .a first
  | b => exact second

/-- From every state both relays can return with everything delivered. -/
theorem Well.exists_completion
    (paired : Paired config key)
    (graceful : ∀ party, (config party).brutal = false)
    (well : tunnel.Well config) :
    ∃ final, Way config tunnel final ∧
      (∀ party, ∃ amounts,
        (final.relay party).phase = .returned (.ok amounts)) ∧
      ∀ side, (final.line side).sink.sent =
        (tunnel.line side).source.sent := by
  rcases exists_way_closed config tunnel with ⟨shut, wayShut, closed⟩
  have wellShut := wayShut.well paired well
  rcases exists_way_begun paired wellShut with ⟨started, wayStarted, begun⟩
  have wellStarted := wayStarted.well paired wellShut
  rcases exists_way_all_done paired graceful wellStarted begun
      (fun side => wayStarted.later.source_closed side (closed side)) with
    ⟨final, wayFinal, isDone⟩
  have way := (wayShut.trans wayStarted).trans wayFinal
  have wellFinal := way.well paired well
  refine ⟨final, way, ?_, ?_⟩
  · intro party
    have calm := wellFinal.calm party
    rcases RelayPhase.begun_cases
        (wayFinal.later.begun party (begun party)) with
      ⟨bidi, point, phase⟩ | ⟨result, phase⟩
    · rcases wellFinal.exists_open paired (graceful party) phase with
        ⟨side, isOpen⟩
      rw [isDone party side] at isOpen
      cases isOpen
    · rw [phase] at calm
      cases result with
      | ok amounts => exact ⟨amounts, phase⟩
      | error error => cases calm
  · intro side
    have encodes := wellFinal.sound.encodes paired side
    have books :=
      RelayPhase.Books.returned (wellFinal.sound.inv.relay (decoder side))
    rw [paired.wireSide_decoder, paired.key] at books
    rw [((wellFinal.sound.inv.line side).delivers encodes books.2.1).2
      (isDone _ side) (isDone _ side), way.later.source_sent]

end Tunnel

/-- In the graceful build a tunnel never gets stuck: whatever has happened,
as long as no relay has failed the two can still return `Ok` with everything
that was sent delivered, on labels without errors and with no more bytes from
the peers. -/
theorem tunnel_completes
    {Error : Type} (key : ObfsKey) {bufSize : Party → ℕ}
    (nonempty : ∀ party, 0 < bufSize party)
    {labels : List (TunnelLabel Error)} {tunnel : Tunnel MemBuf Error}
    (ran : (Tunnel.machine
      (tunnelConfig key (fun _ => false) bufSize)).run
      (Tunnel.start (tunnelConfig key (fun _ => false) bufSize)) labels =
        some tunnel)
    (calm : ∀ party, (tunnel.relay party).phase.failed = false) :
    ∃ more final, (∀ label ∈ more, TunnelLabel.quiet label = true) ∧
      (Tunnel.machine (tunnelConfig key (fun _ => false) bufSize)).run
          tunnel more = some final ∧
      (∀ party, ∃ amounts,
        (final.relay party).phase = .returned (.ok amounts)) ∧
      ∀ side, (final.line side).sink.sent =
        (tunnel.line side).source.sent := by
  have paired := Tunnel.paired_tunnelConfig key (fun _ => false) nonempty
  have sound := Machine.run_invariant
    (fun tunnel : Tunnel MemBuf Error =>
      tunnel.Sound (tunnelConfig key (fun _ => false) bufSize))
    (fun before stepped => before.step paired stepped)
    (Tunnel.sound_start paired) ran
  rcases Tunnel.Well.exists_completion paired (fun _ => rfl)
      ⟨sound, calm⟩ with ⟨final, ⟨more, quiet, onward⟩, returned, delivered⟩
  exact ⟨more, final, quiet, onward, returned, delivered⟩

/-- Three bytes that have just been sent. -/
theorem tunnel_completes_three_bytes :
    ∃ final : Tunnel MemBuf Unit,
      (∀ party, ∃ amounts,
        (final.relay party).phase = .returned (.ok amounts)) ∧
      (final.line .a).sink.sent = [1, 2, 3] := by
  rcases tunnel_completes obfsKey (fun _ => Nat.succ_pos 3)
      (rfl : (Tunnel.machine
        (tunnelConfig obfsKey (fun _ => false) (fun _ => 4))).run
        (Tunnel.start (tunnelConfig obfsKey (fun _ => false) (fun _ => 4)))
        [(.send .a [1, 2, 3] : TunnelLabel Unit)] = some _)
      (fun party => by cases party <;> rfl) with
    ⟨more, final, _, _, returned, delivered⟩
  exact ⟨final, returned, delivered .a⟩

end ByteHub.Io
