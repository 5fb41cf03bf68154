import ByteHub.Io.TunnelControl

/-!
# The relays of a tunnel trust each other

The fourteen bytes a relay of a tunnel reads first are those its peer wrote,
so it never takes the peer for a probe.  As long as no stream answers with an
error, no relay meets the end of a stream before the header and its garbage
are through, and none fails.
-/

namespace ByteHub.Io

open ByteHub.Library

variable {B Error : Type}

/-! ## Suspicion -/

namespace RelayPhase

/-- The relay takes its peer for a probe, or has. -/
def suspects : RelayPhase B Error → Bool
  | .dropProbe => true
  | .returned (.error (.obfs .invalidData)) => true
  | .returned (.error (.obfs .panicked)) => true
  | _ => false

theorem startCopy_suspects (config : RelayConfig B) :
    (startCopy config : RelayPhase B Error).suspects = false :=
  rfl

theorem ofStatus_suspects (bidi : BidiCopy B) (status : BidiStatus Error) :
    (ofStatus bidi status).suspects = false := by
  rcases status with point | (_ | (error | amounts)) <;> rfl

theorem sendHeader_suspects
    (config : RelayConfig B) (nanos : ℕ) (firstChunk : List UInt8) :
    (sendHeader config nanos firstChunk : RelayPhase B Error).suspects =
      false := by
  rcases exists_header_of_generate config.key (SimpleRng.new nanos) with
    ⟨header, generated⟩
  rw [sendHeader, generated]
  rfl

theorem headerSent_suspects (config : RelayConfig B) :
    (headerSent config : RelayPhase B Error).suspects = false := by
  unfold headerSent
  split
  · rfl
  · exact startCopy_suspects config

theorem headerRead_suspects (config : RelayConfig B) :
    (headerRead config : RelayPhase B Error).suspects = false := by
  unfold headerRead
  split
  · exact startCopy_suspects config
  · rfl

theorem rejected_of_gotHeader
    {config : RelayConfig B} {got : List UInt8}
    (suspects :
      (gotHeader config got : RelayPhase B Error).suspects = true) :
    (14 ≤ got.length && !(checkHeader config.key got).isOk) = true := by
  unfold gotHeader at suspects
  split at suspects
  · cases suspects
  · next long =>
    rw [decide_eq_true (Nat.not_lt.1 long), Bool.true_and]
    cases checked : checkHeader config.key got with
    | error error => rfl
    | ok left =>
        rw [checked] at suspects
        cases left with
        | zero =>
            rw [headerRead_suspects] at suspects
            cases suspects
        | succ left => cases suspects

/-- Only fourteen bytes that do not pass make a relay suspect its peer. -/
theorem suspects_of_step
    [AsyncIOBuf B] {config : RelayConfig B} {phase next : RelayPhase B Error}
    {label : RelayLabel Error}
    (moves : phase.step config label = some next)
    (suspects : next.suspects = true) :
    phase.suspects = true ∨
      ∃ got bytes, phase = .readHeader got ∧ label = .read (.data bytes) ∧
        (14 ≤ (got ++ bytes).length &&
          !(checkHeader config.key (got ++ bytes)).isOk) = true := by
  have never {trusting : RelayPhase B Error}
      (trusts : trusting.suspects = false) : next ≠ trusting := by
    rintro rfl
    rw [trusts] at suspects
    cases suspects
  unfold step at moves
  split at moves
  · rcases afterFirst_cases moves with
      ⟨_, same⟩ | ⟨_, _, same⟩ | ⟨_, same⟩ | ⟨_, _, _, _, same⟩
    · exact absurd same (never rfl)
    · exact absurd same (never (sendHeader_suspects _ _ _))
    · exact absurd same (never (sendHeader_suspects _ _ _))
    · exact absurd same (never (sendHeader_suspects _ _ _))
  · exact absurd (Option.some.inj moves).symm
      (never (sendHeader_suspects _ _ _))
  · rcases afterWrite_cases moves with
      ⟨_, same⟩ | ⟨_, _, same⟩ | ⟨_, same⟩ | ⟨_, _, same⟩ |
        ⟨_, _, _, _, same⟩
    · exact absurd same (never rfl)
    · exact absurd same (never rfl)
    · exact absurd same (never rfl)
    · exact absurd same (never (headerSent_suspects _))
    · exact absurd same (never rfl)
  · next got answer =>
    rcases afterHeader_cases moves with
      ⟨_, same⟩ | ⟨_, _, same⟩ | ⟨_, same⟩ | ⟨bytes, read, _, _, same⟩
    · exact absurd same (never rfl)
    · exact absurd same (never rfl)
    · exact absurd same (never rfl)
    · rw [same] at suspects
      rw [read]
      exact .inr ⟨got, bytes, rfl, rfl, rejected_of_gotHeader suspects⟩
  · rcases afterGarbage_cases moves with
      ⟨_, same⟩ | ⟨_, _, same⟩ | ⟨_, same⟩ | ⟨_, _, _, same⟩ |
        ⟨_, _, _, same⟩
    · exact absurd same (never rfl)
    · exact absurd same (never rfl)
    · exact absurd same (never rfl)
    · exact absurd same (never (headerRead_suspects _))
    · exact absurd same (never rfl)
  · exact .inl rfl
  · exact absurd (Option.some.inj moves).symm
      (never (ofStatus_suspects _ _))
  · rcases Option.map_eq_some_iff.1 moves with ⟨result, _, same⟩
    exact absurd same.symm (never (ofStatus_suspects _ _))
  · cases moves

end RelayPhase

/-- No stream answers with an error. -/
def TunnelLabel.ordinary : TunnelLabel Error → Bool
  | .relay _ label => !label.isError
  | _ => true

namespace Tunnel

variable [AsyncIOBuf B] [LawfulIOBuf B]
variable {config : Party → RelayConfig B} {key : ObfsKey}
variable {tunnel next : Tunnel B Error}

/-! ## The header that is read -/

omit [AsyncIOBuf B] [LawfulIOBuf B] in
/-- The first fourteen bytes behind a header are its own. -/
theorem wireHeader_of_prefix
    {header : Header key} {bytes rest : List UInt8}
    (long : bytes.length = 14) (isPrefix : bytes <+: header.wire ++ rest) :
    bytes = header.wireHeader := by
  have own : header.wireHeader <+: header.wire ++ rest := by
    rw [Header.wire, List.append_assoc]
    exact List.prefix_append _ _
  have within : bytes <+: header.wireHeader := by
    apply List.prefix_of_prefix_length_le isPrefix own
    rw [long, header.wireHeader_length]
  exact within.eq_of_length (long.trans header.wireHeader_length.symm)

theorem Paired.wireSide_decoder
    (paired : Paired config key) (side : Side) :
    wireSide (config (decoder side)).mode = side := by
  cases side with
  | a => rw [decoder, paired.server]; rfl
  | b => rw [decoder, paired.client]; rfl

theorem Paired.plainSide_encoder
    (paired : Paired config key) (side : Side) :
    plainSide (config (encoder side)).mode = side := by
  cases side with
  | a => rw [encoder, paired.client]; rfl
  | b => rw [encoder, paired.server]; rfl

theorem exists_decoder (party : Party) : ∃ side, party = decoder side := by
  cases party
  · exact ⟨.b, rfl⟩
  · exact ⟨.a, rfl⟩

/-- What a link has carried is what its encoder wrote. -/
theorem Sound.encodes
    (paired : Paired config key) (sound : tunnel.Sound config)
    (side : Side) :
    Encodes key ((tunnel.relay (encoder side)).flow side) := by
  have books :=
    RelayPhase.Books.returned (sound.inv.relay (encoder side))
  rw [paired.plainSide_encoder, paired.key] at books
  exact books.1

/-- A relay that reads a header has read what came over the link. -/
theorem Sound.received_of_readHeader
    (paired : Paired config key) (sound : tunnel.Sound config)
    {side : Side} {got : List UInt8}
    (waits : (tunnel.relay (decoder side)).phase = .readHeader got) :
    (tunnel.line side).link.received = got ∧ got.length < 14 := by
  have books := sound.inv.relay (decoder side)
  unfold RelayRun.Inv at books
  rw [waits, paired.wireSide_decoder] at books
  rcases books with ⟨_, ⟨taken, _, _⟩, short⟩
  exact ⟨(sound.inv.line side).link_received.trans taken, short⟩

/-- A relay that reads garbage has read a header that passed. -/
theorem Sound.received_of_readGarbage
    (paired : Paired config key) (sound : tunnel.Sound config)
    {side : Side} {left : ℕ}
    (waits : (tunnel.relay (decoder side)).phase = .readGarbage left) :
    0 < left ∧ ∃ wire garbage,
      (tunnel.line side).link.received = wire ++ garbage ∧
        wire.length = 14 ∧
        checkHeader key wire = .ok (garbage.length + left) := by
  have books := sound.inv.relay (decoder side)
  have settled := sound.settled (decoder side)
  unfold RelayRun.Inv at books
  unfold RelayRun.Settled at settled
  rw [waits, paired.wireSide_decoder] at books
  rw [waits] at settled
  rcases books with ⟨_, _, _, wire, garbage, taken, long, checked⟩
  rw [paired.key] at checked
  exact ⟨settled, wire, garbage,
    (sound.inv.line side).link_received.trans taken, long, checked⟩

/-- The header of the peer passes. -/
theorem Sound.accepts
    (paired : Paired config key) (sound : tunnel.Sound config)
    {side : Side} {got bytes : List UInt8} {link : Channel UInt8}
    (waits : (tunnel.relay (decoder side)).phase = .readHeader got)
    (pulled : (tunnel.line side).link.pull bytes = some link)
    (long : (got ++ bytes).length = 14) :
    (checkHeader key (got ++ bytes)).isOk = true := by
  rcases sound.encodes paired side with ⟨header, given, _⟩
  have own : got ++ bytes = header.wireHeader := by
    apply wireHeader_of_prefix long
    refine List.IsPrefix.trans ?_ given
    rw [← (sound.inv.line side).link_sent, ← Channel.sent_pull pulled,
      ← (sound.received_of_readHeader paired waits).1,
      ← Channel.received_pull pulled]
    exact link.received_prefix_sent
  rw [own, header.checkHeader_wireHeader]
  rfl

/-- Bytes of a header that a relay has read never make it reject. -/
theorem Sound.checks
    (paired : Paired config key) (sound : tunnel.Sound config)
    {side : Side} {got bytes : List UInt8}
    {phase : RelayPhase B Error} {line : Line}
    (waits : (tunnel.relay (decoder side)).phase = .readHeader got)
    (moves : RelayPhase.afterHeader (config (decoder side)) got
      (.data bytes : ReadAnswer Error) = some phase)
    (passes :
      (tunnel.line side).pass false (Passed.take bytes) = some line) :
    (14 ≤ (got ++ bytes).length &&
      !(checkHeader key (got ++ bytes)).isOk) = false := by
  have pulled : (tunnel.line side).link.pull bytes = some (line.into false) :=
    (hop_eq_some (Line.hop_of_pass passes).1).2.1
  by_cases long : 14 ≤ (got ++ bytes).length
  · have fourteen : (got ++ bytes).length = 14 := by
      rcases RelayPhase.afterHeader_cases moves with
        ⟨none, _⟩ | ⟨_, none, _⟩ | ⟨none, _⟩ | ⟨_, same, _, fits, _⟩
      · cases none
      · cases none
      · cases none
      · cases same
        rw [List.length_append] at long ⊢
        omega
    rw [sound.accepts paired waits pulled fourteen, Bool.not_true,
      Bool.and_false]
  · rw [decide_eq_false long, Bool.false_and]

/-- At the end of a link whose encoder has not failed a whole header has come
over it. -/
theorem Sound.headerSent_of_atEnd
    (paired : Paired config key) (sound : tunnel.Sound config)
    {side : Side} (atEnd : (tunnel.line side).link.AtEnd)
    (calm : (tunnel.relay (encoder side)).phase.failed = false) :
    ∃ header : Header key,
      header.wire <+: (tunnel.line side).link.received := by
  have closed : (tunnel.outOf (encoder side) side).closed = true := by
    rw [outOf, decide_eq_true rfl]
    exact atEnd.1
  rw [atEnd.received_eq, (sound.inv.line side).link_sent]
  rcases sound.closed _ _ closed with isDone | returned
  · exact (sound.encodes paired side).headerSent isDone
  · have settled := sound.settled (encoder side)
    unfold RelayRun.Settled at settled
    rw [paired.plainSide_encoder] at settled
    rcases RelayPhase.exists_result returned with ⟨result, phase⟩
    rw [phase] at settled calm
    cases result with
    | ok amounts =>
        have sent := settled.1
        rwa [paired.key] at sent
    | error error => cases calm

/-- The link does not end within a header. -/
theorem Sound.not_atEnd_of_readHeader
    (paired : Paired config key) (sound : tunnel.Sound config)
    {side : Side} {got : List UInt8}
    (waits : (tunnel.relay (decoder side)).phase = .readHeader got)
    (calm : (tunnel.relay (encoder side)).phase.failed = false) :
    ¬ (tunnel.line side).link.AtEnd := by
  intro atEnd
  rcases sound.headerSent_of_atEnd paired atEnd calm with
    ⟨header, received⟩
  rcases sound.received_of_readHeader paired waits with ⟨taken, short⟩
  have long := received.length_le
  rw [taken, Header.wire, List.length_append,
    header.wireHeader_length] at long
  omega

/-- Nor within its garbage. -/
theorem Sound.not_atEnd_of_readGarbage
    (paired : Paired config key) (sound : tunnel.Sound config)
    {side : Side} {left : ℕ}
    (waits : (tunnel.relay (decoder side)).phase = .readGarbage left)
    (calm : (tunnel.relay (encoder side)).phase.failed = false) :
    ¬ (tunnel.line side).link.AtEnd := by
  intro atEnd
  rcases sound.headerSent_of_atEnd paired atEnd calm with
    ⟨header, received⟩
  rcases sound.received_of_readGarbage paired waits with
    ⟨some, wire, garbage, taken, fourteen, checked⟩
  have own : wire = header.wireHeader := by
    have front : wire <+: (tunnel.line side).link.received := by
      rw [taken]
      exact List.prefix_append _ _
    rcases received with ⟨rest, equal⟩
    rw [← equal] at front
    exact wireHeader_of_prefix fourteen front
  rw [own, header.checkHeader_wireHeader] at checked
  have amount := Except.ok.inj checked
  have long := received.length_le
  rw [taken, Header.wire, List.length_append, List.length_append,
    header.wireHeader_length, fourteen] at long
  omega

/-- As long as its peer has not failed, a relay rejects nothing. -/
theorem Sound.rejects_eq_false
    (paired : Paired config key) (sound : tunnel.Sound config)
    {party : Party} {label : RelayLabel Error}
    {phase : RelayPhase B Error} {line : Line}
    (moves : (tunnel.relay party).phase.step (config party) label =
      some phase)
    (passes :
      (tunnel.line ((tunnel.relay party).phase.reader (config party))).pass
          (encoder ((tunnel.relay party).phase.reader (config party)) =
            party)
          ((tunnel.relay party).phase.passed label) = some line)
    (calm : ∀ other, (tunnel.relay other).phase.failed = false) :
    (tunnel.relay party).phase.rejects (config party) label = false := by
  rcases exists_decoder party with ⟨side, rfl⟩
  have differ : decide (encoder side = decoder side) = false :=
    decide_eq_false (encoder_ne_decoder side)
  unfold RelayPhase.rejects
  split
  · next got waits =>
    rw [waits] at passes
    simp only [RelayPhase.reader, RelayPhase.passed,
      paired.wireSide_decoder, differ] at passes
    exact absurd ((hop_eq_some (Line.hop_of_pass passes).1).1 rfl)
      (sound.not_atEnd_of_readHeader paired waits (calm _))
  · next left waits =>
    rw [waits] at passes
    simp only [RelayPhase.reader, RelayPhase.passed,
      paired.wireSide_decoder, differ] at passes
    exact absurd ((hop_eq_some (Line.hop_of_pass passes).1).1 rfl)
      (sound.not_atEnd_of_readGarbage paired waits (calm _))
  · next got bytes waits =>
    rw [waits] at moves passes
    simp only [RelayPhase.reader, RelayPhase.passed,
      paired.wireSide_decoder, differ] at passes
    rw [paired.key, sound.checks paired waits moves passes]
  · rfl

/-- As long as nothing answers with an error no relay fails. -/
theorem Sound.calm_step
    (paired : Paired config key) {label : TunnelLabel Error}
    (sound : tunnel.Sound config)
    (calm : ∀ party, (tunnel.relay party).phase.failed = false)
    (ordinary : label.ordinary = true)
    (stepped : (machine config).step tunnel label = some next)
    (party : Party) : (next.relay party).phase.failed = false := by
  cases label with
  | relay mover label =>
      rcases relayStep_eq_some_iff.1 stepped with
        ⟨phase, line, moves, passes, rfl⟩
      have fine : label.isError = false := by
        simpa [TunnelLabel.ordinary] using ordinary
      by_cases mine : party = mover
      · subst mine
        rw [moved_phase_self, RelayPhase.step_failed moves, calm party,
          sound.rejects_eq_false paired moves passes calm, fine]
        simp
      · rw [moved_relay_other mine]
        exact calm party
  | send side bytes =>
      rcases Option.map_eq_some_iff.1 stepped with ⟨source, _, rfl⟩
      exact calm party
  | close side =>
      cases stepped
      exact calm party
  | leave leaver =>
      simp only [machine] at stepped
      split at stepped
      · cases stepped
        exact calm party
      · cases stepped

/-- Whatever answers, no relay takes its peer for a probe. -/
theorem Sound.trusts_step
    (paired : Paired config key) {label : TunnelLabel Error}
    (sound : tunnel.Sound config)
    (trusts : ∀ party, (tunnel.relay party).phase.suspects = false)
    (stepped : (machine config).step tunnel label = some next)
    (party : Party) : (next.relay party).phase.suspects = false := by
  cases label with
  | relay mover label =>
      rcases relayStep_eq_some_iff.1 stepped with
        ⟨phase, line, moves, passes, rfl⟩
      by_cases mine : party = mover
      · subst mine
        rw [moved_phase_self]
        by_contra suspects
        rcases RelayPhase.suspects_of_step moves
            (Bool.eq_true_of_not_eq_false suspects) with
          before | ⟨got, bytes, waits, rfl, rejected⟩
        · rw [trusts party] at before
          cases before
        · rcases exists_decoder party with ⟨side, rfl⟩
          rw [waits] at moves passes
          simp only [RelayPhase.reader, RelayPhase.passed,
            paired.wireSide_decoder,
            decide_eq_false (encoder_ne_decoder side)] at passes
          rw [paired.key, sound.checks paired waits moves passes] at rejected
          cases rejected
      · rw [moved_relay_other mine]
        exact trusts party
  | send side bytes =>
      rcases Option.map_eq_some_iff.1 stepped with ⟨source, _, rfl⟩
      exact trusts party
  | close side =>
      cases stepped
      exact trusts party
  | leave leaver =>
      simp only [machine] at stepped
      split at stepped
      · cases stepped
        exact trusts party
      · cases stepped

theorem paired_tunnelConfig
    (key : ObfsKey) (brutal : Party → Bool) {bufSize : Party → ℕ}
    (nonempty : ∀ party, 0 < bufSize party) :
    Paired (tunnelConfig key brutal bufSize) key where
  obfuscating party := by
    refine obfuscating_memory ?_ _ _ (nonempty party)
    cases party
    · exact .inl rfl
    · exact .inr rfl
  key _ := rfl
  client := rfl
  server := rfl

end Tunnel

/-- In no run does a relay of a tunnel take the other one for a probe, and in
a run without errors neither fails. -/
theorem tunnel_trusts
    {Error : Type} (key : ObfsKey) (brutal : Party → Bool)
    {bufSize : Party → ℕ} (nonempty : ∀ party, 0 < bufSize party)
    {labels : List (TunnelLabel Error)} {final : Tunnel MemBuf Error}
    (ran : (Tunnel.machine (tunnelConfig key brutal bufSize)).run
      (Tunnel.start (tunnelConfig key brutal bufSize)) labels =
        some final) (party : Party) :
    (final.relay party).phase.suspects = false ∧
      ((∀ label ∈ labels, label.ordinary = true) →
        (final.relay party).phase.failed = false) := by
  have paired := Tunnel.paired_tunnelConfig key brutal nonempty
  have fresh (party : Party) :
      ((Tunnel.start (tunnelConfig key brutal bufSize) :
        Tunnel MemBuf Error).relay party).phase.failed = false ∧
      ((Tunnel.start (tunnelConfig key brutal bufSize) :
        Tunnel MemBuf Error).relay party).phase.suspects = false := by
    cases party <;> exact ⟨rfl, rfl⟩
  constructor
  · have kept := Machine.run_invariant
      (fun tunnel : Tunnel MemBuf Error =>
        tunnel.Sound (tunnelConfig key brutal bufSize) ∧
          ∀ party, (tunnel.relay party).phase.suspects = false)
      (fun before stepped =>
        ⟨before.1.step paired stepped,
          before.1.trusts_step paired before.2 stepped⟩)
      ⟨Tunnel.sound_start paired, fun party => (fresh party).2⟩ ran
    exact kept.2 party
  · intro ordinary
    have leads : (Tunnel.machine (tunnelConfig key brutal bufSize)).Leads
        (fun label => label.ordinary = true)
        (Tunnel.start (tunnelConfig key brutal bufSize)) final :=
      ⟨labels, ordinary, ran⟩
    have kept := leads.invariant
      (fun tunnel : Tunnel MemBuf Error =>
        tunnel.Sound (tunnelConfig key brutal bufSize) ∧
          ∀ party, (tunnel.relay party).phase.failed = false)
      (fun before fits stepped =>
        ⟨before.1.step paired stepped,
          before.1.calm_step paired before.2 fits stepped⟩)
      ⟨Tunnel.sound_start paired, fun party => (fresh party).1⟩
    exact kept.2 party

/-- The run of the three bytes has no errors. -/
theorem tunnel_trusts_three_bytes :
    ∃ final : Tunnel MemBuf Unit,
      (Tunnel.machine
        (tunnelConfig obfsKey (fun _ => false) (fun _ => 4))).run
          (Tunnel.start
            (tunnelConfig obfsKey (fun _ => false) (fun _ => 4)))
          threeBytes = some final ∧
        ∀ party, (final.relay party).phase.failed = false := by
  rcases (Option.any_eq_true _ _).1 threeBytes_done with ⟨final, ran, _⟩
  refine ⟨final, ran, fun party => ?_⟩
  exact (tunnel_trusts obfsKey (fun _ => false)
    (fun _ => Nat.succ_pos 3) ran party).2 (by decide)

end ByteHub.Io
