import ByteHub.Io.Tunnel

/-!
# The tunnel delivers

What reaches the sink of a direction is a prefix of what its source sent, and
all of it once both relays are done with the direction.
-/

namespace ByteHub.Io

open ByteHub.Library

/-! ## One line -/

/-- A line agrees with what has passed through its encoder and its decoder. -/
structure Linked (line : Line) (encoded decoded : Passed) : Prop where
  source_received : line.source.received = encoded.taken
  link_sent : line.link.sent = encoded.given
  link_received : line.link.received = decoded.taken
  sink_sent : line.sink.sent = decoded.given
  source_ended : encoded.ended = true → line.source.AtEnd
  link_ended : decoded.ended = true → line.link.AtEnd

theorem linked_empty :
    Linked Line.empty Passed.nothing Passed.nothing where
  source_received := rfl
  link_sent := rfl
  link_received := rfl
  sink_sent := rfl
  source_ended ended := by cases ended
  link_ended ended := by cases ended

/-- What a hop does to its two channels. -/
theorem hop_eq_some
    {passed : Passed} {into out into' out' : Channel UInt8}
    (hopped : Line.hop passed into out = some (into', out')) :
    (passed.ended = true → into.AtEnd) ∧
      into.pull passed.taken = some into' ∧
      ∃ pushed, out.push passed.given = some pushed ∧
        out' = if passed.done then pushed.close else pushed := by
  unfold Line.hop at hopped
  split at hopped
  · cases hopped
  · next allowed =>
    rw [not_and, not_not] at allowed
    rcases Option.bind_eq_some_iff.1 hopped with ⟨pulled, first, rest⟩
    rcases Option.map_eq_some_iff.1 rest with ⟨pushed, second, equal⟩
    cases equal
    exact ⟨allowed, first, pushed, second, rfl⟩

section Hop

variable {passed : Passed} {into out into' out' : Channel UInt8}

theorem hop_received
    (hopped : Line.hop passed into out = some (into', out')) :
    into'.received = into.received ++ passed.taken :=
  Channel.received_pull (hop_eq_some hopped).2.1

theorem hop_into_sent
    (hopped : Line.hop passed into out = some (into', out')) :
    into'.sent = into.sent :=
  Channel.sent_pull (hop_eq_some hopped).2.1

theorem hop_out_sent
    (hopped : Line.hop passed into out = some (into', out')) :
    out'.sent = out.sent ++ passed.given := by
  rcases (hop_eq_some hopped).2.2 with ⟨pushed, second, rfl⟩
  rw [← Channel.sent_push second]
  split <;> rfl

theorem hop_out_received
    (hopped : Line.hop passed into out = some (into', out')) :
    out'.received = out.received := by
  rcases (hop_eq_some hopped).2.2 with ⟨pushed, second, rfl⟩
  rw [← Channel.received_push second]
  split <;> rfl

theorem hop_into_atEnd
    (hopped : Line.hop passed into out = some (into', out'))
    (atEnd : into.AtEnd) : into'.AtEnd :=
  atEnd.pull (hop_eq_some hopped).2.1

theorem hop_out_atEnd
    (hopped : Line.hop passed into out = some (into', out'))
    (atEnd : out.AtEnd) : out'.AtEnd := by
  rcases (hop_eq_some hopped).2.2 with ⟨pushed, second, rfl⟩
  split
  · exact (atEnd.push second).close
  · exact atEnd.push second

/-- A reader reports its end at the end only. -/
theorem hop_ended
    {all : Passed}
    (hopped : Line.hop passed into out = some (into', out'))
    (before : all.ended = true → into.AtEnd)
    (ended : (all.append passed).ended = true) : into'.AtEnd := by
  apply hop_into_atEnd hopped
  rcases Bool.or_eq_true_iff.1 ended with earlier | now
  · exact before earlier
  · exact (hop_eq_some hopped).1 now

end Hop

namespace Linked

variable {line line' : Line} {encoded decoded passed : Passed}

theorem pass_encoder
    (linked : Linked line encoded decoded)
    (step : line.pass true passed = some line') :
    Linked line' (encoded.append passed) decoded := by
  rcases Option.map_eq_some_iff.1 step with ⟨⟨source, link⟩, hopped, rfl⟩
  exact {
    source_received := by
      rw [hop_received hopped, linked.source_received, Passed.append]
    link_sent := by
      rw [hop_out_sent hopped, linked.link_sent, Passed.append]
    link_received := by
      rw [hop_out_received hopped, linked.link_received]
    sink_sent := linked.sink_sent
    source_ended := hop_ended hopped linked.source_ended
    link_ended := fun ended =>
      hop_out_atEnd hopped (linked.link_ended ended) }

theorem pass_decoder
    (linked : Linked line encoded decoded)
    (step : line.pass false passed = some line') :
    Linked line' encoded (decoded.append passed) := by
  rcases Option.map_eq_some_iff.1 step with ⟨⟨link, sink⟩, hopped, rfl⟩
  exact {
    source_received := linked.source_received
    link_sent := by
      rw [hop_into_sent hopped, linked.link_sent]
    link_received := by
      rw [hop_received hopped, linked.link_received, Passed.append]
    sink_sent := by
      rw [hop_out_sent hopped, linked.sink_sent, Passed.append]
    source_ended := linked.source_ended
    link_ended := hop_ended hopped linked.link_ended }

theorem send
    {bytes : List UInt8} {source : Channel UInt8}
    (linked : Linked line encoded decoded)
    (pushed : line.source.push bytes = some source) :
    Linked { line with source := source } encoded decoded where
  source_received := by
    rw [Channel.received_push pushed, linked.source_received]
  link_sent := linked.link_sent
  link_received := linked.link_received
  sink_sent := linked.sink_sent
  source_ended ended := (linked.source_ended ended).push pushed
  link_ended := linked.link_ended

theorem close
    (linked : Linked line encoded decoded) :
    Linked { line with source := line.source.close } encoded decoded where
  source_received := linked.source_received
  link_sent := linked.link_sent
  link_received := linked.link_received
  sink_sent := linked.sink_sent
  source_ended ended := (linked.source_ended ended).close
  link_ended := linked.link_ended

theorem leave
    (linked : Linked line encoded decoded) (encodes : Bool) :
    Linked (line.leave encodes) encoded decoded := by
  unfold Line.leave
  split
  · exact {
      source_received := linked.source_received
      link_sent := linked.link_sent
      link_received := linked.link_received
      sink_sent := linked.sink_sent
      source_ended := linked.source_ended
      link_ended := fun ended => (linked.link_ended ended).close }
  · exact {
      source_received := linked.source_received
      link_sent := linked.link_sent
      link_received := linked.link_received
      sink_sent := linked.sink_sent
      source_ended := linked.source_ended
      link_ended := linked.link_ended }

/-- An encoder and a decoder under one key cancel out. -/
theorem delivers
    {key : ObfsKey} (linked : Linked line encoded decoded)
    (encodes : Encodes key encoded) (decodes : Decodes key decoded) :
    line.sink.sent <+: line.source.sent ∧
      (encoded.done = true → decoded.done = true →
        line.sink.sent = line.source.sent) := by
  rcases encodes with ⟨header, sentPrefix, sentAll⟩
  rcases decodes with ⟨given, open_⟩ | ⟨header', body, taken, given, all⟩
  · constructor
    · rw [linked.sink_sent, given]
      exact List.nil_prefix
    · intro _ isDone
      rw [open_] at isDone
      cases isDone
  · have received :
        header'.wire ++ body <+: encoded.given := by
      rw [← taken, ← linked.link_received, ← linked.link_sent]
      exact line.link.received_prefix_sent
    have bodyPrefix :
        body <+: scramble encoded.taken :=
      (Header.prefix_of_wire_append_prefix
        (received.trans sentPrefix)).2
    have plain :
        scramble body <+: encoded.taken := by
      simpa using scramble_prefix bodyPrefix
    constructor
    · rw [linked.sink_sent]
      refine (given.trans plain).trans ?_
      rw [← linked.source_received]
      exact line.source.received_prefix_sent
    · intro encoderDone decoderDone
      rcases sentAll encoderDone with ⟨sent, sourceEnded⟩
      rcases all decoderDone with ⟨moved, linkEnded⟩
      have whole :
          header.wire ++ scramble encoded.taken = header'.wire ++ body := by
        rw [← sent, ← taken, ← linked.link_received, ← linked.link_sent]
        exact (linked.link_ended linkEnded).received_eq.symm
      have back :
          scramble encoded.taken <+: body :=
        (Header.prefix_of_wire_append_prefix
          ⟨[], (List.append_nil _).trans whole⟩).2
      have equal :
          body = scramble encoded.taken :=
        bodyPrefix.eq_of_length_le back.length_le
      rw [linked.sink_sent, moved, equal, scramble_scramble,
        ← linked.source_received]
      exact (linked.source_ended sourceEnded).received_eq

end Linked

/-! ## The two lines -/

namespace Tunnel

variable {B Error : Type} [AsyncIOBuf B] [LawfulIOBuf B]
variable {config : Party → RelayConfig B}

/-- The invariant of the tunnel: that of each relay, and its lines agree with
what has passed through the relays. -/
structure Inv
    (config : Party → RelayConfig B) (tunnel : Tunnel B Error) : Prop where
  relay : ∀ party, (tunnel.relay party).Inv (config party)
  line : ∀ side, Linked (tunnel.line side)
    ((tunnel.relay (encoder side)).flow side)
    ((tunnel.relay (decoder side)).flow side)

theorem inv_start
    (obfuscating : ∀ party, Obfuscating (config party)) :
    (start config : Tunnel B Error).Inv config where
  relay party := RelayRun.inv_start (obfuscating party)
  line _ := linked_empty

/-- A change of one line alone. -/
theorem Inv.update_line
    {tunnel : Tunnel B Error} (inv : tunnel.Inv config) {side : Side}
    {line : Line}
    (linked : Linked line ((tunnel.relay (encoder side)).flow side)
      ((tunnel.relay (decoder side)).flow side)) :
    Inv config
      { tunnel with line := Function.update tunnel.line side line } where
  relay := inv.relay
  line other := by
    dsimp only
    by_cases same : other = side
    · rw [same, Function.update_self]
      exact linked
    · rw [Function.update_of_ne same]
      exact inv.line other

theorem encoder_ne_decoder (side : Side) : encoder side ≠ decoder side := by
  cases side <;> decide

theorem eq_encoder_or_decoder (party : Party) (side : Side) :
    party = encoder side ∨ party = decoder side := by
  cases party <;> cases side <;> decide

theorem inv_relayStep
    (obfuscating : ∀ party, Obfuscating (config party))
    {tunnel next : Tunnel B Error} {party : Party}
    {label : RelayLabel Error} (inv : tunnel.Inv config)
    (stepped : tunnel.relayStep config party label = some next) :
    next.Inv config := by
  rcases Option.bind_eq_some_iff.1 stepped with ⟨run, ran, rest⟩
  rcases Option.map_eq_some_iff.1 rest with ⟨line, moved, rfl⟩
  rcases Option.map_eq_some_iff.1 ran with ⟨phase, _, equal⟩
  have flowAt (other : Party) (side : Side) :
      (Function.update tunnel.relay party run other).flow side =
        if other = party ∧
            side = (tunnel.relay party).phase.reader (config party) then
          ((tunnel.relay other).flow side).append
            ((tunnel.relay party).phase.passed label)
        else (tunnel.relay other).flow side := by
    by_cases mine : other = party
    · subst mine
      rw [Function.update_self, ← equal]
      dsimp only
      by_cases reads :
          side = (tunnel.relay other).phase.reader (config other)
      · rw [if_pos ⟨rfl, reads⟩, reads, Function.update_self]
      · rw [if_neg (fun both => reads both.2), Function.update_of_ne reads]
    · rw [if_neg (fun both => mine both.1), Function.update_of_ne mine]
  constructor
  · intro other
    dsimp only
    by_cases same : other = party
    · subst same
      rw [Function.update_self]
      exact RelayRun.inv_step (obfuscating other) (inv.relay other) ran
    · rw [Function.update_of_ne same]
      exact inv.relay other
  · intro side
    have linked := inv.line side
    dsimp only
    rw [flowAt, flowAt]
    by_cases reads : side = (tunnel.relay party).phase.reader (config party)
    · rw [← reads] at moved ⊢
      rw [Function.update_self]
      rcases eq_encoder_or_decoder party side with encodes | decodes
      · rw [if_pos ⟨encodes.symm, rfl⟩, if_neg (fun both =>
          encoder_ne_decoder side (encodes.symm.trans both.1.symm))]
        rw [decide_eq_true encodes.symm] at moved
        exact linked.pass_encoder moved
      · rw [if_neg (fun both =>
          encoder_ne_decoder side (both.1.trans decodes)),
          if_pos ⟨decodes.symm, rfl⟩]
        rw [decide_eq_false (fun encodes =>
          encoder_ne_decoder side (encodes.trans decodes))] at moved
        exact linked.pass_decoder moved
    · rw [if_neg (fun both => reads both.2),
        if_neg (fun both => reads both.2), Function.update_of_ne reads]
      exact linked

/-- The invariant holds after every step. -/
theorem inv_step
    (obfuscating : ∀ party, Obfuscating (config party))
    {tunnel next : Tunnel B Error} {label : TunnelLabel Error}
    (inv : tunnel.Inv config)
    (stepped : (machine config).step tunnel label = some next) :
    next.Inv config := by
  cases label with
  | send side bytes =>
      rcases Option.map_eq_some_iff.1 stepped with ⟨source, pushed, rfl⟩
      exact inv.update_line ((inv.line side).send pushed)
  | close side =>
      cases stepped
      exact inv.update_line (inv.line side).close
  | relay party label => exact inv_relayStep obfuscating inv stepped
  | leave party =>
      simp only [machine] at stepped
      split at stepped
      · cases stepped
        exact {
          relay := inv.relay
          line := fun side => (inv.line side).leave _ }
      · cases stepped

end Tunnel

/-- The relays of a tunnel: the client in mode 1, the server in mode 2. -/
def tunnelConfig
    (key : ObfsKey) (brutal : Party → Bool) (bufSize : Party → ℕ)
    (party : Party) : RelayConfig MemBuf :=
  RelayConfig.memory (if party = .client then 1 else 2) (brutal party) key
    (bufSize party)

/-- Through the tunnel a sink gets a prefix of what its source sent, and all
of it once both relays are done with the direction. -/
theorem tunnel_delivers
    {Error : Type} (key : ObfsKey) (brutal : Party → Bool)
    {bufSize : Party → ℕ} (nonempty : ∀ party, 0 < bufSize party)
    {labels : List (TunnelLabel Error)} {final : Tunnel MemBuf Error}
    (ran : (Tunnel.machine (tunnelConfig key brutal bufSize)).run
      (Tunnel.start (tunnelConfig key brutal bufSize)) labels =
        some final) (side : Side) :
    (final.line side).sink.sent <+: (final.line side).source.sent ∧
      ((∀ party, ((final.relay party).flow side).done = true) →
        (final.line side).sink.sent = (final.line side).source.sent) := by
  have obfuscating (party : Party) :
      Obfuscating (tunnelConfig key brutal bufSize party) := by
    refine obfuscating_memory ?_ _ _ (nonempty party)
    cases party
    · exact .inl rfl
    · exact .inr rfl
  have inv : final.Inv (tunnelConfig key brutal bufSize) :=
    Machine.run_invariant
      (fun tunnel => Tunnel.Inv (tunnelConfig key brutal bufSize) tunnel)
      (Tunnel.inv_step obfuscating) (Tunnel.inv_start obfuscating) ran
  have encodes :
      Encodes key ((final.relay (encoder side)).flow side) := by
    have books := RelayPhase.Books.returned (inv.relay (encoder side))
    cases side
    · exact books.1
    · exact books.1
  have decodes :
      Decodes key ((final.relay (decoder side)).flow side) := by
    have books := RelayPhase.Books.returned (inv.relay (decoder side))
    cases side
    · exact books.2.1
    · exact books.2.1
  rcases (inv.line side).delivers encodes decodes with ⟨before, after⟩
  exact ⟨before, fun isDone => after (isDone _) (isDone _)⟩

/-! ## Three bytes -/

/-- The header of a relay whose clock shows ten nanoseconds. -/
def headerAtTen : List UInt8 :=
  [166, 248, 0, 76, 217, 145, 0, 110, 17, 184, 184, 101, 60, 161, 23, 129,
    119, 227, 103, 154, 37, 145, 16, 105, 237, 144, 123, 210, 37, 239, 178,
    212, 255, 89, 48]

/-- The application sends three bytes and closes, the upstream only closes.
The client reads two bytes before its header and one after it. -/
def threeBytes : List (TunnelLabel Unit) :=
  [.send .a [1, 2, 3], .close .a, .close .b,
    .relay .client (.first 10 (.data [1, 2])),
    .relay .client (.write (.ok 37)),
    .relay .server (.read (.data (headerAtTen.take 14))),
    .relay .server (.read (.data (headerAtTen.drop 14))),
    .relay .server (.first 10 .eof),
    .relay .server (.write (.ok 35)),
    .relay .server (.copy (.copy (.read 0 (.data [0x5B, 0x58])))),
    .relay .server (.copy (.copy (.write (.ok 2)))),
    .relay .server (.copy (.copy (.read 0 .pending))),
    .relay .server (.copy (.copy (.flush .ok))),
    .relay .server (.copy (.copy (.read 0 .eof))),
    .relay .server (.copy (.copy (.flush .ok))),
    .relay .server (.copy (.shutdown .ok)),
    .relay .client (.read (.data (headerAtTen.take 14))),
    .relay .client (.read (.data (headerAtTen.drop 14))),
    .relay .client (.copy (.copy (.read 0 (.data [3])))),
    .relay .client (.copy (.copy (.write (.ok 1)))),
    .relay .client (.copy (.copy (.read 0 .eof))),
    .relay .client (.copy (.copy (.flush .ok))),
    .relay .client (.copy (.shutdown .ok)),
    .relay .client (.copy (.copy (.read 0 .eof))),
    .relay .client (.copy (.copy (.flush .ok))),
    .relay .client (.copy (.shutdown .ok)),
    .relay .server .poll,
    .relay .server (.copy (.copy (.read 0 (.data [0x59])))),
    .relay .server (.copy (.copy (.write (.ok 1)))),
    .relay .server (.copy (.copy (.read 0 .eof))),
    .relay .server (.copy (.copy (.flush .ok))),
    .relay .server (.copy (.shutdown .ok))]

theorem threeBytes_done :
    ((Tunnel.machine
      (tunnelConfig obfsKey (fun _ => false) (fun _ => 4))).run
        (Tunnel.start (tunnelConfig obfsKey (fun _ => false) (fun _ => 4)))
        threeBytes).any
      (fun final =>
        ((final.relay .client).flow .a).done &&
          ((final.relay .server).flow .a).done) = true := by
  delta Tunnel.machine Tunnel.relayStep RelayRun.machine RelayPhase.step
    RelayPhase.afterFirst RelayPhase.sendHeader generateDynamicObfsV2
  rw [drawContent_eq]
  decide +kernel

theorem tunnel_delivers_three_bytes :
    ∃ final : Tunnel MemBuf Unit,
      (Tunnel.machine
        (tunnelConfig obfsKey (fun _ => false) (fun _ => 4))).run
          (Tunnel.start
            (tunnelConfig obfsKey (fun _ => false) (fun _ => 4)))
          threeBytes = some final ∧
        (final.line .a).sink.sent = (final.line .a).source.sent := by
  rcases (Option.any_eq_true _ _).1 threeBytes_done with
    ⟨final, ran, both⟩
  have isDone := Bool.and_eq_true_iff.1 both
  refine ⟨final, ran, ?_⟩
  apply (tunnel_delivers obfsKey (fun _ => false)
    (fun _ => Nat.succ_pos 3) ran .a).2
  intro party
  cases party
  · exact isDone.1
  · exact isDone.2

end ByteHub.Io
