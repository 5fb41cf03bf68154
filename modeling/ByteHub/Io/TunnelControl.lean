import ByteHub.Io.RelayControl
import ByteHub.Io.TunnelDelivery

/-!
# The control of a tunnel

A step of a relay is one that its phase allows and its line lets pass.  A
channel is closed by its writer alone, when it is done with the direction or
has returned.
-/

namespace ByteHub.Io

open ByteHub.Library

variable {B Error : Type}

/-! ## The ends of a line -/

namespace Line

/-- The channel that a relay pulls from. -/
def into (line : Line) (encodes : Bool) : Channel UInt8 :=
  if encodes then line.source else line.link

/-- The channel that a relay pushes into. -/
def out (line : Line) (encodes : Bool) : Channel UInt8 :=
  if encodes then line.link else line.sink

variable {line line' : Line} {encodes : Bool} {passed : Passed}

/-- What passes through a relay is a hop between its two channels, and leaves
the channel of the other relay's writer as open as it was. -/
theorem hop_of_pass (step : line.pass encodes passed = some line') :
    hop passed (line.into encodes) (line.out encodes) =
        some (line'.into encodes, line'.out encodes) ∧
      (line'.out !encodes).closed = (line.out !encodes).closed ∧
      line'.source.closed = line.source.closed := by
  cases encodes with
  | true =>
      rcases Option.map_eq_some_iff.1 step with ⟨⟨source, link⟩, hopped, rfl⟩
      exact ⟨hopped, rfl, Channel.closed_pull (hop_eq_some hopped).2.1⟩
  | false =>
      rcases Option.map_eq_some_iff.1 step with ⟨⟨link, sink⟩, hopped, rfl⟩
      exact ⟨hopped, Channel.closed_pull (hop_eq_some hopped).2.1, rfl⟩

/-- Nothing enters a source on the way through a relay. -/
theorem source_sent_of_pass (step : line.pass encodes passed = some line') :
    line'.source.sent = line.source.sent := by
  cases encodes with
  | true =>
      rcases Option.map_eq_some_iff.1 step with ⟨⟨source, link⟩, hopped, rfl⟩
      exact hop_into_sent hopped
  | false =>
      rcases Option.map_eq_some_iff.1 step with ⟨⟨link, sink⟩, _, rfl⟩
      rfl

/-- A hop that is possible passes through the relay. -/
theorem exists_pass_of_hop
    {into out : Channel UInt8}
    (hopped :
      hop passed (line.into encodes) (line.out encodes) = some (into, out)) :
    ∃ line', line.pass encodes passed = some line' ∧
      line'.into encodes = into ∧ line'.out encodes = out := by
  cases encodes with
  | true =>
      refine ⟨{ line with source := into, link := out }, ?_, rfl, rfl⟩
      exact Option.map_eq_some_iff.2 ⟨(into, out), hopped, rfl⟩
  | false =>
      refine ⟨{ line with link := into, sink := out }, ?_, rfl, rfl⟩
      exact Option.map_eq_some_iff.2 ⟨(into, out), hopped, rfl⟩

/-- A relay that is done with a direction closes its writer. -/
theorem out_closed_of_pass (step : line.pass encodes passed = some line') :
    (line'.out encodes).closed =
      ((line.out encodes).closed || passed.done) := by
  rcases (hop_eq_some (hop_of_pass step).1).2.2 with ⟨pushed, entered, equal⟩
  rw [equal, ← Channel.closed_push entered]
  cases passed.done with
  | true =>
      rw [if_pos rfl, Bool.or_true]
      rfl
  | false => rw [if_neg Bool.false_ne_true, Bool.or_false]

end Line

/-! ## Steps of a tunnel -/

namespace RelayPhase

def hasReturned : RelayPhase B Error → Bool
  | .returned _ => true
  | _ => false

theorem exists_result
    {phase : RelayPhase B Error} (returned : phase.hasReturned = true) :
    ∃ result, phase = .returned result := by
  cases phase with
  | returned result => exact ⟨result, rfl⟩
  | readFirst => cases returned
  | writeAll rest => cases returned
  | readHeader got => cases returned
  | dropProbe => cases returned
  | readGarbage left => cases returned
  | copying bidi point => cases returned

end RelayPhase

namespace Tunnel

variable [AsyncIOBuf B]

/-- The tunnel after a step of a relay. -/
def moved (config : Party → RelayConfig B) (tunnel : Tunnel B Error)
    (party : Party) (label : RelayLabel Error) (phase : RelayPhase B Error)
    (line : Line) : Tunnel B Error :=
  let run := tunnel.relay party
  let side := run.phase.reader (config party)
  { relay := Function.update tunnel.relay party
      { phase := phase
        flow := Function.update run.flow side
          ((run.flow side).append (run.phase.passed label)) }
    line := Function.update tunnel.line side line }

section Moved

variable {config : Party → RelayConfig B} {tunnel next : Tunnel B Error}
variable {party : Party} {label : RelayLabel Error}
variable {phase : RelayPhase B Error} {line : Line}

/-- A relay makes the step that its phase allows and its line lets pass. -/
theorem relayStep_eq_some_iff :
    tunnel.relayStep config party label = some next ↔
      ∃ phase line,
        (tunnel.relay party).phase.step (config party) label = some phase ∧
        (tunnel.line ((tunnel.relay party).phase.reader (config party))).pass
            (encoder ((tunnel.relay party).phase.reader (config party)) =
              party)
            ((tunnel.relay party).phase.passed label) = some line ∧
        next = tunnel.moved config party label phase line := by
  unfold relayStep RelayRun.machine
  constructor
  · intro stepped
    rcases Option.bind_eq_some_iff.1 stepped with ⟨run, ran, rest⟩
    rcases Option.map_eq_some_iff.1 ran with ⟨phase, moves, rfl⟩
    rcases Option.map_eq_some_iff.1 rest with ⟨line, passes, rfl⟩
    exact ⟨phase, line, moves, passes, rfl⟩
  · rintro ⟨phase, line, moves, passes, rfl⟩
    refine Option.bind_eq_some_iff.2
      ⟨_, Option.map_eq_some_iff.2 ⟨phase, moves, rfl⟩, ?_⟩
    exact Option.map_eq_some_iff.2 ⟨line, passes, rfl⟩

@[simp]
theorem moved_phase_self :
    ((tunnel.moved config party label phase line).relay party).phase =
      phase := by
  simp [moved]

theorem moved_relay_other {other : Party} (differ : other ≠ party) :
    (tunnel.moved config party label phase line).relay other =
      tunnel.relay other := by
  simp [moved, Function.update_of_ne differ]

theorem moved_flow (other : Party) (side : Side) :
    ((tunnel.moved config party label phase line).relay other).flow side =
      if other = party ∧
          side = (tunnel.relay party).phase.reader (config party) then
        ((tunnel.relay other).flow side).append
          ((tunnel.relay party).phase.passed label)
      else (tunnel.relay other).flow side := by
  by_cases mine : other = party
  · subst mine
    by_cases reads :
        side = (tunnel.relay other).phase.reader (config other)
    · rw [if_pos ⟨rfl, reads⟩, reads]
      simp [moved]
    · rw [if_neg fun both => reads both.2]
      simp [moved, Function.update_of_ne reads]
  · rw [if_neg fun both => mine both.1, moved_relay_other mine]

@[simp]
theorem moved_line_reader :
    (tunnel.moved config party label phase line).line
        ((tunnel.relay party).phase.reader (config party)) = line := by
  simp [moved]

theorem moved_line_other {side : Side}
    (differ : side ≠ (tunnel.relay party).phase.reader (config party)) :
    (tunnel.moved config party label phase line).line side =
      tunnel.line side := by
  simp [moved, Function.update_of_ne differ]

omit [AsyncIOBuf B] in
/-- The channel into which a relay pushes what it makes of a direction. -/
def outOf (tunnel : Tunnel B Error) (party : Party) (side : Side) :
    Channel UInt8 :=
  (tunnel.line side).out (encoder side = party)

omit [AsyncIOBuf B] in
/-- The channel from which a relay pulls a direction. -/
def intoOf (tunnel : Tunnel B Error) (party : Party) (side : Side) :
    Channel UInt8 :=
  (tunnel.line side).into (encoder side = party)

/-- What a step closes: the writer of the direction that is done. -/
theorem outOf_closed_moved
    (passes :
      (tunnel.line ((tunnel.relay party).phase.reader (config party))).pass
          (encoder ((tunnel.relay party).phase.reader (config party)) =
            party)
          ((tunnel.relay party).phase.passed label) = some line)
    (other : Party) (side : Side) :
    ((tunnel.moved config party label phase line).outOf other side).closed =
      if other = party ∧
          side = (tunnel.relay party).phase.reader (config party) then
        ((tunnel.outOf other side).closed ||
          ((tunnel.relay party).phase.passed label).done)
      else (tunnel.outOf other side).closed := by
  unfold outOf
  by_cases reads : side = (tunnel.relay party).phase.reader (config party)
  · subst reads
    rw [moved_line_reader]
    by_cases mine : other = party
    · subst mine
      rw [if_pos ⟨rfl, rfl⟩]
      exact Line.out_closed_of_pass passes
    · rw [if_neg fun both => mine both.1]
      have opposite (side : Side) :
          decide (encoder side = other) = !decide (encoder side = party) := by
        revert mine
        cases other <;> cases party <;> cases side <;> decide
      rw [opposite]
      exact (Line.hop_of_pass passes).2.1
  · rw [moved_line_other reads, if_neg fun both => reads both.2]

/-- A source stays as open as it was. -/
theorem source_closed_moved
    (passes :
      (tunnel.line ((tunnel.relay party).phase.reader (config party))).pass
          (encoder ((tunnel.relay party).phase.reader (config party)) =
            party)
          ((tunnel.relay party).phase.passed label) = some line)
    (side : Side) :
    ((tunnel.moved config party label phase line).line side).source.closed =
      (tunnel.line side).source.closed := by
  by_cases reads : side = (tunnel.relay party).phase.reader (config party)
  · subst reads
    rw [moved_line_reader]
    exact (Line.hop_of_pass passes).2.2
  · rw [moved_line_other reads]

end Moved

/-! ## The invariant -/

variable [LawfulIOBuf B]

/-- A client in mode 1 and a server in mode 2 under one key. -/
structure Paired
    (config : Party → RelayConfig B) (key : ObfsKey) : Prop where
  obfuscating : ∀ party, Obfuscating (config party)
  key : ∀ party, (config party).key = key
  client : (config .client).mode = 1
  server : (config .server).mode = 2

/-- The invariant of a tunnel whose relays know their place: each closes
exactly what it is done with, or everything once it has returned. -/
structure Sound
    (config : Party → RelayConfig B) (tunnel : Tunnel B Error) : Prop where
  inv : tunnel.Inv config
  settled : ∀ party, (tunnel.relay party).Settled (config party)
  closes : ∀ party side,
    ((tunnel.relay party).flow side).done = true →
      (tunnel.outOf party side).closed = true
  closed : ∀ party side, (tunnel.outOf party side).closed = true →
    ((tunnel.relay party).flow side).done = true ∨
      (tunnel.relay party).phase.hasReturned = true

variable {config : Party → RelayConfig B} {key : ObfsKey}
variable {tunnel next : Tunnel B Error}

theorem sound_start (paired : Paired config key) :
    (start config : Tunnel B Error).Sound config where
  inv := inv_start paired.obfuscating
  settled party := RelayRun.settled_start (paired.obfuscating party).mode
  closes party side isDone := by cases isDone
  closed party side isClosed := by
    unfold outOf Line.out at isClosed
    split at isClosed <;> cases isClosed

omit [LawfulIOBuf B] in
/-- A relay that has returned makes no step. -/
theorem not_hasReturned_of_step
    {config : RelayConfig B} {phase phase' : RelayPhase B Error}
    {label : RelayLabel Error}
    (moves : phase.step config label = some phase') :
    phase.hasReturned = false := by
  cases phase with
  | returned result => cases moves
  | readFirst => rfl
  | writeAll rest => rfl
  | readHeader got => rfl
  | dropProbe => rfl
  | readGarbage left => rfl
  | copying bidi point => rfl

theorem Sound.relayStep
    (paired : Paired config key) {party : Party} {label : RelayLabel Error}
    (sound : tunnel.Sound config)
    (stepped : tunnel.relayStep config party label = some next) :
    next.Sound config := by
  have inv := inv_relayStep paired.obfuscating sound.inv stepped
  rcases relayStep_eq_some_iff.1 stepped with ⟨phase, line, moves, passes, rfl⟩
  constructor
  · exact inv
  · intro other
    by_cases mine : other = party
    · subst mine
      have run : (RelayRun.machine (config other)).step
          (tunnel.relay other) label =
            some ((tunnel.moved config other label phase line).relay
              other) := by
        simp [RelayRun.machine, moved, moves]
      exact RelayRun.settled_step (paired.obfuscating other)
        (sound.inv.relay other) (sound.settled other) run
    · rw [moved_relay_other mine]
      exact sound.settled other
  · intro other side isDone
    rw [moved_flow] at isDone
    rw [outOf_closed_moved passes]
    split at isDone
    · next mine =>
      rw [if_pos mine]
      rcases Bool.or_eq_true_iff.1 isDone with before | now
      · rw [sound.closes other side before, Bool.true_or]
      · rw [now, Bool.or_true]
    · next others =>
      rw [if_neg others]
      exact sound.closes other side isDone
  · intro other side isClosed
    rw [outOf_closed_moved passes] at isClosed
    rw [moved_flow]
    split at isClosed
    · next mine =>
      rw [if_pos mine]
      rcases Bool.or_eq_true_iff.1 isClosed with before | now
      · rcases sound.closed other side before with isDone | returned
        · exact .inl (by rw [Passed.append, isDone, Bool.true_or])
        · rw [mine.1, not_hasReturned_of_step moves] at returned
          cases returned
      · exact .inl (by rw [Passed.append, now, Bool.or_true])
    · next others =>
      rw [if_neg others]
      rcases sound.closed other side isClosed with isDone | returned
      · exact .inl isDone
      · right
        by_cases mine : other = party
        · rw [mine, not_hasReturned_of_step moves] at returned
          cases returned
        · rw [moved_relay_other mine]
          exact returned

/-- What enters a source concerns no relay yet. -/
theorem Sound.update_source
    {side : Side} {source : Channel UInt8} (sound : tunnel.Sound config)
    (inv : Inv config { tunnel with
      line := Function.update tunnel.line side
        { tunnel.line side with source := source } }) :
    Sound config { tunnel with
      line := Function.update tunnel.line side
        { tunnel.line side with source := source } } := by
  have same (party : Party) (other : Side) :
      outOf { tunnel with
        line := Function.update tunnel.line side
          { tunnel.line side with source := source } } party other =
        tunnel.outOf party other := by
    unfold outOf
    by_cases here : other = side
    · subst here
      simp [Line.out]
    · simp [Function.update_of_ne here]
  exact {
    inv := inv
    settled := sound.settled
    closes := fun party other => by
      rw [same]
      exact sound.closes party other
    closed := fun party other => by
      rw [same]
      exact sound.closed party other }

/-- The invariant holds after every step. -/
theorem Sound.step
    (paired : Paired config key) {label : TunnelLabel Error}
    (sound : tunnel.Sound config)
    (stepped : (machine config).step tunnel label = some next) :
    next.Sound config := by
  have inv := inv_step paired.obfuscating sound.inv stepped
  cases label with
  | relay party label => exact sound.relayStep paired stepped
  | send side bytes =>
      rcases Option.map_eq_some_iff.1 stepped with ⟨source, _, rfl⟩
      exact sound.update_source inv
  | close side =>
      cases stepped
      exact sound.update_source inv
  | leave party =>
      simp only [machine] at stepped
      split at stepped
      · next result returned =>
        cases stepped
        have closedIn (other : Party) (side : Side) :
            (outOf { tunnel with
              line := fun side =>
                (tunnel.line side).leave (encoder side = party) }
              other side).closed =
                (decide (other = party) ||
                  (tunnel.outOf other side).closed) := by
          unfold outOf Line.leave Line.out Channel.close
          cases side <;> cases party <;> cases other <;> simp [encoder]
        exact {
          inv := inv
          settled := sound.settled
          closes := fun other side isDone => by
            rw [closedIn, sound.closes other side isDone, Bool.or_true]
          closed := fun other side isClosed => by
            rw [closedIn, Bool.or_eq_true, decide_eq_true_eq] at isClosed
            rcases isClosed with rfl | before
            · right
              dsimp only
              rw [returned]
              rfl
            · exact sound.closed other side before }
      · cases stepped

end Tunnel

end ByteHub.Io
