import ByteHub.Io.ActiveProbe
import ByteHub.Library.Channel

/-!
# The tunnel

A client relay in mode 1 and a server relay in mode 2 are joined by a stream.
An application talks to the client, the server to an upstream.  Each direction
is a line of three channels, from its source over the link to its sink; the
two relays pull from one channel of the line and push into the next.
-/

namespace ByteHub.Io

open ByteHub.Library

variable {B Error : Type}

/-- The two relays. -/
inductive Party where
  | client
  | server
deriving DecidableEq, Repr

/-- The relay that encodes the direction of a side: the client what comes
from its side `a`, the server what comes from its side `b`. -/
def encoder : Side → Party
  | .a => .client
  | .b => .server

def decoder : Side → Party
  | .a => .server
  | .b => .client

/-- The channels of one direction. -/
structure Line where
  source : Channel UInt8
  link : Channel UInt8
  sink : Channel UInt8
deriving Repr

namespace Line

def empty : Line := ⟨Channel.empty, Channel.empty, Channel.empty⟩

/-- Something passes from one channel to the next. -/
def hop (passed : Passed) (into out : Channel UInt8) :
    Option (Channel UInt8 × Channel UInt8) :=
  if passed.ended = true ∧ ¬ into.AtEnd then none
  else
    (into.pull passed.taken).bind fun into =>
      (out.push passed.given).map fun out =>
        (into, if passed.done then out.close else out)

/-- Something passes through a relay: through the encoder from the source to
the link, through the decoder from the link to the sink. -/
def pass (line : Line) (encodes : Bool) (passed : Passed) : Option Line :=
  if encodes then
    (hop passed line.source line.link).map fun channels =>
      { line with source := channels.1, link := channels.2 }
  else
    (hop passed line.link line.sink).map fun channels =>
      { line with link := channels.1, sink := channels.2 }

/-- A relay is gone: its end of the line closes. -/
def leave (line : Line) (encodes : Bool) : Line :=
  if encodes then { line with link := line.link.close }
  else { line with sink := line.sink.close }

end Line

structure Tunnel (B Error : Type) where
  relay : Party → RelayRun B Error
  /-- The line of each direction, under the side its relays read. -/
  line : Side → Line

/-- The peers send and close, the relays work and leave. -/
inductive TunnelLabel (Error : Type) where
  | send (side : Side) (bytes : List UInt8)
  | close (side : Side)
  | relay (party : Party) (label : RelayLabel Error)
  | leave (party : Party)
deriving DecidableEq, Repr

namespace Tunnel

def start [AsyncIOBuf B] (config : Party → RelayConfig B) :
    Tunnel B Error where
  relay party := RelayRun.start (config party)
  line _ := Line.empty

variable [AsyncIOBuf B]

/-- A relay makes a step that its streams allow. -/
def relayStep (config : Party → RelayConfig B) (tunnel : Tunnel B Error)
    (party : Party) (label : RelayLabel Error) :
    Option (Tunnel B Error) :=
  let run := tunnel.relay party
  let side := run.phase.reader (config party)
  ((RelayRun.machine (config party)).step run label).bind fun next =>
    ((tunnel.line side).pass (encoder side = party)
      (run.phase.passed label)).map fun line =>
        { relay := Function.update tunnel.relay party next
          line := Function.update tunnel.line side line }

def machine (config : Party → RelayConfig B) :
    Machine (Tunnel B Error) (TunnelLabel Error) where
  step tunnel
    | .send side bytes =>
        let line := tunnel.line side
        (line.source.push bytes).map fun source =>
          { tunnel with
            line := Function.update tunnel.line side
              { line with source := source } }
    | .close side =>
        let line := tunnel.line side
        some { tunnel with
          line := Function.update tunnel.line side
            { line with source := line.source.close } }
    | .relay party label => tunnel.relayStep config party label
    | .leave party =>
        match (tunnel.relay party).phase with
        | .returned _ =>
            some { tunnel with
              line := fun side =>
                (tunnel.line side).leave (encoder side = party) }
        | _ => none

end Tunnel

end ByteHub.Io
