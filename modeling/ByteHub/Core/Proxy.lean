import ByteHub.Conf.Endpoint

/-!
# The PROXY protocol of a connection

Before the relay starts, the header a client has sent is taken from its
socket and a header is sent to the server.  The protocol library, with its
parser and its encoder, is a parameter.  A socket is what arrives on it, cut
into the pieces in which it arrives.
-/

namespace ByteHub.Core

open ByteHub.Conf (SocketAddr)

/-! ## Headers -/

structure SocketAddrV4 where
  octets : Fin 4 → UInt8
  port : UInt16

structure SocketAddrV6 where
  octets : Fin 16 → UInt8
  port : UInt16
  flowinfo : UInt32
  scopeId : UInt32

def SocketAddrV4.toSocketAddr (addr : SocketAddrV4) : SocketAddr :=
  .v4 addr.octets addr.port

def SocketAddrV6.toSocketAddr (addr : SocketAddrV6) : SocketAddr :=
  .v6 addr.octets addr.port addr.flowinfo addr.scopeId

/-- The addresses of a text header. -/
inductive ProxyAddressesV1 where
  | unknown
  | ipv4 (source destination : SocketAddrV4)
  | ipv6 (source destination : SocketAddrV6)

/-- The addresses of a binary header. -/
inductive ProxyAddressesV2 where
  | unspec
  | ipv4 (source destination : SocketAddrV4)
  | ipv6 (source destination : SocketAddrV6)
  | unix (source destination : List UInt8)

inductive ProxyCommand where
  | localhost
  | proxy

inductive ProxyTransportProtocol where
  | unspec
  | stream
  | datagram

inductive ProxyHeader where
  | version1 (addresses : ProxyAddressesV1)
  | version2 (command : ProxyCommand) (protocol : ProxyTransportProtocol)
      (addresses : ProxyAddressesV2)
  /-- The library may come to know further versions. -/
  | unrecognized

/-- The protocol library: `parse` leaves what it has not used. -/
structure ProxyProtocol where
  parse : List UInt8 → Option (ProxyHeader × List UInt8)
  encode : ProxyHeader → Option (List UInt8)

def handleHeaderV1 : ProxyAddressesV1 → Option (SocketAddr × SocketAddr)
  | .unknown => none
  | .ipv4 source destination =>
      some (source.toSocketAddr, destination.toSocketAddr)
  | .ipv6 source destination =>
      some (source.toSocketAddr, destination.toSocketAddr)

def handleHeaderV2
    (cmd : ProxyCommand) (proto : ProxyTransportProtocol)
    (addr : ProxyAddressesV2) : Option (SocketAddr × SocketAddr) :=
  match cmd with
  | .localhost => none
  | .proxy =>
      match proto with
      | .unspec => none
      | .datagram => none
      | .stream =>
          match addr with
          | .ipv4 source destination =>
              some (source.toSocketAddr, destination.toSocketAddr)
          | .ipv6 source destination =>
              some (source.toSocketAddr, destination.toSocketAddr)
          | .unspec => none
          | .unix _ _ => none

/-- The client and the server a header names. -/
def handleHeader : ProxyHeader → Option (SocketAddr × SocketAddr)
  | .version1 addresses => handleHeaderV1 addresses
  | .version2 command protocol addresses =>
      handleHeaderV2 command protocol addresses
  | .unrecognized => none

/-- Addresses of two families are not reached. -/
def makeHeaderV1
    (clientAddr serverAddr : SocketAddr) : Option ProxyHeader :=
  match clientAddr, serverAddr with
  | .v4 octets port, .v4 octets' port' =>
      some (.version1 (.ipv4 ⟨octets, port⟩ ⟨octets', port'⟩))
  | .v6 octets port flow scope, .v6 octets' port' flow' scope' =>
      some (.version1
        (.ipv6 ⟨octets, port, flow, scope⟩ ⟨octets', port', flow', scope'⟩))
  | _, _ => none

def makeHeaderV2
    (clientAddr serverAddr : SocketAddr) : Option ProxyHeader :=
  match clientAddr, serverAddr with
  | .v4 octets port, .v4 octets' port' =>
      some (.version2 .proxy .stream
        (.ipv4 ⟨octets, port⟩ ⟨octets', port'⟩))
  | .v6 octets port flow scope, .v6 octets' port' flow' scope' =>
      some (.version2 .proxy .stream
        (.ipv6 ⟨octets, port, flow, scope⟩ ⟨octets', port', flow', scope'⟩))
  | _, _ => none

/-- The header of a version; `none` is an `unreachable!`. -/
def makeHeader
    (clientAddr serverAddr : SocketAddr) (sendProxyVersion : UInt64) :
    Option ProxyHeader :=
  if sendProxyVersion = 2 then makeHeaderV2 clientAddr serverAddr
  else if sendProxyVersion = 1 then makeHeaderV1 clientAddr serverAddr
  else none

/-! ## Sockets -/

/-- Take exactly `n` bytes from the pieces, waiting for further ones. -/
def readPieces :
    ℕ → List (List UInt8) → Option (List UInt8 × List (List UInt8))
  | 0, pieces => some ([], pieces)
  | _ + 1, [] => none
  | n + 1, piece :: pieces =>
      if n + 1 < piece.length then
        some (piece.take (n + 1), piece.drop (n + 1) :: pieces)
      else
        (readPieces (n + 1 - piece.length) pieces).map fun taken =>
          (piece ++ taken.1, taken.2)

/-- What is read is taken from the front, and no empty piece is left. -/
theorem readPieces_eq_some
    {n : ℕ} {pieces rest : List (List UInt8)} {bytes : List UInt8}
    (taken : readPieces n pieces = some (bytes, rest)) :
    bytes.length = n ∧ pieces.flatten = bytes ++ rest.flatten ∧
      ([] ∉ pieces → [] ∉ rest) := by
  induction pieces generalizing n bytes with
  | nil =>
      cases n with
      | zero =>
          cases taken
          exact ⟨rfl, rfl, id⟩
      | succ n => cases taken
  | cons piece pieces inductionHypothesis =>
      cases n with
      | zero =>
          cases taken
          exact ⟨rfl, rfl, id⟩
      | succ n =>
          simp only [readPieces] at taken
          split at taken
          · next inside =>
            cases taken
            refine ⟨by simp; omega, ?_, ?_⟩
            · rw [List.flatten_cons, List.flatten_cons, ← List.append_assoc,
                List.take_append_drop]
            · intro nonempty member
              rcases List.mem_cons.1 member with empty | later
              · have size := congrArg List.length empty
                simp at size
                omega
              · exact nonempty (List.mem_cons_of_mem _ later)
          · next whole =>
            simp only [Option.map_eq_some_iff] at taken
            rcases taken with ⟨⟨more, left⟩, taken, equal⟩
            cases equal
            rcases inductionHypothesis taken with ⟨size, flat, kept⟩
            refine ⟨?_, ?_, ?_⟩
            · rw [List.length_append, size]
              omega
            · rw [List.flatten_cons, flat, List.append_assoc]
            · intro nonempty
              exact kept fun later =>
                nonempty (List.mem_cons_of_mem _ later)

/-- Enough bytes can be read. -/
theorem exists_readPieces
    {n : ℕ} {pieces : List (List UInt8)}
    (enough : n ≤ pieces.flatten.length) :
    ∃ taken, readPieces n pieces = some taken := by
  induction pieces generalizing n with
  | nil =>
      cases n with
      | zero => exact ⟨_, rfl⟩
      | succ n => simp at enough
  | cons piece pieces inductionHypothesis =>
      cases n with
      | zero => exact ⟨_, rfl⟩
      | succ n =>
          simp only [readPieces]
          split
          · exact ⟨_, rfl⟩
          · rw [List.flatten_cons, List.length_append] at enough
            rcases inductionHypothesis
              (show n + 1 - piece.length ≤ pieces.flatten.length by omega)
              with ⟨taken, read⟩
            exact ⟨_, by rw [read, Option.map_some]⟩

/-- The socket of a client: the bytes that will arrive, in the pieces in
which they can be seen, and how many milliseconds the first one takes. -/
structure ClientSocket where
  peerAddr : SocketAddr
  pieces : List (List UInt8)
  waits : ℕ
  nonempty : [] ∉ pieces

namespace ClientSocket

/-- All that arrives. -/
def bytes (socket : ClientSocket) : List UInt8 :=
  socket.pieces.flatten

/-- What a peek into a buffer of length `room` sees once something is there.
Nothing at all is the end of the stream. -/
def peek (socket : ClientSocket) (room : ℕ) : List UInt8 :=
  (socket.pieces.headD []).take room

def readExact
    (socket : ClientSocket) (n : ℕ) : Option (List UInt8 × ClientSocket) :=
  match taken : readPieces n socket.pieces with
  | none => none
  | some (bytes, rest) =>
      some (bytes,
        { socket with
          pieces := rest
          nonempty := (readPieces_eq_some taken).2.2 socket.nonempty })

end ClientSocket

/-- Whether a future that takes `waits` milliseconds is in time; 0 seconds
mean no timeout. -/
def inTime (waits : ℕ) (timeout : UInt64) : Prop :=
  timeout = 0 ∨ waits ≤ timeout.toNat * 1000

instance (waits : ℕ) (timeout : UInt64) :
    Decidable (inTime waits timeout) :=
  inferInstanceAs (Decidable (_ ∨ _))

/-! ## Handling -/

structure ProxyOpts where
  sendProxy : Bool
  acceptProxy : Bool
  sendProxyVersion : UInt64
  acceptProxyTimeout : UInt64
deriving DecidableEq, Repr

/-- How `handle_proxy` goes wrong. -/
inductive ProxyFault where
  | timedOut
  | parse
  | unexpectedEof
  | encode
  /-- `unreachable!` was reached. -/
  | panicked
deriving DecidableEq, Repr

/-- The server address sent for a client address without a header. -/
def unspecifiedLike : SocketAddr → SocketAddr
  | .v4 _ _ => .v4 (fun _ => 0) 0
  | .v6 _ _ _ _ => .v6 (fun _ => 0) 0 0 0

variable (library : ProxyProtocol)

/-- The header of the client: the socket behind it and the addresses it
names. -/
def acceptHeader
    (src : ClientSocket) (opts : ProxyOpts) :
    Except ProxyFault (ClientSocket × Option (SocketAddr × SocketAddr)) :=
  if inTime src.waits opts.acceptProxyTimeout then
    let buf := src.peek 256
    match library.parse buf with
    | none => .error .parse
    | some (header, slice) =>
        match src.readExact (buf.length - slice.length) with
        | none => .error .unexpectedEof
        | some (_, src) => .ok (src, handleHeader header)
  else .error .timedOut

/-- The header for the server, as it is written to its socket. -/
def sendHeader
    (src : ClientSocket) (opts : ProxyOpts)
    (forwarded : Option (SocketAddr × SocketAddr)) :
    Except ProxyFault (List UInt8) :=
  let addrs :=
    forwarded.getD (src.peerAddr, unspecifiedLike src.peerAddr)
  match makeHeader addrs.1 addrs.2 opts.sendProxyVersion with
  | none => .error .panicked
  | some header =>
      match library.encode header with
      | none => .error .encode
      | some bytes => .ok bytes

/-- What is left on the client socket, and what the server was sent. -/
def handleProxy
    (src : ClientSocket) (opts : ProxyOpts) :
    Except ProxyFault (ClientSocket × List UInt8) := do
  if opts.acceptProxy then
    let (src, forwarded) ← acceptHeader library src opts
    if opts.sendProxy then
      let written ← sendHeader library src opts forwarded
      return (src, written)
    else return (src, [])
  else
    let written ← sendHeader library src opts none
    return (src, written)

end ByteHub.Core
