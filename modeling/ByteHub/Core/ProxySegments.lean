import ByteHub.Core.Proxy
import ByteHub.Library.FrontParser

/-!
# A header that arrives in pieces

The header of a client is parsed from a single peek.  It is handled, with
the addresses it carries sent on to the server, when the peek has seen all of
it, and refused when a piece ends inside of it or it is longer than the
buffer of the peek.
-/

namespace ByteHub.Core

open ByteHub.Conf (SocketAddr)
open ByteHub.Library

/-! ## Addresses on the wire -/

/-- A header carries no flow information and no scope. -/
def onWire : SocketAddr → SocketAddr
  | .v4 octets port => .v4 octets port
  | .v6 octets port _ _ => .v6 octets port 0 0

def SocketAddrV6.onWire (addr : SocketAddrV6) : SocketAddrV6 :=
  { addr with flowinfo := 0, scopeId := 0 }

def ProxyHeader.onWire : ProxyHeader → ProxyHeader
  | .version1 (.ipv6 source destination) =>
      .version1 (.ipv6 source.onWire destination.onWire)
  | .version2 command protocol (.ipv6 source destination) =>
      .version2 command protocol (.ipv6 source.onWire destination.onWire)
  | header => header

/-- The addresses `handle_proxy` sends on for a header. -/
def addressesFor
    (header : ProxyHeader) (peerAddr : SocketAddr) :
    SocketAddr × SocketAddr :=
  (handleHeader header).getD (peerAddr, unspecifiedLike peerAddr)

/-- Two addresses of one family. -/
def SameFamily : SocketAddr × SocketAddr → Prop
  | (.v4 _ _, .v4 _ _) => True
  | (.v6 _ _ _ _, .v6 _ _ _ _) => True
  | _ => False

theorem sameFamily_handleHeader
    {header : ProxyHeader} {addrs : SocketAddr × SocketAddr}
    (handled : handleHeader header = some addrs) : SameFamily addrs := by
  cases header with
  | version1 addresses =>
      cases addresses <;> cases handled <;> trivial
  | version2 command protocol addresses =>
      cases command <;> cases protocol <;> cases addresses <;>
        cases handled <;> trivial
  | unrecognized => cases handled

theorem sameFamily_addressesFor
    (header : ProxyHeader) (peerAddr : SocketAddr) :
    SameFamily (addressesFor header peerAddr) := by
  cases handled : handleHeader header with
  | none =>
      rw [addressesFor, handled]
      cases peerAddr <;> trivial
  | some addrs =>
      rw [addressesFor, handled]
      exact sameFamily_handleHeader handled

/-- A header can be made for addresses of one family in two versions. -/
theorem makeHeader_eq_none_iff
    {addrs : SocketAddr × SocketAddr} (same : SameFamily addrs)
    (version : UInt64) :
    makeHeader addrs.1 addrs.2 version = none ↔
      ¬(version = 1 ∨ version = 2) := by
  rw [makeHeader]
  split
  · next second =>
    rcases addrs with ⟨_ | _, _ | _⟩ <;>
      simp [makeHeaderV2, second] <;> exact same
  · next second =>
    split
    · next first =>
      rcases addrs with ⟨_ | _, _ | _⟩ <;>
        simp [makeHeaderV1, first] <;> exact same
    · next first => simp [first, second]

/-- A header that was made carries the addresses it was made for. -/
theorem handleHeader_makeHeader
    {clientAddr serverAddr : SocketAddr} {version : UInt64}
    {header : ProxyHeader}
    (made : makeHeader clientAddr serverAddr version = some header) :
    handleHeader header.onWire =
      some (onWire clientAddr, onWire serverAddr) := by
  rw [makeHeader] at made
  split at made
  · cases clientAddr <;> cases serverAddr <;> cases made <;> rfl
  · split at made
    · cases clientAddr <;> cases serverAddr <;> cases made <;> rfl
    · cases made

/-! ## Binary headers for IPv4 -/

namespace BinaryIpv4

/-- The signature, version 2 with command PROXY, TCP over IPv4, and twelve
bytes of addresses. -/
def signature : List UInt8 :=
  [0x0D, 0x0A, 0x0D, 0x0A, 0x00, 0x0D, 0x0A, 0x51, 0x55, 0x49, 0x54, 0x0A,
    0x21, 0x11, 0x00, 0x0C]

def decodeAddr (addresses : List UInt8) (host port : ℕ) : SocketAddrV4 where
  octets i := addresses.getD (host + i) 0
  port :=
    (addresses.getD port 0).toUInt16 <<< 8 |||
      (addresses.getD (port + 1) 0).toUInt16

def decode (addresses : List UInt8) : ProxyHeader :=
  .version2 .proxy .stream
    (.ipv4 (decodeAddr addresses 0 8) (decodeAddr addresses 4 10))

def encodePort (port : UInt16) : List UInt8 :=
  [(port >>> 8).toUInt8, port.toUInt8]

/-- A header without extensions. -/
def IsHeader (bytes : List UInt8) (header : ProxyHeader) : Prop :=
  bytes.length = 28 ∧ bytes.take 16 = signature ∧
    header = decode (bytes.drop 16)

/-- The library, for these headers alone. -/
def library : ProxyProtocol where
  parse input :=
    if 28 ≤ input.length ∧ input.take 16 = signature then
      some (decode ((input.drop 16).take 12), input.drop 28)
    else none
  encode
    | .version2 .proxy .stream (.ipv4 source destination) =>
        some (signature ++ List.ofFn source.octets ++
          List.ofFn destination.octets ++ encodePort source.port ++
            encodePort destination.port)
    | _ => none

theorem accepts : AcceptsFront library.parse IsHeader := by
  intro input header rest
  simp only [library, Option.ite_none_right_eq_some, Option.some.injEq,
    Prod.mk.injEq]
  constructor
  · rintro ⟨⟨long, signed⟩, rfl, rfl⟩
    refine ⟨input.take 28, ⟨?_, ?_, ?_⟩, (List.take_append_drop _ _).symm⟩
    · rw [List.length_take, Nat.min_eq_left long]
    · rw [List.take_take]
      exact signed
    · rw [List.drop_take]
  · rintro ⟨bytes, ⟨size, signed, rfl⟩, rfl⟩
    have sixteen : 16 ≤ bytes.length := by omega
    refine ⟨⟨?_, ?_⟩, ?_, ?_⟩
    · rw [List.length_append]
      omega
    · rw [List.take_append_of_le_length sixteen]
      exact signed
    · rw [List.drop_append_of_le_length sixteen,
        List.take_append_of_le_length (by simp [size]),
        List.take_of_length_le (by simp [size])]
    · rw [← size, List.drop_left]

/-- From 192.168.0.1:56324 to 192.168.0.11:443. -/
def header : List UInt8 :=
  signature ++
    [192, 168, 0, 1, 192, 168, 0, 11, 0xDC, 0x04, 0x01, 0xBB]

/-- A client that sends the header and one byte more, in the pieces before
and behind a place. -/
def client (first : List UInt8) (second : List UInt8)
    (nonempty : [] ∉ [first, second]) : ClientSocket where
  peerAddr := .v4 (fun _ => 127) 40000
  pieces := [first, second]
  waits := 10
  nonempty := nonempty

def opts (sendProxy : Bool) : ProxyOpts where
  sendProxy := sendProxy
  acceptProxy := true
  sendProxyVersion := 2
  acceptProxyTimeout := 5

end BinaryIpv4

/-! ## The outcome -/

section Segments

variable {library : ProxyProtocol}
variable {Valid : List UInt8 → ProxyHeader → Prop}
variable {src : ClientSocket} {opts : ProxyOpts}
variable {header payload : List UInt8} {value : ProxyHeader}

/-- The bytes are one header with the addresses. -/
def Announces
    (library : ProxyProtocol) (Valid : List UInt8 → ProxyHeader → Prop)
    (version : UInt64) (addrs : SocketAddr × SocketAddr)
    (written : List UInt8) : Prop :=
  ∃ header, makeHeader addrs.1 addrs.2 version = some header ∧
    library.encode header = some written ∧
      Valid written header.onWire ∧
        handleHeader header.onWire = some (onWire addrs.1, onWire addrs.2)

/-- Exactly the header was taken from the client, and the server was sent
its addresses if it is to be sent any. -/
def Handled
    (library : ProxyProtocol) (Valid : List UInt8 → ProxyHeader → Prop)
    (src : ClientSocket) (opts : ProxyOpts) (value : ProxyHeader)
    (payload : List UInt8) : Prop :=
  ∃ after written,
    handleProxy library src opts = .ok (after, written) ∧
      after.bytes = payload ∧
        if opts.sendProxy then
          Announces library Valid opts.sendProxyVersion
            (addressesFor value src.peerAddr) written
        else written = []

theorem ClientSocket.readExact_eq_some
    {n : ℕ} {taken : List UInt8} {after : ClientSocket}
    (read : src.readExact n = some (taken, after)) :
    taken.length = n ∧ src.bytes = taken ++ after.bytes ∧
      after.peerAddr = src.peerAddr := by
  rw [ClientSocket.readExact] at read
  split at read
  · cases read
  · next bytes rest pieces =>
    cases read
    have taken := readPieces_eq_some pieces
    exact ⟨taken.1, taken.2.1, rfl⟩

theorem ClientSocket.exists_readExact
    {n : ℕ} (enough : n ≤ src.bytes.length) :
    ∃ taken after, src.readExact n = some (taken, after) := by
  rcases exists_readPieces enough with ⟨taken, read⟩
  rw [ClientSocket.readExact]
  split
  · next none => cases none.symm.trans read
  · exact ⟨_, _, rfl⟩

/-- A peek sees the beginning of what arrives. -/
theorem ClientSocket.peek_eq (src : ClientSocket) (room : ℕ) :
    src.peek room = src.bytes.take (src.peek room).length := by
  cases arrives : src.pieces with
  | nil => simp [ClientSocket.peek, arrives]
  | cons piece pieces =>
      have begins : piece.take room <+: src.bytes := by
        rw [ClientSocket.bytes, arrives, List.flatten_cons]
        exact (List.take_prefix _ _).trans (List.prefix_append _ _)
      simpa [ClientSocket.peek, arrives] using
        List.prefix_iff_eq_take.1 begins

/-- The peek has seen the whole header. -/
def ClientSocket.SeesFirst (src : ClientSocket) (length : ℕ) : Prop :=
  length ≤ 256 ∧ length ≤ (src.pieces.headD []).length

theorem ClientSocket.seesFirst_iff (length : ℕ) :
    src.SeesFirst length ↔ length ≤ (src.peek 256).length := by
  rw [ClientSocket.SeesFirst, ClientSocket.peek, List.length_take,
    Nat.le_min]

variable (accepts : AcceptsFront library.parse Valid)
variable (valid : Valid header value)
variable (arrives : src.bytes = header ++ payload)
variable (punctual : inTime src.waits opts.acceptProxyTimeout)

include accepts valid arrives punctual

/-- A header that the peek has seen is taken from the socket. -/
theorem acceptHeader_of_seen (seen : src.SeesFirst header.length) :
    ∃ after, acceptHeader library src opts =
        .ok (after, handleHeader value) ∧
      after.bytes = payload ∧ after.peerAddr = src.peerAddr := by
  rw [ClientSocket.seesFirst_iff] at seen
  have parsed :
      library.parse (src.peek 256) =
        some (value,
          payload.take ((src.peek 256).length - header.length)) := by
    rw [src.peek_eq, arrives, accepts.parse_take valid, if_pos]
    · simp only [List.length_take, List.length_append]
      have whole := congrArg List.length (src.peek_eq 256)
      rw [arrives, List.length_take, List.length_append] at whole
      rw [← whole]
    · have whole := congrArg List.length (src.peek_eq 256)
      rw [arrives] at whole
      exact seen
  have within : (src.peek 256).length ≤ header.length + payload.length := by
    have whole := congrArg List.length (src.peek_eq 256)
    rw [arrives, List.length_take, List.length_append] at whole
    omega
  have used :
      (src.peek 256).length -
          (payload.take ((src.peek 256).length - header.length)).length =
        header.length := by
    rw [List.length_take]
    omega
  have enough : header.length ≤ src.bytes.length := by
    rw [arrives, List.length_append]
    exact Nat.le_add_right _ _
  rcases ClientSocket.exists_readExact enough with ⟨taken, after, read⟩
  rcases ClientSocket.readExact_eq_some read with ⟨size, whole, peer⟩
  refine ⟨after, ?_, ?_, peer⟩
  · simp only [acceptHeader, if_pos punctual, parsed, used, read]
  · rw [arrives] at whole
    exact (List.append_inj_right whole size.symm).symm

/-- A header that the peek has not seen is refused. -/
theorem acceptHeader_of_unseen (unseen : ¬src.SeesFirst header.length) :
    acceptHeader library src opts = .error .parse := by
  rw [ClientSocket.seesFirst_iff] at unseen
  have refused : library.parse (src.peek 256) = none := by
    rw [src.peek_eq, arrives, accepts.parse_take valid, if_neg unseen]
  simp only [acceptHeader, if_pos punctual, refused]

omit accepts valid arrives punctual in
/-- The header for the server is sent in the versions there are. -/
theorem sendHeader_eq
    (library : ProxyProtocol) (opts : ProxyOpts) {after : ClientSocket}
    (peer : after.peerAddr = src.peerAddr)
    (encodes : ∀ made,
      makeHeader (addressesFor value src.peerAddr).1
          (addressesFor value src.peerAddr).2 opts.sendProxyVersion =
        some made →
        ∃ bytes, library.encode made = some bytes ∧
          Valid bytes made.onWire) :
    if opts.sendProxyVersion = 1 ∨ opts.sendProxyVersion = 2 then
      ∃ written,
        sendHeader library after opts (handleHeader value) = .ok written ∧
          Announces library Valid opts.sendProxyVersion
            (addressesFor value src.peerAddr) written
    else
      sendHeader library after opts (handleHeader value) =
        .error .panicked := by
  have same := sameFamily_addressesFor value src.peerAddr
  have unmade := makeHeader_eq_none_iff same opts.sendProxyVersion
  cases made :
      makeHeader (addressesFor value src.peerAddr).1
        (addressesFor value src.peerAddr).2 opts.sendProxyVersion with
  | none =>
      rw [if_neg (unmade.1 made)]
      unfold addressesFor at made
      simp only [sendHeader, peer, made]
  | some header =>
      have known : opts.sendProxyVersion = 1 ∨ opts.sendProxyVersion = 2 := by
        by_contra unknown
        cases made.symm.trans (unmade.2 unknown)
      rcases encodes header made with ⟨bytes, encoded, sound⟩
      rw [if_pos known]
      refine ⟨bytes, ?_, header, made, encoded, sound,
        handleHeader_makeHeader made⟩
      unfold addressesFor at made
      simp only [sendHeader, peer, made, encoded]

/--
A header is handled exactly when the peek sees all of it and the version to
be sent is one there is.
-/
theorem handleProxy_handles_iff
    (accepting : opts.acceptProxy = true)
    (encodes : ∀ made,
      makeHeader (addressesFor value src.peerAddr).1
          (addressesFor value src.peerAddr).2 opts.sendProxyVersion =
        some made →
        ∃ bytes, library.encode made = some bytes ∧
          Valid bytes made.onWire) :
    Handled library Valid src opts value payload ↔
      src.SeesFirst header.length ∧
        (opts.sendProxy = true →
          opts.sendProxyVersion = 1 ∨ opts.sendProxyVersion = 2) := by
  by_cases seen : src.SeesFirst header.length
  · rcases acceptHeader_of_seen accepts valid arrives punctual seen with
      ⟨after, accepted, left, peer⟩
    have sent := sendHeader_eq library opts peer encodes
    cases sends : opts.sendProxy with
    | false =>
        have ended : handleProxy library src opts = .ok (after, []) := by
          simp [handleProxy, accepting, accepted, sends, bind, Except.bind,
            pure, Except.pure]
        simp only [Handled, ended, sends, seen]
        simp [left]
    | true =>
        have ended :
            handleProxy library src opts =
              (sendHeader library after opts (handleHeader value)).map
                fun written => (after, written) := by
          simp only [handleProxy, accepting, accepted, sends, bind,
            Except.bind, pure, Except.pure, if_true]
          rfl
        simp only [Handled, ended, sends, seen, if_true, true_and,
          forall_const]
        split at sent
        · next known =>
          rcases sent with ⟨written, sent, announces⟩
          simp only [known, iff_true]
          exact ⟨after, written, by rw [sent]; rfl, left, announces⟩
        · next unknown =>
          simp only [unknown, iff_false, sent]
          rintro ⟨_, _, failed, _⟩
          cases failed
  · have refused :=
      acceptHeader_of_unseen accepts valid arrives punctual seen
    have ended : handleProxy library src opts = .error .parse := by
      simp [handleProxy, accepting, refused, bind, Except.bind]
    simp only [Handled, ended, seen, false_and, iff_false]
    rintro ⟨_, _, failed, _⟩
    cases failed

end Segments

/-- A header that arrives whole is handled. -/
theorem handleProxy_handles_iff_whole :
    Handled BinaryIpv4.library BinaryIpv4.IsHeader
        (BinaryIpv4.client BinaryIpv4.header [71] (by decide))
        (BinaryIpv4.opts true)
        (BinaryIpv4.decode (BinaryIpv4.header.drop 16)) [71] ↔
      (BinaryIpv4.client BinaryIpv4.header [71] (by decide)).SeesFirst
          BinaryIpv4.header.length ∧
        ((BinaryIpv4.opts true).sendProxy = true →
          (BinaryIpv4.opts true).sendProxyVersion = 1 ∨
            (BinaryIpv4.opts true).sendProxyVersion = 2) := by
  refine handleProxy_handles_iff BinaryIpv4.accepts
    ⟨rfl, rfl, rfl⟩ rfl (.inr (by decide)) rfl ?_
  intro made making
  cases making
  exact ⟨BinaryIpv4.header, rfl, rfl, rfl, rfl⟩

/-- A header cut in two is refused. -/
theorem handleProxy_refuses_a_cut_header :
    ¬∀ (library : ProxyProtocol)
      (Valid : List UInt8 → ProxyHeader → Prop) (src : ClientSocket)
      (opts : ProxyOpts) (header payload : List UInt8)
      (value : ProxyHeader),
      AcceptsFront library.parse Valid → Valid header value →
        src.bytes = header ++ payload →
          inTime src.waits opts.acceptProxyTimeout →
            opts.acceptProxy = true → opts.sendProxy = false →
              Handled library Valid src opts value payload := by
  intro handles
  rcases handles BinaryIpv4.library BinaryIpv4.IsHeader
      (BinaryIpv4.client (BinaryIpv4.header.take 16)
        (BinaryIpv4.header.drop 16 ++ [71]) (by decide))
      (BinaryIpv4.opts false) BinaryIpv4.header [71]
      (BinaryIpv4.decode (BinaryIpv4.header.drop 16)) BinaryIpv4.accepts
      ⟨rfl, rfl, rfl⟩ rfl (.inr (by decide)) rfl rfl with
    ⟨after, written, ended, -⟩
  cases ended

end ByteHub.Core
