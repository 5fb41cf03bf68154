import ByteHub.Core.ProxySegments

/-!
# What can abort the handling of PROXY headers

The two addresses of a header are kept in slots that are uninitialised at
first, and a header is made only for addresses of one family and for two
versions.  The slots are written on every path that reads them, and with
addresses of one family; but the version is whatever the configuration says.
-/

namespace ByteHub.Core

open ByteHub.Conf (SocketAddr NetConf Kaminari)

/-! ## The code with its slots -/

/-- How `handle_proxy` can stop early. -/
inductive Stop where
  /-- The caller is given an error. -/
  | returned (fault : ProxyFault)
  /-- The `unreachable!` of `make_header`. -/
  | version
  /-- The `unreachable!` of `unpack!`. -/
  | family
  /-- A slot is read that has not been written. -/
  | uninitialised
deriving DecidableEq, Repr

/-- Stopping in any other way than by an error. -/
def Stop.Aborts : Stop → Prop
  | .returned _ => False
  | .version => True
  | .family => True
  | .uninitialised => True

/-- The local variables of `handle_proxy`. -/
structure ProxySlots where
  clientAddr : Option SocketAddr
  serverAddr : Option SocketAddr
  fwdHdr : Bool

def ProxySlots.uninit : ProxySlots where
  clientAddr := none
  serverAddr := none
  fwdHdr := false

/-- The slots after the header of the client. -/
def ProxySlots.after
    (forwarded : Option (SocketAddr × SocketAddr)) : ProxySlots :=
  forwarded.elim .uninit fun addrs => ⟨some addrs.1, some addrs.2, true⟩

/-- `assume_init` -/
def assumeInit (slot : Option SocketAddr) : Except Stop SocketAddr :=
  slot.elim (.error .uninitialised) .ok

/-- `unpack!(addr, sin4)` -/
def unpackSin4 : SocketAddr → Except Stop SocketAddrV4
  | .v4 octets port => .ok ⟨octets, port⟩
  | .v6 _ _ _ _ => .error .family

/-- `unpack!(addr, sin6)` -/
def unpackSin6 : SocketAddr → Except Stop SocketAddrV6
  | .v4 _ _ => .error .family
  | .v6 octets port flow scope => .ok ⟨octets, port, flow, scope⟩

def isIpv4 : SocketAddr → Bool
  | .v4 _ _ => true
  | .v6 _ _ _ _ => false

def unpackedHeaderV1
    (clientAddr serverAddr : SocketAddr) : Except Stop ProxyHeader :=
  if isIpv4 clientAddr then do
    let source ← unpackSin4 clientAddr
    let destination ← unpackSin4 serverAddr
    return .version1 (.ipv4 source destination)
  else do
    let source ← unpackSin6 clientAddr
    let destination ← unpackSin6 serverAddr
    return .version1 (.ipv6 source destination)

def unpackedHeaderV2
    (clientAddr serverAddr : SocketAddr) : Except Stop ProxyHeader :=
  if isIpv4 clientAddr then do
    let source ← unpackSin4 clientAddr
    let destination ← unpackSin4 serverAddr
    return .version2 .proxy .stream (.ipv4 source destination)
  else do
    let source ← unpackSin6 clientAddr
    let destination ← unpackSin6 serverAddr
    return .version2 .proxy .stream (.ipv6 source destination)

/-- `make_header`, with the branches that are not to be reached. -/
def unpackedHeader
    (clientAddr serverAddr : SocketAddr) (sendProxyVersion : UInt64) :
    Except Stop ProxyHeader :=
  if sendProxyVersion = 2 then unpackedHeaderV2 clientAddr serverAddr
  else if sendProxyVersion = 1 then
    unpackedHeaderV1 clientAddr serverAddr
  else .error .version

section Code

variable (library : ProxyProtocol)

/-- The block that parses the header of the client. -/
def acceptInto
    (src : ClientSocket) (opts : ProxyOpts) :
    Except Stop (ClientSocket × ProxySlots) :=
  if inTime src.waits opts.acceptProxyTimeout then
    let buf := src.peek 256
    match library.parse buf with
    | none => .error (.returned .parse)
    | some (header, slice) =>
        match src.readExact (buf.length - slice.length) with
        | none => .error (.returned .unexpectedEof)
        | some (_, src) => .ok (src, .after (handleHeader header))
  else .error (.returned .timedOut)

/-- The block that uses the real address. -/
def useRealAddr
    (src : ClientSocket) (slots : ProxySlots) : Except Stop ProxySlots :=
  if slots.fwdHdr then .ok slots
  else do
    let slots := { slots with clientAddr := some src.peerAddr }
    let clientAddr ← assumeInit slots.clientAddr
    return { slots with serverAddr := some (unspecifiedLike clientAddr) }

/-- The block that writes the header. -/
def writeHeader
    (slots : ProxySlots) (opts : ProxyOpts) : Except Stop (List UInt8) := do
  let clientAddr ← assumeInit slots.clientAddr
  let serverAddr ← assumeInit slots.serverAddr
  let header ←
    unpackedHeader clientAddr serverAddr opts.sendProxyVersion
  (library.encode header).elim (.error (.returned .encode)) .ok

/-- What follows the header of the client. -/
def sendSlots
    (src : ClientSocket) (slots : ProxySlots) (opts : ProxyOpts) :
    Except Stop (ClientSocket × List UInt8) := do
  let slots ← useRealAddr src slots
  let written ← writeHeader library slots opts
  return (src, written)

/-- `handle_proxy`, down to its slots. -/
def handleProxySlots
    (src : ClientSocket) (opts : ProxyOpts) :
    Except Stop (ClientSocket × List UInt8) :=
  if opts.acceptProxy then do
    let (src, slots) ← acceptInto library src opts
    if opts.sendProxy then sendSlots library src slots opts
    else return (src, [])
  else sendSlots library src .uninit opts

/-- The call in `connect_and_relay`. -/
def passProxy
    (src : ClientSocket) (opts : ProxyOpts) :
    Except Stop (ClientSocket × List UInt8) :=
  if opts.sendProxy || opts.acceptProxy then
    handleProxySlots library src opts
  else .ok (src, [])

end Code

/-! ## The slots are written before they are read -/

/-- Both slots are written, with addresses of one family. -/
def ProxySlots.Filled (slots : ProxySlots) : Prop :=
  ∃ clientAddr serverAddr, slots.clientAddr = some clientAddr ∧
    slots.serverAddr = some serverAddr ∧
    SameFamily (clientAddr, serverAddr)

section Slots

variable {slots : ProxySlots}

/-- Addresses that came with a header fill the slots. -/
theorem ProxySlots.after_filled
    (header : ProxyHeader)
    (forwarded : (after (handleHeader header)).fwdHdr = true) :
    (after (handleHeader header)).Filled := by
  cases handled : handleHeader header with
  | none =>
      rw [handled] at forwarded
      cases forwarded
  | some addrs =>
      exact ⟨addrs.1, addrs.2, rfl, rfl, sameFamily_handleHeader handled⟩

theorem ProxySlots.uninit_filled
    (forwarded : uninit.fwdHdr = true) : uninit.Filled := by
  cases forwarded

theorem acceptInto_cases
    (library : ProxyProtocol) (src : ClientSocket) (opts : ProxyOpts) :
    (∃ fault, acceptInto library src opts = .error (.returned fault)) ∨
      ∃ after header, acceptInto library src opts =
        .ok (after, .after (handleHeader header)) := by
  rw [acceptInto]
  split
  · dsimp only
    cases library.parse (src.peek 256) with
    | none => exact .inl ⟨.parse, rfl⟩
    | some parsed =>
        dsimp only
        cases src.readExact
            ((src.peek 256).length - parsed.2.length) with
        | none => exact .inl ⟨.unexpectedEof, rfl⟩
        | some read => exact .inr ⟨read.2, parsed.1, rfl⟩
  · exact .inl ⟨.timedOut, rfl⟩

theorem sameFamily_unspecifiedLike (addr : SocketAddr) :
    SameFamily (addr, unspecifiedLike addr) := by
  cases addr with
  | v4 octets port => trivial
  | v6 octets port flow scope => trivial

/-- The real address fills them otherwise. -/
theorem useRealAddr_fills
    (src : ClientSocket)
    (forwarded : slots.fwdHdr = true → slots.Filled) :
    ∃ filled, useRealAddr src slots = .ok filled ∧ filled.Filled := by
  cases fwdHdr : slots.fwdHdr with
  | true =>
      refine ⟨slots, ?_, forwarded fwdHdr⟩
      rw [useRealAddr, if_pos fwdHdr]
  | false =>
      refine ⟨⟨some src.peerAddr, some (unspecifiedLike src.peerAddr),
        false⟩, ?_, src.peerAddr, unspecifiedLike src.peerAddr, rfl, rfl,
        sameFamily_unspecifiedLike src.peerAddr⟩
      rw [useRealAddr, fwdHdr]
      rfl

/-- For addresses of one family the unpacking goes through. -/
theorem unpackedHeader_of_sameFamily
    {clientAddr serverAddr : SocketAddr}
    (same : SameFamily (clientAddr, serverAddr)) (version : UInt64) :
    unpackedHeader clientAddr serverAddr version =
      (makeHeader clientAddr serverAddr version).elim
        (.error .version) .ok := by
  unfold unpackedHeader makeHeader
  cases clientAddr with
  | v4 octets port =>
      cases serverAddr with
      | v4 octets' port' =>
          split
          · rfl
          · split
            · rfl
            · rfl
      | v6 octets' port' flow' scope' => exact same.elim
  | v6 octets port flow scope =>
      cases serverAddr with
      | v4 octets' port' => exact same.elim
      | v6 octets' port' flow' scope' =>
          split
          · rfl
          · split
            · rfl
            · rfl

/-- The versions a header can be made in. -/
def Spoken (version : UInt64) : Prop :=
  version = 1 ∨ version = 2

/-- From filled slots a header is written unless the version is unknown. -/
theorem writeHeader_cases
    (library : ProxyProtocol) (opts : ProxyOpts) (filled : slots.Filled) :
    ¬Spoken opts.sendProxyVersion ∧
        writeHeader library slots opts = .error .version ∨
      Spoken opts.sendProxyVersion ∧
        ((∃ fault,
          writeHeader library slots opts = .error (.returned fault)) ∨
          ∃ written, writeHeader library slots opts = .ok written) := by
  rcases filled with ⟨clientAddr, serverAddr, client, server, same⟩
  have unpacked := unpackedHeader_of_sameFamily same opts.sendProxyVersion
  have known :=
    makeHeader_eq_none_iff same opts.sendProxyVersion
  dsimp only at known
  have written :
      writeHeader library slots opts =
        (unpackedHeader clientAddr serverAddr opts.sendProxyVersion).bind
          fun header =>
            (library.encode header).elim (.error (.returned .encode))
              .ok := by
    rw [writeHeader, client, server]
    rfl
  rw [written, unpacked]
  cases made : makeHeader clientAddr serverAddr opts.sendProxyVersion with
  | none => exact .inl ⟨known.1 made, rfl⟩
  | some header =>
      refine .inr ⟨?_, ?_⟩
      · by_contra unknown
        rw [known.2 unknown] at made
        cases made
      · rw [Option.elim_some, Except.bind]
        cases library.encode header with
        | none => exact .inl ⟨.encode, rfl⟩
        | some bytes => exact .inr ⟨bytes, rfl⟩

theorem sendSlots_of_used
    {library : ProxyProtocol} {src : ClientSocket} {opts : ProxyOpts}
    {filled : ProxySlots} (used : useRealAddr src slots = .ok filled) :
    sendSlots library src slots opts =
      (writeHeader library filled opts).bind fun written =>
        .ok (src, written) := by
  rw [sendSlots, used]
  rfl

end Slots

/-! ## The code without its slots -/

/-- What a stop is where the slots are left out. -/
def Stop.fault : Stop → ProxyFault
  | .returned fault => fault
  | .version => .panicked
  | .family => .panicked
  | .uninitialised => .panicked

section Refinement

variable (library : ProxyProtocol) (src : ClientSocket)
variable (opts : ProxyOpts)

theorem sendSlots_refines
    {forwarded : Option (SocketAddr × SocketAddr)}
    (same : ∀ addrs, forwarded = some addrs → SameFamily addrs) :
    (sendSlots library src (.after forwarded) opts).mapError Stop.fault =
      (sendHeader library src opts forwarded).map fun written =>
        (src, written) := by
  have written {clientAddr serverAddr : SocketAddr} {fwdHdr : Bool}
      (family : SameFamily (clientAddr, serverAddr)) :
      (writeHeader library ⟨some clientAddr, some serverAddr, fwdHdr⟩
        opts).mapError Stop.fault =
        sendHeader library src opts (some (clientAddr, serverAddr)) := by
    change ((unpackedHeader clientAddr serverAddr
      opts.sendProxyVersion).bind _).mapError _ = _
    rw [unpackedHeader_of_sameFamily family, sendHeader, Option.getD_some]
    dsimp only
    cases makeHeader clientAddr serverAddr opts.sendProxyVersion with
    | none => rfl
    | some header =>
        rw [Option.elim_some, Except.bind]
        dsimp only
        cases library.encode header with
        | none => rfl
        | some bytes => rfl
  have sent {slots : ProxySlots} {clientAddr serverAddr : SocketAddr}
      {fwdHdr : Bool}
      (used : useRealAddr src slots =
        .ok ⟨some clientAddr, some serverAddr, fwdHdr⟩)
      (family : SameFamily (clientAddr, serverAddr)) :
      (sendSlots library src slots opts).mapError Stop.fault =
        (sendHeader library src opts (some (clientAddr, serverAddr))).map
          fun written => (src, written) := by
    rw [sendSlots_of_used used, ← @written _ _ fwdHdr family]
    cases writeHeader library ⟨some clientAddr, some serverAddr, fwdHdr⟩
        opts with
    | error stop => rfl
    | ok bytes => rfl
  cases forwarded with
  | none =>
      exact sent rfl (sameFamily_unspecifiedLike src.peerAddr)
  | some addrs => exact sent rfl (same addrs rfl)

/-- Every abort is an abort of the code without its slots, and the rest is
the same. -/
theorem handleProxySlots_refines :
    (handleProxySlots library src opts).mapError Stop.fault =
      handleProxy library src opts := by
  have bound {forwarded : Option (SocketAddr × SocketAddr)}
      {src : ClientSocket} :
      (do
        let written ← sendHeader library src opts forwarded
        return (src, written)) =
        (sendHeader library src opts forwarded).map fun written =>
          (src, written) := by
    cases sendHeader library src opts forwarded with
    | error fault => rfl
    | ok written => rfl
  rw [handleProxySlots, handleProxy]
  cases opts.acceptProxy with
  | false =>
      rw [if_neg Bool.false_ne_true, if_neg Bool.false_ne_true, bound]
      refine @sendSlots_refines library src opts none ?_
      intro addrs impossible
      cases impossible
  | true =>
      rw [if_pos rfl, if_pos rfl, acceptInto, acceptHeader]
      split
      · dsimp only
        cases library.parse (src.peek 256) with
        | none => rfl
        | some parsed =>
            dsimp only
            cases src.readExact
                ((src.peek 256).length - parsed.2.length) with
            | none => rfl
            | some read =>
                change ((if opts.sendProxy then
                  sendSlots library read.2 (.after (handleHeader parsed.1))
                    opts
                  else _) : Except Stop _).mapError Stop.fault =
                    if opts.sendProxy then
                      (do
                        let written ← sendHeader library read.2 opts
                          (handleHeader parsed.1)
                        return (read.2, written))
                    else _
                cases opts.sendProxy with
                | false => rfl
                | true =>
                    rw [if_pos rfl, if_pos rfl, bound]
                    exact sendSlots_refines library read.2 opts
                      fun _ => sameFamily_handleHeader
      · rfl

end Refinement

/-! ## When the handling aborts -/

section Aborts

variable {library : ProxyProtocol} {src : ClientSocket}
variable {opts : ProxyOpts}

/-- No abort whatever happens outside. -/
def NeverAborts
    (run : ClientSocket → Except Stop (ClientSocket × List UInt8)) :
    Prop :=
  ∀ src stop, run src = .error stop → ¬stop.Aborts

theorem sendSlots_cases
    (library : ProxyProtocol) (src : ClientSocket) (opts : ProxyOpts)
    {slots : ProxySlots}
    (forwarded : slots.fwdHdr = true → slots.Filled) :
    ¬Spoken opts.sendProxyVersion ∧
        sendSlots library src slots opts = .error .version ∨
      Spoken opts.sendProxyVersion ∧
        ((∃ fault,
          sendSlots library src slots opts = .error (.returned fault)) ∨
          ∃ sent, sendSlots library src slots opts = .ok sent) := by
  rcases useRealAddr_fills src forwarded with ⟨filled, used, ready⟩
  rw [sendSlots_of_used used]
  rcases writeHeader_cases library opts ready with
    ⟨unknown, stopped⟩ | ⟨spoken, ⟨fault, failed⟩ | ⟨written, wrote⟩⟩
  · rw [stopped]
    exact .inl ⟨unknown, rfl⟩
  · rw [failed]
    exact .inr ⟨spoken, .inl ⟨fault, rfl⟩⟩
  · rw [wrote]
    exact .inr ⟨spoken, .inr ⟨(src, written), rfl⟩⟩

theorem sendSlots_unknown
    {slots : ProxySlots} (forwarded : slots.fwdHdr = true → slots.Filled)
    (unknown : ¬Spoken opts.sendProxyVersion) :
    sendSlots library src slots opts = .error .version := by
  rcases sendSlots_cases library src opts forwarded with
    ⟨_, stopped⟩ | ⟨spoken, _⟩
  · exact stopped
  · exact (unknown spoken).elim

theorem sendSlots_aborts
    {slots : ProxySlots} {stop : Stop}
    (forwarded : slots.fwdHdr = true → slots.Filled)
    (stopped : sendSlots library src slots opts = .error stop)
    (aborts : stop.Aborts) :
    stop = .version ∧ ¬Spoken opts.sendProxyVersion := by
  rcases sendSlots_cases library src opts forwarded with
    ⟨unknown, here⟩ | ⟨_, ⟨fault, here⟩ | ⟨sent, here⟩⟩
  · rw [here] at stopped
    cases stopped
    exact ⟨rfl, unknown⟩
  · rw [here] at stopped
    cases stopped
    exact aborts.elim
  · rw [here] at stopped
    cases stopped

/-- Without `accept_proxy` the header is sent for the real address. -/
theorem handleProxySlots_plain (plain : opts.acceptProxy = false) :
    handleProxySlots library src opts =
      sendSlots library src .uninit opts := by
  rw [handleProxySlots, plain]
  exact if_neg Bool.false_ne_true

/-- Otherwise it is sent, if at all, once a header was taken. -/
theorem handleProxySlots_accepted
    {after : ClientSocket} {slots : ProxySlots}
    (accepting : opts.acceptProxy = true)
    (accepted : acceptInto library src opts = .ok (after, slots)) :
    handleProxySlots library src opts =
      if opts.sendProxy then sendSlots library after slots opts
      else .ok (after, []) := by
  rw [handleProxySlots, accepting, if_pos rfl, accepted]
  rfl

/-- The only abort is that of a version which is not known, and it is met
unless no header is to be sent. -/
theorem handleProxySlots_aborts
    {stop : Stop}
    (stopped : handleProxySlots library src opts = .error stop)
    (aborts : stop.Aborts) :
    stop = .version ∧ ¬Spoken opts.sendProxyVersion ∧
      (opts.acceptProxy = true → opts.sendProxy = true) := by
  cases accept : opts.acceptProxy with
  | false =>
      rw [handleProxySlots_plain accept] at stopped
      rcases sendSlots_aborts ProxySlots.uninit_filled stopped aborts with
        ⟨version, unknown⟩
      exact ⟨version, unknown, (by rintro ⟨⟩)⟩
  | true =>
      rcases acceptInto_cases library src opts with
        ⟨fault, refused⟩ | ⟨after, header, accepted⟩
      · rw [handleProxySlots, accept, if_pos rfl, refused] at stopped
        cases stopped
        exact aborts.elim
      · rw [handleProxySlots_accepted accept accepted] at stopped
        cases sending : opts.sendProxy with
        | false =>
            rw [sending] at stopped
            cases stopped
        | true =>
            rw [sending, if_pos rfl] at stopped
            rcases sendSlots_aborts (ProxySlots.after_filled header)
              stopped aborts with ⟨version, unknown⟩
            exact ⟨version, unknown, fun _ => rfl⟩

/-- The library accepts some text of at most 256 bytes. -/
def AcceptsSome (library : ProxyProtocol) : Prop :=
  ∃ buf header slice, library.parse buf = some (header, slice) ∧
    buf ≠ [] ∧ buf.length ≤ 256

/-- The client that sends a text at once. -/
def promptClient (buf : List UInt8) (nonempty : buf ≠ []) :
    ClientSocket where
  peerAddr := .v4 (fun _ => 127) 40000
  pieces := [buf]
  waits := 0
  nonempty member := nonempty (List.mem_singleton.1 member).symm

/-- Its text is taken at once. -/
theorem exists_accepted (accepts : AcceptsSome library) :
    ∃ src after header,
      acceptInto library src opts =
        .ok (after, .after (handleHeader header)) := by
  rcases accepts with ⟨buf, header, slice, parsed, nonempty, short⟩
  have timely :
      inTime (promptClient buf nonempty).waits opts.acceptProxyTimeout :=
    .inr (Nat.zero_le _)
  have seen : (promptClient buf nonempty).peek 256 = buf :=
    List.take_of_length_le short
  have enough :
      buf.length - slice.length ≤
        (promptClient buf nonempty).bytes.length := by
    rw [ClientSocket.bytes]
    change _ ≤ ([buf].flatten).length
    rw [List.flatten_singleton]
    exact Nat.sub_le _ _
  rcases ClientSocket.exists_readExact enough with ⟨taken, after, read⟩
  refine ⟨promptClient buf nonempty, after, header, ?_⟩
  rw [acceptInto, if_pos timely, seen]
  dsimp only
  rw [parsed]
  dsimp only
  rw [read]

/-- For an unknown version some client brings the abort about. -/
theorem exists_abort
    (accepts : AcceptsSome library)
    (sends : opts.acceptProxy = true → opts.sendProxy = true)
    (unknown : ¬Spoken opts.sendProxyVersion) :
    ∃ src, handleProxySlots library src opts = .error .version := by
  rcases @exists_accepted _ opts accepts with ⟨src, after, header, accepted⟩
  refine ⟨src, ?_⟩
  cases accept : opts.acceptProxy with
  | false =>
      rw [handleProxySlots_plain accept]
      exact sendSlots_unknown ProxySlots.uninit_filled unknown
  | true =>
      rw [handleProxySlots_accepted accept accepted, if_pos (sends accept)]
      exact sendSlots_unknown (ProxySlots.after_filled header) unknown

end Aborts

/-! ## The configuration -/

/-- The options a network section is built into. -/
def ProxyOpts.built (net : NetConf) (kaminari : Kaminari) : ProxyOpts :=
  let opts := (net.build kaminari).connOpts.proxyOpts
  { sendProxy := opts.sendProxy
    acceptProxy := opts.acceptProxy
    sendProxyVersion := opts.sendProxyVersion
    acceptProxyTimeout := opts.acceptProxyTimeout }

/-- The section names a known version, if it names one. -/
def KnownVersion (net : NetConf) : Prop :=
  net.sendProxyVersion = none ∨ net.sendProxyVersion = some 1 ∨
    net.sendProxyVersion = some 2

theorem spoken_built_iff (net : NetConf) (kaminari : Kaminari) :
    Spoken (ProxyOpts.built net kaminari).sendProxyVersion ↔
      KnownVersion net := by
  change (net.sendProxyVersion.getD Conf.Consts.proxyProtocolVersion = 1 ∨
    net.sendProxyVersion.getD Conf.Consts.proxyProtocolVersion = 2) ↔ _
  cases configured : net.sendProxyVersion with
  | none => simp [KnownVersion, configured, Conf.Consts.proxyProtocolVersion]
  | some version => simp [KnownVersion, configured]

theorem sendProxy_built_iff (net : NetConf) (kaminari : Kaminari) :
    (ProxyOpts.built net kaminari).sendProxy = true ↔
      net.sendProxy = some true := by
  change net.sendProxy.getD false = true ↔ _
  cases net.sendProxy with
  | none => simp
  | some value => simp

theorem acceptProxy_built_iff (net : NetConf) (kaminari : Kaminari) :
    (ProxyOpts.built net kaminari).acceptProxy = true ↔
      net.acceptProxy = some true := by
  change net.acceptProxy.getD false = true ↔ _
  cases net.acceptProxy with
  | none => simp
  | some value => simp

theorem passProxy_eq
    (library : ProxyProtocol) (src : ClientSocket) (opts : ProxyOpts)
    (enabled : opts.sendProxy = true ∨ opts.acceptProxy = true) :
    passProxy library src opts = handleProxySlots library src opts := by
  rw [passProxy, if_pos (Bool.or_eq_true_iff.2 enabled)]

/-- `handle_proxy` by itself: no abort for any client if and only if the
version is known or only headers of clients are taken. -/
theorem handleProxySlots_never_aborts_iff
    {library : ProxyProtocol} (accepts : AcceptsSome library)
    (opts : ProxyOpts) :
    NeverAborts (fun src => handleProxySlots library src opts) ↔
      ¬opts.sendProxy = true ∧ opts.acceptProxy = true ∨
        Spoken opts.sendProxyVersion := by
  constructor
  · intro never
    by_contra fails
    rw [not_or, not_and'] at fails
    have sends (accept : opts.acceptProxy = true) :
        opts.sendProxy = true :=
      not_not.1 (fails.1 accept)
    rcases exists_abort accepts sends fails.2 with ⟨src, stopped⟩
    exact never src .version stopped trivial
  · intro safe src stop stopped aborts
    rcases handleProxySlots_aborts stopped aborts with
      ⟨_, unknown, sends⟩
    rcases safe with ⟨silent, accept⟩ | spoken
    · exact silent (sends accept)
    · exact unknown spoken

/-- The call in `connect_and_relay`: there a version that is not known is of
no account only if no header is sent. -/
theorem passProxy_opts_never_aborts_iff
    {library : ProxyProtocol} (accepts : AcceptsSome library)
    (opts : ProxyOpts) :
    NeverAborts (fun src => passProxy library src opts) ↔
      ¬opts.sendProxy = true ∨ Spoken opts.sendProxyVersion := by
  constructor
  · intro never
    by_contra fails
    rw [not_or, not_not] at fails
    rcases exists_abort accepts (fun _ => fails.1) fails.2 with
      ⟨src, stopped⟩
    apply never src .version _ trivial
    dsimp only
    rw [passProxy_eq library src _ (.inl fails.1), stopped]
  · intro safe src stop stopped aborts
    dsimp only at stopped
    by_cases enabled : opts.sendProxy = true ∨ opts.acceptProxy = true
    · rw [passProxy_eq library src _ enabled] at stopped
      rcases handleProxySlots_aborts stopped aborts with
        ⟨_, unknown, sends⟩
      rcases safe with silent | known
      · exact silent (sends (enabled.resolve_left silent))
      · exact unknown known
    · rw [passProxy, if_neg (mt Bool.or_eq_true_iff.1 enabled)]
        at stopped
      cases stopped

/-- The address slots are never read before they are written, nor with
addresses of two families, and without them the code does the same.  Handling
the header aborts for no client if and only if no header is sent or the
version is one of the two known ones. -/
theorem passProxy_never_aborts_iff
    {library : ProxyProtocol} (accepts : AcceptsSome library)
    (net : NetConf) (kaminari : Kaminari) :
    (NeverAborts (fun src =>
        passProxy library src (.built net kaminari)) ↔
      net.sendProxy ≠ some true ∨ KnownVersion net) ∧
    (NeverAborts (fun src =>
        handleProxySlots library src (.built net kaminari)) ↔
      (net.sendProxy ≠ some true ∧ net.acceptProxy = some true) ∨
        KnownVersion net) ∧
    (∀ src stop,
      handleProxySlots library src (.built net kaminari) = .error stop →
        stop ≠ .family ∧ stop ≠ .uninitialised) ∧
    ∀ src,
      (handleProxySlots library src (.built net kaminari)).mapError
          Stop.fault =
        handleProxy library src (.built net kaminari) := by
  have passing :=
    passProxy_opts_never_aborts_iff accepts (.built net kaminari)
  have alone :=
    handleProxySlots_never_aborts_iff accepts (.built net kaminari)
  rw [sendProxy_built_iff, spoken_built_iff] at passing
  rw [sendProxy_built_iff, acceptProxy_built_iff, spoken_built_iff]
    at alone
  refine ⟨passing, alone, ?_, fun src =>
    handleProxySlots_refines library src _⟩
  intro src stop stopped
  constructor
  · rintro rfl
    cases (handleProxySlots_aborts stopped trivial).1
  · rintro rfl
    cases (handleProxySlots_aborts stopped trivial).1

/-- A section that asks for version 3. -/
def thirdVersion : NetConf :=
  { NetConf.empty with
    sendProxy := some true
    sendProxyVersion := some 3 }

/-- Nothing outside. -/
def noKaminari : Kaminari :=
  (Conf.System.reading []).kaminari

theorem acceptsSome_binaryIpv4 : AcceptsSome BinaryIpv4.library :=
  ⟨BinaryIpv4.header, _, [], rfl, by decide, by decide⟩

/-- Any client of such a section aborts its handling. -/
theorem passProxy_aborts :
    ¬NeverAborts fun src =>
      passProxy BinaryIpv4.library src
        (.built thirdVersion noKaminari) := by
  intro never
  exact never (promptClient BinaryIpv4.header (by decide)) .version rfl
    trivial

theorem passProxy_never_aborts_iff_third :
    (NeverAborts (fun src =>
        passProxy BinaryIpv4.library src
          (.built thirdVersion noKaminari)) ↔
      thirdVersion.sendProxy ≠ some true ∨ KnownVersion thirdVersion) ∧
    (NeverAborts (fun src =>
        handleProxySlots BinaryIpv4.library src
          (.built thirdVersion noKaminari)) ↔
      (thirdVersion.sendProxy ≠ some true ∧
          thirdVersion.acceptProxy = some true) ∨
        KnownVersion thirdVersion) ∧
    (∀ src stop,
      handleProxySlots BinaryIpv4.library src
          (.built thirdVersion noKaminari) = .error stop →
        stop ≠ .family ∧ stop ≠ .uninitialised) ∧
    ∀ src,
      (handleProxySlots BinaryIpv4.library src
          (.built thirdVersion noKaminari)).mapError Stop.fault =
        handleProxy BinaryIpv4.library src
          (.built thirdVersion noKaminari) :=
  passProxy_never_aborts_iff acceptsSome_binaryIpv4 thirdVersion noKaminari

end ByteHub.Core
