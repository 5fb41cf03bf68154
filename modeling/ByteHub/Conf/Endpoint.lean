import ByteHub.Conf.Precedence
import ByteHub.Conf.Text
import ByteHub.Core.Pool
import ByteHub.Lb.Balancer

/-!
# Building endpoints

What the program runs from a configuration: options with their defaults
filled in, addresses, the balancer, and the settings of probe and pool.
Building stops the program when a part of the endpoint makes no sense; such
a part has no value here.

Name resolution, the parsers of socket addresses, Unicode lower case, the
transport library and the standard library's choices in a ring are
parameters.
-/

namespace ByteHub.Conf

open ByteHub.Core
open ByteHub.Lb

/-! ## Outside -/

/-- Socket address. -/
inductive SocketAddr where
  | v4 (octets : Fin 4 → UInt8) (port : UInt16)
  | v6 (octets : Fin 16 → UInt8) (port : UInt16) (flowinfo scopeId : UInt32)

/-- `SocketAddr::new` -/
def SocketAddr.new (ip : IpAddr) (port : UInt16) : SocketAddr :=
  match ip with
  | .v4 octets => .v4 octets port
  | .v6 octets => .v6 octets port 0 0

/-- `SocketAddr::is_ipv4` -/
def SocketAddr.isIpv4 : SocketAddr → Bool
  | .v4 _ _ => true
  | .v6 _ _ _ _ => false

/-- The transport library. -/
structure Kaminari where
  WsConf : Type
  TlsClientConf : Type
  TlsServerConf : Type
  MixAccept : Type
  MixConnect : Type
  getWsConf : String → Option WsConf
  getTlsClientConf : String → Option TlsClientConf
  getTlsServerConf : String → Option TlsServerConf
  acceptShared : Option WsConf → Option TlsServerConf → Option MixAccept
  connectShared : Option WsConf → Option TlsClientConf → Option MixConnect

/-- What building an endpoint asks of the outside. -/
structure System where
  /-- `to_socket_addrs` -/
  toSocketAddrs : String → Option (List SocketAddr)
  /-- `parse::<SocketAddr>` -/
  parseSocketAddr : String → Option SocketAddr
  /-- `parse::<IpAddr>` -/
  parseIpAddr : String → Option IpAddr
  /-- `str::to_lowercase` -/
  toLowercase : String → String
  sort : UnstableSort
  search : BinarySearch
  kaminari : Kaminari

/-- An IPv4 socket address. -/
def SocketAddr.quad (a b c d : UInt8) (port : UInt16) : SocketAddr :=
  .v4 (fun place => [a, b, c, d].getD place 0) port

/-- A system without transports that reads a few address texts. -/
def System.reading (known : List (String × SocketAddr)) : System where
  toSocketAddrs text := (known.lookup text).map fun addr => [addr]
  parseSocketAddr text := known.lookup text
  parseIpAddr _ := none
  toLowercase := String.toLower
  sort := .insertion
  search := .first
  kaminari :=
    { WsConf := Unit
      TlsClientConf := Unit
      TlsServerConf := Unit
      MixAccept := Unit
      MixConnect := Unit
      getWsConf := fun _ => none
      getTlsClientConf := fun _ => none
      getTlsServerConf := fun _ => none
      acceptShared := fun _ _ => none
      connectShared := fun _ _ => none }

/-! ## What is built -/

/-- Remote address. -/
inductive RemoteAddr where
  | socketAddr (addr : SocketAddr)
  | domainName (host : String) (port : UInt16)

structure ProxyOpts where
  sendProxy : Bool
  acceptProxy : Bool
  sendProxyVersion : UInt64
  acceptProxyTimeout : UInt64

/-- Active probe configuration. -/
structure ProbeConfig where
  probeIntervalSecs : UInt64
  probeUnhealthyIntervalSecs : UInt64
  probeTimeoutMs : UInt64
  probeMaxFails : UInt32

structure ConnectOpts (kaminari : Kaminari) where
  sendMptcp : Bool
  connectTimeout : UInt64
  associateTimeout : UInt64
  tcpKeepalive : UInt64
  tcpKeepaliveProbe : UInt64
  bindAddress : Option SocketAddr
  bindInterface : Option String
  obfs : String
  proxyOpts : ProxyOpts
  transport : Option (kaminari.MixAccept × kaminari.MixConnect)
  balancer : Balancer
  probeConfig : Option ProbeConfig
  probeTargets : List RemoteAddr
  poolConfig : Option PoolConfig

structure BindOpts where
  ipv6Only : Bool
  acceptMptcp : Bool
  bindInterface : Option String

/-- A network section with its defaults filled in. -/
structure NetInfo (kaminari : Kaminari) where
  bindOpts : BindOpts
  connOpts : ConnectOpts kaminari
  noTcp : Bool
  useUdp : Bool
  maxFails : Option UInt32
  failTimeout : Option UInt32
  maxLatency : Option UInt32
  probeIntervalSecs : Option UInt64
  probeUnhealthyIntervalSecs : Option UInt64
  probeTimeoutMs : Option UInt64
  poolMinIdle : Option UInt64

/-- Relay endpoint. -/
structure Endpoint (kaminari : Kaminari) where
  laddr : SocketAddr
  raddr : RemoteAddr
  bindOpts : BindOpts
  connOpts : ConnectOpts kaminari
  extraRaddrs : List RemoteAddr

structure EndpointInfo (kaminari : Kaminari) where
  noTcp : Bool
  useUdp : Bool
  endpoint : Endpoint kaminari

/-! ## The network section -/

namespace Consts

def tcpTimeout : UInt64 := 5

def tcpKeepalive : UInt64 := 15

def tcpKeepaliveProbe : UInt64 := 3

def udpTimeout : UInt64 := 30

def proxyProtocolVersion : UInt64 := 2

def proxyProtocolTimeout : UInt64 := 5

end Consts

/-- Options of a network section; the rest is for the endpoint to fill in. -/
def NetConf.build (net : NetConf) (kaminari : Kaminari) :
    NetInfo kaminari where
  bindOpts :=
    { ipv6Only := net.ipv6Only.getD false
      acceptMptcp := net.acceptMptcp.getD false
      bindInterface := none }
  connOpts :=
    { sendMptcp := net.sendMptcp.getD false
      tcpKeepalive := net.tcpKeepalive.getD Consts.tcpKeepalive
      tcpKeepaliveProbe :=
        net.tcpKeepaliveProbe.getD Consts.tcpKeepaliveProbe
      connectTimeout := net.tcpTimeout.getD Consts.tcpTimeout
      associateTimeout := net.udpTimeout.getD Consts.udpTimeout
      bindAddress := none
      bindInterface := none
      obfs := ""
      balancer := .off
      probeConfig := none
      probeTargets := []
      poolConfig := none
      transport := none
      proxyOpts :=
        { sendProxy := net.sendProxy.getD false
          acceptProxy := net.acceptProxy.getD false
          sendProxyVersion :=
            net.sendProxyVersion.getD Consts.proxyProtocolVersion
          acceptProxyTimeout :=
            net.acceptProxyTimeout.getD Consts.proxyProtocolTimeout } }
  noTcp := net.noTcp.getD false
  useUdp := net.useUdp.getD false
  maxFails := net.maxFails
  failTimeout := net.failTimeout
  maxLatency := net.maxLatency
  probeIntervalSecs := net.probeIntervalSecs
  probeUnhealthyIntervalSecs := net.probeUnhealthyIntervalSecs
  probeTimeoutMs := net.probeTimeoutMs
  poolMinIdle := net.poolMinIdle

/-! ## The endpoint section -/

namespace EndpointConf

/-- A remote is a socket address, or a host name and a port. -/
def buildRemoteX (system : System) (remote : String) : Option RemoteAddr :=
  match system.parseSocketAddr remote with
  | some addr => some (.socketAddr addr)
  | none => do
      let (port, host) := rsplit2 ':' remote.toList
      let port ← parseU16 port
      let host ← host
      some (.domainName (String.ofList host) port)

variable (conf : EndpointConf) (system : System)

def buildLocal : Option SocketAddr := do
  let addrs ← system.toSocketAddrs conf.listen
  addrs.head?

def buildRemote : Option RemoteAddr :=
  buildRemoteX system conf.remote

/-- The local address of outgoing connections, if one is configured. -/
def buildSendThrough : Option (Option SocketAddr) :=
  match conf.through with
  | none => some none
  | some through =>
      match system.toSocketAddrs through with
      | some addrs => addrs.head?.map some
      | none =>
          let ipstr := through.toList.filter fun c => c ≠ '[' && c ≠ ']'
          some ((system.parseIpAddr (String.ofList ipstr)).map fun ip =>
            SocketAddr.new ip 0)

/-- Health checks need both a number of failures and a timeout. -/
def healthCheckOf (maxFails failTimeout maxLatency : Option UInt32) :
    Option HealthCheckConfig :=
  match maxFails, failTimeout with
  | some maxFails, some failTimeout =>
      some ⟨maxFails, failTimeout, maxLatency⟩
  | _, _ => none

/-- The strategy and the weights a text names.  An entry that is not a `u8`
is dropped. -/
def balanceOf (text : List Char) : Option Strategy × List UInt8 :=
  let (strategy, weights) := (splitOnce ':' text).getD (text, [])
  (Strategy.ofName (trim strategy),
    ((trim weights).splitOn ',').filterMap fun w => parseU8 (trim w))

def buildBalancer (maxFails failTimeout maxLatency : Option UInt32) :
    Option Balancer :=
  match conf.balance with
  | some text => do
      let (strategy, weights) := balanceOf text.toList
      Balancer.new system.sort system.search (← strategy) weights
        (healthCheckOf maxFails failTimeout maxLatency)
  | none => some .off

def buildTransport :
    Option
      (Option (system.kaminari.MixAccept × system.kaminari.MixConnect)) :=
  let kaminari := system.kaminari
  let listenWs := conf.listenTransport.bind kaminari.getWsConf
  let listenTls := conf.listenTransport.bind kaminari.getTlsServerConf
  let remoteWs := conf.remoteTransport.bind kaminari.getWsConf
  let remoteTls := conf.remoteTransport.bind kaminari.getTlsClientConf
  if listenWs.isNone && listenTls.isNone && remoteWs.isNone &&
      remoteTls.isNone then
    some none
  else do
    let ac ← kaminari.acceptShared listenWs listenTls
    let cc ← kaminari.connectShared remoteWs remoteTls
    some (some (ac, cc))

/-- The probe of an endpoint is on if it has an interval. -/
def probeConfigOf
    (interval unhealthyInterval timeout : Option UInt64)
    (maxFails : Option UInt32) : Option ProbeConfig :=
  interval.map fun interval =>
    { probeIntervalSecs := interval
      probeUnhealthyIntervalSecs :=
        unhealthyInterval.getD (max (interval / 2) 3)
      probeTimeoutMs := timeout.getD 3000
      probeMaxFails := maxFails.getD 2 }

/-- The pool is always on. -/
def poolConfigOf (minIdle : Option UInt64) : PoolConfig :=
  match minIdle with
  | some minIdle =>
      { (default : PoolConfig) with poolMinIdle := minIdle.toNat }
  | none => default

/-- Build the endpoint. -/
def build : Option (EndpointInfo system.kaminari) := do
  let laddr ← conf.buildLocal system
  let raddr ← conf.buildRemote system
  let extraRaddrs ← conf.extraRemotes.mapM (buildRemoteX system)
  let net := conf.network.build system.kaminari
  let balancer ←
    conf.buildBalancer system net.maxFails net.failTimeout net.maxLatency
  let transport ← conf.buildTransport system
  let bindAddress ← conf.buildSendThrough system
  let probeTargets ← conf.probeTargets.mapM (buildRemoteX system)
  some
    { noTcp := net.noTcp
      useUdp := net.useUdp
      endpoint :=
        { laddr := laddr
          raddr := raddr
          extraRaddrs := extraRaddrs
          bindOpts :=
            { net.bindOpts with bindInterface := conf.listenInterface }
          connOpts :=
            { net.connOpts with
              balancer := balancer
              transport := transport
              bindAddress := bindAddress
              bindInterface := conf.interface
              obfs := system.toLowercase (conf.obfs.getD "")
              probeConfig :=
                probeConfigOf net.probeIntervalSecs
                  net.probeUnhealthyIntervalSecs net.probeTimeoutMs
                  net.maxFails
              probeTargets := probeTargets
              poolConfig := some (poolConfigOf net.poolMinIdle) } } }

/-! ## What depends on the network section -/

/-- The parts of an endpoint that its network section has no say in. -/
structure Parts (kaminari : Kaminari) where
  laddr : SocketAddr
  raddr : RemoteAddr
  extraRaddrs : List RemoteAddr
  transport : Option (kaminari.MixAccept × kaminari.MixConnect)
  bindAddress : Option SocketAddr
  probeTargets : List RemoteAddr

def parts : Option (Parts system.kaminari) := do
  let laddr ← conf.buildLocal system
  let raddr ← conf.buildRemote system
  let extraRaddrs ← conf.extraRemotes.mapM (buildRemoteX system)
  let transport ← conf.buildTransport system
  let bindAddress ← conf.buildSendThrough system
  let probeTargets ← conf.probeTargets.mapM (buildRemoteX system)
  some ⟨laddr, raddr, extraRaddrs, transport, bindAddress, probeTargets⟩

/-- The endpoint with its parts and its balancer. -/
def assemble
    (parts : Parts system.kaminari) (balancer : Balancer) :
    EndpointInfo system.kaminari :=
  let net := conf.network.build system.kaminari
  { noTcp := net.noTcp
    useUdp := net.useUdp
    endpoint :=
      { laddr := parts.laddr
        raddr := parts.raddr
        extraRaddrs := parts.extraRaddrs
        bindOpts :=
          { net.bindOpts with bindInterface := conf.listenInterface }
        connOpts :=
          { net.connOpts with
            balancer := balancer
            transport := parts.transport
            bindAddress := parts.bindAddress
            bindInterface := conf.interface
            obfs := system.toLowercase (conf.obfs.getD "")
            probeConfig :=
              probeConfigOf net.probeIntervalSecs
                net.probeUnhealthyIntervalSecs net.probeTimeoutMs
                net.maxFails
            probeTargets := parts.probeTargets
            poolConfig := some (poolConfigOf net.poolMinIdle) } } }

/-- The balancer of the endpoint's own network section. -/
def ownBalancer : Option Balancer :=
  conf.buildBalancer system conf.network.maxFails conf.network.failTimeout
    conf.network.maxLatency

theorem build_eq :
    conf.build system =
      (conf.parts system).bind fun parts =>
        (conf.ownBalancer system).map (conf.assemble system parts) := by
  have balancer_eq :
      conf.buildBalancer system
          (conf.network.build system.kaminari).maxFails
          (conf.network.build system.kaminari).failTimeout
          (conf.network.build system.kaminari).maxLatency =
        conf.ownBalancer system :=
    rfl
  simp only [build, parts, balancer_eq]
  cases conf.buildLocal system with
  | none => rfl
  | some laddr =>
  cases conf.buildRemote system with
  | none => rfl
  | some raddr =>
  cases conf.extraRemotes.mapM (buildRemoteX system) with
  | none => rfl
  | some extraRaddrs =>
  cases conf.buildTransport system with
  | none => cases conf.ownBalancer system <;> rfl
  | some transport =>
  cases conf.buildSendThrough system with
  | none => cases conf.ownBalancer system <;> rfl
  | some bindAddress =>
  cases conf.probeTargets.mapM (buildRemoteX system) with
  | none => cases conf.ownBalancer system <;> rfl
  | some probeTargets => cases conf.ownBalancer system <;> rfl

end EndpointConf

end ByteHub.Conf
