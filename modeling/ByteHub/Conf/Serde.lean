import ByteHub.Conf.Precedence
import ByteHub.Library.Document

/-!
# Serialisation of configurations

The sections as the derived attributes write and read them.  An absent field
is skipped, with one exception: nothing skips the timeout of the proxy
header, and a format writes its absence as it can.  A whole section is
skipped if its `is_empty` says so, a list if it has no item.
-/

namespace ByteHub.Conf

open ByteHub.Library
open Document (entries optional required withDefault)

/-! ## Log and dns sections -/

/-- Names of the log levels. -/
def LogLevel.name : LogLevel → String
  | .off => "off"
  | .error => "error"
  | .warn => "warn"
  | .info => "info"
  | .debug => "debug"
  | .trace => "trace"

def LogLevel.codec : Codec LogLevel :=
  .named [.off, .error, .warn, .info, .debug, .trace] LogLevel.name
    (fun level => by cases level <;> decide)
    (fun left right => by cases left <;> cases right <;> decide)

/-- Names of the dns modes. -/
def DnsMode.name : DnsMode → String
  | .ipv4Only => "ipv4_only"
  | .ipv6Only => "ipv6_only"
  | .ipv4AndIpv6 => "ipv4_and_ipv6"
  | .ipv4ThenIpv6 => "ipv4_then_ipv6"
  | .ipv6ThenIpv4 => "ipv6_then_ipv4"

def DnsMode.codec : Codec DnsMode :=
  .named [.ipv4Only, .ipv6Only, .ipv4AndIpv6, .ipv4ThenIpv6, .ipv6ThenIpv4]
    DnsMode.name
    (fun mode => by cases mode <;> decide)
    (fun left right => by cases left <;> cases right <;> decide)

/-- Names of the dns protocols. -/
def DnsProtocol.name : DnsProtocol → String
  | .tcp => "tcp"
  | .udp => "udp"
  | .tcpAndUdp => "tcp_and_udp"

def DnsProtocol.codec : Codec DnsProtocol :=
  .named [.tcp, .udp, .tcpAndUdp] DnsProtocol.name
    (fun protocol => by cases protocol <;> decide)
    (fun left right => by cases left <;> cases right <;> decide)

/-- A field that is skipped while absent. -/
def skipNone {α : Type}
    (codec : Codec α) (value : Option α) : Option Document :=
  (value.map codec.write).or none

namespace LogConf

def empty : LogConf where
  level := none
  output := none

/-- `is_empty` of the log section. -/
def isEmpty (log : LogConf) : Bool :=
  log.level.isNone && log.output.isNone

theorem eq_empty_of_isEmpty {log : LogConf} (nothing : log.isEmpty = true) :
    log = empty := by
  rcases log with ⟨_ | level, _ | output⟩ <;>
    first | rfl | cases nothing

def fields (log : LogConf) : List (String × Option Document) :=
  [("level", skipNone LogLevel.codec log.level),
    ("output", skipNone .string log.output)]

def read : Document → Option LogConf
  | .table table => do
      let level ← optional LogLevel.codec "level" table
      let output ← optional .string "output" table
      some ⟨level, output⟩
  | _ => none

theorem distinct (log : LogConf) : (log.fields.map Prod.fst).Nodup := by
  simp [fields]

def codec : Codec LogConf where
  write log := .table (entries log.fields)
  read := read
  read_write log := by
    rw [read, Document.optional_entries log.distinct _ 0 (.inl rfl) rfl,
      Document.optional_entries log.distinct _ 1 (.inl rfl) rfl]
    rfl
  write_ne_null _ := Document.noConfusion

end LogConf

namespace DnsConf

def empty : DnsConf where
  mode := none
  protocol := none
  nameservers := none
  minTtl := none
  maxTtl := none
  cacheSize := none

/-- `is_empty` of the dns section, with the fields it lists. -/
def isEmpty (dns : DnsConf) : Bool :=
  dns.mode.isNone && dns.minTtl.isNone && dns.maxTtl.isNone &&
    dns.cacheSize.isNone

def fields (dns : DnsConf) : List (String × Option Document) :=
  [("mode", skipNone DnsMode.codec dns.mode),
    ("min_ttl", skipNone .uint32 dns.minTtl),
    ("max_ttl", skipNone .uint32 dns.maxTtl),
    ("cache_size", skipNone .uint64 dns.cacheSize),
    ("protocol", skipNone DnsProtocol.codec dns.protocol),
    ("nameservers", skipNone (.list .string) dns.nameservers)]

def read : Document → Option DnsConf
  | .table table => do
      let mode ← optional DnsMode.codec "mode" table
      let minTtl ← optional .uint32 "min_ttl" table
      let maxTtl ← optional .uint32 "max_ttl" table
      let cacheSize ← optional .uint64 "cache_size" table
      let protocol ← optional DnsProtocol.codec "protocol" table
      let nameservers ← optional (.list .string) "nameservers" table
      some ⟨mode, protocol, nameservers, minTtl, maxTtl, cacheSize⟩
  | _ => none

theorem distinct (dns : DnsConf) : (dns.fields.map Prod.fst).Nodup := by
  simp [fields]

def codec : Codec DnsConf where
  write dns := .table (entries dns.fields)
  read := read
  read_write dns := by
    rw [read, Document.optional_entries dns.distinct _ 0 (.inl rfl) rfl,
      Document.optional_entries dns.distinct _ 1 (.inl rfl) rfl,
      Document.optional_entries dns.distinct _ 2 (.inl rfl) rfl,
      Document.optional_entries dns.distinct _ 3 (.inl rfl) rfl,
      Document.optional_entries dns.distinct _ 4 (.inl rfl) rfl,
      Document.optional_entries dns.distinct _ 5 (.inl rfl) rfl]
    rfl
  write_ne_null _ := Document.noConfusion

end DnsConf

/-! ## The network section -/

namespace NetConf

/-- `is_empty` of the network section. -/
def isEmpty (net : NetConf) : Bool :=
  net.noTcp.isNone && net.useUdp.isNone && net.ipv6Only.isNone &&
    net.sendMptcp.isNone && net.acceptMptcp.isNone &&
    net.sendProxy.isNone && net.acceptProxy.isNone &&
    net.sendProxyVersion.isNone && net.acceptProxyTimeout.isNone &&
    net.tcpKeepalive.isNone && net.tcpKeepaliveProbe.isNone &&
    net.tcpTimeout.isNone && net.udpTimeout.isNone &&
    net.maxFails.isNone && net.failTimeout.isNone &&
    net.maxLatency.isNone && net.probeIntervalSecs.isNone &&
    net.probeUnhealthyIntervalSecs.isNone && net.probeTimeoutMs.isNone &&
    net.poolMinIdle.isNone

theorem eq_empty_of_isEmpty {net : NetConf} (nothing : net.isEmpty = true) :
    net = empty := by
  cases net
  simpa [isEmpty, empty, and_assoc] using nothing

/-- The fields as a format writes them. -/
def fields (net : NetConf) (format : Format) :
    List (String × Option Document) :=
  [("no_tcp", skipNone .bool net.noTcp),
    ("use_udp", skipNone .bool net.useUdp),
    ("ipv6_only", skipNone .bool net.ipv6Only),
    ("send_mptcp", skipNone .bool net.sendMptcp),
    ("accept_mptcp", skipNone .bool net.acceptMptcp),
    ("send_proxy", skipNone .bool net.sendProxy),
    ("accept_proxy", skipNone .bool net.acceptProxy),
    ("send_proxy_version", skipNone .uint64 net.sendProxyVersion),
    ("accept_proxy_timeout",
      (net.acceptProxyTimeout.map Codec.uint64.write).or format.absent),
    ("tcp_keepalive", skipNone .uint64 net.tcpKeepalive),
    ("tcp_keepalive_probe", skipNone .uint64 net.tcpKeepaliveProbe),
    ("tcp_timeout", skipNone .uint64 net.tcpTimeout),
    ("udp_timeout", skipNone .uint64 net.udpTimeout),
    ("max_fails", skipNone .uint32 net.maxFails),
    ("fail_timeout_secs", skipNone .uint32 net.failTimeout),
    ("max_latency_ms", skipNone .uint32 net.maxLatency),
    ("probe_interval_secs", skipNone .uint64 net.probeIntervalSecs),
    ("probe_unhealthy_interval_secs",
      skipNone .uint64 net.probeUnhealthyIntervalSecs),
    ("probe_timeout_ms", skipNone .uint64 net.probeTimeoutMs),
    ("pool_min_idle", skipNone .uint64 net.poolMinIdle)]

def read : Document → Option NetConf
  | .table table => do
      let noTcp ← optional .bool "no_tcp" table
      let useUdp ← optional .bool "use_udp" table
      let ipv6Only ← optional .bool "ipv6_only" table
      let sendMptcp ← optional .bool "send_mptcp" table
      let acceptMptcp ← optional .bool "accept_mptcp" table
      let sendProxy ← optional .bool "send_proxy" table
      let acceptProxy ← optional .bool "accept_proxy" table
      let sendProxyVersion ← optional .uint64 "send_proxy_version" table
      let acceptProxyTimeout ← optional .uint64 "accept_proxy_timeout" table
      let tcpKeepalive ← optional .uint64 "tcp_keepalive" table
      let tcpKeepaliveProbe ← optional .uint64 "tcp_keepalive_probe" table
      let tcpTimeout ← optional .uint64 "tcp_timeout" table
      let udpTimeout ← optional .uint64 "udp_timeout" table
      let maxFails ← optional .uint32 "max_fails" table
      let failTimeout ← optional .uint32 "fail_timeout_secs" table
      let maxLatency ← optional .uint32 "max_latency_ms" table
      let probeIntervalSecs ← optional .uint64 "probe_interval_secs" table
      let probeUnhealthyIntervalSecs ←
        optional .uint64 "probe_unhealthy_interval_secs" table
      let probeTimeoutMs ← optional .uint64 "probe_timeout_ms" table
      let poolMinIdle ← optional .uint64 "pool_min_idle" table
      some
        { noTcp := noTcp
          useUdp := useUdp
          ipv6Only := ipv6Only
          sendMptcp := sendMptcp
          acceptMptcp := acceptMptcp
          sendProxy := sendProxy
          acceptProxy := acceptProxy
          sendProxyVersion := sendProxyVersion
          acceptProxyTimeout := acceptProxyTimeout
          tcpKeepalive := tcpKeepalive
          tcpKeepaliveProbe := tcpKeepaliveProbe
          tcpTimeout := tcpTimeout
          udpTimeout := udpTimeout
          maxFails := maxFails
          failTimeout := failTimeout
          maxLatency := maxLatency
          probeIntervalSecs := probeIntervalSecs
          probeUnhealthyIntervalSecs := probeUnhealthyIntervalSecs
          probeTimeoutMs := probeTimeoutMs
          poolMinIdle := poolMinIdle }
  | _ => none

theorem distinct (net : NetConf) (format : Format) :
    ((net.fields format).map Prod.fst).Nodup := by
  simp [fields]

def codec (format : Format) : Codec NetConf where
  write net := .table (entries (net.fields format))
  read := read
  read_write net := by
    have skipped {α : Type} {codec : Codec α} (index : ℕ) {key : String}
        {value : Option α}
        (here : (net.fields format)[index]? =
          some (key, skipNone codec value)) :
        optional codec key (entries (net.fields format)) = some value :=
      Document.optional_entries (net.distinct format) codec index
        (.inl rfl) here
    have timeout :
        optional .uint64 "accept_proxy_timeout"
            (entries (net.fields format)) =
          some net.acceptProxyTimeout :=
      Document.optional_entries (net.distinct format) .uint64 8
        format.absent_eq rfl
    rw [read, skipped 0 rfl,
      skipped 1 rfl,
      skipped 2 rfl,
      skipped 3 rfl,
      skipped 4 rfl,
      skipped 5 rfl,
      skipped 6 rfl,
      skipped 7 rfl,
      timeout,
      skipped 9 rfl,
      skipped 10 rfl,
      skipped 11 rfl,
      skipped 12 rfl,
      skipped 13 rfl,
      skipped 14 rfl,
      skipped 15 rfl,
      skipped 16 rfl,
      skipped 17 rfl,
      skipped 18 rfl,
      skipped 19 rfl]
    rfl
  write_ne_null _ := Document.noConfusion

end NetConf

/-! ## Endpoints -/

namespace EndpointConf

/-- A list that is skipped while it has no item. -/
def skipEmpty (values : List String) : Option Document :=
  if values.isEmpty then none else some (Codec.write (.list .string) values)

/-- The fields as a format writes them. -/
def fields (conf : EndpointConf) (format : Format) :
    List (String × Option Document) :=
  [("listen", some (Codec.string.write conf.listen)),
    ("remote", some (Codec.string.write conf.remote)),
    ("extra_remotes", skipEmpty conf.extraRemotes),
    ("obfs", skipNone .string conf.obfs),
    ("probe_targets", skipEmpty conf.probeTargets),
    ("balance", skipNone .string conf.balance),
    ("through", skipNone .string conf.through),
    ("interface", skipNone .string conf.interface),
    ("listen_interface", skipNone .string conf.listenInterface),
    ("listen_transport", skipNone .string conf.listenTransport),
    ("remote_transport", skipNone .string conf.remoteTransport),
    ("network",
      if conf.network.isEmpty then none
      else some ((NetConf.codec format).write conf.network))]

def read (format : Format) : Document → Option EndpointConf
  | .table table => do
      let listen ← required .string "listen" table
      let remote ← required .string "remote" table
      let extraRemotes ←
        withDefault (.list .string) [] "extra_remotes" table
      let obfs ← optional .string "obfs" table
      let probeTargets ←
        withDefault (.list .string) [] "probe_targets" table
      let balance ← optional .string "balance" table
      let through ← optional .string "through" table
      let interface ← optional .string "interface" table
      let listenInterface ← optional .string "listen_interface" table
      let listenTransport ← optional .string "listen_transport" table
      let remoteTransport ← optional .string "remote_transport" table
      let network ←
        withDefault (NetConf.codec format) .empty "network" table
      some
        { listen := listen
          remote := remote
          extraRemotes := extraRemotes
          obfs := obfs
          probeTargets := probeTargets
          balance := balance
          through := through
          interface := interface
          listenInterface := listenInterface
          listenTransport := listenTransport
          remoteTransport := remoteTransport
          network := network }
  | _ => none

theorem distinct (conf : EndpointConf) (format : Format) :
    ((conf.fields format).map Prod.fst).Nodup := by
  simp [fields]

private theorem nil_or_self (values : List String) :
    (if values.isEmpty then [] else values) = values := by
  cases values <;> rfl

private theorem empty_or_self (net : NetConf) :
    (if net.isEmpty then NetConf.empty else net) = net := by
  split
  · next nothing => exact (NetConf.eq_empty_of_isEmpty nothing).symm
  · rfl

def codec (format : Format) : Codec EndpointConf where
  write conf := .table (entries (conf.fields format))
  read := read format
  read_write conf := by
    have skipped (index : ℕ) {key : String} {value : Option String}
        (here : (conf.fields format)[index]? =
          some (key, skipNone .string value)) :
        optional .string key (entries (conf.fields format)) = some value :=
      Document.optional_entries (conf.distinct format) .string index
        (.inl rfl) here
    rw [read,
      Document.required_entries (conf.distinct format) .string 0 rfl,
      Document.required_entries (conf.distinct format) .string 1 rfl,
      Document.withDefault_entries (conf.distinct format)
        (.list .string) 2 rfl,
      skipped 3 rfl,
      Document.withDefault_entries (conf.distinct format)
        (.list .string) 4 rfl,
      skipped 5 rfl, skipped 6 rfl, skipped 7 rfl, skipped 8 rfl,
      skipped 9 rfl, skipped 10 rfl,
      Document.withDefault_entries (conf.distinct format)
        (NetConf.codec format) 11 rfl,
      nil_or_self, nil_or_self, empty_or_self]
    rfl
  write_ne_null _ := Document.noConfusion

end EndpointConf

/-! ## The whole configuration -/

namespace FullConf

/-- The fields as a format writes them. -/
def fields (full : FullConf) (format : Format) :
    List (String × Option Document) :=
  [("log",
      if full.log.isEmpty then none
      else some (LogConf.codec.write full.log)),
    ("dns",
      if full.dns.isEmpty then none
      else some (DnsConf.codec.write full.dns)),
    ("network",
      if full.network.isEmpty then none
      else some ((NetConf.codec format).write full.network)),
    ("endpoints",
      some ((Codec.list (EndpointConf.codec format)).write
        full.endpoints))]

def write (full : FullConf) (format : Format) : Document :=
  .table (entries (full.fields format))

def read (format : Format) : Document → Option FullConf
  | .table table => do
      let log ← withDefault LogConf.codec .empty "log" table
      let dns ← withDefault DnsConf.codec .empty "dns" table
      let network ←
        withDefault (NetConf.codec format) .empty "network" table
      let endpoints ←
        required (.list (EndpointConf.codec format)) "endpoints" table
      some ⟨log, dns, network, endpoints⟩
  | _ => none

theorem distinct (full : FullConf) (format : Format) :
    ((full.fields format).map Prod.fst).Nodup := by
  simp [fields]

/-- What is written is read back, but for a dns section that counts as
empty. -/
theorem read_write (full : FullConf) (format : Format) :
    read format (full.write format) =
      some
        { full with
          dns := if full.dns.isEmpty then .empty else full.dns } := by
  have logKept :
      (if full.log.isEmpty then LogConf.empty else full.log) =
        full.log := by
    split
    · next nothing => exact (LogConf.eq_empty_of_isEmpty nothing).symm
    · rfl
  rw [write, read,
    Document.withDefault_entries (full.distinct format) LogConf.codec 0 rfl,
    Document.withDefault_entries (full.distinct format) DnsConf.codec 1 rfl,
    Document.withDefault_entries (full.distinct format)
      (NetConf.codec format) 2 rfl,
    Document.required_entries (full.distinct format)
      (.list (EndpointConf.codec format)) 3 rfl,
    logKept, EndpointConf.empty_or_self]
  rfl

end FullConf

end ByteHub.Conf
