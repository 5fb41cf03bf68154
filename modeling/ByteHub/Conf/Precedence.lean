import ByteHub.Conf.NetConf

/-!
# Configuration precedence

A full configuration holds a global network section and one per endpoint.
Endpoints first take what they lack from the global section, then the
command line overrides.
-/

namespace ByteHub.Conf

/-- Endpoint section. -/
structure EndpointConf where
  listen : String
  remote : String
  extraRemotes : List String
  obfs : Option String
  probeTargets : List String
  balance : Option String
  through : Option String
  interface : Option String
  listenInterface : Option String
  listenTransport : Option String
  remoteTransport : Option String
  network : NetConf
deriving DecidableEq, Repr

/-- The whole configuration. -/
structure FullConf where
  log : LogConf
  dns : DnsConf
  network : NetConf
  endpoints : List EndpointConf
deriving DecidableEq, Repr

/-- What the command line overrides. -/
structure CmdOverride where
  log : LogConf
  dns : DnsConf
  network : NetConf
deriving DecidableEq, Repr

namespace FullConf

/-- Let the command line override. -/
def applyCmdOpts (full : FullConf) (opts : CmdOverride) : FullConf :=
  { full with
    log := full.log.rstField opts.log
    dns := full.dns.rstField opts.dns
    endpoints := full.endpoints.map fun endpoint =>
      { endpoint with network := endpoint.network.rstField opts.network } }

/-- Let every endpoint take the global options. -/
def applyGlobalOpts (full : FullConf) : FullConf :=
  { full with
    endpoints := full.endpoints.map fun endpoint =>
      { endpoint with network := endpoint.network.takeField full.network } }

/-- An override whose network section comes from the command line. -/
def overrideOf
    (log : LogConf) (dns : DnsConf) (arguments : ArgMatches) :
    CmdOverride where
  log := log
  dns := dns
  network := .fromCmdArgs arguments

/-! ## What the options are named -/

/-- The value of the option that carries a field's name. -/
def sameNamed (arguments : ArgMatches) :
    (field : NetField) → Option field.Value
  | .noTcp => arguments.unpackFlag .noTcp
  | .useUdp => arguments.unpackFlag .useUdp
  | .ipv6Only => arguments.unpackFlag .ipv6Only
  | .tcpKeepalive => arguments.unpackUsize .tcpKeepalive
  | .tcpKeepaliveProbe => arguments.unpackUsize .tcpKeepaliveProbe
  | .tcpTimeout => arguments.unpackUsize .tcpTimeout
  | .udpTimeout => arguments.unpackUsize .udpTimeout
  | .sendProxy => arguments.unpackBool .sendProxy
  | .sendProxyVersion => arguments.unpackUsize .sendProxyVersion
  | .acceptProxy => arguments.unpackBool .acceptProxy
  | .acceptProxyTimeout => arguments.unpackUsize .acceptProxyTimeout
  | .sendMptcp | .acceptMptcp | .maxFails | .failTimeout => none
  | .maxLatency | .probeIntervalSecs => none
  | .probeUnhealthyIntervalSecs | .probeTimeoutMs | .poolMinIdle => none

/-- The value of the option meant for a field: one flag turns on multipath
tcp on both sides. -/
def meantFor (arguments : ArgMatches) :
    (field : NetField) → Option field.Value
  | .sendMptcp => arguments.unpackFlag .useMptcp
  | .acceptMptcp => arguments.unpackFlag .useMptcp
  | field => sameNamed arguments field

/-- Neither keepalive option gives a value: it is not on the command line, or
its text does not parse. -/
def NoKeepaliveOption (arguments : ArgMatches) : Prop :=
  arguments.unpackUsize .tcpKeepalive = none ∧
    arguments.unpackUsize .tcpKeepaliveProbe = none

theorem get_fromCmdArgs
    (arguments : ArgMatches) (field : NetField)
    (promised : field = .tcpKeepaliveProbe →
      NoKeepaliveOption arguments) :
    (NetConf.fromCmdArgs arguments).get field =
      meantFor arguments field := by
  cases field with
  | tcpKeepaliveProbe =>
      rcases promised rfl with ⟨interval, probe⟩
      change arguments.unpackUsize .tcpKeepalive =
        arguments.unpackUsize .tcpKeepaliveProbe
      rw [interval, probe]
  | _ => rfl

/-! ## Precedence -/

/-- The two steps commute. -/
theorem apply_comm (full : FullConf) (opts : CmdOverride) :
    full.applyGlobalOpts.applyCmdOpts opts =
      (full.applyCmdOpts opts).applyGlobalOpts := by
  unfold applyGlobalOpts applyCmdOpts
  simp only [List.map_map, FullConf.mk.injEq, true_and]
  apply List.map_congr_left
  intro endpoint _
  simp only [Function.comp_apply, EndpointConf.mk.injEq, true_and]
  apply NetConf.ext_get
  intro field
  rw [NetConf.get_rstField, NetConf.get_takeField, NetConf.get_takeField,
    NetConf.get_rstField, Option.or_assoc]

/-- The value an endpoint ends up with for a field. -/
def effective
    (full : FullConf) (opts : CmdOverride) (position : ℕ)
    (field : NetField) : Option (Option field.Value) :=
  ((full.applyGlobalOpts.applyCmdOpts opts).endpoints[position]?).map
    fun endpoint => endpoint.network.get field

theorem effective_eq
    (full : FullConf) (opts : CmdOverride) (position : ℕ)
    (field : NetField) :
    full.effective opts position field =
      (full.endpoints[position]?).map fun endpoint =>
        (opts.network.get field).or
          ((endpoint.network.get field).or (full.network.get field)) := by
  simp [effective, applyGlobalOpts, applyCmdOpts, Function.comp_def,
    NetConf.get_rstField, NetConf.get_takeField]

/--
The option meant for a field overrides the endpoint's own value, and this the
global one; the two steps commute; and a field does not depend on options
meant for other fields.  The keepalive probe count is left out when one of
the keepalive options gives a value.
-/
theorem precedence
    (full : FullConf) (log : LogConf) (dns : DnsConf)
    (arguments : ArgMatches) :
    (∀ position field,
      (field = .tcpKeepaliveProbe → NoKeepaliveOption arguments) →
        full.effective (overrideOf log dns arguments) position field =
          (full.endpoints[position]?).map fun endpoint =>
            (meantFor arguments field).or
              ((endpoint.network.get field).or
                (full.network.get field))) ∧
    full.applyGlobalOpts.applyCmdOpts (overrideOf log dns arguments) =
      (full.applyCmdOpts (overrideOf log dns arguments)).applyGlobalOpts ∧
    ∀ (others : ArgMatches) (position : ℕ) (field : NetField),
      (field = .tcpKeepaliveProbe →
          NoKeepaliveOption others ∧ NoKeepaliveOption arguments) →
        meantFor others field = meantFor arguments field →
          full.effective (overrideOf log dns others) position field =
            full.effective (overrideOf log dns arguments) position
              field := by
  refine ⟨?_, apply_comm full _, ?_⟩
  · intro position field promised
    rw [effective_eq, overrideOf, get_fromCmdArgs arguments field promised]
  · intro others position field promised same
    rw [effective_eq, effective_eq, overrideOf, overrideOf,
      get_fromCmdArgs others field fun isProbe => (promised isProbe).1,
      get_fromCmdArgs arguments field fun isProbe => (promised isProbe).2,
      same]

/-- A configuration with one endpoint and no network option anywhere. -/
def plain : FullConf where
  log := ⟨none, none⟩
  dns := ⟨none, none, none, none, none, none⟩
  network := .empty
  endpoints :=
    [{ listen := "0.0.0.0:80"
       remote := "1.1.1.1:80"
       extraRemotes := []
       obfs := none
       probeTargets := []
       balance := none
       through := none
       interface := none
       listenInterface := none
       listenTransport := none
       remoteTransport := none
       network := .empty }]

/-- The command line with a single flag. -/
def onlyFlag (flag : FlagArg) : ArgMatches where
  getFlag key := key = flag
  getOne _ := none

/-- The flag for multipath tcp sets a field that no option is named after. -/
theorem mptcp_flag_sets_sendMptcp :
    plain.effective (overrideOf plain.log plain.dns (onlyFlag .useMptcp)) 0
        .sendMptcp ≠
      (plain.endpoints[0]?).map fun endpoint =>
        (sameNamed (onlyFlag .useMptcp) .sendMptcp).or
          ((endpoint.network.get .sendMptcp).or
            (plain.network.get .sendMptcp)) := by
  intro equal
  cases equal

end FullConf

end ByteHub.Conf
