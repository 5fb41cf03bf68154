import ByteHub.Conf.Loading

/-!
# The two routes of a configuration

A text reaches the program through the environment variable or as a file.
Only the second route lets the endpoints take the global options, so the
routes agree where the global options change no endpoint.
-/

namespace ByteHub.Conf

open ByteHub.Core
open ByteHub.Lb
open ByteHub.Library

/-! ## Global options without effect -/

/-- A global value does not change a field with a default: the field is set,
or the global value is absent or the default itself. -/
def Harmless {α : Type} (default : α) (own global : Option α) : Prop :=
  own.isSome = true ∨ global = none ∨ global = some default

theorem getD_take_iff
    {α : Type} (default : α) (own global : Option α) :
    own.getD default = (take own global).getD default ↔
      Harmless default own global := by
  rw [take_eq_or]
  cases own with
  | some own => simp [Harmless]
  | none =>
      cases global with
      | none => simp [Harmless]
      | some global => simp [Harmless, eq_comm]

/-- The default of a field that has one of its own. -/
def NetField.default : (field : NetField) → Option field.Value
  | .noTcp | .useUdp | .ipv6Only | .sendMptcp | .acceptMptcp => some false
  | .sendProxy | .acceptProxy => some false
  | .sendProxyVersion => some Consts.proxyProtocolVersion
  | .acceptProxyTimeout => some Consts.proxyProtocolTimeout
  | .tcpKeepalive => some Consts.tcpKeepalive
  | .tcpKeepaliveProbe => some Consts.tcpKeepaliveProbe
  | .tcpTimeout => some Consts.tcpTimeout
  | .udpTimeout => some Consts.udpTimeout
  | .maxFails | .failTimeout | .maxLatency => none
  | .probeIntervalSecs | .probeUnhealthyIntervalSecs => none
  | .probeTimeoutMs => none
  | .poolMinIdle => some (64 : UInt64)

namespace EndpointConf

/-- The endpoint has a balancer that selects between peers. -/
def Balances (conf : EndpointConf) : Prop :=
  ∃ text strategy, conf.balance = some text ∧
    (balanceOf text.toList).1 = some strategy ∧ strategy ≠ .off

/-- The probe is off with and without the global options, or it is on and
none of its settings changes. -/
def ProbeUnchanged (own global : NetConf) : Prop :=
  match own.probeIntervalSecs with
  | none => global.probeIntervalSecs = none
  | some interval =>
      Harmless (max (interval / 2) 3) own.probeUnhealthyIntervalSecs
        global.probeUnhealthyIntervalSecs ∧
      Harmless 3000 own.probeTimeoutMs global.probeTimeoutMs ∧
      Harmless 2 own.maxFails global.maxFails

/-- Health checks are off with and without the global options, or they are
on and the latency limit does not change. -/
def HealthUnchanged (own global : NetConf) : Prop :=
  if own.maxFails.isSome && own.failTimeout.isSome then
    own.maxLatency.isSome = true ∨ global.maxLatency = none
  else
    own.maxFails = none ∧ global.maxFails = none ∨
      own.failTimeout = none ∧ global.failTimeout = none

/-- The global options change nothing of what is built from an endpoint. -/
structure Unchanged (conf : EndpointConf) (global : NetConf) : Prop where
  defaulted : ∀ (field : NetField) (default : field.Value),
    field.default = some default →
      Harmless default (conf.network.get field) (global.get field)
  probe : ProbeUnchanged conf.network global
  health : conf.Balances → HealthUnchanged conf.network global

theorem probeConfigOf_take_iff (own global : NetConf) :
    probeConfigOf own.probeIntervalSecs own.probeUnhealthyIntervalSecs
        own.probeTimeoutMs own.maxFails =
      probeConfigOf
        (take own.probeIntervalSecs global.probeIntervalSecs)
        (take own.probeUnhealthyIntervalSecs
          global.probeUnhealthyIntervalSecs)
        (take own.probeTimeoutMs global.probeTimeoutMs)
        (take own.maxFails global.maxFails) ↔
      ProbeUnchanged own global := by
  unfold ProbeUnchanged probeConfigOf
  cases own.probeIntervalSecs with
  | none =>
      rw [take_eq_or none, Option.none_or]
      cases global.probeIntervalSecs <;> simp
  | some interval =>
      rw [take_eq_or (some interval), Option.some_or]
      simp only [Option.map_some, Option.some.injEq, ProbeConfig.mk.injEq,
        true_and, getD_take_iff]

theorem poolConfigOf_take_iff (own global : Option UInt64) :
    poolConfigOf own = poolConfigOf (take own global) ↔
      Harmless 64 own global := by
  rw [← getD_take_iff]
  have minIdle (value : Option UInt64) :
      poolConfigOf value =
        { (default : PoolConfig) with
          poolMinIdle := (value.getD 64).toNat } := by
    cases value <;> rfl
  rw [minIdle, minIdle, PoolConfig.mk.injEq, UInt64.toNat_inj]
  simp

theorem healthCheckOf_take_iff (own global : NetConf) :
    healthCheckOf own.maxFails own.failTimeout own.maxLatency =
      healthCheckOf (take own.maxFails global.maxFails)
        (take own.failTimeout global.failTimeout)
        (take own.maxLatency global.maxLatency) ↔
      HealthUnchanged own global := by
  simp only [HealthUnchanged, take_eq_or]
  cases own.maxFails <;> cases own.failTimeout <;>
    cases own.maxLatency <;> cases global.maxFails <;>
    cases global.failTimeout <;> cases global.maxLatency <;>
    simp [healthCheckOf]

/-! ## One endpoint -/

section Build

variable (system : System) (conf : EndpointConf)

/-- Whether a balancer can be built does not depend on health checks, and
what is built depends on them only if it selects between peers. -/
theorem buildBalancer_cases
    (maxFails failTimeout maxLatency : Option UInt32)
    (otherFails otherTimeout otherLatency : Option UInt32) :
    (conf.buildBalancer system maxFails failTimeout maxLatency = none ∧
      conf.buildBalancer system otherFails otherTimeout otherLatency =
        none) ∨
    ∃ balancer other,
      conf.buildBalancer system maxFails failTimeout maxLatency =
        some balancer ∧
      conf.buildBalancer system otherFails otherTimeout otherLatency =
        some other ∧
      (balancer = other ↔
        (conf.Balances →
          healthCheckOf maxFails failTimeout maxLatency =
            healthCheckOf otherFails otherTimeout otherLatency)) := by
  cases text : conf.balance with
  | none =>
      have unbalanced : ¬ conf.Balances := by
        rintro ⟨_, _, balance, _⟩
        rw [text] at balance
        cases balance
      simp [buildBalancer, text, unbalanced]
  | some text_ =>
      cases strategy : (balanceOf text_.toList).1 with
      | none => simp [buildBalancer, text, strategy]
      | some strategy_ =>
          have balances : conf.Balances ↔ strategy_ ≠ .off := by
            simp [Balances, text, strategy]
          cases strategy_ with
          | off =>
              simp [buildBalancer, text, strategy, Balancer.new, balances]
          | ipHash =>
              by_cases bounded : (balanceOf text_.toList).2.length ≤ 255
              · simp [buildBalancer, text, strategy, Balancer.new, balances,
                  bounded, IpHash.new]
              · simp [buildBalancer, text, strategy, Balancer.new, bounded]
          | roundRobin =>
              by_cases bounded : (balanceOf text_.toList).2.length ≤ 255
              · simp [buildBalancer, text, strategy, Balancer.new, balances,
                  bounded, RoundRobin.new]
              · simp [buildBalancer, text, strategy, Balancer.new, bounded]

/-- An endpoint that has taken the global options. -/
def taken (global : NetConf) : EndpointConf :=
  { conf with network := conf.network.takeField global }

theorem assemble_eq_iff
    (global : NetConf) (parts : Parts system.kaminari)
    {balancer other : Balancer}
    (same : balancer = other ↔
      (conf.Balances → HealthUnchanged conf.network global)) :
    conf.assemble system parts balancer =
        (conf.taken global).assemble system parts other ↔
      conf.Unchanged global := by
  simp only [assemble, NetConf.build, taken, NetConf.takeField,
    EndpointInfo.mk.injEq, Endpoint.mk.injEq, BindOpts.mk.injEq,
    ConnectOpts.mk.injEq, ProxyOpts.mk.injEq, Option.some.injEq, true_and,
    and_true, getD_take_iff, probeConfigOf_take_iff, poolConfigOf_take_iff,
    same]
  constructor
  · rintro ⟨noTcp, useUdp, ⟨ipv6Only, acceptMptcp⟩, sendMptcp, timeout,
      udpTimeout, keepalive, keepaliveProbe,
      ⟨sendProxy, acceptProxy, proxyVersion, proxyTimeout⟩, health, probe,
      minIdle⟩
    refine ⟨?_, probe, health⟩
    intro field default isDefault
    cases field <;> cases isDefault <;> assumption
  · intro unchanged
    have field := unchanged.defaulted
    exact ⟨field .noTcp _ rfl, field .useUdp _ rfl,
      ⟨field .ipv6Only _ rfl, field .acceptMptcp _ rfl⟩,
      field .sendMptcp _ rfl, field .tcpTimeout _ rfl,
      field .udpTimeout _ rfl, field .tcpKeepalive _ rfl,
      field .tcpKeepaliveProbe _ rfl,
      ⟨field .sendProxy _ rfl, field .acceptProxy _ rfl,
        field .sendProxyVersion _ rfl, field .acceptProxyTimeout _ rfl⟩,
      unchanged.health, unchanged.probe, field .poolMinIdle _ rfl⟩

/-- Building an endpoint fails on both routes, or it succeeds on both. -/
theorem build_cases (global : NetConf) :
    (conf.build system = none ∧ (conf.taken global).build system = none) ∨
    ∃ info other,
      conf.build system = some info ∧
      (conf.taken global).build system = some other ∧
      (info = other ↔ conf.Unchanged global) := by
  have sameParts :
      (conf.taken global).parts system = conf.parts system := rfl
  rw [build_eq, build_eq, sameParts]
  cases conf.parts system with
  | none => exact .inl ⟨rfl, rfl⟩
  | some parts =>
      rcases conf.buildBalancer_cases system conf.network.maxFails
          conf.network.failTimeout conf.network.maxLatency
          (take conf.network.maxFails global.maxFails)
          (take conf.network.failTimeout global.failTimeout)
          (take conf.network.maxLatency global.maxLatency) with
        ⟨unbuilt, otherUnbuilt⟩ | ⟨balancer, other, built, otherBuilt, same⟩
      · left
        have own : conf.ownBalancer system = none := unbuilt
        have ownTaken : (conf.taken global).ownBalancer system = none :=
          otherUnbuilt
        rw [own, ownTaken]
        exact ⟨rfl, rfl⟩
      · right
        have own : conf.ownBalancer system = some balancer := built
        have ownTaken :
            (conf.taken global).ownBalancer system = some other :=
          otherBuilt
        rw [own, ownTaken]
        refine ⟨_, _, rfl, rfl, ?_⟩
        rw [healthCheckOf_take_iff] at same
        exact conf.assemble_eq_iff system global parts same

end Build

end EndpointConf

/-! ## The whole configuration -/

section Lists

variable {α β : Type}

/-- A list cannot be built because of one of its items. -/
theorem mapM_eq_none_iff {build : α → Option β} {items : List α} :
    items.mapM build = none ↔ ∃ item ∈ items, build item = none := by
  induction items with
  | nil => simp
  | cons item rest inductionHypothesis =>
      rw [List.mapM_cons, List.exists_mem_cons_iff, ← inductionHypothesis]
      cases build item <;> cases rest.mapM build <;> simp

/-- Two ways to build a list agree if an item defeats both of them, or if
they agree on every item. -/
theorem mapM_eq_mapM_iff
    {left right : α → Option β}
    (together : ∀ item, left item = none ↔ right item = none)
    (items : List α) :
    items.mapM left = items.mapM right ↔
      (∃ item ∈ items, left item = none) ∨
        ∀ item ∈ items, left item = right item := by
  have defeats (rest : List α) :
      rest.mapM left = none ↔ rest.mapM right = none := by
    simp only [mapM_eq_none_iff, together]
  induction items with
  | nil => simp
  | cons item rest inductionHypothesis =>
      rw [List.exists_mem_cons_iff, List.forall_mem_cons]
      rw [← mapM_eq_none_iff] at inductionHypothesis ⊢
      rw [List.mapM_cons, List.mapM_cons]
      have here := together item
      have there := defeats rest
      cases leftItem : left item <;> cases rightItem : right item <;>
        cases leftRest : rest.mapM left <;>
        cases rightRest : rest.mapM right <;>
        simp_all

end Lists

namespace FullConf

/-- The environment route. -/
def fromEnvironment
    (text : String) (scan : CmdInput) (stored : String → Option Stored) :
    Startup where
  confStr := some text
  scan := scan
  stored := stored

/-- The file route, without overriding options. -/
def fromFile
    (path : String) (stored : String → Option Stored) : Startup where
  confStr := none
  scan := .config path .nothing
  stored := stored

theorem applyCmdOpts_nothing (full : FullConf) :
    full.applyCmdOpts .nothing = full := by
  have unchanged (net : NetConf) : net.rstField .empty = net := by
    apply NetConf.ext_get
    intro field
    rw [NetConf.get_rstField]
    cases field <;> rfl
  simp only [applyCmdOpts, CmdOverride.nothing, unchanged, List.map_id']
  rfl

theorem routes_agree_iff
    (formats : Formats) (system : System) {text : String}
    {full : FullConf} (accepted : fromConfStr formats text = .ok full)
    (scan : CmdInput) {path : String} {stored : String → Option Stored}
    (isFile : stored path = some (.file text)) :
    (fromEnvironment text scan stored).endpoints formats system =
        (fromFile path stored).endpoints formats system ↔
      (∃ endpoint ∈ full.endpoints, endpoint.build system = none) ∨
        ∀ endpoint ∈ full.endpoints, endpoint.Unchanged full.network := by
  have ownRoute :
      (fromEnvironment text scan stored).endpoints formats system =
        full.endpoints.mapM fun endpoint => endpoint.build system := by
    simp only [Startup.endpoints, Startup.conf, fromEnvironment,
      Option.map_some, accepted]
    rfl
  have fileRoute :
      (fromFile path stored).endpoints formats system =
        full.endpoints.mapM fun endpoint =>
          (endpoint.taken full.network).build system := by
    simp only [Startup.endpoints, Startup.conf, Startup.scanned, fromFile,
      Option.map_none, isFile, Option.bind_eq_bind, Option.bind_some,
      fromConfFile, accepted, Except.toOption, applyCmdOpts_nothing]
    rw [applyGlobalOpts, List.mapM_map]
    rfl
  rw [ownRoute, fileRoute, mapM_eq_mapM_iff]
  · by_cases stopped :
        ∃ endpoint ∈ full.endpoints, endpoint.build system = none
    · simp only [stopped, true_or]
    · simp only [stopped, false_or]
      apply forall₂_congr
      intro endpoint member
      rcases endpoint.build_cases system full.network with
        ⟨own, _⟩ | ⟨info, other, own, taken, same⟩
      · exact (stopped ⟨endpoint, member, own⟩).elim
      · rw [own, taken, Option.some.injEq, same]
  · intro endpoint
    rcases endpoint.build_cases system full.network with
      ⟨own, taken⟩ | ⟨info, other, own, taken, _⟩
    · simp [own, taken]
    · simp [own, taken]

/-! ## A text on which the routes differ -/

/-- A file with a global option and one endpoint. -/
def globalUdp : String :=
  "[network]\nuse_udp = true\n\n[[endpoints]]\n" ++
    "listen = \"0.0.0.0:5000\"\nremote = \"1.1.1.1:443\"\n"

/-- What toml makes of the file. -/
def globalUdpDocument : Document :=
  .table
    [("network", .table [("use_udp", .bool true)]),
      ("endpoints",
        .arr
          [.table
            [("listen", .str "0.0.0.0:5000"),
              ("remote", .str "1.1.1.1:443")]])]

/-- A format that knows a single text and renders nothing. -/
def knowing (known : String) (document : Document) : Format where
  absent := none
  absent_eq := Format.absent_none
  render _ := none
  parse text := if text = known then some document else none
  parse_render := by
    intro _ _ rendered
    cases rendered

/-- Toml knows the file, and nothing else is read or written. -/
def globalUdpFormats : Formats where
  toml := knowing globalUdp globalUdpDocument
  json := knowing "" .null
  toml_refuses_json := by
    intro _ _ rendered
    cases rendered

/-- The endpoint of the file. -/
def globalUdpEndpoint : EndpointConf where
  listen := "0.0.0.0:5000"
  remote := "1.1.1.1:443"
  extraRemotes := []
  obfs := none
  probeTargets := []
  balance := none
  through := none
  interface := none
  listenInterface := none
  listenTransport := none
  remoteTransport := none
  network := .empty

/-- The configuration of the file. -/
def globalUdpConf : FullConf where
  log := .empty
  dns := .empty
  network := { NetConf.empty with useUdp := some true }
  endpoints := [globalUdpEndpoint]

/-- A system that reads the addresses of the file. -/
def globalUdpSystem : System :=
  .reading
    [("0.0.0.0:5000", .quad 0 0 0 0 5000), ("1.1.1.1:443", .quad 1 1 1 1 443)]

theorem globalUdp_accepted :
    fromConfStr globalUdpFormats globalUdp = .ok globalUdpConf := by
  rfl

/-- The text as a file. -/
def globalUdpStored : String → Option Stored :=
  fun _ => some (.file globalUdp)

/-- The file turns on udp, its text in the environment does not. -/
theorem routes_differ_globalUdp :
    fromConfStr globalUdpFormats globalUdp = .ok globalUdpConf ∧
    (fromEnvironment globalUdp .none globalUdpStored).endpoints
        globalUdpFormats globalUdpSystem ≠
      (fromFile "bytehub.toml" globalUdpStored).endpoints
        globalUdpFormats globalUdpSystem := by
  refine ⟨globalUdp_accepted, ?_⟩
  intro equal
  have useUdp :=
    congrArg (Option.map (List.map EndpointInfo.useUdp)) equal
  cases (show some [false] = some [true] from useUdp)

/-- The file with the option also set by its endpoint. -/
def ownUdp : String :=
  globalUdp ++ "network = \x7b use_udp = true \x7d\n"

/-- What toml makes of that file. -/
def ownUdpDocument : Document :=
  .table
    [("network", .table [("use_udp", .bool true)]),
      ("endpoints",
        .arr
          [.table
            [("listen", .str "0.0.0.0:5000"),
              ("remote", .str "1.1.1.1:443"),
              ("network", .table [("use_udp", .bool true)])]])]

/-- Toml knows that file, and nothing else is read or written. -/
def ownUdpFormats : Formats where
  toml := knowing ownUdp ownUdpDocument
  json := knowing "" .null
  toml_refuses_json := by
    intro _ _ rendered
    cases rendered

/-- The endpoint with an option of its own. -/
def ownUdpEndpoint : EndpointConf :=
  { globalUdpEndpoint with
    network := { NetConf.empty with useUdp := some true } }

/-- The configuration of that file. -/
def ownUdpConf : FullConf :=
  { globalUdpConf with endpoints := [ownUdpEndpoint] }

theorem ownUdp_accepted :
    fromConfStr ownUdpFormats ownUdp = .ok ownUdpConf := by
  rfl

/-- That text as a file. -/
def ownUdpStored : String → Option Stored :=
  fun _ => some (.file ownUdp)

theorem unchanged_ownUdpEndpoint :
    ownUdpEndpoint.Unchanged ownUdpConf.network := by
  constructor
  · intro field default _
    cases field with
    | useUdp => exact .inl rfl
    | _ => exact .inr (.inl rfl)
  · rfl
  · intro _
    exact .inl ⟨rfl, rfl⟩

/-- Where the endpoint sets the option itself, both routes turn on udp. -/
theorem routes_agree_iff_ownUdp :
    (fromEnvironment ownUdp .none ownUdpStored).endpoints
        ownUdpFormats globalUdpSystem =
      (fromFile "bytehub.toml" ownUdpStored).endpoints
        ownUdpFormats globalUdpSystem ∧
    ((fromFile "bytehub.toml" ownUdpStored).endpoints ownUdpFormats
        globalUdpSystem).map (List.map EndpointInfo.useUdp) =
      some [true] := by
  refine ⟨?_, rfl⟩
  refine
    (routes_agree_iff ownUdpFormats globalUdpSystem ownUdp_accepted .none
      rfl).2 (.inr ?_)
  intro endpoint member
  rcases List.mem_singleton.1 member with rfl
  exact unchanged_ownUdpEndpoint

end FullConf

end ByteHub.Conf
