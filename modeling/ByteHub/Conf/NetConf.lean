import Mathlib.Algebra.Ring.Nat
import ByteHub.Conf.Sections

/-!
# The network section

Twenty optional fields, merged field by field, and the reading of the
section from command-line arguments.  `usize` is 64 bits wide.
-/

namespace ByteHub.Conf

/-- Network section. -/
structure NetConf where
  noTcp : Option Bool
  useUdp : Option Bool
  ipv6Only : Option Bool
  sendMptcp : Option Bool
  acceptMptcp : Option Bool
  sendProxy : Option Bool
  acceptProxy : Option Bool
  sendProxyVersion : Option UInt64
  acceptProxyTimeout : Option UInt64
  tcpKeepalive : Option UInt64
  tcpKeepaliveProbe : Option UInt64
  tcpTimeout : Option UInt64
  udpTimeout : Option UInt64
  maxFails : Option UInt32
  failTimeout : Option UInt32
  maxLatency : Option UInt32
  probeIntervalSecs : Option UInt64
  probeUnhealthyIntervalSecs : Option UInt64
  probeTimeoutMs : Option UInt64
  poolMinIdle : Option UInt64
deriving DecidableEq, Repr

/-- Arguments that are set or not. -/
inductive FlagArg where
  | noTcp
  | useUdp
  | useMptcp
  | ipv6Only
deriving DecidableEq, Repr

/-- Arguments that carry a text. -/
inductive ValueArg where
  | tcpKeepalive
  | tcpKeepaliveProbe
  | tcpTimeout
  | udpTimeout
  | sendProxy
  | sendProxyVersion
  | acceptProxy
  | acceptProxyTimeout
deriving DecidableEq, Repr

/-- The parsed command line, as far as the network section reads it. -/
structure ArgMatches where
  getFlag : FlagArg → Bool
  getOne : ValueArg → Option String

/-! ## Reading values -/

/-- Decimal digits, if the characters are nothing else. -/
def digits : List Char → Option ℕ
  | [] => none
  | chars =>
      if chars.all Char.isDigit then
        some (chars.foldl (fun value c => 10 * value + (c.toNat - 48)) 0)
      else none

/-- `parse::<usize>`: digits after an optional plus sign, without overflow. -/
def parseUsize (text : String) : Option UInt64 :=
  let value :=
    match text.toList with
    | '+' :: rest => digits rest
    | chars => digits chars
  match value with
  | some value => if value < 2 ^ 64 then some (UInt64.ofNat value) else none
  | none => none

/-- `parse::<bool>` -/
def parseBool (text : String) : Option Bool :=
  if text = "true" then some true
  else if text = "false" then some false
  else none

namespace ArgMatches

variable (arguments : ArgMatches)

/-- `unpack!` of a flag: a flag that is not set gives no value. -/
def unpackFlag (key : FlagArg) : Option Bool :=
  if arguments.getFlag key then some true else none

/-- `unpack!` of a number: a text that does not parse gives no value. -/
def unpackUsize (key : ValueArg) : Option UInt64 :=
  (arguments.getOne key).bind parseUsize

/-- `unpack!` of a truth value. -/
def unpackBool (key : ValueArg) : Option Bool :=
  (arguments.getOne key).bind parseBool

end ArgMatches

namespace NetConf

/-- Override every field the other side has. -/
def rstField (self other : NetConf) : NetConf where
  noTcp := rst self.noTcp other.noTcp
  useUdp := rst self.useUdp other.useUdp
  ipv6Only := rst self.ipv6Only other.ipv6Only
  sendMptcp := rst self.sendMptcp other.sendMptcp
  acceptMptcp := rst self.acceptMptcp other.acceptMptcp
  tcpKeepalive := rst self.tcpKeepalive other.tcpKeepalive
  tcpKeepaliveProbe := rst self.tcpKeepaliveProbe other.tcpKeepaliveProbe
  tcpTimeout := rst self.tcpTimeout other.tcpTimeout
  udpTimeout := rst self.udpTimeout other.udpTimeout
  sendProxy := rst self.sendProxy other.sendProxy
  acceptProxy := rst self.acceptProxy other.acceptProxy
  sendProxyVersion := rst self.sendProxyVersion other.sendProxyVersion
  acceptProxyTimeout := rst self.acceptProxyTimeout other.acceptProxyTimeout
  maxFails := rst self.maxFails other.maxFails
  failTimeout := rst self.failTimeout other.failTimeout
  maxLatency := rst self.maxLatency other.maxLatency
  probeIntervalSecs := rst self.probeIntervalSecs other.probeIntervalSecs
  probeUnhealthyIntervalSecs :=
    rst self.probeUnhealthyIntervalSecs other.probeUnhealthyIntervalSecs
  probeTimeoutMs := rst self.probeTimeoutMs other.probeTimeoutMs
  poolMinIdle := rst self.poolMinIdle other.poolMinIdle

/-- Fill in every field that is absent. -/
def takeField (self other : NetConf) : NetConf where
  noTcp := take self.noTcp other.noTcp
  useUdp := take self.useUdp other.useUdp
  ipv6Only := take self.ipv6Only other.ipv6Only
  sendMptcp := take self.sendMptcp other.sendMptcp
  acceptMptcp := take self.acceptMptcp other.acceptMptcp
  tcpKeepalive := take self.tcpKeepalive other.tcpKeepalive
  tcpKeepaliveProbe := take self.tcpKeepaliveProbe other.tcpKeepaliveProbe
  tcpTimeout := take self.tcpTimeout other.tcpTimeout
  udpTimeout := take self.udpTimeout other.udpTimeout
  sendProxy := take self.sendProxy other.sendProxy
  acceptProxy := take self.acceptProxy other.acceptProxy
  sendProxyVersion := take self.sendProxyVersion other.sendProxyVersion
  acceptProxyTimeout :=
    take self.acceptProxyTimeout other.acceptProxyTimeout
  maxFails := take self.maxFails other.maxFails
  failTimeout := take self.failTimeout other.failTimeout
  maxLatency := take self.maxLatency other.maxLatency
  probeIntervalSecs := take self.probeIntervalSecs other.probeIntervalSecs
  probeUnhealthyIntervalSecs :=
    take self.probeUnhealthyIntervalSecs other.probeUnhealthyIntervalSecs
  probeTimeoutMs := take self.probeTimeoutMs other.probeTimeoutMs
  poolMinIdle := take self.poolMinIdle other.poolMinIdle

/-- The section the command line gives. -/
def fromCmdArgs (arguments : ArgMatches) : NetConf :=
  let useMptcp := arguments.unpackFlag .useMptcp
  { noTcp := arguments.unpackFlag .noTcp
    useUdp := arguments.unpackFlag .useUdp
    ipv6Only := arguments.unpackFlag .ipv6Only
    sendMptcp := useMptcp
    acceptMptcp := useMptcp
    tcpKeepalive := arguments.unpackUsize .tcpKeepalive
    -- The source reads the interval here as well, not the probe count.
    tcpKeepaliveProbe := arguments.unpackUsize .tcpKeepalive
    tcpTimeout := arguments.unpackUsize .tcpTimeout
    udpTimeout := arguments.unpackUsize .udpTimeout
    sendProxy := arguments.unpackBool .sendProxy
    sendProxyVersion := arguments.unpackUsize .sendProxyVersion
    acceptProxy := arguments.unpackBool .acceptProxy
    acceptProxyTimeout := arguments.unpackUsize .acceptProxyTimeout
    maxFails := none
    failTimeout := none
    maxLatency := none
    probeIntervalSecs := none
    probeUnhealthyIntervalSecs := none
    probeTimeoutMs := none
    poolMinIdle := none }

/-- A section without any field. -/
def empty : NetConf where
  noTcp := none
  useUdp := none
  ipv6Only := none
  sendMptcp := none
  acceptMptcp := none
  sendProxy := none
  acceptProxy := none
  sendProxyVersion := none
  acceptProxyTimeout := none
  tcpKeepalive := none
  tcpKeepaliveProbe := none
  tcpTimeout := none
  udpTimeout := none
  maxFails := none
  failTimeout := none
  maxLatency := none
  probeIntervalSecs := none
  probeUnhealthyIntervalSecs := none
  probeTimeoutMs := none
  poolMinIdle := none

end NetConf

/-! ## Fields by name -/

/-- The name of a field. -/
inductive NetField where
  | noTcp
  | useUdp
  | ipv6Only
  | sendMptcp
  | acceptMptcp
  | sendProxy
  | acceptProxy
  | sendProxyVersion
  | acceptProxyTimeout
  | tcpKeepalive
  | tcpKeepaliveProbe
  | tcpTimeout
  | udpTimeout
  | maxFails
  | failTimeout
  | maxLatency
  | probeIntervalSecs
  | probeUnhealthyIntervalSecs
  | probeTimeoutMs
  | poolMinIdle
deriving DecidableEq, Repr

/-- The type of a field's values. -/
def NetField.Value : NetField → Type
  | .noTcp | .useUdp | .ipv6Only | .sendMptcp | .acceptMptcp => Bool
  | .sendProxy | .acceptProxy => Bool
  | .maxFails | .failTimeout | .maxLatency => UInt32
  | .sendProxyVersion | .acceptProxyTimeout => UInt64
  | .tcpKeepalive | .tcpKeepaliveProbe | .tcpTimeout => UInt64
  | .udpTimeout | .probeIntervalSecs => UInt64
  | .probeUnhealthyIntervalSecs | .probeTimeoutMs => UInt64
  | .poolMinIdle => UInt64

/-- The value a section has for a field. -/
def NetConf.get (net : NetConf) : (field : NetField) → Option field.Value
  | .noTcp => net.noTcp
  | .useUdp => net.useUdp
  | .ipv6Only => net.ipv6Only
  | .sendMptcp => net.sendMptcp
  | .acceptMptcp => net.acceptMptcp
  | .sendProxy => net.sendProxy
  | .acceptProxy => net.acceptProxy
  | .sendProxyVersion => net.sendProxyVersion
  | .acceptProxyTimeout => net.acceptProxyTimeout
  | .tcpKeepalive => net.tcpKeepalive
  | .tcpKeepaliveProbe => net.tcpKeepaliveProbe
  | .tcpTimeout => net.tcpTimeout
  | .udpTimeout => net.udpTimeout
  | .maxFails => net.maxFails
  | .failTimeout => net.failTimeout
  | .maxLatency => net.maxLatency
  | .probeIntervalSecs => net.probeIntervalSecs
  | .probeUnhealthyIntervalSecs => net.probeUnhealthyIntervalSecs
  | .probeTimeoutMs => net.probeTimeoutMs
  | .poolMinIdle => net.poolMinIdle

theorem NetConf.ext_get
    {left right : NetConf}
    (same : ∀ field, left.get field = right.get field) :
    left = right := by
  cases left
  cases right
  simp only [NetConf.mk.injEq]
  exact ⟨same .noTcp, same .useUdp, same .ipv6Only, same .sendMptcp,
    same .acceptMptcp, same .sendProxy, same .acceptProxy,
    same .sendProxyVersion, same .acceptProxyTimeout, same .tcpKeepalive,
    same .tcpKeepaliveProbe, same .tcpTimeout, same .udpTimeout,
    same .maxFails, same .failTimeout, same .maxLatency,
    same .probeIntervalSecs, same .probeUnhealthyIntervalSecs,
    same .probeTimeoutMs, same .poolMinIdle⟩

/-- No field is forgotten when a section overrides. -/
theorem NetConf.get_rstField (self other : NetConf) (field : NetField) :
    (self.rstField other).get field =
      (other.get field).or (self.get field) := by
  cases field <;> exact rst_eq_or _ _

/-- No field is forgotten when a section fills in. -/
theorem NetConf.get_takeField (self other : NetConf) (field : NetField) :
    (self.takeField other).get field =
      (self.get field).or (other.get field) := by
  cases field <;> exact take_eq_or _ _

end ByteHub.Conf
