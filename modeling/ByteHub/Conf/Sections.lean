import Mathlib.Data.List.Basic

/-!
# Merging configuration sections

A configuration section is a record of optional fields.  `rst_field` lets the
other section override a field wherever it has one, `take_field` lets it fill
in where the own field is absent.  The log and dns sections are merged field
by field in this way.
-/

namespace ByteHub.Conf

/-- `rst!`: a given field of the other side overrides. -/
def rst {α : Type} (own other : Option α) : Option α :=
  if other.isSome then other else own

/-- `take!`: a given field of the other side fills in. -/
def take {α : Type} (own other : Option α) : Option α :=
  if own.isNone && other.isSome then other else own

theorem rst_eq_or {α : Type} (own other : Option α) :
    rst own other = other.or own := by
  cases other <;> rfl

theorem take_eq_or {α : Type} (own other : Option α) :
    take own other = own.or other := by
  cases own <;> cases other <;> rfl

/-! ## Log and dns sections -/

/-- Log level. -/
inductive LogLevel where
  | off
  | error
  | warn
  | info
  | debug
  | trace
deriving DecidableEq, Repr

/-- Log section. -/
structure LogConf where
  level : Option LogLevel
  output : Option String
deriving DecidableEq, Repr

def LogConf.rstField (self other : LogConf) : LogConf where
  level := rst self.level other.level
  output := rst self.output other.output

/-- Which address families the resolver asks for. -/
inductive DnsMode where
  | ipv4Only
  | ipv6Only
  | ipv4AndIpv6
  | ipv4ThenIpv6
  | ipv6ThenIpv4
deriving DecidableEq, Repr

/-- Transport of dns queries. -/
inductive DnsProtocol where
  | tcp
  | udp
  | tcpAndUdp
deriving DecidableEq, Repr

/-- Dns section. -/
structure DnsConf where
  mode : Option DnsMode
  protocol : Option DnsProtocol
  nameservers : Option (List String)
  minTtl : Option UInt32
  maxTtl : Option UInt32
  cacheSize : Option UInt64
deriving DecidableEq, Repr

def DnsConf.rstField (self other : DnsConf) : DnsConf where
  mode := rst self.mode other.mode
  minTtl := rst self.minTtl other.minTtl
  maxTtl := rst self.maxTtl other.maxTtl
  cacheSize := rst self.cacheSize other.cacheSize
  protocol := rst self.protocol other.protocol
  nameservers := rst self.nameservers other.nameservers

end ByteHub.Conf
