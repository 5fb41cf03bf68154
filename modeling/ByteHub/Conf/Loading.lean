import ByteHub.Conf.Endpoint
import ByteHub.Conf.Serde

/-!
# Loading a configuration

A text is tried as toml, as json and as a legacy json file.  A configuration
comes from an environment variable, from a file or a directory of files, or
from the command line, and the program then builds its endpoints.

Text formats and the file system are parameters.
-/

namespace ByteHub.Conf

open ByteHub.Library
open Document (required)

/-! ## The legacy file -/

/-- Legacy configuration. -/
structure LegacyConf where
  listenAddrs : List String
  listenPorts : List String
  remoteAddrs : List String
  remotePorts : List String

namespace LegacyConf

def read : Document → Option LegacyConf
  | .table table => do
      let texts : Codec (List String) := .list .string
      let listenAddrs ← required texts "listening_addresses" table
      let listenPorts ← required texts "listening_ports" table
      let remoteAddrs ← required texts "remote_addresses" table
      let remotePorts ← required texts "remote_ports" table
      some ⟨listenAddrs, listenPorts, remoteAddrs, remotePorts⟩
  | _ => none

/-- The ports from `start` on, below `stop`. -/
def portsBetween (start stop : UInt16) : List UInt16 :=
  (List.range (stop.toNat - start.toNat)).map fun offset =>
    start + UInt16.ofNat offset

/-- The ports of one range; the bound above wraps. -/
def flattenRange (range : List Char) : Option (List UInt16) :=
  match range.splitOn '-' with
  | start :: stop :: _ => do
      let start ← parseU16 start
      let stop ← parseU16 stop
      some (portsBetween start (stop + 1))
  | [start] => do
      let start ← parseU16 start
      some (portsBetween start (start + 1))
  | [] => none

def flattenPorts (ports : List String) : Option (List UInt16) :=
  (ports.mapM fun range => flattenRange range.toList).map List.flatten

/-- As many addresses as asked for, the first one where they run out. -/
def joinAddrPort
    (addrs : List String) (ports : List UInt16) (len : ℕ) :
    Option (List String) := do
  let port0 ← ports.head?
  let addr0 ← addrs.head?
  let ports := (ports.take len ++ List.replicate len port0).take len
  let addrs := (addrs.take len ++ List.replicate len addr0).take len
  some (addrs.zipWith
    (fun addr port => addr ++ ":" ++ toString port.toNat) ports)

/-- The configuration a legacy file stands for, if it makes sense. -/
def into (legacy : LegacyConf) : Option FullConf := do
  let listenPorts ← flattenPorts legacy.listenPorts
  let remotePorts ← flattenPorts legacy.remotePorts
  let len := listenPorts.length
  let listen ← joinAddrPort legacy.listenAddrs listenPorts len
  let remote ← joinAddrPort legacy.remoteAddrs remotePorts len
  some
    { log := .empty
      dns := .empty
      network := .empty
      endpoints := listen.zipWith (fun listen remote =>
        { listen := listen
          remote := remote
          through := none
          interface := none
          listenInterface := none
          listenTransport := none
          remoteTransport := none
          network := .empty
          extraRemotes := []
          balance := none
          obfs := none
          probeTargets := [] }) remote }

end LegacyConf

/-! ## Texts -/

/-- The formats of a configuration.  A json object is no toml. -/
structure Formats where
  toml : Format
  json : Format
  toml_refuses_json :
    ∀ {entries : List (String × Document)} {text : String},
      json.render (.table entries) = some text → toml.parse text = none

/-- Why a text gives no configuration. -/
inductive Refusal where
  /-- No format accepts the text. -/
  | refused
  /-- The text is a legacy file whose conversion stops the program. -/
  | stopped
deriving DecidableEq, Repr

/-- Read a text as a configuration. -/
def FullConf.fromConfStr (formats : Formats) (text : String) :
    Except Refusal FullConf :=
  match (formats.toml.parse text).bind (FullConf.read formats.toml) with
  | some full => .ok full
  | none =>
      match (formats.json.parse text).bind (FullConf.read formats.json) with
      | some full => .ok full
      | none =>
          match (formats.json.parse text).bind LegacyConf.read with
          | some legacy =>
              match legacy.into with
              | some full => .ok full
              | none => .error .stopped
          | none => .error .refused

/-! ## Files and directories -/

/-- What stands under a path: a file, or a directory with the texts of its
configuration files. -/
inductive Stored where
  | file (text : String)
  | directory (texts : List String)

def LogConf.takeField (self other : LogConf) : LogConf where
  level := take self.level other.level
  output := take self.output other.output

def DnsConf.takeField (self other : DnsConf) : DnsConf where
  mode := take self.mode other.mode
  minTtl := take self.minTtl other.minTtl
  maxTtl := take self.maxTtl other.maxTtl
  cacheSize := take self.cacheSize other.cacheSize
  protocol := take self.protocol other.protocol
  nameservers := take self.nameservers other.nameservers

namespace FullConf

def empty : FullConf where
  log := .empty
  dns := .empty
  network := .empty
  endpoints := []

/-- Take over what another file has. -/
def takeFields (full other : FullConf) : FullConf where
  log := full.log.takeField other.log
  dns := full.dns.takeField other.dns
  network := full.network.takeField other.network
  endpoints := full.endpoints ++ other.endpoints

/-- Read what stands under a path; a text that is refused stops the
program. -/
def fromConfFile (formats : Formats) : Stored → Option FullConf
  | .file text => (fromConfStr formats text).toOption
  | .directory texts =>
      texts.foldlM (fun full text =>
        (fromConfStr formats text).toOption.map full.takeFields) empty

end FullConf

/-! ## Start -/

/-- What the command line asks for. -/
inductive CmdInput where
  | config (path : String) (opts : CmdOverride)
  | endpoint (conf : EndpointConf) (opts : CmdOverride)
  | none

/-- The command line without overriding options. -/
def CmdOverride.nothing : CmdOverride where
  log := .empty
  dns := .empty
  network := .empty

/-- Where the program looks for its configuration. -/
structure Startup where
  /-- The environment variable. -/
  confStr : Option String
  scan : CmdInput
  stored : String → Option Stored

namespace Startup

variable (startup : Startup) (formats : Formats)

/-- The configuration of the command line. -/
def scanned : Option FullConf :=
  match startup.scan with
  | .endpoint conf opts =>
      some (({ FullConf.empty with
        endpoints := [conf] }).applyGlobalOpts.applyCmdOpts opts)
  | .config path opts => do
      let stored ← startup.stored path
      let full ← FullConf.fromConfFile formats stored
      some (full.applyGlobalOpts.applyCmdOpts opts)
  | .none => none

/-- `main`, up to the configuration it starts from. -/
def conf : Option FullConf :=
  match startup.confStr.map (FullConf.fromConfStr formats) with
  | some (.ok full) => some full
  | some (.error .stopped) => none
  | some (.error .refused) => startup.scanned formats
  | none => startup.scanned formats

/-- The endpoints the program runs. -/
def endpoints (system : System) :
    Option (List (EndpointInfo system.kaminari)) := do
  let full ← startup.conf formats
  full.endpoints.mapM fun endpoint => endpoint.build system

end Startup

end ByteHub.Conf
