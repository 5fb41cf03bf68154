import ByteHub.Lb.IpHash
import ByteHub.Lb.RoundRobin

/-!
# The combined balancer

One value for the three strategies.  The context of a selection carries the
client and the clock reading; the strategies use what they need of it.
-/

namespace ByteHub.Lb

/-- Balance strategy. -/
inductive Strategy where
  | off
  | ipHash
  | roundRobin
deriving DecidableEq, Repr

/-- The strategy of a name; an unknown name is refused. -/
def Strategy.ofName (name : List Char) : Option Strategy :=
  if name = "off".toList then some .off
  else if name = "iphash".toList then some .ipHash
  else if name = "roundrobin".toList then some .roundRobin
  else none

/-- Combined load balancer. -/
inductive Balancer where
  | off
  | ipHash (search : BinarySearch) (ih : IpHash)
  | roundRobin (rr : RoundRobin)

namespace Balancer

/-- Constructor.  Both balancers refuse more weights than a `u8` counts. -/
def new
    (sort : UnstableSort) (search : BinarySearch) (strategy : Strategy)
    (weights : List UInt8) (config : Option HealthCheckConfig) :
    Option Balancer :=
  match strategy with
  | .off => some .off
  | .ipHash =>
      if bounded : weights.length ≤ 255 then
        some (.ipHash search (IpHash.new sort ⟨weights, bounded⟩ config))
      else none
  | .roundRobin =>
      if bounded : weights.length ≤ 255 then
        some (.roundRobin (RoundRobin.new ⟨weights, bounded⟩ config))
      else none

/-- Total peers. -/
def total : Balancer → UInt8
  | .off => 0
  | .ipHash _ ih => ih.total
  | .roundRobin rr => rr.total

/-- Health check config, if any. -/
def healthConfig : Balancer → Option HealthCheckConfig
  | .off => none
  | .ipHash _ ih => ih.config
  | .roundRobin rr => rr.config

/-- Select next peer. -/
def next (balancer : Balancer) (client : Client) (now : UInt32) :
    Option Token × Balancer :=
  match balancer with
  | .off => (some ⟨0⟩, .off)
  | .ipHash search ih =>
      let (token, ih) := ih.next search client now
      (token, .ipHash search ih)
  | .roundRobin rr =>
      let (token, rr) := rr.next now
      (token, .roundRobin rr)

/-- Report a successful connection. -/
def onSuccess (balancer : Balancer) (token : Token) : Balancer :=
  match balancer with
  | .off => .off
  | .ipHash search ih => .ipHash search (ih.onSuccess token)
  | .roundRobin rr => .roundRobin (rr.onSuccess token)

/-- Report a failed connection. -/
def onFailure (balancer : Balancer) (now : UInt32) (token : Token) :
    Balancer :=
  match balancer with
  | .off => .off
  | .ipHash search ih => .ipHash search (ih.onFailure now token)
  | .roundRobin rr => .roundRobin (rr.onFailure now token)

end Balancer

end ByteHub.Lb
