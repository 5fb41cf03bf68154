import ByteHub.Conf.Endpoint

/-!
# Resolving remote addresses

A remote address is a socket address, or a name whose addresses are looked
up.  What a lookup finds is an argument.
-/

namespace ByteHub.Core

open ByteHub.Conf (RemoteAddr SocketAddr)
open ByteHub.Lb (IpAddr)

variable {Error : Type}

/-- Resolved result. -/
inductive LookupRemoteAddr where
  | noLookup (addr : SocketAddr)
  | doLookup (ips : List IpAddr) (port : UInt16)

/-- View of a resolved result. -/
def LookupRemoteAddr.iter : LookupRemoteAddr → List SocketAddr
  | .noLookup addr => [addr]
  | .doLookup ips port => ips.map fun ip => SocketAddr.new ip port

/-- Lookup socket addresses. -/
def resolveAddr (resolveIp : String → Except Error (List IpAddr)) :
    RemoteAddr → Except Error LookupRemoteAddr
  | .socketAddr addr => .ok (.noLookup addr)
  | .domainName host port =>
      (resolveIp host).map fun ips => .doLookup ips port

end ByteHub.Core
