import Mathlib.Data.Fintype.Basic
import ByteHub.Core.SocketConnect

/-!
# Sockets of associations

The socket of an association is made for an address, and is of the family of
that address ever after.
-/

namespace ByteHub.Udp

open ByteHub.Conf (ConnectOpts Kaminari SocketAddr)
open ByteHub.Core (bind_eq_ok_iff ignored whenSet)

deriving instance DecidableEq for SocketAddr

variable {Error : Type}

/-- Address family of a socket. -/
inductive Domain where
  | ipv4
  | ipv6
deriving DecidableEq, Repr

/-- The family of an address. -/
def Domain.of (addr : SocketAddr) : Domain :=
  if addr.isIpv4 then .ipv4 else .ipv6

/-- What the system answers while an association is opened, as far as it is
asked. -/
structure AssociateCalls (Error : Type) where
  newSocket : Domain → Except Error Unit
  setReuseAddress : Except Error Unit
  bind : SocketAddr → Except Error Unit
  bindToDevice : String → Except Error Unit
  fromStd : Except Error Unit

/-- The domain of the socket that is made. -/
def newUdpSocket (calls : AssociateCalls Error) (addr : SocketAddr) :
    Except Error Domain :=
  (calls.newSocket (Domain.of addr)).map fun _ => Domain.of addr

/-- `socket::associate`: the domain of the socket that is returned. -/
def associate
    {kaminari : Kaminari} (calls : AssociateCalls Error)
    (raddr : SocketAddr) (connOpts : ConnectOpts kaminari) :
    Except Error Domain := do
  let socket ← newUdpSocket calls raddr
  ignored calls.setReuseAddress
  whenSet connOpts.bindAddress calls.bind
  whenSet connOpts.bindInterface calls.bindToDevice
  calls.fromStd
  return socket

/-- A socket is of the family of the address it is made for. -/
theorem associate_domain
    {kaminari : Kaminari} {calls : AssociateCalls Error}
    {raddr : SocketAddr} {connOpts : ConnectOpts kaminari}
    {domain : Domain}
    (opened : associate calls raddr connOpts = .ok domain) :
    domain = Domain.of raddr := by
  simp only [associate, bind_eq_ok_iff] at opened
  obtain ⟨socket, made, _, _, _, _, _, _, _, _, returned⟩ := opened
  cases returned
  unfold newUdpSocket at made
  cases created : calls.newSocket (Domain.of raddr) with
  | error e =>
      rw [created] at made
      cases made
  | ok _ =>
      rw [created] at made
      cases made
      rfl

/-- Calls that all succeed. -/
def AssociateCalls.all : AssociateCalls Error where
  newSocket _ := .ok ()
  setReuseAddress := .ok ()
  bind _ := .ok ()
  bindToDevice _ := .ok ()
  fromStd := .ok ()

end ByteHub.Udp
