import ByteHub.Core.Dns

/-!
# Connecting to the addresses of a remote

The addresses are tried in their order.  A connection that fails or times
out leaves the next address to try, while an error on the way to it ends the
call: a socket that is not created or not bound, or an option that is not
set.
-/

namespace ByteHub.Core

open ByteHub.Conf (ConnectOpts Kaminari NetConf RemoteAddr SocketAddr System)
open ByteHub.Lb (IpAddr)

/-! ## Timeouts -/

section Timeout

variable {T : Type}

/-- What one poll of a future with a delay finds. -/
structure Polled (T : Type) where
  value : Option T
  /-- The delay is over. -/
  delay : Bool

/-- `Timeout::poll`: the value comes first.  A timeout is the error. -/
def Timeout.poll (delay : Bool) (polled : Polled T) :
    Option (Except Unit T) :=
  match polled.value with
  | some v => some (.ok v)
  | none => if delay && polled.delay then some (.error ()) else none

/-- Await a future with a timeout, poll after poll.  A timeout of 0 means
never. -/
def timeoutfut (polls : List (Polled T)) (timeout : UInt64) :
    Option (Except Unit T) :=
  polls.findSome? (Timeout.poll (timeout ≠ 0))

end Timeout

/-! ## Keepalive -/

variable {kaminari : Kaminari}

/-- The time and the interval are in seconds. -/
structure TcpKeepalive where
  time : UInt64
  interval : UInt64
  retries : UInt32

/-- `keepalive::build` -/
def TcpKeepalive.build (connOpts : ConnectOpts kaminari) :
    Option TcpKeepalive :=
  if connOpts.tcpKeepalive = 0 then none
  else
    some
      { time := connOpts.tcpKeepalive
        interval := connOpts.tcpKeepalive
        retries := connOpts.tcpKeepaliveProbe.toUInt32 }

/-! ## The calls on one socket -/

variable {Stream Error : Type}

theorem bind_eq_ok_iff
    {α β : Type} {answer : Except Error α} {next : α → Except Error β}
    {value : β} :
    answer >>= next = .ok value ↔
      ∃ first, answer = .ok first ∧ next first = .ok value := by
  cases answer with
  | error e => simp [bind, Except.bind]
  | ok first => simp [bind, Except.bind]

/-- What the system answers while one address is tried, as far as it is
asked. -/
structure SocketCalls (Stream Error : Type) where
  /-- With or without multipath. -/
  newSocket : Bool → Except Error Unit
  setTcpNodelay : Except Error Unit
  setReuseAddress : Except Error Unit
  bind : SocketAddr → Except Error Unit
  bindToDevice : String → Except Error Unit
  setTcpKeepalive : TcpKeepalive → Except Error Unit
  connect : List (Polled (Except Error Stream))

/-- An answer nobody looks at. -/
def ignored (_answer : Except Error Unit) : Except Error Unit := .ok ()

/-- A call that is made only for a setting. -/
def whenSet {Setting : Type} (setting : Option Setting)
    (call : Setting → Except Error Unit) : Except Error Unit :=
  match setting with
  | none => .ok ()
  | some value => call value

namespace SocketCalls

/-- Everything before the connection. -/
def prepare
    (calls : SocketCalls Stream Error) (connOpts : ConnectOpts kaminari) :
    Except Error Unit := do
  calls.newSocket connOpts.sendMptcp
  ignored calls.setTcpNodelay
  ignored calls.setReuseAddress
  whenSet connOpts.bindAddress calls.bind
  whenSet connOpts.bindInterface calls.bindToDevice
  whenSet (TcpKeepalive.build connOpts) calls.setTcpKeepalive

/-- How the connection ends; `none` when it has not. -/
def connecting
    (calls : SocketCalls Stream Error) (connOpts : ConnectOpts kaminari) :
    Option (Except Unit (Except Error Stream)) :=
  timeoutfut calls.connect connOpts.connectTimeout

end SocketCalls

/-! ## The loop over the addresses -/

inductive SocketError (Error : Type) where
  | io (error : Error)
  | invalidInput (message : String)

/-- What a call returns, and the addresses it has tried. -/
structure SocketConnected (Stream Error : Type) where
  tried : List SocketAddr
  result : Except (SocketError Error) Stream

/-- An address, and what the system answers while it is tried. -/
abbrev Target (Stream Error : Type) :=
  SocketAddr × SocketCalls Stream Error

/-- Put an address before those that are tried later. -/
def SocketConnected.after
    (connected : SocketConnected Stream Error) (addr : SocketAddr) :
    SocketConnected Stream Error :=
  { connected with tried := addr :: connected.tried }

def noAddress : SocketError Error :=
  .invalidInput "could not connect to any address"

/-- Try address after address; `none` when a connection does not end. -/
def connectLoop (connOpts : ConnectOpts kaminari) :
    Option Error → List (Target Stream Error) →
      Option (SocketConnected Stream Error)
  | lastErr, [] =>
      some ⟨[], .error ((lastErr.map SocketError.io).getD noAddress)⟩
  | lastErr, (addr, calls) :: targets =>
      match calls.prepare connOpts with
      | .error e => some ⟨[addr], .error (.io e)⟩
      | .ok () =>
          match calls.connecting connOpts with
          | none => none
          | some (.ok (.ok stream)) => some ⟨[addr], .ok stream⟩
          -- try next ip
          | some (.ok (.error e)) =>
              (connectLoop connOpts (some e) targets).map fun connected =>
                connected.after addr
          | some (.error ()) =>
              (connectLoop connOpts lastErr targets).map fun connected =>
                connected.after addr

/-- The addresses of a lookup, each with the answers at its turn. -/
def LookupRemoteAddr.targets
    (lookup : LookupRemoteAddr) (calls : ℕ → SocketCalls Stream Error) :
    List (Target Stream Error) :=
  lookup.iter.mapIdx fun turn addr => (addr, calls turn)

/-- `socket::connect` -/
def socketConnect
    (resolveIp : String → Except Error (List IpAddr))
    (calls : ℕ → SocketCalls Stream Error)
    (raddr : RemoteAddr) (connOpts : ConnectOpts kaminari) :
    Option (SocketConnected Stream Error) :=
  match resolveAddr resolveIp raddr with
  | .error e => some ⟨[], .error (.io e)⟩
  | .ok lookup => connectLoop connOpts none (lookup.targets calls)

end ByteHub.Core
