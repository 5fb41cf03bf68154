import ByteHub.Library.Machine
import ByteHub.Udp.Middle

/-!
# A UDP endpoint at work

The relay receives batches, resolves the remote, and takes the groups of a
batch one after the other: it finds or makes the socket of the client and
sends the group on it.  Beside it a `send_back` task for each socket receives
what comes back and sends it to the client.  All of them work on one map, in
any order.

Beside the state the machine keeps the books: what was received and handed on
at the front, what was lost in errors, and for each socket whose it is, what
was received on it and what of it was returned.
-/

namespace ByteHub.Udp

open ByteHub.Library

variable {Addr : Type}

/-- Where `associate_and_relay` stands. -/
inductive FrontPhase (Addr : Type) where
  | receiving
  | resolving
  /-- The client of the next group is to be looked up. -/
  | turn (raddr : Addr) (groups : List (List (Packet Addr)))
  /-- The client was not found. -/
  | missed (raddr laddr : Addr) (pkts : List (Packet Addr))
      (groups : List (List (Packet Addr)))
  | associated (raddr laddr : Addr) (rsock : Socket)
      (pkts : List (Packet Addr)) (groups : List (List (Packet Addr)))
  /-- The task runs, and the socket is still to be inserted. -/
  | spawned (raddr laddr : Addr) (rsock : Socket)
      (pkts : List (Packet Addr)) (groups : List (List (Packet Addr)))
  /-- Within `send_all`. -/
  | sending (raddr laddr : Addr) (rsock : Socket)
      (rest : List (Datagram Addr)) (groups : List (List (Packet Addr)))

/-- Where a `send_back` task stands. -/
inductive BackPhase (Addr : Type) where
  | receiving
  /-- Within `send_all`. -/
  | sending (rest : List (Datagram Addr))
  /-- Timed out or failed, with the entry still to be removed. -/
  | leaving
  | finished

structure BackTask (Addr : Type) where
  laddr : Addr
  registry : Registry Addr
  phase : BackPhase Addr

/-- A client, and a payload as far as it fits a packet. -/
abbrev Parcel (Addr : Type) := Addr × List UInt8

/-- What has happened at the endpoint. -/
structure Books (Addr : Type) where
  /-- Received on the listening socket. -/
  received : List (Datagram Addr)
  /-- Handed to the kernel on behalf of a client. -/
  handed : List (Handed Addr)
  /-- Dropped by an error. -/
  lost : List (Parcel Addr)
  /-- The client a socket was opened for. -/
  owner : Socket → Option Addr
  /-- Received on a socket. -/
  answered : Socket → List (Datagram Addr)
  /-- Handed to the kernel on the listening socket by the task of a
  socket. -/
  returned : Socket → List (Datagram Addr)

structure Exchange (Addr : Type) where
  registry : Registry Addr
  front : FrontPhase Addr
  sockmap : SockMap Addr
  tasks : Socket → Option (BackTask Addr)
  /-- The number of sockets opened so far. -/
  opened : ℕ
  books : Books Addr

/-- The atomic steps of the relay. -/
inductive FrontLabel (Addr : Type) where
  | receive (batch : Batch Addr)
  | receiveFails
  | resolve (raddr : Addr)
  | resolveFails
  | find
  | associate
  | associateFails
  | spawn
  | insert
  /-- The kernel accepts some of the datagrams offered. -/
  | send (accepted : ℕ)
  | sendFails

/-- The atomic steps of a task. -/
inductive BackLabel (Addr : Type) where
  | receive (batch : Batch Addr)
  | send (accepted : ℕ)
  | sendFails
  /-- Receiving times out or fails. -/
  | leave
  | remove

inductive ExchangeLabel (Addr : Type) where
  | front (label : FrontLabel Addr)
  | back (rsock : Socket) (label : BackLabel Addr)

/-- The steps that end a round of the relay with an error. -/
def FrontLabel.fails : FrontLabel Addr → Bool
  | .receiveFails => true
  | .resolveFails => true
  | .associateFails => true
  | .sendFails => true
  | _ => false

def ExchangeLabel.fails : ExchangeLabel Addr → Bool
  | .front label => label.fails
  | .back _ _ => false

/-- The parcel of a datagram that is received. -/
def Datagram.parcel (datagram : Datagram Addr) : Parcel Addr :=
  (datagram.addr, datagram.payload.take packetSize)

/-- The parcel that a packet holds. -/
def Packet.parcel (packet : Packet Addr) : Parcel Addr :=
  (packet.addr, (packet.refWithAddr packet.addr).payload)

/-- The parcel that was handed on. -/
def Handed.parcel (handed : Handed Addr) : Parcel Addr :=
  (handed.client, handed.datagram.payload)

/-- The parcels of a batch that are still to be handed on. -/
def FrontPhase.pending
    (registry : Registry Addr) : FrontPhase Addr → List (Parcel Addr)
  | .receiving => []
  | .resolving => registry.iter.map Packet.parcel
  | .turn _ groups => groups.flatten.map Packet.parcel
  | .missed _ _ pkts groups => (pkts ++ groups.flatten).map Packet.parcel
  | .associated _ _ _ pkts groups =>
      (pkts ++ groups.flatten).map Packet.parcel
  | .spawned _ _ _ pkts groups => (pkts ++ groups.flatten).map Packet.parcel
  | .sending _ laddr _ rest groups =>
      rest.map (fun datagram => (laddr, datagram.payload)) ++
        groups.flatten.map Packet.parcel

namespace Exchange

def start (unset : Addr) : Exchange Addr where
  registry := Registry.new unset
  front := .receiving
  sockmap := SockMap.new
  tasks _ := none
  opened := 0
  books :=
    { received := []
      handed := []
      lost := []
      owner := fun _ => none
      answered := fun _ => []
      returned := fun _ => [] }

/-- What is still to be handed on. -/
def pending (state : Exchange Addr) : List (Parcel Addr) :=
  state.front.pending state.registry

/-- An error ends the round, and `run_udp` begins anew. -/
def restart (unset : Addr) (state : Exchange Addr) : Exchange Addr :=
  { state with
    registry := Registry.new unset
    front := .receiving
    books := { state.books with
      lost := state.books.lost ++ state.pending } }

/-- Go on with the next group, or with the next batch. -/
def nextTurn (raddr : Addr) :
    List (List (Packet Addr)) → FrontPhase Addr
  | [] => .receiving
  | groups => .turn raddr groups

variable [DecidableEq Addr]

/-- Send the packets of a client on its socket. -/
def relayOn (raddr laddr : Addr) (rsock : Socket)
    (pkts : List (Packet Addr)) (groups : List (List (Packet Addr))) :
    FrontPhase Addr :=
  .sending raddr laddr rsock
    (pkts.map fun pkt => pkt.refWithAddr raddr) groups

/-- A step of the relay. -/
def frontStep (unset : Addr) (state : Exchange Addr) :
    FrontLabel Addr → Option (Exchange Addr)
  | .receive batch =>
      match state.front with
      | .receiving =>
          some { state with
            registry := state.registry.batchedRecvOn batch
            front := .resolving
            books := { state.books with
              received := state.books.received ++ batch.datagrams } }
      | _ => none
  | .receiveFails =>
      match state.front with
      | .receiving => some (state.restart unset)
      | _ => none
  | .resolve raddr =>
      match state.front with
      | .resolving =>
          some { state with
            registry := state.registry.groupByAddr
            front := nextTurn raddr state.registry.groupByAddr.groupIter }
      | _ => none
  | .resolveFails =>
      match state.front with
      | .resolving => some (state.restart unset)
      | _ => none
  | .find =>
      match state.front with
      | .turn raddr ((first :: others) :: groups) =>
          match state.sockmap.find first.addr with
          | some rsock =>
              some { state with
                front := relayOn raddr first.addr rsock (first :: others)
                  groups }
          | none =>
              some { state with
                front := .missed raddr first.addr (first :: others) groups }
      | _ => none
  | .associate =>
      match state.front with
      | .missed raddr laddr pkts groups =>
          some { state with
            front := .associated raddr laddr state.opened pkts groups
            opened := state.opened + 1
            books := { state.books with
              owner := Function.update state.books.owner state.opened
                (some laddr) } }
      | _ => none
  | .associateFails =>
      match state.front with
      | .missed _ _ _ _ => some (state.restart unset)
      | _ => none
  | .spawn =>
      match state.front with
      | .associated raddr laddr rsock pkts groups =>
          some { state with
            front := .spawned raddr laddr rsock pkts groups
            tasks := Function.update state.tasks rsock
              (some ⟨laddr, Registry.new unset, .receiving⟩) }
      | _ => none
  | .insert =>
      match state.front with
      | .spawned raddr laddr rsock pkts groups =>
          some { state with
            front := relayOn raddr laddr rsock pkts groups
            sockmap := state.sockmap.insert laddr rsock }
      | _ => none
  | .send accepted =>
      match state.front with
      | .sending raddr laddr rsock rest groups =>
          if accepted = 0 ∨ rest.length < accepted then none
          else
            some { state with
              front :=
                if accepted = rest.length then nextTurn raddr groups
                else .sending raddr laddr rsock (rest.drop accepted) groups
              books := { state.books with
                handed := state.books.handed ++
                  (rest.take accepted).map (Handed.mk laddr rsock) } }
      | _ => none
  | .sendFails =>
      match state.front with
      | .sending _ _ _ _ _ => some (state.restart unset)
      | _ => none

omit [DecidableEq Addr] in
/-- A task in its next phase. -/
def setTask (state : Exchange Addr) (rsock : Socket)
    (task : BackTask Addr) : Exchange Addr :=
  { state with tasks := Function.update state.tasks rsock (some task) }

/-- A step of the task that reads from a socket. -/
def backStep (state : Exchange Addr) (rsock : Socket) :
    BackLabel Addr → Option (Exchange Addr)
  | .receive batch =>
      match state.tasks rsock with
      | some ⟨laddr, registry, .receiving⟩ =>
          let registry := registry.batchedRecvOn batch
          some { state.setTask rsock ⟨laddr, registry, .sending
              (registry.iter.map fun pkt => pkt.refWithAddr laddr)⟩ with
            books := { state.books with
              answered := Function.update state.books.answered rsock
                (state.books.answered rsock ++ batch.datagrams) } }
      | _ => none
  | .send accepted =>
      match state.tasks rsock with
      | some ⟨laddr, registry, .sending rest⟩ =>
          if accepted = 0 ∨ rest.length < accepted then none
          else
            some { state.setTask rsock ⟨laddr, registry,
                if accepted = rest.length then .receiving
                else .sending (rest.drop accepted)⟩ with
              books := { state.books with
                returned := Function.update state.books.returned rsock
                  (state.books.returned rsock ++ rest.take accepted) } }
      | _ => none
  | .sendFails =>
      match state.tasks rsock with
      | some ⟨laddr, registry, .sending _⟩ =>
          some (state.setTask rsock ⟨laddr, registry, .leaving⟩)
      | _ => none
  | .leave =>
      match state.tasks rsock with
      | some ⟨laddr, registry, .receiving⟩ =>
          some (state.setTask rsock ⟨laddr, registry, .leaving⟩)
      | _ => none
  | .remove =>
      match state.tasks rsock with
      | some ⟨laddr, registry, .leaving⟩ =>
          some { state.setTask rsock ⟨laddr, registry, .finished⟩ with
            sockmap := state.sockmap.remove laddr }
      | _ => none

/-- The relay and its tasks, in any order. -/
def machine (unset : Addr) :
    Machine (Exchange Addr) (ExchangeLabel Addr) where
  step state
    | .front label => state.frontStep unset label
    | .back rsock label => state.backStep rsock label

end Exchange

end ByteHub.Udp
