import ByteHub.Udp.Registry
import ByteHub.Udp.SockMap

/-!
# Relaying a batch

The datagrams of a batch are grouped by client.  Each group is sent on the
socket that is associated with its client, or on one that is opened for it;
what comes back on such a socket is sent to its client.  An error ends the
batch.
-/

namespace ByteHub.Udp

variable {Addr Error : Type}

/-- What the outside answers while a batch is relayed, by client. -/
structure RelayAnswers (Addr Error : Type) where
  /-- The client's `send_back` has removed its entry by now. -/
  removed : Addr → Bool
  associate : Addr → Except Error Socket
  send : Addr → SendAnswers Error

/-- A datagram handed to the kernel: on whose behalf, and on which socket. -/
structure Handed (Addr : Type) where
  client : Addr
  socket : Socket
  datagram : Datagram Addr
deriving DecidableEq, Repr

/-- What relaying has handed to the kernel, the map it leaves, and how it has
ended. -/
structure Relayed (Addr Error : Type) where
  handed : List (Handed Addr)
  sockmap : SockMap Addr
  result : Except Error Unit

section Relay

variable [DecidableEq Addr]

/-- The map when it is the turn of a client. -/
def atTurn
    (answers : RelayAnswers Addr Error) (sockmap : SockMap Addr)
    (laddr : Addr) : SockMap Addr :=
  if answers.removed laddr then sockmap.remove laddr else sockmap

/-- Relay one group.  Groups are never empty. -/
def relayGroup
    (answers : RelayAnswers Addr Error) (raddr : Addr)
    (sockmap : SockMap Addr) (pkts : List (Packet Addr)) :
    Relayed Addr Error :=
  match pkts with
  | [] => ⟨[], sockmap, .ok ()⟩
  | first :: _ =>
      match (atTurn answers sockmap first.addr).findOrInsert first.addr
          (answers.associate first.addr) with
      | (.error error, sockmap) => ⟨[], sockmap, .error error⟩
      | (.ok rsock, sockmap) =>
          let sent :=
            sendAll (answers.send first.addr)
              (pkts.map fun pkt => pkt.refWithAddr raddr)
          ⟨sent.handed.map (Handed.mk first.addr rsock), sockmap,
            sent.result⟩

/-- Relay group after group; an error ends the loop. -/
def relayGroups
    (answers : RelayAnswers Addr Error) (raddr : Addr) :
    SockMap Addr → List (List (Packet Addr)) → Relayed Addr Error
  | sockmap, [] => ⟨[], sockmap, .ok ()⟩
  | sockmap, pkts :: groups =>
      let relayed := relayGroup answers raddr sockmap pkts
      match relayed.result with
      | .error _ => relayed
      | .ok _ =>
          let later := relayGroups answers raddr relayed.sockmap groups
          { later with handed := relayed.handed ++ later.handed }

/-- One round of `associate_and_relay`, with the answer of the resolver. -/
def associateAndRelay
    (answers : RelayAnswers Addr Error) (resolved : Except Error Addr)
    (sockmap : SockMap Addr) (registry : Registry Addr)
    (batch : Batch Addr) : Relayed Addr Error :=
  match resolved with
  | .error error => ⟨[], sockmap, .error error⟩
  | .ok raddr =>
      relayGroups answers raddr sockmap
        (registry.batchedRecvOn batch).groupByAddr.groupIter

end Relay

/-- One round of `send_back` after a receipt. -/
def sendBack
    (answers : SendAnswers Error) (laddr : Addr)
    (registry : Registry Addr) (batch : Batch Addr) : Sent Addr Error :=
  sendAll answers
    ((registry.batchedRecvOn batch).iter.map fun pkt =>
      pkt.refWithAddr laddr)

end ByteHub.Udp
