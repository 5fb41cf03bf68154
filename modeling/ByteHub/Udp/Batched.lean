import Mathlib.Data.List.Basic

/-!
# Datagrams in batches

Packets are received into buffers of a fixed size, and sent from them.  The
kernel fills as much of a buffer as a datagram needs, reports the number of
bytes it has copied, and discards what does not fit.  It accepts some of the
packets offered for sending, at least one, or fails.
-/

namespace ByteHub.Udp

variable {Addr Error : Type}

/-- `PACKET_SIZE` -/
def packetSize : ℕ := 1500

/-- `MAX_PACKETS` -/
def maxPackets : ℕ := 128

/-- A datagram on its way: its payload, and the address it comes from or
goes to. -/
structure Datagram (Addr : Type) where
  payload : List UInt8
  addr : Addr
deriving DecidableEq, Repr

/-- A buffer with the address of its datagram and the number of bytes. -/
structure Packet (Addr : Type) where
  buf : List UInt8
  addr : Addr
  cursor : UInt16
  size : buf.length = packetSize
deriving DecidableEq

namespace Packet

/-- A packet that holds nothing; `unset` is the zeroed address. -/
def new (unset : Addr) : Packet Addr where
  buf := List.replicate packetSize 0
  addr := unset
  cursor := 0
  size := List.length_replicate

/-- The bytes of a packet, under another address. -/
def refWithAddr (packet : Packet Addr) (addr : Addr) : Datagram Addr :=
  ⟨packet.buf.take packet.cursor.toNat, addr⟩

/-- The packet after the kernel has copied a datagram into it. -/
def fill (packet : Packet Addr) (datagram : Datagram Addr) :
    Packet Addr where
  buf :=
    datagram.payload.take packetSize ++
      packet.buf.drop (datagram.payload.take packetSize).length
  addr := datagram.addr
  cursor := UInt16.ofNat (datagram.payload.take packetSize).length
  size := by
    rw [List.length_append, List.length_drop, packet.size]
    have short := List.length_take_le packetSize datagram.payload
    omega

/-- The reference of a filled packet shows what was copied, and nothing that
was in the buffer before. -/
theorem refWithAddr_fill
    (packet : Packet Addr) (datagram : Datagram Addr) (addr : Addr) :
    (packet.fill datagram).refWithAddr addr =
      ⟨datagram.payload.take packetSize, addr⟩ := by
  have short :
      (datagram.payload.take packetSize).length < 65536 :=
    Nat.lt_of_le_of_lt (List.length_take_le _ _) (by decide)
  rw [refWithAddr, fill, UInt16.toNat_ofNat_of_lt' short,
    List.take_left']
  rfl

end Packet

/-! ## Receiving -/

/-- `recv_some`: the first packets are filled, one for each datagram. -/
def recvSome (packets : List (Packet Addr)) (batch : List (Datagram Addr)) :
    List (Packet Addr) × ℕ :=
  (List.zipWith Packet.fill packets batch ++ packets.drop batch.length,
    batch.length)

/-! ## Sending -/

/-- How the kernel answers `sendmmsg` on a socket: by the number of the call
and the number of packets offered. -/
structure SendAnswers (Error : Type) where
  answer : ℕ → ℕ → Except Error ℕ
  positive : ∀ {call offered accepted : ℕ}, 0 < offered →
    answer call offered = .ok accepted → 0 < accepted
  bounded : ∀ {call offered accepted : ℕ},
    answer call offered = .ok accepted → accepted ≤ offered

/-- What `send_all` has handed to the kernel, and how it has ended. -/
structure Sent (Addr Error : Type) where
  handed : List (Datagram Addr)
  result : Except Error Unit

/-- The loop of `send_all`, for at most `calls` more calls. -/
def sendLoop (answers : SendAnswers Error) :
    ℕ → ℕ → List (Datagram Addr) → Option (Sent Addr Error)
  | _, _, [] => some ⟨[], .ok ()⟩
  | 0, _, _ :: _ => none
  | calls + 1, call, datagram :: datagrams =>
      match answers.answer call (datagrams.length + 1) with
      | .error error => some ⟨[], .error error⟩
      | .ok accepted =>
          (sendLoop answers calls (call + 1)
            ((datagram :: datagrams).drop accepted)).map fun sent =>
              { sent with
                handed :=
                  (datagram :: datagrams).take accepted ++ sent.handed }

section Send

variable {answers : SendAnswers Error} {calls call : ℕ}

theorem sendLoop_of_error
    {datagrams : List (Datagram Addr)} {error : Error}
    (some_left : datagrams ≠ [])
    (answered : answers.answer call datagrams.length = .error error) :
    sendLoop answers (calls + 1) call datagrams =
      some ⟨[], .error error⟩ := by
  cases datagrams with
  | nil => exact (some_left rfl).elim
  | cons datagram datagrams =>
      rw [List.length_cons] at answered
      rw [sendLoop, answered]

theorem sendLoop_of_ok
    {datagrams : List (Datagram Addr)} {accepted : ℕ}
    (some_left : datagrams ≠ [])
    (answered : answers.answer call datagrams.length = .ok accepted) :
    sendLoop answers (calls + 1) call datagrams =
      (sendLoop answers calls (call + 1) (datagrams.drop accepted)).map
        fun sent =>
          { sent with
            handed := datagrams.take accepted ++ sent.handed } := by
  cases datagrams with
  | nil => exact (some_left rfl).elim
  | cons datagram datagrams =>
      rw [List.length_cons] at answered
      rw [sendLoop, answered]

/-- The loop ends within as many calls as there are packets, after a prefix
of them, and with success only after all. -/
theorem sendLoop_spec
    {datagrams : List (Datagram Addr)} (enough : datagrams.length ≤ calls) :
    ∃ sent, sendLoop answers calls call datagrams = some sent ∧
      sent.handed <+: datagrams ∧
      (sent.result = .ok () → sent.handed = datagrams) := by
  induction calls generalizing call datagrams with
  | zero =>
      rw [List.eq_nil_of_length_eq_zero (Nat.le_zero.1 enough)]
      exact ⟨_, rfl, List.prefix_rfl, fun _ => rfl⟩
  | succ calls inductionHypothesis =>
      cases datagrams with
      | nil => exact ⟨_, rfl, List.prefix_rfl, fun _ => rfl⟩
      | cons datagram datagrams =>
          rw [sendLoop]
          cases answered : answers.answer call (datagrams.length + 1) with
          | error error =>
              refine ⟨_, rfl, List.nil_prefix, ?_⟩
              rintro ⟨⟩
          | ok accepted =>
              have positive :=
                answers.positive (Nat.succ_pos _) answered
              have short :
                  ((datagram :: datagrams).drop accepted).length ≤
                    calls := by
                rw [List.length_drop]
                rw [List.length_cons] at enough ⊢
                omega
              rcases inductionHypothesis short with
                ⟨sent, sends, handed, all⟩
              dsimp only
              rw [sends]
              refine ⟨_, rfl, ?_, ?_⟩
              · have longer :=
                  (List.prefix_append_right_inj
                    ((datagram :: datagrams).take accepted)).2 handed
                rwa [List.take_append_drop] at longer
              · intro result
                dsimp only at result ⊢
                rw [all result, List.take_append_drop]

/-- How sending ends depends on the number of packets alone. -/
theorem sendLoop_result
    {datagrams others : List (Datagram Addr)}
    (same : datagrams.length = others.length) :
    (sendLoop answers calls call datagrams).map Sent.result =
      (sendLoop answers calls call others).map Sent.result := by
  induction calls generalizing call datagrams others with
  | zero =>
      cases datagrams <;> cases others <;>
        first | rfl | cases same
  | succ calls inductionHypothesis =>
      cases datagrams with
      | nil =>
          rw [List.eq_nil_of_length_eq_zero same.symm]
      | cons datagram datagrams =>
          cases others with
          | nil => cases same
          | cons other others =>
              have lengths :
                  datagrams.length = others.length :=
                Nat.succ.inj same
              rw [sendLoop, sendLoop, lengths]
              cases answers.answer call (others.length + 1) with
              | error error => rfl
              | ok accepted =>
                  have rest :
                      ((datagram :: datagrams).drop accepted).length =
                        ((other :: others).drop accepted).length := by
                    rw [List.length_drop, List.length_drop, same]
                  have onwards := @inductionHypothesis (call + 1) _ _ rest
                  simpa [Option.map_map, Function.comp_def] using onwards

end Send

/-- `send_all`: the loop with as many calls as it can need. -/
def sendAll
    (answers : SendAnswers Error) (datagrams : List (Datagram Addr)) :
    Sent Addr Error :=
  (sendLoop answers datagrams.length 0 datagrams).get <| by
    rcases @sendLoop_spec _ _ answers _ 0 datagrams (Nat.le_refl _) with
      ⟨sent, sends, _⟩
    rw [sends]
    rfl

theorem sendAll_eq
    (answers : SendAnswers Error) (datagrams : List (Datagram Addr)) :
    sendLoop answers datagrams.length 0 datagrams =
      some (sendAll answers datagrams) :=
  (Option.some_get _).symm

theorem sendAll_spec
    (answers : SendAnswers Error) (datagrams : List (Datagram Addr)) :
    (sendAll answers datagrams).handed <+: datagrams ∧
      ((sendAll answers datagrams).result = .ok () →
        (sendAll answers datagrams).handed = datagrams) := by
  rcases @sendLoop_spec _ _ answers _ 0 datagrams (Nat.le_refl _) with
    ⟨sent, sends, spec⟩
  rw [sendAll_eq] at sends
  cases sends
  exact spec

theorem sendAll_result
    (answers : SendAnswers Error)
    {datagrams others : List (Datagram Addr)}
    (same : datagrams.length = others.length) :
    (sendAll answers datagrams).result =
      (sendAll answers others).result := by
  have results :=
    @sendLoop_result _ _ answers datagrams.length 0 _ _ same
  rw [sendAll_eq, same, sendAll_eq] at results
  exact Option.some.inj results

/-- A kernel that accepts whatever it is offered. -/
def SendAnswers.all : SendAnswers Error where
  answer _ offered := .ok offered
  positive positive := by
    rintro ⟨⟩
    exact positive
  bounded := by
    rintro call offered accepted ⟨⟩
    exact Nat.le_refl _

theorem sendAll_all (datagrams : List (Datagram Addr)) :
    sendAll (SendAnswers.all : SendAnswers Error) datagrams =
      ⟨datagrams, .ok ()⟩ := by
  apply Option.some.inj
  rw [← sendAll_eq]
  cases datagrams with
  | nil => rfl
  | cons datagram datagrams =>
      have none_left :
          (datagram :: datagrams).drop (datagrams.length + 1) = [] :=
        List.drop_of_length_le (Nat.le_refl _)
      have all :
          (datagram :: datagrams).take (datagrams.length + 1) =
            datagram :: datagrams :=
        List.take_of_length_le (Nat.le_refl _)
      rw [List.length_cons, sendLoop]
      simp only [SendAnswers.all]
      rw [none_left, all]
      cases datagrams.length <;> simp [sendLoop]

end ByteHub.Udp
