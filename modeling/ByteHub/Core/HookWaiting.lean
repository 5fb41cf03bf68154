import ByteHub.Core.Hook

/-!
# Waiting for the first packet

A peek takes nothing away, so what consecutive peeks find only grows.  It
grows no more once the client has closed, and none beyond what the socket
holds unread.  The loop of the hook ends if and only if the client sends as
many bytes as are required and the socket can hold them, or the connection
breaks; a client that closes early is peeked at for ever.
-/

namespace ByteHub.Core

variable {Addr Error : Type}

/-- A client and the socket it sends to.  At each peek the client has sent
some bytes, or there is an error of the socket, after which there are only
errors.  The kernel keeps `capacity` of the bytes that nobody has read. -/
structure PeekedClient (Error : Type) where
  capacity : ℕ
  sent : ℕ → Except Error (List UInt8)
  grows : ∀ {peek : ℕ} {bytes next : List UInt8},
    sent peek = .ok bytes → sent (peek + 1) = .ok next → bytes <+: next
  breaks : ∀ {peek : ℕ} {error : Error}, sent peek = .error error →
    ∃ again, sent (peek + 1) = .error again

namespace PeekedClient

variable (client : PeekedClient Error) (len : ℕ)

/-- What a peek finds in the socket. -/
def find (peek : ℕ) : Except Error (List UInt8) :=
  (client.sent peek).map fun bytes => bytes.take client.capacity

/-- What the first peeks into a buffer of a length return. -/
def answers (peeks : ℕ) : List (Except Error (List UInt8)) :=
  (List.range peeks).map fun peek =>
    (client.find peek).map fun bytes => bytes.take len

/-- The client sends at least so many bytes. -/
def Sends : Prop :=
  ∃ peek bytes, client.sent peek = .ok bytes ∧ len ≤ bytes.length

/-- The connection breaks. -/
def Broken : Prop :=
  ∃ peek error, client.sent peek = .error error

/-- From some peek on the connection is closed behind fewer bytes. -/
def ClosesEarly : Prop :=
  ∃ bytes : List UInt8, bytes.length < len ∧
    ∃ closed, ∀ peek, closed ≤ peek → client.sent peek = .ok bytes

variable {client len}

theorem broken_on
    {peek : ℕ} {error : Error} (broken : client.sent peek = .error error)
    (later : ℕ) : ∃ again, client.sent (peek + later) = .error again := by
  induction later with
  | zero => exact ⟨error, broken⟩
  | succ later inductionHypothesis =>
      rcases inductionHypothesis with ⟨again, still⟩
      exact client.breaks still

theorem grows_on
    {peek later : ℕ} {bytes next : List UInt8}
    (early : client.sent peek = .ok bytes)
    (late : client.sent (peek + later) = .ok next) :
    bytes.length ≤ next.length := by
  induction later generalizing next with
  | zero =>
      rw [Nat.add_zero, early] at late
      cases late
      exact Nat.le_refl _
  | succ later inductionHypothesis =>
      cases middle : client.sent (peek + later) with
      | error error =>
          rcases client.breaks middle with ⟨again, broken⟩
          rw [Nat.add_assoc] at broken
          rw [broken] at late
          cases late
      | ok held =>
          have step := client.grows middle late
          exact (inductionHypothesis middle).trans step.length_le

/-- A client that closes early never has more to show, and no error. -/
theorem ClosesEarly.sent
    (early : client.ClosesEarly len) (peek : ℕ) :
    ∃ bytes, client.sent peek = .ok bytes ∧ bytes.length < len := by
  rcases early with ⟨last, short, closed, stays⟩
  have final : client.sent (peek + closed) = .ok last :=
    stays _ (Nat.le_add_left _ _)
  cases found : client.sent peek with
  | error error =>
      rcases broken_on found closed with ⟨again, broken⟩
      rw [final] at broken
      cases broken
  | ok bytes =>
      exact ⟨bytes, rfl, Nat.lt_of_le_of_lt (grows_on found final) short⟩

/-- A peek fails exactly where the socket has an error. -/
theorem find_eq_error {peek : ℕ} {error : Error} :
    client.find peek = .error error ↔ client.sent peek = .error error := by
  rw [find]
  cases client.sent peek with
  | error other => rfl
  | ok bytes =>
      constructor
      · rintro ⟨⟩
      · rintro ⟨⟩

theorem find_eq_ok {peek : ℕ} {held : List UInt8} :
    client.find peek = .ok held ↔
      ∃ bytes, client.sent peek = .ok bytes ∧
        bytes.take client.capacity = held := by
  rw [find]
  cases client.sent peek with
  | error other =>
      constructor
      · rintro ⟨⟩
      · rintro ⟨_, ⟨⟩, _⟩
  | ok bytes =>
      constructor
      · rintro ⟨⟩
        exact ⟨bytes, rfl, rfl⟩
      · rintro ⟨_, ⟨⟩, rfl⟩
        rfl

end PeekedClient

/-! ## The loop -/

section Loop

variable {client : PeekedClient Error} {len : ℕ}
variable {answers : List (Except Error (List UInt8))}

/-- The loop ends at the first error, or answer that is long enough. -/
theorem peekFirst_isSome_iff :
    (peekFirst len answers).isSome ↔
      ∃ answer ∈ answers, ∀ bytes, answer = .ok bytes →
        len ≤ bytes.length := by
  induction answers with
  | nil =>
      constructor
      · nofun
      · rintro ⟨_, member, _⟩
        cases member
  | cons answer answers inductionHypothesis =>
      cases answer with
      | error error =>
          refine iff_of_true rfl ⟨_, List.mem_cons_self, ?_⟩
          nofun
      | ok bytes =>
          rw [peekFirst]
          split
          · next short =>
            rw [inductionHypothesis]
            constructor
            · rintro ⟨answer, member, enough⟩
              exact ⟨answer, List.mem_cons_of_mem _ member, enough⟩
            · rintro ⟨answer, member, enough⟩
              rcases List.mem_cons.1 member with rfl | later
              · exact (Nat.not_le_of_lt short (enough bytes rfl)).elim
              · exact ⟨answer, later, enough⟩
          · next enough =>
            refine iff_of_true rfl ⟨_, List.mem_cons_self, ?_⟩
            rintro _ ⟨⟩
            exact Nat.le_of_not_lt enough

/-- What the loop hands on is long enough, and one of the answers. -/
theorem peekFirst_ok
    {buf : List UInt8} (ended : peekFirst len answers = some (.ok buf)) :
    len ≤ buf.length ∧ .ok buf ∈ answers := by
  induction answers with
  | nil => cases ended
  | cons answer answers inductionHypothesis =>
      cases answer with
      | error error => cases ended
      | ok bytes =>
          rw [peekFirst] at ended
          split at ended
          · rcases inductionHypothesis ended with ⟨enough, member⟩
            exact ⟨enough, List.mem_cons_of_mem _ member⟩
          · next enough =>
            cases ended
            exact ⟨Nat.le_of_not_lt enough, List.mem_cons_self⟩

/-- Some number of peeks is enough exactly when the client sends as many
bytes as are required and the socket holds them, or its connection breaks. -/
theorem exists_peekFirst_iff :
    (∃ peeks, (peekFirst len (client.answers len peeks)).isSome) ↔
      (len ≤ client.capacity ∧ client.Sends len) ∨ client.Broken := by
  constructor
  · rintro ⟨peeks, ended⟩
    rcases peekFirst_isSome_iff.1 ended with ⟨answer, member, enough⟩
    rcases List.mem_map.1 member with ⟨peek, _, rfl⟩
    cases found : client.find peek with
    | error error =>
        exact .inr ⟨peek, error, PeekedClient.find_eq_error.1 found⟩
    | ok held =>
        rcases PeekedClient.find_eq_ok.1 found with ⟨bytes, sent, rfl⟩
        have long := enough ((bytes.take client.capacity).take len)
          (by rw [found]; rfl)
        rw [List.length_take, List.length_take] at long
        have fits : len ≤ min client.capacity bytes.length :=
          long.trans (Nat.min_le_right _ _)
        exact .inl ⟨fits.trans (Nat.min_le_left _ _), peek, bytes, sent,
          fits.trans (Nat.min_le_right _ _)⟩
  · have enough {peek : ℕ}
        (ends : ∀ held, client.find peek = .ok held →
          len ≤ held.length) :
        (peekFirst len (client.answers len (peek + 1))).isSome := by
      refine peekFirst_isSome_iff.2
        ⟨_, List.mem_map.2 ⟨peek, List.mem_range.2 (Nat.lt_succ_self _),
          rfl⟩, ?_⟩
      intro bytes answered
      cases found : client.find peek with
      | error error =>
          rw [found] at answered
          cases answered
      | ok held =>
          rw [found] at answered
          cases answered
          rw [List.length_take]
          exact Nat.le_min.2 ⟨Nat.le_refl _, ends held found⟩
    rintro (⟨fits, peek, bytes, sent, long⟩ | ⟨peek, error, broken⟩)
    · refine ⟨peek + 1, enough ?_⟩
      intro held found
      rcases PeekedClient.find_eq_ok.1 found with ⟨all, same, rfl⟩
      rw [sent] at same
      cases same
      rw [List.length_take]
      exact Nat.le_min.2 ⟨fits, long⟩
    · refine ⟨peek + 1, enough ?_⟩
      intro held found
      rw [PeekedClient.find_eq_error.2 broken] at found
      cases found

end Loop

/-! ## The hook -/

/-- The wait ends as it should: after finitely many peeks, in an error if
the client closes early, and never with a packet that is too short. -/
structure WaitEnds
    (hook : Hook) (client : PeekedClient Error) (raddr : Addr)
    (extraRaddrs : List Addr) : Prop where
  ends : ∃ peeks,
    (preConnectHook hook raddr extraRaddrs
      (client.answers hook.firstPktLen.toNat peeks)).isSome
  early : hook.loaded = true →
    client.ClosesEarly hook.firstPktLen.toNat →
      ∃ peeks error,
        preConnectHook hook raddr extraRaddrs
          (client.answers hook.firstPktLen.toNat peeks) =
            some (.io error)
  whole : ∀ peeks buf,
    firstPacket hook (client.answers hook.firstPktLen.toNat peeks) =
      some (.ok buf) → buf.length = hook.firstPktLen.toNat

section Hook

variable {hook : Hook} {client : PeekedClient Error}
variable {raddr : Addr} {extraRaddrs : List Addr}

/-- No packet that is too short is handed to the library. -/
theorem firstPacket_length
    {peeks : ℕ} {buf : List UInt8}
    (packet :
      firstPacket hook (client.answers hook.firstPktLen.toNat peeks) =
        some (.ok buf)) :
    buf.length = hook.firstPktLen.toNat := by
  rw [firstPacket] at packet
  split at packet
  · next none =>
    cases packet
    rw [none]
    rfl
  · rcases peekFirst_ok packet with ⟨enough, member⟩
    rcases List.mem_map.1 member with ⟨peek, _, answered⟩
    cases found : client.find peek with
    | error error =>
        rw [found] at answered
        cases answered
    | ok bytes =>
        rw [found] at answered
        cases answered
        exact Nat.le_antisymm (List.length_take_le _ _) enough

/-- A client that closes early is waited for without end. -/
theorem preConnectHook_of_closesEarly
    (loaded : hook.loaded = true)
    (early : client.ClosesEarly hook.firstPktLen.toNat) (peeks : ℕ) :
    preConnectHook hook raddr extraRaddrs
      (client.answers hook.firstPktLen.toNat peeks) = none := by
  have required : hook.firstPktLen ≠ 0 := by
    rintro none
    rcases early.sent 0 with ⟨bytes, _, short⟩
    rw [none] at short
    exact Nat.not_lt_zero _ short
  have waiting :
      ¬(peekFirst hook.firstPktLen.toNat
        (client.answers hook.firstPktLen.toNat peeks)).isSome := by
    intro ended
    rcases exists_peekFirst_iff.1 ⟨peeks, ended⟩ with
      ⟨-, peek, bytes, found, long⟩ | ⟨peek, error, found⟩
    · rcases early.sent peek with ⟨held, there, short⟩
      rw [found] at there
      cases there
      omega
    · rcases early.sent peek with ⟨held, there, _⟩
      rw [found] at there
      cases there
  rw [preConnectHook, if_pos loaded, firstPacket, if_neg required,
    Option.not_isSome_iff_eq_none.1 waiting]
  rfl

end Hook

/-- A client that sends two bytes and closes, on a socket that holds many. -/
def hastyClient : PeekedClient Unit where
  capacity := 65536
  sent _ := .ok [1, 2]
  grows := by
    rintro _ _ _ ⟨⟩ ⟨⟩
    exact List.prefix_rfl
  breaks := by
    rintro _ _ ⟨⟩

/-- A hook that wants to see four bytes. -/
def fourByteHook : Hook where
  loaded := true
  firstPktLen := 4
  decideRemoteIdx _ _ := 0

end ByteHub.Core
