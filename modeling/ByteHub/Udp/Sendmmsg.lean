import ByteHub.Udp.Batched

/-!
# Sending in batches, and one by one

The batched sender writes a header for every packet into arrays that are not
initialised, and offers the kernel what is left behind a cursor until all is
accepted.  The plain sender offers packet by packet.  Where both meet the
same kernel, they hand over the same datagrams and end the same way.
-/

namespace ByteHub.Udp

variable {Addr Error : Type}

/-! ## The system call -/

/-- Why `sendmmsg` fails. -/
inductive Errno (Error : Type) where
  | wouldBlock
  | other (error : Error)

/-- The end of a call that does not block. -/
def unblocked :
    Except (Errno Error) ℕ → Option (Except Error ℕ)
  | .ok accepted => some (.ok accepted)
  | .error .wouldBlock => none
  | .error (.other error) => some (.error error)

/-- `send_mul_pkts`: a call that would block is made again once the socket
is ready. -/
def sendMulPkts (tries : List (Except (Errno Error) ℕ)) :
    Option (Except Error ℕ) :=
  tries.findSome? unblocked

/-- How the kernel behaves on a socket: by the number of the send and the
number of packets offered, the answers until one does not block. -/
structure Sendmmsg (Error : Type) where
  tries : ℕ → ℕ → List (Except (Errno Error) ℕ)
  ends : ∀ call offered, (sendMulPkts (tries call offered)).isSome
  positive : ∀ {call offered accepted : ℕ}, 0 < offered →
    .ok accepted ∈ tries call offered → 0 < accepted
  bounded : ∀ {call offered accepted : ℕ},
    .ok accepted ∈ tries call offered → accepted ≤ offered

theorem mem_of_sendMulPkts
    {tries : List (Except (Errno Error) ℕ)} {accepted : ℕ}
    (answered : sendMulPkts tries = some (.ok accepted)) :
    .ok accepted ∈ tries := by
  obtain ⟨answer, member, ends⟩ := List.exists_of_findSome?_eq_some answered
  cases answer with
  | ok n =>
      cases ends
      exact member
  | error errno =>
      cases errno with
      | wouldBlock => cases ends
      | other error => cases ends

/-- The answers that do not block. -/
def Sendmmsg.answers (kernel : Sendmmsg Error) : SendAnswers Error where
  answer call offered :=
    (sendMulPkts (kernel.tries call offered)).get (kernel.ends call offered)
  positive some_left answered :=
    kernel.positive some_left
      (mem_of_sendMulPkts (Option.eq_some_iff_get_eq.2 ⟨_, answered⟩))
  bounded answered :=
    kernel.bounded
      (mem_of_sendMulPkts (Option.eq_some_iff_get_eq.2 ⟨_, answered⟩))

theorem Sendmmsg.sendMulPkts_eq
    (kernel : Sendmmsg Error) (call offered : ℕ) :
    sendMulPkts (kernel.tries call offered) =
      some (kernel.answers.answer call offered) :=
  (Option.some_get (kernel.ends call offered)).symm

/-! ## Headers in arrays -/

/-- A header: the address, and the cell of the slice with the payload. -/
structure MmsgHdr (Addr : Type) where
  addr : Addr
  iov : ℕ

/-- The two arrays.  A cell holds nothing before it is written. -/
structure SendArrays (Addr : Type) where
  iovs : List (Option (List UInt8))
  msgs : List (Option (MmsgHdr Addr))

namespace SendArrays

def uninit : SendArrays Addr where
  iovs := List.replicate maxPackets none
  msgs := List.replicate maxPackets none

/-- Write a packet: its payload into one cell, its header into another. -/
def write
    (arrays : SendArrays Addr) (cell : (Datagram Addr × ℕ) × ℕ) :
    SendArrays Addr where
  iovs := arrays.iovs.set cell.1.2 (some cell.1.1.payload)
  msgs := arrays.msgs.set cell.2 (some ⟨cell.1.1.addr, cell.1.2⟩)

/-- The packets, zipped with the cells of the arrays from the front. -/
def build (pkts : List (Datagram Addr)) : SendArrays Addr :=
  ((pkts.zip (List.range maxPackets)).zip (List.range maxPackets)).foldl
    write uninit

/-- The datagram of a header; `none` where a cell is read that was not
written, or is not there. -/
def read (arrays : SendArrays Addr) (cell : ℕ) : Option (Datagram Addr) := do
  let msg ← ← arrays.msgs[cell]?
  let payload ← ← arrays.iovs[msg.iov]?
  return ⟨payload, msg.addr⟩

/-- The datagrams the kernel finds in a slice of the headers. -/
def slice (arrays : SendArrays Addr) (start stop : ℕ) :
    Option (List (Datagram Addr)) :=
  (List.range' start (stop - start)).mapM arrays.read

end SendArrays

/-! ## The two senders -/

/-- A call of the batched sender: where the cursor stands, what the kernel is
offered from there on, and what it answers. -/
structure SendCall (Addr Error : Type) where
  cursor : ℕ
  offered : List (Datagram Addr)
  answer : Except Error ℕ

/-- How many packets the kernel accepts in a call. -/
def SendCall.accepted (call : SendCall Addr Error) : ℕ :=
  match call.answer with
  | .ok n => n
  | .error _ => 0

/-- How many packets the kernel accepts in calls together. -/
def SendCall.acceptedIn : List (SendCall Addr Error) → ℕ
  | [] => 0
  | call :: calls => call.accepted + acceptedIn calls

/-- A run of the batched sender: what it hands over and how it ends, and its
calls. -/
structure SendRun (Addr Error : Type) where
  sent : Sent Addr Error
  calls : List (SendCall Addr Error)

/-- The loop of the batched `send_all`, for at most `calls` more calls. -/
def batchedLoop
    (kernel : Sendmmsg Error) (msgs : SendArrays Addr) (pktAmt : ℕ) :
    ℕ → ℕ → ℕ → Option (SendRun Addr Error)
  | calls, call, cursor =>
      if cursor < pktAmt then
        match calls with
        | 0 => none
        | calls + 1 => do
            let offered ← msgs.slice cursor pktAmt
            let answer ← sendMulPkts (kernel.tries call offered.length)
            match answer with
            | .error error =>
                some
                  ⟨⟨[], .error error⟩, [⟨cursor, offered, .error error⟩]⟩
            | .ok n =>
                (batchedLoop kernel msgs pktAmt calls (call + 1)
                  (cursor + n)).map fun later =>
                    { sent :=
                        { later.sent with
                          handed := offered.take n ++ later.sent.handed }
                      calls := ⟨cursor, offered, .ok n⟩ :: later.calls }
      else some ⟨⟨[], .ok ()⟩, []⟩

/-- `linux::send_all` -/
def batchedSendAll
    (kernel : Sendmmsg Error) (pkts : List (Datagram Addr)) :
    Option (SendRun Addr Error) :=
  batchedLoop kernel (.build pkts) pkts.length pkts.length 0 0

/-- The loop of the plain `send_all`; `sendTo` says how the kernel takes the
packet of each number. -/
def plainLoop (sendTo : ℕ → Except Error Unit) :
    ℕ → List (Datagram Addr) → Sent Addr Error
  | _, [] => ⟨[], .ok ()⟩
  | number, pkt :: pkts =>
      match sendTo number with
      | .error error => ⟨[], .error error⟩
      | .ok _ =>
          let later := plainLoop sendTo (number + 1) pkts
          { later with handed := pkt :: later.handed }

/-- `common::send_all` -/
def plainSendAll
    (sendTo : ℕ → Except Error Unit) (pkts : List (Datagram Addr)) :
    Sent Addr Error :=
  plainLoop sendTo 0 pkts

/-! ## The same kernel -/

/-- An answer to a call, seen as the fates of the packets from the cursor on:
those it accepts are accepted one by one, and it fails with the first. -/
def CallAgrees
    (sendTo : ℕ → Except Error Unit) (cursor : ℕ) :
    Except Error ℕ → Prop
  | .ok n => ∀ number < n, sendTo (cursor + number) = .ok ()
  | .error error => sendTo cursor = .error error

/-- A kernel that takes single packets this way can answer the calls of the
run. -/
def SendRun.Agrees
    (run : SendRun Addr Error) (sendTo : ℕ → Except Error Unit) : Prop :=
  ∀ call ∈ run.calls, CallAgrees sendTo call.cursor call.answer

/-- The run is one on this kernel, from the call of a number and a cursor on:
its calls are answered by the kernel one after the other, each offers all that
is left behind what the ones before it had accepted, what is accepted is what
is handed over, and the run fails with a call that fails and with nothing
else. -/
structure SendRun.OnKernel
    (run : SendRun Addr Error) (kernel : Sendmmsg Error)
    (pkts : List (Datagram Addr)) (first cursor : ℕ) : Prop where
  answered :
    ∀ {number : ℕ} {call : SendCall Addr Error},
      run.calls[number]? = some call →
        sendMulPkts (kernel.tries (first + number) call.offered.length) =
          some call.answer
  resumes :
    ∀ {number : ℕ} {call : SendCall Addr Error},
      run.calls[number]? = some call →
        call.cursor =
          cursor + SendCall.acceptedIn (run.calls.take number)
  offers : ∀ call ∈ run.calls, call.offered = pkts.drop call.cursor
  handed :
    run.sent.handed =
      run.calls.flatMap fun call => call.offered.take call.accepted
  fails :
    ∀ error : Error,
      run.sent.result = .error error ↔
        ∃ call ∈ run.calls, call.answer = .error error

/-- The run does what the plain sender does with the same kernel. -/
structure SendRun.AsPlain
    (run : SendRun Addr Error) (pkts : List (Datagram Addr)) : Prop where
  possible : ∃ sendTo : ℕ → Except Error Unit, run.Agrees sendTo
  same :
    ∀ sendTo : ℕ → Except Error Unit,
      run.Agrees sendTo → run.sent = plainSendAll sendTo pkts
  inOrder : run.sent.handed <+: pkts
  succeeds : run.sent.result = .ok () ↔ run.sent.handed = pkts

/-! ## What the kernel finds in the arrays -/

namespace SendArrays

/-- The headers of packets, from a cell on. -/
def headers (start : ℕ) (pkts : List (Datagram Addr)) :
    List (Option (MmsgHdr Addr)) :=
  pkts.mapIdx fun place pkt => some ⟨pkt.addr, start + place⟩

theorem headers_cons
    (start : ℕ) (pkt : Datagram Addr) (pkts : List (Datagram Addr)) :
    headers start (pkt :: pkts) =
      some ⟨pkt.addr, start⟩ :: headers (start + 1) pkts := by
  simp [headers, List.mapIdx_cons, Nat.add_comm, Nat.add_left_comm]

/-- The arrays after packets have been written behind others. -/
def written
    (iovs : List (Option (List UInt8)))
    (msgs : List (Option (MmsgHdr Addr))) (left : ℕ) : SendArrays Addr where
  iovs := iovs ++ List.replicate left none
  msgs := msgs ++ List.replicate left none

theorem write_written
    {iovs : List (Option (List UInt8))}
    {msgs : List (Option (MmsgHdr Addr))} {cell left : ℕ}
    (iovsFull : iovs.length = cell) (msgsFull : msgs.length = cell)
    (pkt : Datagram Addr) :
    (written iovs msgs (left + 1)).write ((pkt, cell), cell) =
      written (iovs ++ [some pkt.payload])
        (msgs ++ [some ⟨pkt.addr, cell⟩]) left := by
  simp [write, written, iovsFull, msgsFull, List.replicate_succ]

theorem foldl_write
    {pkts : List (Datagram Addr)} {cell left : ℕ}
    (fits : pkts.length ≤ left)
    {iovs : List (Option (List UInt8))}
    {msgs : List (Option (MmsgHdr Addr))}
    (iovsFull : iovs.length = cell) (msgsFull : msgs.length = cell) :
    ((pkts.zip (List.range' cell left)).zip
        (List.range' cell left)).foldl write (written iovs msgs left) =
      written (iovs ++ pkts.map fun pkt => some pkt.payload)
        (msgs ++ headers cell pkts) (left - pkts.length) := by
  induction pkts generalizing cell left iovs msgs with
  | nil => simp [headers]
  | cons pkt pkts ih =>
      cases left with
      | zero => cases fits
      | succ left =>
          rw [List.range'_succ, List.zip_cons_cons, List.zip_cons_cons,
            List.foldl_cons, write_written iovsFull msgsFull,
            ih (Nat.le_of_succ_le_succ fits) (by simp [iovsFull])
              (by simp [msgsFull])]
          simp [headers_cons]

/-- The cells of as many packets as there are are written, with these
packets. -/
theorem build_eq
    {pkts : List (Datagram Addr)} (few : pkts.length ≤ maxPackets) :
    build pkts =
      written (pkts.map fun pkt => some pkt.payload) (headers 0 pkts)
        (maxPackets - pkts.length) := by
  have built := @foldl_write _ pkts 0 maxPackets few [] [] rfl rfl
  rwa [← List.range_eq_range', List.nil_append, List.nil_append] at built

theorem read_build
    {pkts : List (Datagram Addr)} (few : pkts.length ≤ maxPackets)
    {cell : ℕ} (inside : cell < pkts.length) :
    (build pkts).read cell = some pkts[cell] := by
  rw [build_eq few]
  simp [read, written, headers, List.getElem?_append_left, inside]

theorem mapM_read_build
    {pkts : List (Datagram Addr)} (few : pkts.length ≤ maxPackets)
    {start count : ℕ} (all : start + count = pkts.length) :
    (List.range' start count).mapM (build pkts).read =
      some (pkts.drop start) := by
  induction count generalizing start with
  | zero =>
      have none_left : pkts.drop start = [] :=
        List.drop_of_length_le (Nat.le_of_eq all.symm)
      rw [none_left]
      rfl
  | succ count ih =>
      have inside : start < pkts.length := by omega
      rw [List.range'_succ, List.mapM_cons, read_build few inside,
        ih (by omega), List.drop_eq_getElem_cons inside]
      rfl

/-- The kernel finds the packets behind the cursor. -/
theorem slice_build
    {pkts : List (Datagram Addr)} (few : pkts.length ≤ maxPackets)
    {cursor : ℕ} (within : cursor ≤ pkts.length) :
    (build pkts).slice cursor pkts.length = some (pkts.drop cursor) :=
  mapM_read_build few (Nat.add_sub_cancel' within)

end SendArrays

/-! ## The batched sender -/

/-- The fates of packets of which those below a number are accepted, and the
others end as a run does. -/
def fate (accepted : ℕ) (result : Except Error Unit) (number : ℕ) :
    Except Error Unit :=
  if number < accepted then .ok () else result

theorem plainLoop_append
    {sendTo : ℕ → Except Error Unit} {number : ℕ}
    {first : List (Datagram Addr)} (second : List (Datagram Addr))
    (accepted : ∀ place < first.length, sendTo (number + place) = .ok ()) :
    plainLoop sendTo number (first ++ second) =
      { plainLoop sendTo (number + first.length) second with
        handed :=
          first ++
            (plainLoop sendTo (number + first.length) second).handed } := by
  induction first generalizing number with
  | nil => rfl
  | cons pkt first ih =>
      have here : sendTo number = .ok () :=
        accepted 0 (Nat.succ_pos _)
      have later :
          ∀ place < first.length, sendTo (number + 1 + place) = .ok () := by
        intro place below
        have there := accepted (place + 1) (Nat.succ_lt_succ below)
        rwa [Nat.add_right_comm, Nat.add_assoc]
      rw [List.cons_append, plainLoop, here]
      dsimp only
      rw [ih later, List.length_cons, Nat.add_right_comm, Nat.add_assoc]
      rfl

section Loop

variable {kernel : Sendmmsg Error} {pkts : List (Datagram Addr)}

theorem SendRun.OnKernel.through (first cursor : ℕ) :
    (⟨⟨[], .ok ()⟩, []⟩ : SendRun Addr Error).OnKernel
      kernel pkts first cursor := by
  constructor
  · intro number call present
    cases present
  · intro number call present
    cases present
  · rintro call ⟨⟩
  · rfl
  · intro error
    constructor
    · rintro ⟨⟩
    · rintro ⟨call, ⟨⟩, -⟩

theorem SendRun.OnKernel.failed
    {first cursor : ℕ} {error : Error}
    (answered :
      sendMulPkts (kernel.tries first (pkts.drop cursor).length) =
        some (.error error)) :
    (⟨⟨[], .error error⟩, [⟨cursor, pkts.drop cursor, .error error⟩]⟩ :
      SendRun Addr Error).OnKernel kernel pkts first cursor := by
  constructor
  · intro number call present
    cases number with
    | zero =>
        cases present
        exact answered
    | succ number => cases present
  · intro number call present
    cases number with
    | zero =>
        cases present
        rfl
    | succ number => cases present
  · intro call member
    rw [List.mem_singleton.1 member]
  · rfl
  · intro other
    constructor
    · intro fails
      exact ⟨_, List.mem_singleton_self _, by cases fails; rfl⟩
    · rintro ⟨call, member, fails⟩
      rw [List.mem_singleton.1 member] at fails
      cases fails
      rfl

theorem SendRun.OnKernel.accepted
    {first cursor n : ℕ} {later : SendRun Addr Error}
    (answered :
      sendMulPkts (kernel.tries first (pkts.drop cursor).length) =
        some (.ok n))
    (goesOn : later.OnKernel kernel pkts (first + 1) (cursor + n)) :
    SendRun.OnKernel
      { sent :=
          { later.sent with
            handed := (pkts.drop cursor).take n ++ later.sent.handed }
        calls := ⟨cursor, pkts.drop cursor, .ok n⟩ :: later.calls }
      kernel pkts first cursor := by
  constructor
  · intro number call present
    cases number with
    | zero =>
        cases present
        exact answered
    | succ number =>
        have there := goesOn.answered present
        rwa [Nat.add_assoc, Nat.add_comm 1] at there
  · intro number call present
    cases number with
    | zero =>
        cases present
        rfl
    | succ number =>
        have there := goesOn.resumes present
        rwa [Nat.add_assoc] at there
  · rintro call (_ | ⟨_, member⟩)
    · rfl
    · exact goesOn.offers call member
  · rw [goesOn.handed]
    rfl
  · intro error
    rw [goesOn.fails error]
    constructor
    · rintro ⟨call, member, fails⟩
      exact ⟨call, List.mem_cons_of_mem _ member, fails⟩
    · rintro ⟨call, _ | ⟨_, member⟩, fails⟩
      · cases fails
      · exact ⟨call, member, fails⟩

/-- What the loop has still to do once the cursor stands at a place. -/
structure LoopSpec
    (kernel : Sendmmsg Error) (pkts : List (Datagram Addr))
    (first cursor : ℕ) (run : SendRun Addr Error) : Prop where
  onKernel : run.OnKernel kernel pkts first cursor
  possible :
    run.Agrees (fate (cursor + run.sent.handed.length) run.sent.result)
  same :
    ∀ sendTo : ℕ → Except Error Unit,
      run.Agrees sendTo →
        run.sent = plainLoop sendTo cursor (pkts.drop cursor)
  inOrder : run.sent.handed <+: pkts.drop cursor
  succeeds :
    run.sent.result = .ok () ↔ run.sent.handed = pkts.drop cursor

theorem LoopSpec.through
    {first cursor : ℕ} (through : pkts.length ≤ cursor) :
    LoopSpec kernel pkts first cursor
      (⟨⟨[], .ok ()⟩, []⟩ : SendRun Addr Error) := by
  have none_left : pkts.drop cursor = [] :=
    List.drop_of_length_le through
  constructor
  · exact .through first cursor
  · rintro call ⟨⟩
  · intro sendTo _
    rw [none_left]
    rfl
  · exact List.nil_prefix
  · rw [none_left]
    exact ⟨fun _ => rfl, fun _ => rfl⟩

theorem LoopSpec.failed
    {first cursor : ℕ} (inside : cursor < pkts.length) {error : Error}
    (answered :
      sendMulPkts (kernel.tries first (pkts.drop cursor).length) =
        some (.error error)) :
    LoopSpec kernel pkts first cursor
      (⟨⟨[], .error error⟩, [⟨cursor, pkts.drop cursor, .error error⟩]⟩ :
        SendRun Addr Error) := by
  have split := List.drop_eq_getElem_cons inside
  constructor
  · exact .failed answered
  · intro call member
    rw [List.mem_singleton.1 member]
    exact if_neg (Nat.lt_irrefl cursor)
  · intro sendTo agrees
    have fails : sendTo cursor = .error error :=
      agrees _ List.mem_cons_self
    rw [split, plainLoop, fails]
  · exact List.nil_prefix
  · rw [split]
    constructor
    · rintro ⟨⟩
    · rintro ⟨⟩

theorem LoopSpec.accepted
    {first cursor n : ℕ} {later : SendRun Addr Error}
    (answered :
      sendMulPkts (kernel.tries first (pkts.drop cursor).length) =
        some (.ok n))
    (within : n ≤ (pkts.drop cursor).length)
    (spec : LoopSpec kernel pkts (first + 1) (cursor + n) later) :
    LoopSpec kernel pkts first cursor
      { sent :=
          { later.sent with
            handed := (pkts.drop cursor).take n ++ later.sent.handed }
        calls := ⟨cursor, pkts.drop cursor, .ok n⟩ :: later.calls } := by
  have behind : (pkts.drop cursor).drop n = pkts.drop (cursor + n) :=
    List.drop_drop
  have split :
      pkts.drop cursor =
        (pkts.drop cursor).take n ++ pkts.drop (cursor + n) := by
    rw [← behind, List.take_append_drop]
  have taken : ((pkts.drop cursor).take n).length = n :=
    List.length_take_of_le within
  constructor
  · exact .accepted answered spec.onKernel
  · rintro call (_ | ⟨_, member⟩)
    · intro number below
      have accepted :
          cursor + number <
            cursor +
              ((pkts.drop cursor).take n ++ later.sent.handed).length := by
        rw [List.length_append, taken]
        omega
      exact if_pos accepted
    · have agrees := spec.possible call member
      rwa [List.length_append, taken, ← Nat.add_assoc]
  · intro sendTo agrees
    have here : CallAgrees sendTo cursor (.ok n) :=
      agrees _ List.mem_cons_self
    have rest :=
      spec.same sendTo fun call member =>
        agrees call (List.mem_cons_of_mem _ member)
    rw [split, plainLoop_append _ (by rwa [taken]), taken, ← rest,
      ← split]
  · have longer :=
      (List.prefix_append_right_inj ((pkts.drop cursor).take n)).2
        spec.inOrder
    rwa [← split] at longer
  · have same :
        (pkts.drop cursor).take n ++ later.sent.handed =
            pkts.drop cursor ↔
          later.sent.handed = pkts.drop (cursor + n) := by
      constructor
      · intro joined
        exact List.append_cancel_left (joined.trans split)
      · intro rest
        rw [rest]
        exact split.symm
    exact spec.succeeds.trans same.symm

/-- The loop ends after at most as many calls as packets are left. -/
theorem batchedLoop_spec
    (few : pkts.length ≤ maxPackets) {calls call cursor : ℕ}
    (within : cursor ≤ pkts.length)
    (enough : pkts.length ≤ cursor + calls) :
    ∃ run : SendRun Addr Error,
      batchedLoop kernel (.build pkts) pkts.length calls call cursor =
          some run ∧
        LoopSpec kernel pkts call cursor run := by
  induction calls generalizing call cursor with
  | zero =>
      have through : ¬ cursor < pkts.length := Nat.not_lt_of_le enough
      rw [batchedLoop, if_neg through]
      exact ⟨_, rfl, .through (Nat.le_of_not_lt through)⟩
  | succ calls ih =>
      rw [batchedLoop]
      split
      · next inside =>
        rw [SendArrays.slice_build few within]
        simp only [Option.bind_eq_bind, Option.bind_some,
          kernel.sendMulPkts_eq]
        have length_pos : 0 < (pkts.drop cursor).length := by
          rw [List.length_drop]
          omega
        cases answered :
          kernel.answers.answer call (pkts.drop cursor).length with
        | error error =>
            have fails := kernel.sendMulPkts_eq call (pkts.drop cursor).length
            rw [answered] at fails
            exact ⟨_, rfl, .failed inside fails⟩
        | ok n =>
            have positive := kernel.answers.positive length_pos answered
            have bounded := kernel.answers.bounded answered
            have left : cursor + n ≤ pkts.length := by
              rw [List.length_drop] at bounded
              omega
            obtain ⟨later, loops, spec⟩ :=
              @ih (call + 1) (cursor + n) left (by omega)
            dsimp only
            rw [loops]
            have accepts :=
              kernel.sendMulPkts_eq call (pkts.drop cursor).length
            rw [answered] at accepts
            exact ⟨_, rfl, spec.accepted accepts bounded⟩
      · next through =>
        exact ⟨_, rfl, .through (Nat.le_of_not_lt through)⟩

/-- Without its arrays and its cursor the loop is the one over lists. -/
theorem batchedLoop_sent
    (few : pkts.length ≤ maxPackets) {calls call cursor : ℕ}
    (within : cursor ≤ pkts.length) :
    (batchedLoop kernel (.build pkts) pkts.length calls call cursor).map
        SendRun.sent =
      sendLoop kernel.answers calls call (pkts.drop cursor) := by
  induction calls generalizing call cursor with
  | zero =>
      rw [batchedLoop]
      split
      · next inside =>
        rw [List.drop_eq_getElem_cons inside]
        rfl
      · next through =>
        rw [List.drop_of_length_le (Nat.le_of_not_lt through)]
        rfl
  | succ calls ih =>
      rw [batchedLoop]
      split
      · next inside =>
        rw [SendArrays.slice_build few within]
        simp only [Option.bind_eq_bind, Option.bind_some,
          kernel.sendMulPkts_eq]
        have some_left : pkts.drop cursor ≠ [] := by
          rw [List.drop_eq_getElem_cons inside]
          exact List.cons_ne_nil _ _
        cases answered :
          kernel.answers.answer call (pkts.drop cursor).length with
        | error error =>
            rw [sendLoop_of_error some_left answered]
            rfl
        | ok n =>
            have bounded := kernel.answers.bounded answered
            have left : cursor + n ≤ pkts.length := by
              rw [List.length_drop] at bounded
              omega
            dsimp only
            rw [sendLoop_of_ok some_left answered, List.drop_drop,
              ← ih left, Option.map_map, Option.map_map]
            rfl
      · next through =>
        rw [List.drop_of_length_le (Nat.le_of_not_lt through)]
        rfl

end Loop

/-- The relay's model of `send_all` is the batched sender, seen without its
arrays. -/
theorem batchedSendAll_sent
    (kernel : Sendmmsg Error) {pkts : List (Datagram Addr)}
    (few : pkts.length ≤ maxPackets) :
    (batchedSendAll kernel pkts).map SendRun.sent =
      some (sendAll kernel.answers pkts) := by
  rw [batchedSendAll, batchedLoop_sent few (Nat.zero_le _), ← sendAll_eq]
  rfl

/-- For every behaviour of the kernel the batched sender ends, makes its calls
on that kernel, and does what the plain sender does with it; and this is the
`send_all` that the relay's model has. -/
theorem batchedSendAll_asPlain
    (kernel : Sendmmsg Error) {pkts : List (Datagram Addr)}
    (few : pkts.length ≤ maxPackets) :
    ∃ run : SendRun Addr Error,
      batchedSendAll kernel pkts = some run ∧
        run.OnKernel kernel pkts 0 0 ∧ run.AsPlain pkts ∧
        run.sent = sendAll kernel.answers pkts := by
  obtain ⟨run, loops, spec⟩ :=
    @batchedLoop_spec _ _ kernel pkts few pkts.length 0 0 (Nat.zero_le _)
      (Nat.le_add_left _ _)
  have all : pkts.drop 0 = pkts := List.drop_zero
  have returned : batchedSendAll kernel pkts = some run := loops
  have sent := batchedSendAll_sent kernel few
  rw [returned] at sent
  exact
    ⟨run, returned, spec.onKernel,
      { possible := ⟨_, spec.possible⟩
        same := fun sendTo agrees => by
          rw [spec.same sendTo agrees, all, plainSendAll]
        inOrder := all ▸ spec.inOrder
        succeeds := all ▸ spec.succeeds },
      Option.some.inj sent⟩

/-- A kernel that blocks before each call and accepts one packet. -/
def Sendmmsg.oneByOne : Sendmmsg Error where
  tries _ offered := [.error .wouldBlock, .ok (min 1 offered)]
  ends _ _ := rfl
  positive some_left member := by
    simp only [List.mem_cons, Except.ok.injEq, reduceCtorEq, false_or,
      List.not_mem_nil, or_false] at member
    omega
  bounded member := by
    simp only [List.mem_cons, Except.ok.injEq, reduceCtorEq, false_or,
      List.not_mem_nil, or_false] at member
    omega

theorem batchedSendAll_asPlain_one_by_one :
    ∃ run : SendRun ℕ Unit,
      batchedSendAll .oneByOne [⟨[1], 7⟩, ⟨[2], 8⟩, ⟨[3], 7⟩] = some run ∧
        run.OnKernel .oneByOne [⟨[1], 7⟩, ⟨[2], 8⟩, ⟨[3], 7⟩] 0 0 ∧
        run.AsPlain [⟨[1], 7⟩, ⟨[2], 8⟩, ⟨[3], 7⟩] ∧
        run.sent =
          sendAll Sendmmsg.oneByOne.answers
            [⟨[1], 7⟩, ⟨[2], 8⟩, ⟨[3], 7⟩] :=
  batchedSendAll_asPlain .oneByOne (by decide)

end ByteHub.Udp
