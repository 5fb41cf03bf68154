import ByteHub.Io.Peek
import Mathlib.Data.List.Infix

/-!
# What peeking shows is what reading returns

The bytes returned and the bytes read ahead are together the bytes received,
after any calls.  A peek copies the first bytes read ahead when the read
cursor is at the start of the buffer.  Behind it the copy is cut at
`rd + len` from a slice that already starts at `rd`, and panics.
-/

namespace ByteHub.Io

open ByteHub.Library

namespace PeekStream

variable {stream next : PeekStream} {reply : PeekReply}
variable {answers : List PeekAnswer}

/-- The bytes read ahead. -/
def unread (stream : PeekStream) : List UInt8 :=
  (stream.buf.drop stream.rd).take (stream.wr - stream.rd)

/-- Some of what was read ahead has been read, but not all of it. -/
def PartlyRead (stream : PeekStream) : Prop :=
  0 < stream.rd ∧ stream.rd < stream.wr

instance (stream : PeekStream) : Decidable stream.PartlyRead :=
  inferInstanceAs (Decidable (0 < stream.rd ∧ stream.rd < stream.wr))

theorem filledSlice_eq (stream : PeekStream) :
    stream.filledSlice = some stream.unread :=
  slice_inside stream.rd_le stream.wr_le

@[simp]
theorem unread_length (stream : PeekStream) :
    stream.unread.length = stream.filled := by
  have inside := stream.wr_le
  simp only [unread, filled, List.length_take, List.length_drop]
  omega

@[simp]
theorem new_unread (buf : List UInt8) : (new buf).unread = [] := by
  simp [new, unread]

theorem unread_nil (met : stream.rd = stream.wr) : stream.unread = [] := by
  simp [unread, met]

/-! ### The cursors -/

@[simp]
theorem tryReset_unread (stream : PeekStream) :
    stream.tryReset.unread = stream.unread := by
  rw [tryReset]
  split
  · next met =>
    have empty : stream.unread = [] := by
      apply List.eq_nil_of_length_eq_zero
      rw [unread_length, met]
    simp [unread] at empty ⊢
    exact empty
  · rfl

@[simp]
theorem tryReset_capacity (stream : PeekStream) :
    stream.tryReset.capacity = stream.capacity := by
  rw [tryReset]
  split <;> rfl

/-- A reset leaves the read cursor behind the start exactly when the bytes
read ahead are partly read. -/
theorem tryReset_rd_ne_zero :
    stream.tryReset.rd ≠ 0 ↔ stream.PartlyRead := by
  have ordered := stream.rd_le
  by_cases met : stream.filled = 0
  · have start : stream.tryReset.rd = 0 := by
      rw [tryReset, if_pos met]
    simp only [filled] at met
    simp only [start, PartlyRead]
    omega
  · rw [tryReset, if_neg met]
    simp only [filled] at met
    simp only [PartlyRead]
    omega

theorem tryReset_of_partlyRead (partly : stream.PartlyRead) :
    stream.tryReset = stream := by
  apply if_neg
  have behind := partly.2
  simp only [filled]
  omega

theorem fill_unread (stream : PeekStream) (bytes : List UInt8) :
    (stream.fill bytes).unread = stream.unread ++ bytes := by
  have ordered := stream.rd_le
  have inside := stream.wr_le
  have front : (stream.buf.take stream.wr).length = stream.wr := by
    rw [List.length_take]
    omega
  have size :
      stream.wr + bytes.length - stream.rd =
        ((stream.buf.take stream.wr).drop stream.rd ++ bytes).length := by
    rw [List.length_append, List.length_drop, front]
    omega
  have early :
      ((stream.buf.take stream.wr).drop stream.rd) = stream.unread := by
    rw [unread, List.drop_take]
  simp only [unread, fill]
  rw [List.append_assoc, List.drop_append_of_le_length (by omega),
    ← List.append_assoc, size, List.take_left, early, unread]

theorem fill_capacity
    {bytes : List UInt8} (fits : bytes.length ≤ stream.unfilled) :
    (stream.fill bytes).capacity = stream.capacity := by
  have inside := stream.wr_le
  simp only [unfilled] at fits
  simp only [fill, capacity, List.length_append, List.length_take,
    List.length_drop]
  omega

/-! ### The copy -/

/-- From the start of the buffer the copy is the first bytes read ahead. -/
theorem copyFilled_of_start
    {len : ℕ} (start : stream.rd = 0) (enough : len ≤ stream.filled) :
    stream.copyFilled len = .done (stream.unread.take len) := by
  rw [copyFilled, filledSlice_eq]
  have cut :
      slice stream.unread 0 (stream.rd + len) =
        some (stream.unread.take len) := by
    rw [start, Nat.zero_add, slice_inside (Nat.zero_le len)]
    · simp
    · rwa [unread_length]
  simp only [cut, List.length_take, unread_length]
  rw [if_pos (Nat.min_eq_left enough)]

/-- Behind the start the cut is longer than the space for it. -/
theorem copyFilled_of_behind
    (behind : stream.rd ≠ 0) (len : ℕ) :
    stream.copyFilled len = .panicked := by
  rw [copyFilled, filledSlice_eq]
  simp only
  cases cut : slice stream.unread 0 (stream.rd + len) with
  | none => rfl
  | some source =>
      have size := (slice_eq_some cut).2
      apply if_neg
      omega

/-! ### Reading ahead -/

/-- What the reads of a peek do to the stream. -/
structure ReadsAhead
    (stream next : PeekStream) (bytes : List UInt8) : Prop where
  unread : next.unread = stream.unread ++ bytes
  capacity : next.capacity = stream.capacity
  rd : next.rd = stream.rd

theorem readsAhead_nil (stream : PeekStream) :
    ReadsAhead stream stream [] where
  unread := (List.append_nil _).symm
  capacity := rfl
  rd := rfl

theorem readsAhead_fill
    {bytes : List UInt8} (fits : bytes.length ≤ stream.unfilled) :
    ReadsAhead stream (stream.fill bytes) bytes where
  unread := fill_unread stream bytes
  capacity := fill_capacity fits
  rd := rfl

theorem ReadsAhead.trans
    {middle : PeekStream} {first second : List UInt8}
    (before : ReadsAhead stream middle first)
    (after : ReadsAhead middle next second) :
    ReadsAhead stream next (first ++ second) where
  unread := by rw [after.unread, before.unread, List.append_assoc]
  capacity := after.capacity.trans before.capacity
  rd := after.rd.trans before.rd

theorem peek_cases
    {room : ℕ}
    (stepped : stream.peek room answers = some (next, reply)) :
    ReadsAhead stream.tryReset next (answers.flatMap PeekAnswer.bytes) ∧
      ((.error ∉ answers ∧
          (answers ≠ [] ∨ stream.tryReset.unfilled = 0) ∧
          reply = next.copyFilled (min next.filled room)) ∨
        ((.error ∈ answers ∨
            answers = [] ∧ stream.tryReset.unfilled ≠ 0) ∧
          (reply = .failed ∨ reply = .dropped))) := by
  cases answers with
  | nil =>
      simp only [peek] at stepped
      split at stepped
      · next space =>
        cases stepped
        exact ⟨readsAhead_nil _,
          .inr ⟨.inr ⟨rfl, Nat.ne_of_gt space⟩, .inr rfl⟩⟩
      · next full =>
        cases stepped
        exact ⟨readsAhead_nil _,
          .inl ⟨by simp, .inr (Nat.eq_zero_of_not_pos full), rfl⟩⟩
  | cons answer rest =>
      simp only [peek] at stepped
      split at stepped
      · next last =>
        rcases last with ⟨-, rfl⟩
        cases answer with
        | error =>
            cases stepped
            exact ⟨readsAhead_nil _, .inr ⟨.inl (by simp), .inl rfl⟩⟩
        | ready bytes =>
            simp only at stepped
            split at stepped
            · next fits =>
              cases stepped
              refine ⟨?_, .inl ⟨by simp, .inl (by simp), rfl⟩⟩
              simpa [PeekAnswer.bytes] using readsAhead_fill fits
            · cases stepped
      · cases stepped

/-- The loop of `peek_exact` gets to its copy when the answers bring what is
required. -/
theorem peekRequired_cases
    {len required : ℕ}
    (stepped :
      peekRequired len stream required answers = some (next, reply)) :
    ReadsAhead stream next (answers.flatMap PeekAnswer.bytes) ∧
      ((.error ∉ answers ∧
          required ≤ (answers.flatMap PeekAnswer.bytes).length ∧
          reply = next.copyFilled len) ∨
        ((.error ∈ answers ∨
            (answers.flatMap PeekAnswer.bytes).length < required) ∧
          (reply = .failed ∨ reply = .dropped))) := by
  induction answers generalizing stream required with
  | nil =>
      cases required with
      | zero =>
          cases stepped
          exact ⟨readsAhead_nil _,
            .inl ⟨by simp, Nat.zero_le _, rfl⟩⟩
      | succ required =>
          cases stepped
          exact ⟨readsAhead_nil _,
            .inr ⟨.inr (Nat.succ_pos required), .inr rfl⟩⟩
  | cons answer answers inductionHypothesis =>
      cases required with
      | zero => cases stepped
      | succ required =>
          cases answer with
          | error =>
              cases answers with
              | nil =>
                  cases stepped
                  exact ⟨readsAhead_nil _, .inr ⟨.inl (by simp), .inl rfl⟩⟩
              | cons => cases stepped
          | ready bytes =>
              simp only [peekRequired] at stepped
              split at stepped
              · next fits =>
                rcases inductionHypothesis stepped with ⟨rest, ends⟩
                have ahead := (readsAhead_fill fits).trans rest
                simp only [List.flatMap_cons, List.length_append,
                  PeekAnswer.bytes, List.mem_cons, reduceCtorEq,
                  false_or]
                refine ⟨ahead, ?_⟩
                rcases ends with ⟨clean, brought, copied⟩ | ⟨short, lost⟩
                · exact .inl ⟨clean, by omega, copied⟩
                · refine .inr ⟨short.imp_right ?_, lost⟩
                  intro missing
                  omega
              · cases stepped

theorem peekExact_within {len : ℕ} (within : len ≤ stream.capacity) :
    stream.peekExact len answers =
      peekRequired len stream.tryReset (len - stream.tryReset.filled)
        answers :=
  if_pos within

/-! ### Reading -/

/-- What a buffered read hands out, followed by what it leaves. -/
theorem take_append_left
    {len : ℕ} (enough : len ≤ stream.wr - stream.rd) :
    (stream.buf.drop stream.rd).take len ++
        (stream.buf.drop (stream.rd + len)).take
          (stream.wr - (stream.rd + len)) =
      stream.unread := by
  rw [unread, ← List.drop_drop, ← Nat.sub_sub, ← List.take_add,
    Nat.add_sub_cancel' enough]

/-- A read takes from the front, and never panics. -/
theorem pollRead_cases
    {remaining : ℕ}
    (stepped :
      stream.pollRead remaining answers = some (next, reply)) :
    next.capacity = stream.capacity ∧
      ((∃ bytes, reply = .done bytes ∧
          bytes ++ next.unread =
            stream.unread ++ answers.flatMap PeekAnswer.bytes) ∨
        ((reply = .failed ∨ reply = .dropped) ∧
          next.unread =
            stream.unread ++ answers.flatMap PeekAnswer.bytes)) := by
  cases answers with
  | nil =>
      simp only [pollRead] at stepped
      split at stepped
      · cases stepped
        exact ⟨rfl, .inr ⟨.inr rfl, (List.append_nil _).symm⟩⟩
      · have ordered := stream.rd_le
        have inside := stream.wr_le
        have within :
            stream.rd + min (stream.wr - stream.rd) remaining ≤
              stream.wr := by
          omega
        rw [slice_inside (Nat.le_add_right _ _)
          (Nat.le_trans within inside)] at stepped
        cases stepped
        refine ⟨rfl, .inl ⟨_, rfl, ?_⟩⟩
        rw [List.flatMap_nil, List.append_nil, Nat.add_sub_cancel_left]
        exact take_append_left (Nat.min_le_left _ remaining)
  | cons answer rest =>
      simp only [pollRead] at stepped
      split at stepped
      · next last =>
        rcases last with ⟨met, rfl⟩
        have empty := unread_nil met
        cases answer with
        | error =>
            cases stepped
            exact ⟨rfl, .inr ⟨.inl rfl, (List.append_nil _).symm⟩⟩
        | ready bytes =>
            simp only at stepped
            split at stepped
            · cases stepped
              exact ⟨rfl, .inl ⟨bytes, rfl, by
                simp [empty, PeekAnswer.bytes]⟩⟩
            · cases stepped
      · cases stepped

end PeekStream

/-! ## One call -/

namespace PeekCall

variable {stream next : PeekStream} {call : PeekCall} {reply : PeekReply}

/-- A peek that is neither dropped nor refused by the stream underneath. -/
def Completed (stream : PeekStream) : PeekCall → Prop
  | .peek _ answers =>
      .error ∉ answers ∧
        (answers ≠ [] ∨ stream.tryReset.unfilled = 0)
  | .peekExact len answers =>
      .error ∉ answers ∧
        len ≤ stream.filled +
          (answers.flatMap PeekAnswer.bytes).length
  | .pollRead _ _ => False

/-- A peek that gets to its copy while the bytes read ahead are partly
read. -/
def Careless (stream : PeekStream) (call : PeekCall) : Prop :=
  stream.PartlyRead ∧ call.Completed stream

/-- How a call ends and what it shows of the bytes received. -/
inductive Outcome
    (stream next : PeekStream) (call : PeekCall) : PeekReply → Prop
  | returned (bytes : List UInt8)
      (reads : ∃ remaining answers, call = .pollRead remaining answers)
      (bytes_eq : bytes ++ next.unread = stream.unread ++ call.received) :
      Outcome stream next call (.done bytes)
  | sighted (request : PeekRequest) (bytes : List UInt8)
      (peeks : call.request = some request)
      (unread_eq : next.unread = stream.unread ++ call.received)
      (shown : bytes <+: next.unread)
      (size : bytes.length = request.size next.filled) :
      Outcome stream next call (.done bytes)
  | cut (reply : PeekReply)
      (lost : reply = .failed ∨ reply = .dropped)
      (unread_eq : next.unread = stream.unread ++ call.received) :
      Outcome stream next call reply

theorem outcome_of_copy
    {request : PeekRequest} (peeks : call.request = some request)
    (ahead : PeekStream.ReadsAhead stream.tryReset next call.received)
    (enough : request.size next.filled ≤ next.filled)
    (whole : ¬stream.PartlyRead) :
    Outcome stream next call
      (next.copyFilled (request.size next.filled)) := by
  have start : next.rd = 0 := by
    by_contra behind
    rw [ahead.rd] at behind
    exact whole (PeekStream.tryReset_rd_ne_zero.1 behind)
  rw [PeekStream.copyFilled_of_start start enough]
  refine .sighted request _ peeks ?_ (List.take_prefix _ _) ?_
  · rw [ahead.unread, PeekStream.tryReset_unread]
  · rw [List.length_take, PeekStream.unread_length]
    exact Nat.min_eq_left enough

theorem copy_panics
    {bytes : List UInt8} {len : ℕ}
    (ahead : PeekStream.ReadsAhead stream.tryReset next bytes)
    (partly : stream.PartlyRead) : next.copyFilled len = .panicked := by
  apply PeekStream.copyFilled_of_behind
  rw [ahead.rd]
  exact PeekStream.tryReset_rd_ne_zero.2 partly

theorem capacity_kept
    (stepped : call.apply stream = some (next, reply)) :
    next.capacity = stream.capacity := by
  cases call with
  | peek room answers =>
      rw [(PeekStream.peek_cases stepped).1.capacity,
        PeekStream.tryReset_capacity]
  | peekExact len answers =>
      simp only [apply, PeekStream.peekExact] at stepped
      split at stepped
      · rw [(PeekStream.peekRequired_cases stepped).1.capacity,
          PeekStream.tryReset_capacity]
      · cases stepped
        rfl
  | pollRead remaining answers =>
      exact (PeekStream.pollRead_cases stepped).1

/-- Nothing but a careless peek goes wrong. -/
theorem outcome
    (within : call.WithinCapacity stream.capacity)
    (careful : ¬call.Careless stream)
    (stepped : call.apply stream = some (next, reply)) :
    Outcome stream next call reply := by
  cases call with
  | peek room answers =>
      rcases PeekStream.peek_cases stepped with
        ⟨ahead, ⟨clean, went, rfl⟩ | ⟨-, lost⟩⟩
      · have peeks :
            (PeekCall.peek room answers).request = some (.upTo room) := rfl
        apply outcome_of_copy peeks ahead (Nat.min_le_left _ _)
        intro partly
        exact careful ⟨partly, clean, went⟩
      · refine .cut _ lost ?_
        rw [ahead.unread, PeekStream.tryReset_unread]
        rfl
  | peekExact len answers =>
      rw [apply, PeekStream.peekExact_within within] at stepped
      have resetFilled : stream.tryReset.filled = stream.filled := by
        rw [← PeekStream.unread_length, PeekStream.tryReset_unread,
          PeekStream.unread_length]
      rcases PeekStream.peekRequired_cases stepped with
        ⟨ahead, ⟨clean, brought, rfl⟩ | ⟨-, lost⟩⟩
      · have size := congrArg List.length ahead.unread
        simp only [List.length_append, PeekStream.unread_length] at size
        have peeks :
            (PeekCall.peekExact len answers).request =
              some (.exactly len) := rfl
        apply outcome_of_copy peeks ahead
        · change len ≤ next.filled
          omega
        · intro partly
          refine careful ⟨partly, clean, ?_⟩
          omega
      · refine .cut _ lost ?_
        rw [ahead.unread, PeekStream.tryReset_unread]
        rfl
  | pollRead remaining answers =>
      rcases (PeekStream.pollRead_cases stepped).2 with
        ⟨bytes, rfl, bytes_eq⟩ | ⟨lost, unread_eq⟩
      · exact .returned bytes ⟨remaining, answers, rfl⟩ bytes_eq
      · exact .cut _ lost unread_eq

/-- A careless peek always panics. -/
theorem careless_panics
    (within : call.WithinCapacity stream.capacity)
    (careless : call.Careless stream)
    (stepped : call.apply stream = some (next, reply)) :
    reply = .panicked := by
  rcases careless with ⟨partly, completed⟩
  cases call with
  | peek room answers =>
      rcases PeekStream.peek_cases stepped with
        ⟨ahead, ⟨-, -, rfl⟩ | ⟨short, -⟩⟩
      · exact copy_panics ahead partly
      · rcases short with failed | ⟨none, space⟩
        · exact absurd failed completed.1
        · exact (completed.2.elim (· none) space).elim
  | peekExact len answers =>
      rw [apply, PeekStream.peekExact_within within] at stepped
      rcases PeekStream.peekRequired_cases stepped with
        ⟨ahead, ⟨-, -, rfl⟩ | ⟨short, -⟩⟩
      · exact copy_panics ahead partly
      · rcases completed with ⟨clean, enough⟩
        rcases short with failed | missing
        · exact absurd failed clean
        · rw [PeekStream.tryReset_of_partlyRead partly] at missing
          omega
  | pollRead => exact completed.elim

end PeekCall

/-! ## Whole sessions -/

namespace PeekSession

variable {session next : PeekSession} {call : PeekCall}
variable {calls : List PeekCall} {capacity : ℕ}

/-- Nothing has panicked, the bytes returned are the first of those received,
and each peek shows as many bytes as it has to, the next ones received, and so
agrees with the reads after it. -/
structure Transparent (session : PeekSession) : Prop where
  safe : session.panicked = false
  returned : session.returned <+: session.received
  complete : ∀ sighting ∈ session.sightings,
    sighting.bytes.length = sighting.size
  shown : ∀ sighting ∈ session.sightings,
    sighting.bytes <+: session.received.drop sighting.readBefore
  sighted : ∀ sighting ∈ session.sightings,
    sighting.bytes <+: session.returned.drop sighting.readBefore ∨
      session.returned.drop sighting.readBefore <+: sighting.bytes

/-- What every session without a careless peek keeps. -/
structure Faithful (capacity : ℕ) (session : PeekSession) : Prop where
  capacity_eq : session.stream.capacity = capacity
  safe : session.panicked = false
  bytes : session.returned ++ session.stream.unread = session.received
  complete : ∀ sighting ∈ session.sightings,
    sighting.bytes.length = sighting.size
  sighted : ∀ sighting ∈ session.sightings,
    sighting.bytes <+: session.received.drop sighting.readBefore

theorem faithful_new (buf : List UInt8) :
    Faithful buf.length (new buf) where
  capacity_eq := rfl
  safe := rfl
  bytes := by simp [new]
  complete _ sighting := absurd sighting List.not_mem_nil
  sighted _ sighting := absurd sighting List.not_mem_nil

theorem Faithful.transparent (faithful : Faithful capacity session) :
    session.Transparent where
  safe := faithful.safe
  returned := ⟨_, faithful.bytes⟩
  complete := faithful.complete
  shown := faithful.sighted
  sighted sighting member := by
    have read :
        session.returned.drop sighting.readBefore <+:
          session.received.drop sighting.readBefore :=
      List.IsPrefix.drop ⟨_, faithful.bytes⟩ _
    exact List.prefix_or_prefix_of_prefix
      (faithful.sighted sighting member) read

theorem step_cases
    (stepped : peekSessions.step session call = some next) :
    session.panicked = false ∧
      ∃ stream reply,
        call.apply session.stream = some (stream, reply) ∧
          next = session.record stream call reply := by
  simp only [peekSessions, Option.ite_none_left_eq_some,
    Option.map_eq_some_iff] at stepped
  rcases stepped with ⟨safe, ⟨stream, reply⟩, applied, rfl⟩
  exact ⟨Bool.eq_false_iff.2 safe, stream, reply, applied, rfl⟩

@[simp]
theorem record_stream
    (session : PeekSession) (stream : PeekStream) (call : PeekCall)
    (reply : PeekReply) :
    (session.record stream call reply).stream = stream := by
  cases reply <;> cases call <;> rfl

@[simp]
theorem record_received
    (session : PeekSession) (stream : PeekStream) (call : PeekCall)
    (reply : PeekReply) :
    (session.record stream call reply).received =
      session.received ++ call.received := by
  cases reply <;> cases call <;> rfl

/-- A peek that is answered is a sighting. -/
theorem record_done
    (session : PeekSession) (stream : PeekStream) {call : PeekCall}
    {request : PeekRequest} (peeks : call.request = some request)
    (bytes : List UInt8) :
    session.record stream call (.done bytes) =
      { session with
        stream := stream
        received := session.received ++ call.received
        sightings :=
          session.sightings ++
            [⟨request, session.returned.length,
              (session.received ++ call.received).length, bytes⟩] } := by
  simp only [record, peeks]

/-- A call without an answer only receives. -/
theorem record_lost
    (session : PeekSession) (stream : PeekStream) (call : PeekCall)
    {reply : PeekReply} (lost : reply = .failed ∨ reply = .dropped) :
    session.record stream call reply =
      { session with
        stream := stream
        received := session.received ++ call.received } := by
  rcases lost with rfl | rfl <;> rfl

/-- Earlier peeks stay right as more is received. -/
theorem Faithful.sighted_later
    (faithful : Faithful capacity session) (more : List UInt8)
    {sighting : Sighting} (member : sighting ∈ session.sightings) :
    sighting.bytes <+:
      (session.received ++ more).drop sighting.readBefore :=
  (faithful.sighted sighting member).trans
    (List.IsPrefix.drop (List.prefix_append _ _) _)

/-- A call that is not careless keeps the session faithful. -/
theorem Faithful.step
    (faithful : Faithful capacity session)
    (within : call.WithinCapacity capacity)
    (careful : ¬call.Careless session.stream)
    (stepped : peekSessions.step session call = some next) :
    Faithful capacity next := by
  rcases step_cases stepped with ⟨-, stream, reply, applied, rfl⟩
  have withinHere : call.WithinCapacity session.stream.capacity := by
    rwa [faithful.capacity_eq]
  have capacity_eq : stream.capacity = capacity := by
    rw [PeekCall.capacity_kept applied, faithful.capacity_eq]
  have later : ∀ {sighting}, sighting ∈ session.sightings →
      sighting.bytes <+:
        (session.received ++ call.received).drop sighting.readBefore :=
    faithful.sighted_later call.received
  have grown :
      session.returned ++ (session.stream.unread ++ call.received) =
        session.received ++ call.received := by
    rw [← List.append_assoc, faithful.bytes]
  cases PeekCall.outcome withinHere careful applied with
  | returned bytes reads bytes_eq =>
      rcases reads with ⟨remaining, answers, rfl⟩
      exact {
        capacity_eq := capacity_eq
        safe := faithful.safe
        bytes := by
          rw [record_stream, record_received, ← grown, ← bytes_eq,
            ← List.append_assoc]
          rfl
        complete := faithful.complete
        sighted := fun _ member => later member }
  | sighted request bytes peeks unread_eq shown size =>
      rw [record_done session stream peeks bytes]
      exact {
        capacity_eq := capacity_eq
        safe := faithful.safe
        bytes := by rw [unread_eq, grown]
        complete := by
          intro sighting member
          rcases List.mem_append.1 member with earlier | this
          · exact faithful.complete sighting earlier
          · rw [List.mem_singleton.1 this, Sighting.size, ← grown,
              List.length_append, Nat.add_sub_cancel_left, ← unread_eq,
              PeekStream.unread_length]
            exact size
        sighted := by
          intro sighting member
          rcases List.mem_append.1 member with earlier | this
          · exact later earlier
          · rw [List.mem_singleton.1 this, ← grown, List.drop_left,
              ← unread_eq]
            exact shown }
  | cut reply lost unread_eq =>
      rw [record_lost session stream call lost]
      exact {
        capacity_eq := capacity_eq
        safe := faithful.safe
        bytes := by rw [unread_eq, grown]
        complete := faithful.complete
        sighted := fun _ member => later member }

/-- A careless peek ends the session in a panic. -/
theorem panicked_of_careless
    (within : call.WithinCapacity session.stream.capacity)
    (careless : call.Careless session.stream)
    (stepped : peekSessions.step session call = some next) :
    next.panicked = true := by
  rcases step_cases stepped with ⟨-, stream, reply, applied, rfl⟩
  rw [PeekCall.careless_panics within careless applied]
  rfl

/-- A session that has panicked goes no further. -/
theorem run_of_panicked
    (panicked : session.panicked = true)
    (ran : peekSessions.run session calls = some next) :
    next = session := by
  cases calls with
  | nil =>
      cases ran
      rfl
  | cons call calls =>
      rcases Machine.run_cons_eq_some peekSessions |>.1 ran with
        ⟨middle, stepped, -⟩
      have safe := (step_cases stepped).1
      rw [panicked] at safe
      cases safe

theorem run_capacity
    {start final : PeekSession}
    (ran : peekSessions.run start calls = some final) :
    final.stream.capacity = start.stream.capacity := by
  refine Machine.run_invariant
    (fun session => session.stream.capacity = start.stream.capacity)
    ?_ rfl ran
  intro session next call kept stepped
  rcases step_cases stepped with ⟨-, stream, reply, applied, rfl⟩
  rw [record_stream, PeekCall.capacity_kept applied, kept]

end PeekSession

/-- No peek of the list is careless when its turn comes. -/
def Careful (buf : List UInt8) (calls : List PeekCall) : Prop :=
  ∀ before call after session, calls = before ++ call :: after →
    peekSessions.run (.new buf) before = some session →
      ¬call.Careless session.stream

/--
A session is transparent exactly when no peek in it gets to its copy while
what was read ahead is partly read.
-/
theorem peekSessions_transparent_iff
    {buf : List UInt8} {calls : List PeekCall} {final : PeekSession}
    (within : ∀ call ∈ calls, call.WithinCapacity buf.length)
    (ran : peekSessions.run (.new buf) calls = some final) :
    final.Transparent ↔ Careful buf calls := by
  constructor
  · rintro transparent before call after session split reached careless
    subst split
    rcases peekSessions.run_append_eq_some.1 ran with
      ⟨middle, first, rest⟩
    cases reached.symm.trans first
    rcases peekSessions.run_cons_eq_some.1 rest with
      ⟨next, stepped, last⟩
    have withinHere :
        call.WithinCapacity session.stream.capacity := by
      rw [PeekSession.run_capacity first]
      exact within call (by simp)
    have panicked :=
      PeekSession.panicked_of_careless withinHere careless stepped
    have safe := transparent.safe
    rw [PeekSession.run_of_panicked panicked last, panicked] at safe
    cases safe
  · intro careful
    have faithful :=
      Machine.run_invariant_of_allowed
        (PeekSession.Faithful buf.length)
        (fun session call =>
          call.WithinCapacity buf.length ∧
            ¬call.Careless session.stream)
        (fun faithful allowed stepped =>
          faithful.step allowed.1 allowed.2 stepped)
        (PeekSession.faithful_new buf)
        (fun before call after session split reached =>
          ⟨within call (by simp [split]),
            careful before call after session split reached⟩)
        ran
    exact faithful.transparent

/-- Two peeks with reads between them that take all. -/
def peeksBetweenReads : List PeekCall :=
  [.peek 2 [.ready [1, 2, 3]], .pollRead 1 [], .pollRead 5 [],
    .peekExact 2 [.ready [4], .ready [5, 6]]]

theorem careful_peeksBetweenReads :
    Careful [0, 0, 0, 0] peeksBetweenReads := by
  intro before call after session split reached careless
  have short : before.length < 4 := by
    have length := congrArg List.length split
    rw [List.length_append, List.length_cons] at length
    change 4 = _ at length
    omega
  rcases before with _ | ⟨_, _ | ⟨_, _ | ⟨_, _ | ⟨_, before⟩⟩⟩⟩
  · cases split
    cases reached
    exact absurd careless.1 (by decide)
  · cases split
    exact careless.2
  · cases split
    exact careless.2
  · cases split
    cases reached
    exact absurd careless.1 (by decide)
  · simp only [List.length_cons] at short
    omega

/-- Peeking again is fine once all that was peeked has been read. -/
theorem peekSessions_transparent_iff_after_all_read :
    ∃ final,
      peekSessions.run (.new [0, 0, 0, 0]) peeksBetweenReads = some final ∧
        final.sightings =
          [⟨.upTo 2, 0, 3, [1, 2]⟩, ⟨.exactly 2, 3, 6, [4, 5]⟩] ∧
        final.Transparent := by
  have within : ∀ call ∈ peeksBetweenReads,
      call.WithinCapacity [0, 0, 0, 0].length := by
    simp [peeksBetweenReads, PeekCall.WithinCapacity]
  exact ⟨_, rfl, rfl,
    (peekSessions_transparent_iff within rfl).2 careful_peeksBetweenReads⟩
/-- Reading one of four peeked bytes makes the next peek panic. -/
theorem peek_panics_when_partly_read :
    ¬∀ (buf : List UInt8) (calls : List PeekCall) (final : PeekSession),
      (∀ call ∈ calls, call.WithinCapacity buf.length) →
        peekSessions.run (.new buf) calls = some final →
          final.Transparent := by
  intro transparent
  have session :=
    transparent [0, 0, 0, 0]
      [.peek 4 [.ready [1, 2, 3, 4]], .pollRead 1 [], .peek 4 []]
      _ (by simp [PeekCall.WithinCapacity]) rfl
  cases session.safe

end ByteHub.Io
