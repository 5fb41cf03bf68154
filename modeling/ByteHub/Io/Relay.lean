import ByteHub.Io.BidiCopy
import ByteHub.Io.ObfsHeader

/-!
# The relay

In mode 1 a relay first reads a chunk of plain data, sends a header with the
chunk behind it, and reads the header of the other side; in mode 2 it reads
the header first.  Then, and at once in the other modes, it copies in both
directions.  The plain stream is `a` in mode 1 and `b` in mode 2; the other
one carries the obfuscated bytes.
-/

namespace ByteHub.Io

open ByteHub.Library

variable {B Error : Type}

/-- The key of the relays, `bytehub_obfs_key_2024`. -/
def obfsKey : ObfsKey where
  bytes :=
    ['b', 'y', 't', 'e', 'h', 'u', 'b', '_', 'o', 'b', 'f', 's', '_', 'k',
      'e', 'y', '_', '2', '0', '2', '4'].map Char.toUInt8
  nonempty := by decide

structure RelayConfig (B : Type) where
  mode : UInt8
  /-- The build with `brutal-shutdown`. -/
  brutal : Bool
  key : ObfsKey
  aToBBuf : B
  bToABuf : B

/-- The buffer of the transfer that reads a stream. -/
def RelayConfig.buf (config : RelayConfig B) : Side → B
  | .a => config.aToBBuf
  | .b => config.bToABuf

/-- The configuration of `bidi_copy`: two zeroed buffers in memory. -/
def RelayConfig.memory
    (mode : UInt8) (brutal : Bool) (key : ObfsKey) (bufSize : ℕ) :
    RelayConfig MemBuf where
  mode := mode
  brutal := brutal
  key := key
  aToBBuf := ⟨List.replicate bufSize 0, mode⟩
  bToABuf := ⟨List.replicate bufSize 0, mode⟩

inductive RelayError (Error : Type) where
  | copy (error : CopyError Error)
  | obfs (error : ObfsError)
deriving DecidableEq, Repr

/-- What a relay is waiting for. -/
inductive RelayPhase (B Error : Type) where
  /-- The first chunk of plain data. -/
  | readFirst
  /-- The writer of the header; the rest of it. -/
  | writeAll (rest : List UInt8)
  /-- The header of the other side; the part that has come. -/
  | readHeader (got : List UInt8)
  /-- The delay before a probe is dropped. -/
  | dropProbe
  /-- The garbage behind the header; how much is left. -/
  | readGarbage (left : ℕ)
  /-- The copy; the point in the current poll, if there is one. -/
  | copying (bidi : BidiCopy B) (point : Option BidiPoint)
  | returned (result : Except (RelayError Error) (UInt64 × UInt64))

/-- A relay is polled, or something it waits for happens.  The clock is read
when a header is made. -/
inductive RelayLabel (Error : Type) where
  | poll
  | first (nanos : ℕ) (answer : ReadAnswer Error)
  | firstTimeout (nanos : ℕ)
  | write (answer : WriteAnswer Error)
  | read (answer : ReadAnswer Error)
  | slept
  | copy (answer : TransferAnswer Error)
deriving DecidableEq, Repr

/-- The stream with the plain data; it matters in modes 1 and 2. -/
def plainSide (mode : UInt8) : Side :=
  if mode = 2 then .b else .a

def wireSide (mode : UInt8) : Side :=
  (plainSide mode).other

theorem wireSide_ne_plainSide (mode : UInt8) :
    wireSide mode ≠ plainSide mode := by
  unfold wireSide
  cases plainSide mode <;> decide

theorem eq_plainSide_or_wireSide (side : Side) (mode : UInt8) :
    side = plainSide mode ∨ side = wireSide mode := by
  unfold wireSide
  cases side <;> cases plainSide mode <;> decide

namespace RelayPhase

variable (config : RelayConfig B)

/-- The copy begins, and is polled at once. -/
def ofStatus (bidi : BidiCopy B) :
    BidiStatus Error → RelayPhase B Error
  | .running point => .copying bidi (some point)
  | .returned .pending => .copying bidi none
  | .returned (.ready (.ok amounts)) => .returned (.ok amounts)
  | .returned (.ready (.error error)) => .returned (.error (.copy error))

def startCopy : RelayPhase B Error :=
  let bidi : BidiCopy B :=
    { aToB := .running (CopyBuffer.new config.aToBBuf)
      bToA := .running (CopyBuffer.new config.bToABuf) }
  ofStatus bidi (bidi.poll config.brutal)

def start : RelayPhase B Error :=
  if config.mode = 1 then .readFirst
  else if config.mode = 2 then .readHeader []
  else startCopy config

/-- The first chunk has come, or none has: send it behind a header. -/
def sendHeader (nanos : ℕ) (firstChunk : List UInt8) : RelayPhase B Error :=
  match generateDynamicObfsV2 config.key (SimpleRng.new nanos) with
  | none => .returned (.error (.obfs .panicked))
  | some obfsPrefix =>
      .writeAll (obfsPrefix ++ firstChunk.map fun byte => byte ^^^ 0x5A)

/-- The header is written. -/
def headerSent : RelayPhase B Error :=
  if config.mode = 1 then .readHeader [] else startCopy config

/-- The header of the other side and its garbage are read. -/
def headerRead : RelayPhase B Error :=
  if config.mode = 1 then startCopy config else .readFirst

def afterFirst (nanos : ℕ) :
    ReadAnswer Error → Option (RelayPhase B Error)
  | .pending => some .readFirst
  | .error _ => some (sendHeader config nanos [])
  | .eof => some (sendHeader config nanos [])
  | .data bytes =>
      if bytes.length = 0 ∨ 8192 < bytes.length then none
      else some (sendHeader config nanos bytes)

def afterWrite (rest : List UInt8) :
    WriteAnswer Error → Option (RelayPhase B Error)
  | .pending => some (.writeAll rest)
  | .error error => some (.returned (.error (.copy (.io error))))
  | .ok written =>
      if rest.length < written then none
      else if written = 0 then
        some (.returned (.error (.copy .writeZero)))
      else if written = rest.length then some (headerSent config)
      else some (.writeAll (rest.drop written))

/-- Fourteen bytes of a header have come, or fewer. -/
def gotHeader (got : List UInt8) : RelayPhase B Error :=
  if got.length < 14 then .readHeader got
  else
    match checkHeader config.key got with
    | .error .invalidData => .dropProbe
    | .error error => .returned (.error (.obfs error))
    | .ok 0 => headerRead config
    | .ok (left + 1) => .readGarbage (left + 1)

def afterHeader (got : List UInt8) :
    ReadAnswer Error → Option (RelayPhase B Error)
  | .pending => some (.readHeader got)
  | .error error => some (.returned (.error (.copy (.io error))))
  | .eof => some (.returned (.error (.obfs .unexpectedEof)))
  | .data bytes =>
      if bytes.length = 0 ∨ 14 - got.length < bytes.length then none
      else some (gotHeader config (got ++ bytes))

def afterGarbage (left : ℕ) :
    ReadAnswer Error → Option (RelayPhase B Error)
  | .pending => some (.readGarbage left)
  | .error error => some (.returned (.error (.copy (.io error))))
  | .eof => some (.returned (.error (.obfs .unexpectedEof)))
  | .data bytes =>
      if bytes.length = 0 ∨ left < bytes.length then none
      else if bytes.length = left then some (headerRead config)
      else some (.readGarbage (left - bytes.length))

section Answers

variable {config} {next : RelayPhase B Error}

/-- A header is sent as soon as it is known what the first chunk is. -/
theorem afterFirst_cases
    {nanos : ℕ} {answer : ReadAnswer Error}
    (stepped : afterFirst config nanos answer = some next) :
    (answer = .pending ∧ next = .readFirst) ∨
      (∃ error, answer = .error error ∧ next = sendHeader config nanos []) ∨
      (answer = .eof ∧ next = sendHeader config nanos []) ∨
      ∃ bytes, answer = .data bytes ∧ 0 < bytes.length ∧
        bytes.length ≤ 8192 ∧ next = sendHeader config nanos bytes := by
  cases answer with
  | pending => exact .inl ⟨rfl, (Option.some.inj stepped).symm⟩
  | error error =>
      exact .inr (.inl ⟨error, rfl, (Option.some.inj stepped).symm⟩)
  | eof =>
      exact .inr (.inr (.inl ⟨rfl, (Option.some.inj stepped).symm⟩))
  | data bytes =>
      simp only [afterFirst] at stepped
      split at stepped
      · cases stepped
      · next fits =>
        cases stepped
        exact .inr (.inr (.inr
          ⟨bytes, rfl, by omega, by omega, rfl⟩))

/-- A header is written bit by bit, and the relay goes on once all of it
is. -/
theorem afterWrite_cases
    {rest : List UInt8} {answer : WriteAnswer Error}
    (stepped : afterWrite config rest answer = some next) :
    (answer = .pending ∧ next = .writeAll rest) ∨
      (∃ error, answer = .error error ∧
        next = .returned (.error (.copy (.io error)))) ∨
      (answer = .ok 0 ∧ next = .returned (.error (.copy .writeZero))) ∨
      (answer = .ok rest.length ∧ 0 < rest.length ∧
        next = headerSent config) ∨
      ∃ written, answer = .ok written ∧ 0 < written ∧
        written < rest.length ∧ next = .writeAll (rest.drop written) := by
  cases answer with
  | pending => exact .inl ⟨rfl, (Option.some.inj stepped).symm⟩
  | error error =>
      exact .inr (.inl ⟨error, rfl, (Option.some.inj stepped).symm⟩)
  | ok written =>
      simp only [afterWrite] at stepped
      split at stepped
      · cases stepped
      · next fits =>
        split at stepped
        · next zero =>
          subst zero
          exact .inr (.inr (.inl ⟨rfl, (Option.some.inj stepped).symm⟩))
        · next positive =>
          split at stepped
          · next all =>
            subst all
            exact .inr (.inr (.inr (.inl
              ⟨rfl, by omega, (Option.some.inj stepped).symm⟩)))
          · next part =>
            exact .inr (.inr (.inr (.inr
              ⟨written, rfl, by omega, by omega,
                (Option.some.inj stepped).symm⟩)))

/-- No more of a header is read than its fourteen bytes. -/
theorem afterHeader_cases
    {got : List UInt8} {answer : ReadAnswer Error}
    (stepped : afterHeader config got answer = some next) :
    (answer = .pending ∧ next = .readHeader got) ∨
      (∃ error, answer = .error error ∧
        next = .returned (.error (.copy (.io error)))) ∨
      (answer = .eof ∧ next = .returned (.error (.obfs .unexpectedEof))) ∨
      ∃ bytes, answer = .data bytes ∧ 0 < bytes.length ∧
        bytes.length ≤ 14 - got.length ∧
        next = gotHeader config (got ++ bytes) := by
  cases answer with
  | pending => exact .inl ⟨rfl, (Option.some.inj stepped).symm⟩
  | error error =>
      exact .inr (.inl ⟨error, rfl, (Option.some.inj stepped).symm⟩)
  | eof =>
      exact .inr (.inr (.inl ⟨rfl, (Option.some.inj stepped).symm⟩))
  | data bytes =>
      simp only [afterHeader] at stepped
      split at stepped
      · cases stepped
      · next fits =>
        cases stepped
        exact .inr (.inr (.inr ⟨bytes, rfl, by omega, by omega, rfl⟩))

/-- No more garbage is read than is left. -/
theorem afterGarbage_cases
    {left : ℕ} {answer : ReadAnswer Error}
    (stepped : afterGarbage config left answer = some next) :
    (answer = .pending ∧ next = .readGarbage left) ∨
      (∃ error, answer = .error error ∧
        next = .returned (.error (.copy (.io error)))) ∨
      (answer = .eof ∧ next = .returned (.error (.obfs .unexpectedEof))) ∨
      (∃ bytes, answer = .data bytes ∧ bytes.length = left ∧
        next = headerRead config) ∨
      ∃ bytes, answer = .data bytes ∧ bytes.length < left ∧
        next = .readGarbage (left - bytes.length) := by
  cases answer with
  | pending => exact .inl ⟨rfl, (Option.some.inj stepped).symm⟩
  | error error =>
      exact .inr (.inl ⟨error, rfl, (Option.some.inj stepped).symm⟩)
  | eof =>
      exact .inr (.inr (.inl ⟨rfl, (Option.some.inj stepped).symm⟩))
  | data bytes =>
      simp only [afterGarbage] at stepped
      split at stepped
      · cases stepped
      · next fits =>
        split at stepped
        · next all =>
          exact .inr (.inr (.inr (.inl
            ⟨bytes, rfl, all, (Option.some.inj stepped).symm⟩)))
        · next part =>
          exact .inr (.inr (.inr (.inr
            ⟨bytes, rfl, by omega, (Option.some.inj stepped).symm⟩)))

end Answers

/-- The operation a relay waits for. -/
def op : RelayPhase B Error → Option IoOp
  | .readFirst => some (.read (plainSide config.mode))
  | .writeAll _ => some (.write (wireSide config.mode))
  | .readHeader _ => some (.read (wireSide config.mode))
  | .readGarbage _ => some (.read (wireSide config.mode))
  | .copying bidi (some point) =>
      (bidi.half point.reader).op point.point point.reader
  | _ => none

variable [AsyncIOBuf B]

/-- What happens next in a relay. -/
def step (phase : RelayPhase B Error) (label : RelayLabel Error) :
    Option (RelayPhase B Error) :=
  match phase, label with
  | .readFirst, .first nanos answer => afterFirst config nanos answer
  | .readFirst, .firstTimeout nanos => some (sendHeader config nanos [])
  | .writeAll rest, .write answer => afterWrite config rest answer
  | .readHeader got, .read answer => afterHeader config got answer
  | .readGarbage left, .read answer => afterGarbage config left answer
  | .dropProbe, .slept =>
      some (.returned (.error (.obfs .invalidData)))
  | .copying bidi none, .poll =>
      some (ofStatus bidi (bidi.poll config.brutal))
  | .copying bidi (some point), .copy answer =>
      (bidi.step config.brutal point answer).map fun result =>
        ofStatus result.1 result.2
  | _, _ => none

/-- The stream read by the direction that a step belongs to. -/
def reader (phase : RelayPhase B Error) : Side :=
  match phase with
  | .copying _ (some point) => point.reader
  | .readHeader _ => wireSide config.mode
  | .readGarbage _ => wireSide config.mode
  | _ => plainSide config.mode

/-- What passes in that direction. -/
def passed (phase : RelayPhase B Error) (label : RelayLabel Error) :
    Passed :=
  match phase, label with
  | .readFirst, .first _ (.data bytes) => Passed.take bytes
  | .readFirst, .first _ .eof => Passed.finish
  | .writeAll rest, .write (.ok written) => Passed.give (rest.take written)
  | .readHeader _, .read (.data bytes) => Passed.take bytes
  | .readHeader _, .read .eof => Passed.finish
  | .readGarbage _, .read (.data bytes) => Passed.take bytes
  | .readGarbage _, .read .eof => Passed.finish
  | .copying bidi (some point), .copy answer =>
      (bidi.half point.reader).passed point.point answer
  | _, _ => Passed.nothing

end RelayPhase

end ByteHub.Io
