import ByteHub.Io.Relay

/-!
# The books of an obfuscating relay

One direction encodes: what it writes is a header followed by the scrambled
bytes it has read.  The other decodes: it reads a header, and writes the
scrambled bytes behind it.  Both hold at every moment of every run, as far as
the writers have got.
-/

namespace ByteHub.Io

open ByteHub.Library

/-- XOR every byte with `0x5A`. -/
def scramble (bytes : List UInt8) : List UInt8 :=
  bytes.map fun byte => byte ^^^ 0x5A

@[simp]
theorem scramble_nil : scramble [] = [] :=
  rfl

@[simp]
theorem scramble_append (first second : List UInt8) :
    scramble (first ++ second) = scramble first ++ scramble second :=
  List.map_append

@[simp]
theorem scramble_scramble (bytes : List UInt8) :
    scramble (scramble bytes) = bytes := by
  rw [scramble, scramble, List.map_map]
  refine List.map_id'' (fun byte => ?_) bytes
  rw [Function.comp_apply, UInt8.xor_assoc, UInt8.xor_self,
    UInt8.xor_zero]

theorem scramble_prefix
    {first second : List UInt8} (isPrefix : first <+: second) :
    scramble first <+: scramble second :=
  isPrefix.map _

/-! ## Runs -/

/-- A relay together with what has passed in its two directions, each under
the stream it reads. -/
structure RelayRun (B Error : Type) where
  phase : RelayPhase B Error
  flow : Side → Passed

namespace RelayRun

variable {B Error : Type} [AsyncIOBuf B]

def start (config : RelayConfig B) : RelayRun B Error where
  phase := RelayPhase.start config
  flow _ := Passed.nothing

/-- A step of a relay, and what passes in it. -/
def machine (config : RelayConfig B) :
    Machine (RelayRun B Error) (RelayLabel Error) where
  step run label :=
    (run.phase.step config label).map fun next =>
      let reader := run.phase.reader config
      { phase := next
        flow := Function.update run.flow reader
          ((run.flow reader).append (run.phase.passed label)) }

end RelayRun

/-! ## The two directions -/

/-- A direction that encodes, at any moment. -/
def Encodes (key : ObfsKey) (all : Passed) : Prop :=
  ∃ header : Header key,
    all.given <+: header.wire ++ scramble all.taken ∧
      (all.done = true →
        all.given = header.wire ++ scramble all.taken ∧ all.ended = true)

/-- A direction that decodes, at any moment. -/
def Decodes (key : ObfsKey) (all : Passed) : Prop :=
  (all.given = [] ∧ all.done = false) ∨
    ∃ (header : Header key) (body : List UInt8),
      all.taken = header.wire ++ body ∧
        all.given <+: scramble body ∧
        (all.done = true →
          all.given = scramble body ∧ all.ended = true)

/-- The encoder is writing its header and its first chunk. -/
def EncoderWriting
    (key : ObfsKey) (rest : List UInt8) (all : Passed) : Prop :=
  all.done = false ∧
    ∃ header : Header key,
      all.given ++ rest = header.wire ++ scramble all.taken

/-- The encoder is ready for its copy. -/
def EncoderReady (key : ObfsKey) : Passed → Prop :=
  EncoderWriting key []

/-- The decoder has read a part of a header. -/
def DecoderHeader (got : List UInt8) (all : Passed) : Prop :=
  all.taken = got ∧ all.given = [] ∧ all.done = false

/-- The decoder has read a header that passes, and a part of the garbage. -/
def DecoderGarbage (key : ObfsKey) (left : ℕ) (all : Passed) : Prop :=
  all.given = [] ∧ all.done = false ∧
    ∃ wire garbage, all.taken = wire ++ garbage ∧ wire.length = 14 ∧
      checkHeader key wire = .ok (garbage.length + left)

/-- The decoder is ready for its copy. -/
def DecoderReady (key : ObfsKey) (all : Passed) : Prop :=
  all.given = [] ∧ all.done = false ∧
    ∃ header : Header key, all.taken = header.wire

/-- A transfer is running after what has passed before. -/
def Copying {B : Type} [AsyncIOBuf B] [LawfulIOBuf B]
    (before : Passed → Prop) (capacity : ℕ) (state : TransferState B)
    (all : Passed) : Prop :=
  ∃ earlier copied, before earlier ∧ all = earlier.append copied ∧
    TransferBooks state (fun byte => byte ^^^ 0x5A) capacity copied

variable {key : ObfsKey} {all : Passed}

theorem encodes_nothing (key : ObfsKey) :
    Encodes key Passed.nothing := by
  rcases exists_header_of_generate key ⟨0⟩ with ⟨header, _⟩
  exact ⟨header, List.nil_prefix, fun isDone => by cases isDone⟩

theorem EncoderWriting.encodes
    {rest : List UInt8} (writing : EncoderWriting key rest all) :
    Encodes key all := by
  rcases writing with ⟨open_, header, bytes⟩
  refine ⟨header, ⟨rest, bytes⟩, fun isDone => ?_⟩
  rw [open_] at isDone
  cases isDone

theorem decodes_of_given_nil
    (given : all.given = []) (open_ : all.done = false) :
    Decodes key all :=
  .inl ⟨given, open_⟩

section Copying

variable {B : Type} [AsyncIOBuf B] [LawfulIOBuf B]
variable {state : TransferState B} {capacity : ℕ}

theorem Copying.encodes
    (copying : Copying (EncoderReady key) capacity state all) :
    Encodes key all := by
  rcases copying with ⟨earlier, copied, ⟨open_, header, sent⟩, rfl, books⟩
  rw [List.append_nil] at sent
  refine ⟨header, ?_, fun isDone => ?_⟩
  · simp only [Passed.append, sent, scramble_append, List.append_assoc]
    exact (List.prefix_append_right_inj _).2
      ((List.prefix_append_right_inj _).2 books.given_prefix)
  · simp only [Passed.append, open_, Bool.false_or] at isDone
    rcases books.of_done isDone with ⟨given, ended⟩
    simp only [Passed.append, sent, given, ended, Bool.or_true,
      scramble_append, List.append_assoc, and_true]
    rfl

theorem Copying.decodes
    (copying : Copying (DecoderReady key) capacity state all) :
    Decodes key all := by
  rcases copying with
    ⟨earlier, copied, ⟨given, open_, header, taken⟩, rfl, books⟩
  refine .inr ⟨header, copied.taken, ?_, ?_, fun isDone => ?_⟩
  · simp only [Passed.append, taken]
  · simp only [Passed.append, given, List.nil_append]
    exact books.given_prefix
  · simp only [Passed.append, open_, Bool.false_or] at isDone
    rcases books.of_done isDone with ⟨moved, ended⟩
    simp only [Passed.append, given, moved, ended, Bool.or_true,
      List.nil_append, and_true]
    rfl

/-- A step of the transfer. -/
theorem Copying.step
    {Error : Type} {before : Passed → Prop} {next : TransferState B}
    {point : CopyPoint} {answer : TransferAnswer Error}
    {status : CopyStatus Error}
    (copying : Copying before capacity state all)
    (nonempty : 0 < capacity)
    (stepped : state.step point answer = some (next, status)) :
    Copying before capacity next (all.append (state.passed point answer)) := by
  rcases copying with ⟨earlier, copied, first, rfl, books⟩
  exact ⟨earlier, _, first, Passed.append_assoc _ _ _,
    transferBooks_step books nonempty stepped⟩

end Copying

end ByteHub.Io
