import ByteHub.Io.RelayBooks

/-!
# The invariant of an obfuscating relay

In mode 1 the encoder is through with its header before the decoder starts,
in mode 2 the decoder is; the copy runs when both are.
-/

namespace ByteHub.Io

open ByteHub.Library

variable {B Error : Type}

/-- The encoder while the decoder works. -/
def EncoderBeside (config : RelayConfig B) (all : Passed) : Prop :=
  if config.mode = 1 then EncoderReady config.key all
  else all = Passed.nothing

/-- The decoder while the encoder works. -/
def DecoderBeside (config : RelayConfig B) (all : Passed) : Prop :=
  if config.mode = 1 then all = Passed.nothing
  else DecoderReady config.key all

/-- In mode 2 nothing passes but the header, until a header has passed. -/
def HeaderFirst
    (config : RelayConfig B) (encoder decoder : Passed) : Prop :=
  config.mode = 2 →
    (encoder = Passed.nothing ∧ decoder.given = []) ∨
      ∃ (header : Header config.key) (body : List UInt8),
        decoder.taken = header.wire ++ body

variable {config : RelayConfig B} {encoder decoder : Passed}

theorem EncoderBeside.encodes
    (beside : EncoderBeside config encoder) :
    Encodes config.key encoder := by
  unfold EncoderBeside at beside
  split at beside
  · exact beside.encodes
  · rw [beside]
    exact encodes_nothing _

theorem DecoderReady.decodes
    {key : ObfsKey} (ready : DecoderReady key decoder) :
    Decodes key decoder :=
  decodes_of_given_nil ready.1 ready.2.1

theorem DecoderBeside.decodes
    (beside : DecoderBeside config decoder) :
    Decodes config.key decoder := by
  unfold DecoderBeside at beside
  split at beside
  · rw [beside]
    exact decodes_of_given_nil rfl rfl
  · exact beside.decodes

/-- Beside a working decoder the encoder of mode 2 has not begun. -/
theorem EncoderBeside.headerFirst
    (beside : EncoderBeside config encoder) (given : decoder.given = []) :
    HeaderFirst config encoder decoder := by
  intro two
  rw [EncoderBeside, two, if_neg (by decide)] at beside
  exact .inl ⟨beside, given⟩

/-- Beside a working encoder the decoder of mode 2 has its header. -/
theorem DecoderBeside.headerFirst
    (beside : DecoderBeside config decoder) :
    HeaderFirst config encoder decoder := by
  intro two
  rw [DecoderBeside, two, if_neg (by decide)] at beside
  rcases beside with ⟨_, _, header, taken⟩
  exact .inr ⟨header, [], by rw [taken, List.append_nil]⟩

/-- As long as the decoder has handed nothing over, the relay may
return. -/
theorem returned_of_given_nil
    (beside : EncoderBeside config encoder) (given : decoder.given = [])
    (open_ : decoder.done = false) :
    Encodes config.key encoder ∧ Decodes config.key decoder ∧
      HeaderFirst config encoder decoder :=
  ⟨beside.encodes, decodes_of_given_nil given open_,
    beside.headerFirst given⟩

variable [AsyncIOBuf B] [LawfulIOBuf B]

/-- A relay in an obfuscation mode, over buffers that scramble. -/
structure Obfuscating (config : RelayConfig B) : Prop where
  mode : config.mode = 1 ∨ config.mode = 2
  valid : ∀ side, LawfulIOBuf.Valid (config.buf side) 0 0
  image : ∀ side, LawfulIOBuf.image (config.buf side) =
    fun byte => byte ^^^ 0x5A
  nonempty : ∀ side, 0 < AsyncIOBuf.capacity (config.buf side)

/-- The books of the encoder and the decoder in each phase. -/
def RelayPhase.Books
    (config : RelayConfig B) (encoder decoder : Passed) :
    RelayPhase B Error → Prop
  | .readFirst =>
      encoder = Passed.nothing ∧ DecoderBeside config decoder
  | .writeAll rest =>
      EncoderWriting config.key rest encoder ∧
        DecoderBeside config decoder
  | .readHeader got =>
      EncoderBeside config encoder ∧ DecoderHeader got decoder ∧
        got.length < 14
  | .readGarbage left =>
      EncoderBeside config encoder ∧
        DecoderGarbage config.key left decoder
  | .dropProbe =>
      EncoderBeside config encoder ∧ decoder.given = [] ∧
        decoder.done = false
  | .copying bidi _ =>
      Copying (EncoderReady config.key)
        (AsyncIOBuf.capacity (config.buf (plainSide config.mode)))
        (bidi.half (plainSide config.mode)) encoder ∧
      Copying (DecoderReady config.key)
        (AsyncIOBuf.capacity (config.buf (wireSide config.mode)))
        (bidi.half (wireSide config.mode)) decoder
  | .returned _ =>
      Encodes config.key encoder ∧ Decodes config.key decoder ∧
        HeaderFirst config encoder decoder

theorem Copying.headerFirst
    {state : TransferState B} {capacity : ℕ}
    (copying :
      Copying (DecoderReady config.key) capacity state decoder) :
    HeaderFirst config encoder decoder := by
  intro _
  rcases copying with ⟨earlier, copied, ⟨_, _, header, taken⟩, rfl, _⟩
  exact .inr ⟨header, copied.taken, by rw [Passed.append, taken]⟩

/-- Every phase has the books of a relay that may return. -/
theorem RelayPhase.Books.returned
    {phase : RelayPhase B Error}
    (books : phase.Books config encoder decoder) :
    Encodes config.key encoder ∧ Decodes config.key decoder ∧
      HeaderFirst config encoder decoder := by
  cases phase with
  | readFirst =>
      rcases books with ⟨rfl, beside⟩
      exact ⟨encodes_nothing _, beside.decodes, beside.headerFirst⟩
  | writeAll rest =>
      rcases books with ⟨writing, beside⟩
      exact ⟨writing.encodes, beside.decodes, beside.headerFirst⟩
  | readHeader got =>
      rcases books with ⟨beside, ⟨_, given, open_⟩, _⟩
      exact returned_of_given_nil beside given open_
  | readGarbage left =>
      rcases books with ⟨beside, given, open_, _⟩
      exact returned_of_given_nil beside given open_
  | dropProbe =>
      rcases books with ⟨beside, given, open_⟩
      exact returned_of_given_nil beside given open_
  | copying bidi point =>
      rcases books with ⟨sending, receiving⟩
      exact ⟨sending.encodes, receiving.decodes, receiving.headerFirst⟩
  | returned result => exact books

/-! ## Transitions -/

theorem books_ofStatus
    {bidi : BidiCopy B} (point : Option BidiPoint)
    (books : (.copying bidi point : RelayPhase B Error).Books config
      encoder decoder) (status : BidiStatus Error) :
    (RelayPhase.ofStatus bidi status).Books config encoder decoder := by
  rcases status with point' | (_ | (error | amounts))
  · exact books
  · exact books
  · exact RelayPhase.Books.returned books
  · exact RelayPhase.Books.returned books

theorem copying_new
    (obfuscating : Obfuscating config) {before : Passed → Prop}
    {all : Passed} (first : before all) (side : Side) :
    Copying before (AsyncIOBuf.capacity (config.buf side))
      (.running (CopyBuffer.new (config.buf side))) all :=
  ⟨all, Passed.nothing, first, (Passed.append_nothing _).symm, by
    rw [← obfuscating.image side]
    exact transferBooks_new (obfuscating.valid side)⟩

theorem books_startCopy
    (obfuscating : Obfuscating config)
    (sending : EncoderReady config.key encoder)
    (receiving : DecoderReady config.key decoder) :
    (RelayPhase.startCopy config : RelayPhase B Error).Books config
      encoder decoder := by
  let bidi : BidiCopy B :=
    { aToB := .running (CopyBuffer.new config.aToBBuf)
      bToA := .running (CopyBuffer.new config.bToABuf) }
  have half (side : Side) :
      bidi.half side = .running (CopyBuffer.new (config.buf side)) := by
    cases side <;> rfl
  have books :
      (.copying bidi none : RelayPhase B Error).Books config encoder
        decoder := by
    simp only [RelayPhase.Books, half]
    exact ⟨copying_new obfuscating sending _,
      copying_new obfuscating receiving _⟩
  exact books_ofStatus none books (bidi.poll config.brutal)

/-- The encoder sends its header behind the chunk it has read. -/
theorem books_sendHeader
    (encoder : Passed) (beside : DecoderBeside config decoder)
    (given : encoder.given = []) (open_ : encoder.done = false)
    (nanos : ℕ) :
    (RelayPhase.sendHeader config nanos encoder.taken :
      RelayPhase B Error).Books config encoder decoder := by
  rcases exists_header_of_generate config.key (SimpleRng.new nanos) with
    ⟨header, generated⟩
  rw [RelayPhase.sendHeader, generated]
  refine ⟨⟨open_, header, ?_⟩, beside⟩
  rw [given, List.nil_append, scramble]

theorem books_headerSent
    (obfuscating : Obfuscating config)
    (sending : EncoderReady config.key encoder)
    (beside : DecoderBeside config decoder) :
    (RelayPhase.headerSent config : RelayPhase B Error).Books config
      encoder decoder := by
  unfold RelayPhase.headerSent
  unfold DecoderBeside at beside
  split
  · next one =>
    rw [if_pos one] at beside
    rw [beside]
    refine ⟨?_, ⟨rfl, rfl, rfl⟩, by decide⟩
    rwa [EncoderBeside, if_pos one]
  · next other =>
    rw [if_neg other] at beside
    exact books_startCopy obfuscating sending beside

theorem books_headerRead
    (obfuscating : Obfuscating config)
    (beside : EncoderBeside config encoder)
    (receiving : DecoderReady config.key decoder) :
    (RelayPhase.headerRead config : RelayPhase B Error).Books config
      encoder decoder := by
  unfold RelayPhase.headerRead
  unfold EncoderBeside at beside
  split
  · next one =>
    rw [if_pos one] at beside
    exact books_startCopy obfuscating beside receiving
  · next other =>
    rw [if_neg other] at beside
    refine ⟨beside, ?_⟩
    rwa [DecoderBeside, if_neg other]

/-- A header that passes and all of its garbage. -/
theorem decoderReady_of_garbage
    {key : ObfsKey} {all : Passed} (garbage : DecoderGarbage key 0 all) :
    DecoderReady key all := by
  rcases garbage with ⟨given, open_, wire, garbage, taken, long, checked⟩
  rcases checkHeader_eq_ok long checked rfl with ⟨header, first, second⟩
  exact ⟨given, open_, header, by rw [taken, Header.wire, first, second]⟩

theorem books_gotHeader
    (obfuscating : Obfuscating config)
    (beside : EncoderBeside config encoder)
    (given : decoder.given = []) (open_ : decoder.done = false)
    (atMost : decoder.taken.length ≤ 14) :
    (RelayPhase.gotHeader config decoder.taken :
      RelayPhase B Error).Books config encoder decoder := by
  unfold RelayPhase.gotHeader
  split
  · next short => exact ⟨beside, ⟨rfl, given, open_⟩, short⟩
  · next long =>
    have fourteen :
        decoder.taken.length = 14 :=
      Nat.le_antisymm atMost (Nat.not_lt.1 long)
    have garbage {left : ℕ}
        (checked : checkHeader config.key decoder.taken = .ok left) :
        DecoderGarbage config.key left decoder :=
      ⟨given, open_, decoder.taken, [], (List.append_nil _).symm, fourteen,
        by rw [checked, List.length_nil, Nat.zero_add]⟩
    split
    · exact ⟨beside, given, open_⟩
    · exact returned_of_given_nil beside given open_
    · next checked =>
      exact books_headerRead obfuscating beside
        (decoderReady_of_garbage (garbage checked))
    · next left checked => exact ⟨beside, garbage checked⟩

/-! ## Steps -/

theorem books_afterFirst
    {nanos : ℕ} {answer : ReadAnswer Error} {next : RelayPhase B Error}
    (books : (.readFirst : RelayPhase B Error).Books config encoder decoder)
    (stepped : RelayPhase.afterFirst config nanos answer = some next) :
    next.Books config
      (encoder.append ((.readFirst : RelayPhase B Error).passed
        (.first nanos answer))) decoder := by
  rcases books with ⟨rfl, beside⟩
  rcases RelayPhase.afterFirst_cases stepped with
    ⟨rfl, rfl⟩ | ⟨error, rfl, rfl⟩ | ⟨rfl, rfl⟩ | ⟨bytes, rfl, _, _, rfl⟩
  · exact ⟨rfl, beside⟩
  · exact books_sendHeader Passed.nothing beside rfl rfl nanos
  · exact books_sendHeader (Passed.nothing.append Passed.finish) beside
      rfl rfl nanos
  · exact books_sendHeader
      (Passed.nothing.append (Passed.take bytes)) beside rfl rfl nanos

theorem books_afterWrite
    (obfuscating : Obfuscating config) {rest : List UInt8}
    {answer : WriteAnswer Error} {next : RelayPhase B Error}
    (books :
      (.writeAll rest : RelayPhase B Error).Books config encoder decoder)
    (stepped : RelayPhase.afterWrite config rest answer = some next) :
    next.Books config
      (encoder.append ((.writeAll rest : RelayPhase B Error).passed
        (.write answer))) decoder := by
  have quiet := Passed.append_nothing encoder
  have moved (written : ℕ) :
      EncoderWriting config.key (rest.drop written)
        (encoder.append (Passed.give (rest.take written))) := by
    rcases books with ⟨⟨open_, header, bytes⟩, _⟩
    refine ⟨by simpa [Passed.append, Passed.give] using open_, header, ?_⟩
    simpa [Passed.append, Passed.give] using bytes
  have beside := books.2
  rcases RelayPhase.afterWrite_cases stepped with
    ⟨rfl, rfl⟩ | ⟨error, rfl, rfl⟩ | ⟨rfl, rfl⟩ | ⟨rfl, _, rfl⟩ |
      ⟨written, rfl, _, _, rfl⟩
  · exact quiet.symm ▸ books
  · exact quiet.symm ▸ books.returned
  · exact ⟨(moved 0).encodes, beside.decodes, beside.headerFirst⟩
  · have all := moved rest.length
    rw [List.drop_length] at all
    exact books_headerSent obfuscating all beside
  · exact ⟨moved written, beside⟩

theorem books_afterHeader
    (obfuscating : Obfuscating config) {got : List UInt8}
    {answer : ReadAnswer Error} {next : RelayPhase B Error}
    (books :
      (.readHeader got : RelayPhase B Error).Books config encoder decoder)
    (stepped : RelayPhase.afterHeader config got answer = some next) :
    next.Books config encoder
      (decoder.append ((.readHeader got : RelayPhase B Error).passed
        (.read answer))) := by
  have quiet := Passed.append_nothing decoder
  rcases RelayPhase.afterHeader_cases stepped with
    ⟨rfl, rfl⟩ | ⟨error, rfl, rfl⟩ | ⟨rfl, rfl⟩ | ⟨bytes, rfl, _, fits, rfl⟩
  · exact quiet.symm ▸ books
  · exact quiet.symm ▸ books.returned
  · rcases books with ⟨beside, ⟨_, given, open_⟩, _⟩
    apply returned_of_given_nil beside
    · simpa [RelayPhase.passed, Passed.append, Passed.finish] using given
    · simpa [RelayPhase.passed, Passed.append, Passed.finish] using open_
  · rcases books with ⟨beside, ⟨rfl, given, open_⟩, short⟩
    have atMost :
        (decoder.append (Passed.take bytes)).taken.length ≤ 14 := by
      simp only [Passed.append, Passed.take, List.length_append]
      omega
    exact books_gotHeader obfuscating beside
      (by simpa [RelayPhase.passed, Passed.append, Passed.take]
        using given)
      (by simpa [RelayPhase.passed, Passed.append, Passed.take]
        using open_) atMost

theorem books_afterGarbage
    (obfuscating : Obfuscating config) {left : ℕ}
    {answer : ReadAnswer Error} {next : RelayPhase B Error}
    (books :
      (.readGarbage left : RelayPhase B Error).Books config encoder decoder)
    (stepped : RelayPhase.afterGarbage config left answer = some next) :
    next.Books config encoder
      (decoder.append ((.readGarbage left : RelayPhase B Error).passed
        (.read answer))) := by
  have quiet := Passed.append_nothing decoder
  have moved {bytes : List UInt8} (fits : bytes.length ≤ left) :
      DecoderGarbage config.key (left - bytes.length)
        (decoder.append (Passed.take bytes)) := by
    rcases books with
      ⟨_, given, open_, wire, garbage, taken, long, checked⟩
    refine ⟨by simpa [Passed.append, Passed.take] using given,
      by simpa [Passed.append, Passed.take] using open_, wire,
      garbage ++ bytes, ?_, long, ?_⟩
    · rw [Passed.append, taken, Passed.take, List.append_assoc]
    · rw [checked, List.length_append]
      congr 1
      omega
  have beside := books.1
  rcases RelayPhase.afterGarbage_cases stepped with
    ⟨rfl, rfl⟩ | ⟨error, rfl, rfl⟩ | ⟨rfl, rfl⟩ | ⟨bytes, rfl, all, rfl⟩ |
      ⟨bytes, rfl, fewer, rfl⟩
  · exact quiet.symm ▸ books
  · exact quiet.symm ▸ books.returned
  · rcases books with ⟨_, given, open_, _⟩
    apply returned_of_given_nil beside
    · simpa [RelayPhase.passed, Passed.append, Passed.finish] using given
    · simpa [RelayPhase.passed, Passed.append, Passed.finish] using open_
  · have ready := moved (Nat.le_of_eq all)
    rw [all, Nat.sub_self] at ready
    exact books_headerRead obfuscating beside
      (decoderReady_of_garbage ready)
  · exact ⟨beside, moved (Nat.le_of_lt fewer)⟩

/-- A step of the transfer that encodes, or of the one that decodes. -/
theorem books_copies
    (obfuscating : Obfuscating config) {bidi : BidiCopy B}
    {point : BidiPoint} {answer : TransferAnswer Error}
    {half : TransferState B} {status : CopyStatus Error}
    {flow : Side → Passed}
    (books : (.copying bidi (some point) : RelayPhase B Error).Books config
      (flow (plainSide config.mode)) (flow (wireSide config.mode)))
    (halfStepped : (bidi.half point.reader).step point.point answer =
      some (half, status)) :
    (.copying (bidi.setHalf point.reader half) none :
      RelayPhase B Error).Books config
      (Function.update flow point.reader ((flow point.reader).append
        ((bidi.half point.reader).passed point.point answer))
        (plainSide config.mode))
      (Function.update flow point.reader ((flow point.reader).append
        ((bidi.half point.reader).passed point.point answer))
        (wireSide config.mode)) := by
  rcases books with ⟨sending, receiving⟩
  rcases eq_plainSide_or_wireSide point.reader config.mode with
    reads | reads
  · rw [reads] at halfStepped ⊢
    rw [Function.update_self,
      Function.update_of_ne (wireSide_ne_plainSide _)]
    refine ⟨?_, ?_⟩
    · rw [BidiCopy.half_setHalf]
      exact sending.step (obfuscating.nonempty _) halfStepped
    · rw [wireSide, BidiCopy.half_setHalf_other]
      exact receiving
  · rw [reads] at halfStepped ⊢
    rw [Function.update_self,
      Function.update_of_ne (wireSide_ne_plainSide _).symm]
    refine ⟨?_, ?_⟩
    · have plain : plainSide config.mode = (wireSide config.mode).other := by
        rw [wireSide, Side.other_other]
      rw [plain, BidiCopy.half_setHalf_other, ← plain]
      exact sending
    · rw [BidiCopy.half_setHalf]
      exact receiving.step (obfuscating.nonempty _) halfStepped

/-- The status that the step leaves changes no books. -/
theorem books_afterCopy
    (obfuscating : Obfuscating config) {bidi next : BidiCopy B}
    {point : BidiPoint} {answer : TransferAnswer Error}
    {status : BidiStatus Error} {flow : Side → Passed}
    (books : (.copying bidi (some point) : RelayPhase B Error).Books config
      (flow (plainSide config.mode)) (flow (wireSide config.mode)))
    (stepped :
      bidi.step config.brutal point answer = some (next, status)) :
    (RelayPhase.ofStatus next status : RelayPhase B Error).Books config
      (Function.update flow point.reader ((flow point.reader).append
        ((bidi.half point.reader).passed point.point answer))
        (plainSide config.mode))
      (Function.update flow point.reader ((flow point.reader).append
        ((bidi.half point.reader).passed point.point answer))
        (wireSide config.mode)) := by
  rcases Option.map_eq_some_iff.1 stepped with
    ⟨⟨half, halfStatus⟩, halfStepped, equal⟩
  cases equal
  exact books_ofStatus none (books_copies obfuscating books halfStepped) _

namespace RelayRun

/-- The invariant of a run. -/
def Inv (config : RelayConfig B) (run : RelayRun B Error) : Prop :=
  run.phase.Books config (run.flow (plainSide config.mode))
    (run.flow (wireSide config.mode))

theorem inv_start (obfuscating : Obfuscating config) :
    (start config : RelayRun B Error).Inv config := by
  unfold Inv start RelayPhase.start
  dsimp only
  rcases obfuscating.mode with one | two
  · rw [if_pos one]
    exact ⟨rfl, by rw [DecoderBeside, if_pos one]⟩
  · rw [if_neg (by rw [two]; decide), if_pos two]
    refine ⟨?_, ⟨rfl, rfl, rfl⟩, by decide⟩
    rw [EncoderBeside, if_neg (by rw [two]; decide)]

theorem inv_step
    (obfuscating : Obfuscating config) {run next : RelayRun B Error}
    {label : RelayLabel Error} (inv : run.Inv config)
    (stepped : (machine config).step run label = some next) :
    next.Inv config := by
  rcases Option.map_eq_some_iff.1 stepped with ⟨phase, moved, rfl⟩
  rcases run with ⟨current, flow⟩
  have plainFlow (all : Passed) :
      Function.update flow (plainSide config.mode) all
          (wireSide config.mode) = flow (wireSide config.mode) :=
    Function.update_of_ne (wireSide_ne_plainSide _) _ _
  have wireFlow (all : Passed) :
      Function.update flow (wireSide config.mode) all
          (plainSide config.mode) = flow (plainSide config.mode) :=
    Function.update_of_ne (wireSide_ne_plainSide _).symm _ _
  unfold Inv at inv ⊢
  dsimp only at inv moved ⊢
  unfold RelayPhase.step at moved
  split at moved
  · simp only [RelayPhase.reader, Function.update_self, plainFlow]
    exact books_afterFirst inv moved
  · cases moved
    simp only [RelayPhase.reader, Function.update_self, plainFlow]
    rcases inv with ⟨fresh, beside⟩
    rw [fresh]
    exact books_sendHeader Passed.nothing beside rfl rfl _
  · simp only [RelayPhase.reader, Function.update_self, plainFlow]
    exact books_afterWrite obfuscating inv moved
  · simp only [RelayPhase.reader, Function.update_self, wireFlow]
    exact books_afterHeader obfuscating inv moved
  · simp only [RelayPhase.reader, Function.update_self, wireFlow]
    exact books_afterGarbage obfuscating inv moved
  · cases moved
    simp only [RelayPhase.reader, Function.update_self, plainFlow]
    exact (Passed.append_nothing _).symm ▸ inv.returned
  · cases moved
    simp only [RelayPhase.reader, Function.update_self, plainFlow]
    exact (Passed.append_nothing _).symm ▸ books_ofStatus none inv _
  · rcases Option.map_eq_some_iff.1 moved with ⟨⟨bidi, status⟩, copied, rfl⟩
    exact books_afterCopy obfuscating inv copied
  · cases moved

end RelayRun

end ByteHub.Io
