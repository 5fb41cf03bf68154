import ByteHub.Io.PeekTransparency

/-!
# Whether an exact peek ends

The loop of `peek_exact` counts down by what each read brings.  A read brings
nothing at the end of the stream, and nothing when the space behind the write
cursor is used up; neither ends the loop.  So it ends when what is missing
still comes and fits, or when the stream breaks before it has more bytes than
there is space for.
-/

namespace ByteHub.Io

/-! ## Streams that are always ready -/

/-- A stream that answers every read at once: its bytes, where they end if
they do, whether they end in an error, and how many are offered to a read. -/
structure ReadySource where
  byte : ℕ → UInt8
  size : Option ℕ
  broken : Bool
  chunk : ℕ → ℕ
  chunk_pos : ∀ pos, 0 < chunk pos

namespace ReadySource

variable (source : ReadySource) (pos count room : ℕ)

/-- So many bytes are still to come at a position. -/
def Has : Prop :=
  ∀ size, source.size = some size → count ≤ size - pos

/-- The bytes from a position on. -/
def window : List UInt8 :=
  (List.range count).map fun place => source.byte (pos + place)

/-- How many bytes a read into some room is given. -/
def given : ℕ :=
  let offered := min (source.chunk pos) room
  source.size.elim offered fun size => min offered (size - pos)

/-- No byte is left at a position. -/
def isOver : Bool :=
  source.size.any fun size => size ≤ pos

/-- One read.  A broken stream answers with its error once no byte is left,
also if there is no room. -/
def read : PeekAnswer :=
  if 0 < source.given pos room then
    .ready (source.window pos (source.given pos room))
  else if source.isOver pos && source.broken then .error
  else .ready []

@[simp]
theorem window_length : (source.window pos count).length = count := by
  rw [window, List.length_map, List.length_range]

theorem window_append (more : ℕ) :
    source.window pos count ++ source.window (pos + count) more =
      source.window pos (count + more) := by
  simp only [window, List.range_add, List.map_append, List.map_map]
  congr 2
  ext place
  rw [Function.comp_apply, Nat.add_assoc]

variable {source pos count room}

theorem isOver_iff : source.isOver pos = true ↔ ¬source.Has pos 1 := by
  rw [isOver, Has]
  cases source.size with
  | none => simp
  | some size =>
      rw [Option.any_some, decide_eq_true_iff]
      constructor
      · intro over_ has
        have left := has size rfl
        omega
      · intro few
        by_contra more
        apply few
        rintro other ⟨⟩
        omega

theorem given_le_room : source.given pos room ≤ room := by
  rw [given]
  cases source.size with
  | none => exact Nat.min_le_right _ _
  | some size =>
      exact (Nat.min_le_left _ _).trans (Nat.min_le_right _ _)

theorem has_given : source.Has pos (source.given pos room) := by
  intro size ends
  rw [given, ends]
  exact Nat.min_le_right _ _

/-- A read brings nothing only for lack of room or of bytes. -/
theorem given_pos (space : 0 < room) (more : source.Has pos 1) :
    0 < source.given pos room := by
  have offered : 0 < min (source.chunk pos) room :=
    Nat.lt_min.2 ⟨source.chunk_pos pos, space⟩
  rw [given]
  cases ends : source.size with
  | none => exact offered
  | some size => exact Nat.lt_min.2 ⟨offered, more size ends⟩

theorem Has.mono
    {fewer : ℕ} (has : source.Has pos count) (le : fewer ≤ count) :
    source.Has pos fewer :=
  fun size ends => le.trans (has size ends)

theorem has_advance_iff
    {step : ℕ} (has : source.Has pos step) :
    source.Has (pos + step) count ↔ source.Has pos (step + count) := by
  constructor
  · intro later size ends
    have before := has size ends
    have after := later size ends
    omega
  · intro all size ends
    have after := all size ends
    omega

theorem read_of_given (brings : 0 < source.given pos room) :
    source.read pos room =
      .ready (source.window pos (source.given pos room)) :=
  if_pos brings

end ReadySource

/-! ## The loop on such a stream -/

namespace PeekStream

/-- What the first reads of the loop are answered. -/
def answersOf (source : ReadySource) :
    ℕ → PeekStream → ℕ → ℕ → List PeekAnswer
  | 0, _, _, _ => []
  | _ + 1, _, 0, _ => []
  | reads + 1, stream, required + 1, pos =>
      match source.read pos stream.unfilled with
      | .error => [.error]
      | .ready bytes =>
          .ready bytes ::
            answersOf source reads (stream.fill bytes)
              (required + 1 - bytes.length) (pos + bytes.length)

/-- The loop after so many reads. -/
def readsOf
    (source : ReadySource) (len reads : ℕ) (stream : PeekStream)
    (required pos : ℕ) : Option (PeekStream × PeekReply) :=
  peekRequired len stream required
    (answersOf source reads stream required pos)

section Loop

variable {source : ReadySource} {len : ℕ} {stream : PeekStream}
variable {required pos : ℕ}

theorem unfilled_fill (bytes : List UInt8)
    (fits : bytes.length ≤ stream.unfilled) :
    (stream.fill bytes).unfilled = stream.unfilled - bytes.length := by
  have capacity := fill_capacity fits
  simp only [PeekStream.capacity] at capacity
  simp only [unfilled] at fits ⊢
  rw [capacity]
  simp only [fill]
  omega

theorem fill_nil (stream : PeekStream) : stream.fill [] = stream := by
  rcases stream with ⟨rd, wr, buf, rd_le, wr_le⟩
  simp [fill]

/-- The stream after a read, and the number of bytes it has brought. -/
def brought (source : ReadySource) (stream : PeekStream) (pos : ℕ) : ℕ :=
  source.given pos stream.unfilled

def afterRead
    (source : ReadySource) (stream : PeekStream) (pos : ℕ) : PeekStream :=
  stream.fill (source.window pos (brought source stream pos))

theorem window_brought_fits :
    (source.window pos (brought source stream pos)).length ≤
      stream.unfilled := by
  rw [ReadySource.window_length]
  exact ReadySource.given_le_room

theorem unfilled_afterRead :
    (afterRead source stream pos).unfilled =
      stream.unfilled - brought source stream pos := by
  rw [afterRead, unfilled_fill _ window_brought_fits,
    ReadySource.window_length]

/-- A read that brings bytes is a step of the loop. -/
theorem readsOf_of_brought
    (reads : ℕ) (brings : 0 < brought source stream pos) :
    readsOf source len (reads + 1) stream (required + 1) pos =
      readsOf source len reads (afterRead source stream pos)
        (required + 1 - brought source stream pos)
        (pos + brought source stream pos) := by
  have fits := @window_brought_fits source stream pos
  rw [brought] at fits
  rw [readsOf, answersOf, ReadySource.read_of_given brings]
  dsimp only
  rw [peekRequired, if_pos fits, ReadySource.window_length, readsOf]
  rfl

/-- A read that brings nothing, and no error, leaves the loop where it is. -/
theorem readsOf_of_nothing
    (reads : ℕ)
    (nothing : source.read pos stream.unfilled = .ready []) :
    readsOf source len (reads + 1) stream (required + 1) pos =
      readsOf source len reads stream (required + 1) pos := by
  rw [readsOf, answersOf, nothing]
  dsimp only
  rw [peekRequired, List.length_nil, if_pos (Nat.zero_le _), fill_nil]
  rfl

/-! ### How the loop goes on -/

/-- What is missing still comes, and fits. -/
def Completes
    (source : ReadySource) (stream : PeekStream) (required pos : ℕ) :
    Prop :=
  required ≤ stream.unfilled ∧ source.Has pos required

/-- The stream breaks before what is missing has come, and has no more bytes
than there is space for. -/
def Breaks
    (source : ReadySource) (stream : PeekStream) (required pos : ℕ) :
    Prop :=
  source.broken = true ∧ ¬source.Has pos required ∧
    ¬source.Has pos (stream.unfilled + 1)

/-- If a read brings more than is required, the loop completes. -/
theorem completes_of_le
    (enough : required ≤ brought source stream pos) :
    Completes source stream required pos :=
  ⟨enough.trans ReadySource.given_le_room,
    ReadySource.has_given.mono enough⟩

/-- A read changes nothing about how the loop goes on. -/
theorem completes_afterRead
    (short : brought source stream pos ≤ required) :
    Completes source (afterRead source stream pos)
        (required - brought source stream pos)
        (pos + brought source stream pos) ↔
      Completes source stream required pos := by
  have room : brought source stream pos ≤ stream.unfilled :=
    ReadySource.given_le_room
  have has : source.Has pos (brought source stream pos) :=
    ReadySource.has_given
  rw [Completes, unfilled_afterRead, ReadySource.has_advance_iff has,
    Nat.add_sub_cancel' short, Completes]
  apply and_congr_left'
  omega

theorem breaks_afterRead
    (short : brought source stream pos ≤ required) :
    Breaks source (afterRead source stream pos)
        (required - brought source stream pos)
        (pos + brought source stream pos) ↔
      Breaks source stream required pos := by
  have room : brought source stream pos ≤ stream.unfilled :=
    ReadySource.given_le_room
  have has : source.Has pos (brought source stream pos) :=
    ReadySource.has_given
  rw [Breaks, unfilled_afterRead, ReadySource.has_advance_iff has,
    ReadySource.has_advance_iff has, Nat.add_sub_cancel' short,
    ← Nat.add_assoc, Nat.add_sub_cancel' room, Breaks]

/-- What is missing comes and fits, so the loop gets to its copy. -/
theorem readsOf_completes
    (completes : Completes source stream required pos) :
    ∃ reads next more,
      readsOf source len reads stream required pos =
        some (next, next.copyFilled len) ∧
      required ≤ more ∧
      ReadsAhead stream next (source.window pos more) := by
  induction required using Nat.strong_induction_on generalizing stream pos
    with
  | _ required inductionHypothesis =>
      cases required with
      | zero =>
          exact ⟨0, stream, 0, rfl, Nat.le_refl 0, readsAhead_nil stream⟩
      | succ required =>
          have brings : 0 < brought source stream pos :=
            ReadySource.given_pos
              (Nat.lt_of_lt_of_le (Nat.succ_pos _) completes.1)
              (completes.2.mono (Nat.succ_pos _))
          have ahead := readsAhead_fill
            (@window_brought_fits source stream pos)
          rcases Nat.le_total (required + 1) (brought source stream pos)
            with enough | short
          · refine ⟨1, afterRead source stream pos,
              brought source stream pos, ?_, enough, ahead⟩
            rw [readsOf_of_brought 0 brings, Nat.sub_eq_zero_of_le enough]
            rfl
          · rcases inductionHypothesis _ (by omega)
                ((completes_afterRead short).2 completes) with
              ⟨reads, next, more, ended, enough, later⟩
            refine ⟨reads + 1, next, brought source stream pos + more,
              ?_, by omega, ?_⟩
            · rw [readsOf_of_brought reads brings, ended]
            · rw [← ReadySource.window_append]
              exact ahead.trans later

/-- The stream breaks, and so does the loop. -/
theorem readsOf_breaks (breaks : Breaks source stream required pos) :
    ∃ reads next,
      readsOf source len reads stream required pos =
        some (next, .failed) := by
  induction required using Nat.strong_induction_on generalizing stream pos
    with
  | _ required inductionHypothesis =>
      rcases breaks with ⟨broken, few, space⟩
      cases required with
      | zero => exact (few fun _ _ => Nat.zero_le _).elim
      | succ required =>
          rcases Nat.eq_zero_or_pos (brought source stream pos) with
            nothing | brings
          · have over_ : source.isOver pos = true := by
              rw [ReadySource.isOver_iff]
              intro more
              rcases Nat.eq_zero_or_pos stream.unfilled with full | room
              · rw [full] at space
                exact space more
              · exact Nat.ne_of_gt (ReadySource.given_pos room more)
                  nothing
            have answered :
                source.read pos stream.unfilled = .error := by
              rw [brought] at nothing
              rw [ReadySource.read, nothing, if_neg (Nat.lt_irrefl 0),
                over_, broken]
              rfl
            refine ⟨1, stream, ?_⟩
            rw [readsOf, answersOf, answered]
            rfl
          · have short : brought source stream pos ≤ required + 1 := by
              by_contra more
              exact few (completes_of_le (Nat.le_of_not_le more)).2
            rcases inductionHypothesis _ (by omega)
                ((breaks_afterRead short).2 ⟨broken, few, space⟩) with
              ⟨reads, next, ended⟩
            exact ⟨reads + 1, next,
              by rw [readsOf_of_brought reads brings, ended]⟩

/-- Otherwise the loop goes on after any number of reads. -/
theorem readsOf_goes_on
    (incomplete : ¬Completes source stream required pos)
    (unbroken : ¬Breaks source stream required pos) (reads : ℕ) :
    ∃ next,
      readsOf source len reads stream required pos =
        some (next, .dropped) := by
  induction reads generalizing stream required pos with
  | zero =>
      cases required with
      | zero =>
          exact (incomplete
            ⟨Nat.zero_le _, fun _ _ => Nat.zero_le _⟩).elim
      | succ required => exact ⟨stream, rfl⟩
  | succ reads inductionHypothesis =>
      cases required with
      | zero =>
          exact (incomplete
            ⟨Nat.zero_le _, fun _ _ => Nat.zero_le _⟩).elim
      | succ required =>
          rcases Nat.eq_zero_or_pos (brought source stream pos) with
            nothing | brings
          · rw [brought] at nothing
            have answered :
                source.read pos stream.unfilled = .ready [] := by
              rw [ReadySource.read, nothing, if_neg (Nat.lt_irrefl 0),
                if_neg]
              intro over_
              rcases Bool.and_eq_true_iff.1 over_ with ⟨ended, broken⟩
              rw [ReadySource.isOver_iff] at ended
              exact unbroken ⟨broken,
                fun has => ended (has.mono (Nat.succ_pos _)),
                fun has => ended (has.mono (Nat.succ_pos _))⟩
            rw [readsOf_of_nothing reads answered]
            exact inductionHypothesis incomplete unbroken
          · have short : brought source stream pos ≤ required + 1 := by
              by_contra more
              exact incomplete (completes_of_le (Nat.le_of_not_le more))
            rw [readsOf_of_brought reads brings]
            exact inductionHypothesis
              (mt (completes_afterRead short).1 incomplete)
              (mt (breaks_afterRead short).1 unbroken)

end Loop

/-! ## The whole call -/

/-- `peek_exact` after so many reads of a stream that is always ready. -/
def peekExactAfter
    (source : ReadySource) (stream : PeekStream) (len reads : ℕ) :
    Option (PeekStream × PeekReply) :=
  stream.peekExact len
    (answersOf source reads stream.tryReset
      (len - stream.tryReset.filled) 0)

/-- The call returns after finitely many reads: the bytes asked for if they
are there or still come, and an error if the stream ends before. -/
structure EndsRight
    (source : ReadySource) (stream : PeekStream) (len : ℕ) : Prop where
  enough : source.Has 0 (len - stream.filled) →
    ∃ reads next,
      peekExactAfter source stream len reads =
        some (next, .done
          ((stream.unread ++
            source.window 0 (len - stream.filled)).take len))
  early : ¬source.Has 0 (len - stream.filled) →
    ∃ reads next,
      peekExactAfter source stream len reads = some (next, .failed)

section Call

variable {source : ReadySource} {stream : PeekStream} {len : ℕ}

@[simp]
theorem tryReset_filled (stream : PeekStream) :
    stream.tryReset.filled = stream.filled := by
  rw [← unread_length, tryReset_unread, unread_length]

theorem peekExactAfter_eq
    (source : ReadySource) (within : len ≤ stream.capacity)
    (reads : ℕ) :
    peekExactAfter source stream len reads =
      readsOf source len reads stream.tryReset (len - stream.filled)
        0 := by
  rw [peekExactAfter, peekExact_within within, tryReset_filled, readsOf]

/-- A buffer that is not partly read has space for what is missing. -/
theorem room_of_not_partlyRead
    (within : len ≤ stream.capacity) (whole : ¬stream.PartlyRead) :
    stream.tryReset.rd = 0 ∧
      len - stream.filled ≤ stream.tryReset.unfilled := by
  have start : stream.tryReset.rd = 0 := by
    by_contra behind
    exact whole (tryReset_rd_ne_zero.1 behind)
  have filled := tryReset_filled stream
  have size := tryReset_capacity stream
  refine ⟨start, ?_⟩
  simp only [capacity, PeekStream.filled] at within filled size ⊢
  rw [unfilled]
  omega

/-- The first bytes do not depend on how far ahead was read. -/
theorem take_unread_window
    {more : ℕ} (enough : len - stream.filled ≤ more) :
    (stream.unread ++ source.window 0 more).take len =
      (stream.unread ++
        source.window 0 (len - stream.filled)).take len := by
  have cut :
      source.window 0 more =
        source.window 0 (len - stream.filled) ++
          source.window (0 + (len - stream.filled))
            (more - (len - stream.filled)) := by
    rw [ReadySource.window_append, Nat.add_sub_cancel' enough]
  rw [cut, ← List.append_assoc, List.take_append_of_le_length]
  rw [List.length_append, unread_length, ReadySource.window_length]
  omega

/-- Behind the start of the buffer no call returns bytes. -/
theorem not_done_of_partlyRead
    (within : len ≤ stream.capacity) (partly : stream.PartlyRead)
    {reads : ℕ} {next : PeekStream} {bytes : List UInt8} :
    peekExactAfter source stream len reads ≠
      some (next, .done bytes) := by
  intro ended
  rw [peekExactAfter_eq source within, readsOf] at ended
  rcases peekRequired_cases ended with
    ⟨ahead, ⟨_, _, copied⟩ | ⟨_, failed | dropped⟩⟩
  · have behind : next.rd ≠ 0 := by
      rw [ahead.rd]
      exact tryReset_rd_ne_zero.2 partly
    rw [copyFilled_of_behind behind] at copied
    cases copied
  · cases failed
  · cases dropped

/-- A buffer that is not partly read is filled up and copied. -/
theorem exists_done
    (within : len ≤ stream.capacity) (whole : ¬stream.PartlyRead)
    (has : source.Has 0 (len - stream.filled)) :
    ∃ reads next,
      peekExactAfter source stream len reads =
        some (next, .done
          ((stream.unread ++
            source.window 0 (len - stream.filled)).take len)) := by
  rcases room_of_not_partlyRead within whole with ⟨start, room⟩
  rcases @readsOf_completes source len stream.tryReset
      (len - stream.filled) 0 ⟨room, has⟩ with
    ⟨reads, next, more, ended, enough, ahead⟩
  have unread : next.unread = stream.unread ++ source.window 0 more := by
    rw [ahead.unread, tryReset_unread]
  have filled : len ≤ next.filled := by
    rw [← unread_length, unread, List.length_append, unread_length,
      ReadySource.window_length]
    omega
  refine ⟨reads, next, ?_⟩
  rw [peekExactAfter_eq source within, ended,
    copyFilled_of_start (ahead.rd.trans start) filled, unread,
    take_unread_window enough]

/-- A peek whose bytes neither come nor break off is dropped at last. -/
theorem dropped_of_unbroken
    (within : len ≤ stream.capacity)
    (few : ¬source.Has 0 (len - stream.filled))
    (unbroken :
      ¬Breaks source stream.tryReset (len - stream.filled) 0)
    (reads : ℕ) :
    ∃ next, peekExactAfter source stream len reads =
      some (next, .dropped) := by
  rw [peekExactAfter_eq source within]
  exact readsOf_goes_on (fun completes => few completes.2) unbroken reads

/-- An exact peek ends as it should if and only if the bytes read ahead are
not partly read and what is missing still comes, or the stream breaks before
it has more bytes than there is space for. -/
theorem endsRight_iff
    (source : ReadySource) (stream : PeekStream) {len : ℕ}
    (within : len ≤ stream.capacity) :
    EndsRight source stream len ↔
      (¬stream.PartlyRead ∧ source.Has 0 (len - stream.filled)) ∨
        Breaks source stream.tryReset (len - stream.filled) 0 := by
  constructor
  · intro ends
    by_cases has : source.Has 0 (len - stream.filled)
    · rcases ends.enough has with ⟨reads, next, ended⟩
      refine .inl ⟨fun partly => ?_, has⟩
      exact not_done_of_partlyRead within partly ended
    · rcases ends.early has with ⟨reads, next, ended⟩
      right
      by_contra unbroken
      rcases dropped_of_unbroken within has unbroken reads with
        ⟨other, still⟩
      rw [still] at ended
      cases ended
  · rintro (⟨whole, has⟩ | breaks)
    · refine ⟨fun _ => ?_, fun few => (few has).elim⟩
      exact exists_done within whole has
    · refine ⟨fun has => (breaks.2.1 has).elim, fun _ => ?_⟩
      rcases @readsOf_breaks source len stream.tryReset
          (len - stream.filled) 0 breaks with ⟨reads, next, ended⟩
      exact ⟨reads, next, by rw [peekExactAfter_eq source within, ended]⟩

end Call

end PeekStream

/-! ## Two streams -/

/-- Zeros, so many of them, one with each read. -/
def ReadySource.zeros (size : ℕ) : ReadySource where
  byte _ := 0
  size := some size
  broken := false
  chunk _ := 1
  chunk_pos _ := Nat.one_pos

theorem PeekStream.endsRight_iff_four :
    PeekStream.EndsRight (.zeros 4) (.new [0, 0, 0, 0]) 4 ↔
      (¬(PeekStream.new [0, 0, 0, 0]).PartlyRead ∧
        (ReadySource.zeros 4).Has 0
          (4 - (PeekStream.new [0, 0, 0, 0]).filled)) ∨
      PeekStream.Breaks (.zeros 4)
        (PeekStream.new [0, 0, 0, 0]).tryReset
        (4 - (PeekStream.new [0, 0, 0, 0]).filled) 0 :=
  PeekStream.endsRight_iff (.zeros 4) (.new [0, 0, 0, 0])
    (Nat.le_refl 4)

/-- One byte left unread at the end of a buffer of four. -/
def PeekStream.remainder : PeekStream where
  rd := 3
  wr := 4
  buf := [0, 0, 0, 0]
  rd_le := Nat.le_succ 3
  wr_le := Nat.le_refl 4

/-- A stream that ends after two of four bytes is read for ever, and so is an
endless one when a remainder at the end of the buffer has left no space. -/
theorem PeekStream.peekExact_loops :
    (∀ reads, ∃ next,
      PeekStream.peekExactAfter (.zeros 2) (.new [0, 0, 0, 0]) 4 reads =
        some (next, .dropped)) ∧
    (∀ reads, ∃ next,
      PeekStream.peekExactAfter (.zeros 100) .remainder 2 reads =
        some (next, .dropped)) ∧
    ¬∀ (source : ReadySource) (stream : PeekStream) (len : ℕ),
      len ≤ stream.capacity → PeekStream.EndsRight source stream len := by
  have few : ¬(ReadySource.zeros 2).Has 0 4 := by
    intro has
    exact absurd (has 2 rfl) (by decide)
  have ended (reads : ℕ) : ∃ next,
      PeekStream.peekExactAfter (.zeros 2) (.new [0, 0, 0, 0]) 4 reads =
        some (next, .dropped) := by
    apply PeekStream.readsOf_goes_on
    · exact fun completes => few completes.2
    · rintro ⟨broken, _⟩
      cases broken
  have full (reads : ℕ) : ∃ next,
      PeekStream.peekExactAfter (.zeros 100) .remainder 2 reads =
        some (next, .dropped) := by
    apply PeekStream.readsOf_goes_on
    · rintro ⟨room, _⟩
      exact absurd room (by decide)
    · rintro ⟨broken, _⟩
      cases broken
  refine ⟨ended, full, ?_⟩
  intro endsRight
  rcases (endsRight (.zeros 2) (.new [0, 0, 0, 0]) 4
      (Nat.le_refl 4)).early few with ⟨reads, next, failed⟩
  rcases ended reads with ⟨other, dropped⟩
  rw [dropped] at failed
  cases failed

end ByteHub.Io
