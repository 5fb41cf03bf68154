import ByteHub.Io.SimpleRng
import Mathlib.Data.List.Basic
import Mathlib.Data.Nat.Find
import Mathlib.Tactic.Common

/-!
# The obfuscation header

A header is ten random bytes and a tag over them, under a key, followed by
garbage whose length is written in the last three letters and digits among
the ten bytes.  The writer draws until there are three of them; the reader
checks the tag and that there are three, and drops the garbage.
-/

namespace ByteHub.Io

/-! ## The tag -/

def fnvOffset : UInt32 := 0x811c9dc5

def fnvPrime : UInt32 := 0x01000193

/-- One round of the hash. -/
def fnvMix (h : UInt32) (byte : UInt8) : UInt32 :=
  (h ^^^ byte.toUInt32) * fnvPrime

/-- The bytes of a word, the lowest first. -/
def toLeBytes (h : UInt32) : List UInt8 :=
  [h.toUInt8, (h >>> 8).toUInt8, (h >>> 16).toUInt8, (h >>> 24).toUInt8]

/-- A hash of the key and then of the data, and an avalanche at the end. -/
def keyedHashTag (data key : List UInt8) : List UInt8 :=
  let h := data.foldl fnvMix (key.foldl fnvMix fnvOffset)
  let h := h ^^^ (h >>> 16)
  let h := h * 0x45d9f3b
  let h := h ^^^ (h >>> 16)
  toLeBytes h

theorem keyedHashTag_length (data key : List UInt8) :
    (keyedHashTag data key).length = 4 :=
  rfl

/-! ## The length of the garbage -/

/-- A digit, `0` to `9`. -/
def isDigit (byte : UInt8) : Bool :=
  48 ≤ byte && byte ≤ 57

/-- A small letter, `a` to `z`, or a digit. -/
def qualifies (byte : UInt8) : Bool :=
  (97 ≤ byte && byte ≤ 122) || isDigit byte

def qualifying (raw : List UInt8) : ℕ :=
  (raw.filter qualifies).length

/-- A digit is itself; a letter is the last digit of its place in the
alphabet. -/
def digitOf (byte : UInt8) : UInt8 :=
  if isDigit byte then byte - 48 else (byte - 97 + 1) % 10

/-- The value of a text of digits, if there is one. -/
def parseUsize (text : List UInt8) : Option ℕ :=
  if text = [] then none
  else
    text.foldlM
      (fun value byte =>
        if isDigit byte then some (10 * value + (byte - 48).toNat)
        else none) 0

/-- The index `filtered.len() - 3` underflows on less than three letters and
digits. -/
def computeGarbageLen (raw : List UInt8) : Option ℕ :=
  let filtered := raw.filter qualifies
  if filtered.length < 3 then none
  else
    let last3 := filtered.drop (filtered.length - 3)
    let lenStr := last3.map fun byte => 48 + digitOf byte
    some ((parseUsize lenStr).getD 0)

theorem computeGarbageLen_eq_none_iff {raw : List UInt8} :
    computeGarbageLen raw = none ↔ qualifying raw < 3 := by
  simp only [computeGarbageLen, qualifying]
  split <;> simp_all

theorem exists_computeGarbageLen
    {raw : List UInt8} (enough : 3 ≤ qualifying raw) :
    ∃ n, computeGarbageLen raw = some n := by
  apply Option.ne_none_iff_exists'.1
  rw [Ne, computeGarbageLen_eq_none_iff]
  exact Nat.not_lt.2 enough

/-- A text of `n` digits is a number below `10 ^ n`. -/
theorem foldlM_digits_lt
    {text : List UInt8} {start value bound : ℕ} (low : start < bound)
    (parsed : text.foldlM
      (fun value byte =>
        if isDigit byte then some (10 * value + (byte - 48).toNat)
        else none) start = some value) :
    value < bound * 10 ^ text.length := by
  induction text generalizing start bound with
  | nil =>
      cases parsed
      simpa using low
  | cons byte text inductionHypothesis =>
      rw [List.foldlM_cons] at parsed
      by_cases digit : isDigit byte = true
      · rw [if_pos digit] at parsed
        have small :
            (byte - 48).toNat < 10 := by
          simp only [isDigit, Bool.and_eq_true, decide_eq_true_eq] at digit
          rw [UInt8.toNat_sub_of_le _ _ digit.1]
          have upper : byte.toNat ≤ 57 := UInt8.le_iff_toNat_le.1 digit.2
          have word : (48 : UInt8).toNat = 48 := rfl
          omega
        have next :
            10 * start + (byte - 48).toNat < bound * 10 := by
          omega
        have below := inductionHypothesis next parsed
        rwa [List.length_cons, pow_succ', ← mul_assoc]
      · rw [if_neg digit] at parsed
        cases parsed

/-- The garbage is at most `999` bytes. -/
theorem computeGarbageLen_le
    {raw : List UInt8} {n : ℕ} (computed : computeGarbageLen raw = some n) :
    n ≤ 999 := by
  simp only [computeGarbageLen] at computed
  split at computed
  · cases computed
  · next enough =>
    cases computed
    cases parsed : parseUsize (((raw.filter qualifies).drop
        ((raw.filter qualifies).length - 3)).map
          fun byte => 48 + digitOf byte) with
    | none => exact Nat.zero_le _
    | some value =>
        simp only [parseUsize] at parsed
        split at parsed
        · cases parsed
        · have below := foldlM_digits_lt Nat.zero_lt_one parsed
          rw [List.length_map, List.length_drop,
            show (raw.filter qualifies).length -
              ((raw.filter qualifies).length - 3) = 3 by omega] at below
          change value ≤ 999
          omega

/-! ## The key -/

/-- A key has a byte for every position. -/
structure ObfsKey where
  bytes : List UInt8
  nonempty : 0 < bytes.length

/-- The byte of the key at a position of the stream. -/
def ObfsKey.byteAt (key : ObfsKey) (i : ℕ) : UInt8 :=
  key.bytes.get ⟨i % key.bytes.length, Nat.mod_lt _ key.nonempty⟩

/-- XOR with the key, over and over. -/
def xorKey (key : ObfsKey) (bytes : List UInt8) : List UInt8 :=
  bytes.mapIdx fun i byte => byte ^^^ key.byteAt i

@[simp]
theorem xorKey_length (key : ObfsKey) (bytes : List UInt8) :
    (xorKey key bytes).length = bytes.length :=
  List.length_mapIdx

@[simp]
theorem xorKey_xorKey (key : ObfsKey) (bytes : List UInt8) :
    xorKey key (xorKey key bytes) = bytes := by
  apply List.ext_getElem
  · simp
  · intro i _ _
    simp only [xorKey, List.getElem_mapIdx]
    rw [UInt8.xor_assoc, UInt8.xor_self, UInt8.xor_zero]

/-! ## Reading a header -/

inductive ObfsError where
  /-- The stream ends too early. -/
  | unexpectedEof
  /-- Active probe silently dropped. -/
  | invalidData
  /-- A slice index underflows. -/
  | panicked
deriving DecidableEq, Repr

/-- The checks on the fourteen bytes; the length of the garbage behind
them. -/
def checkHeader (key : ObfsKey) (wire : List UInt8) : Except ObfsError ℕ :=
  let header := xorKey key wire
  if header.drop 10 ≠ keyedHashTag (header.take 10) key.bytes then
    .error .invalidData
  else if qualifying (header.take 10) < 3 then .error .invalidData
  else
    match computeGarbageLen (header.take 10) with
    | none => .error .panicked
    | some garbageLen => .ok garbageLen

/-- What is left of a stream behind its header. -/
def consumeDynamicObfsV2 (key : ObfsKey) (stream : List UInt8) :
    Except ObfsError (List UInt8) :=
  if stream.length < 14 then .error .unexpectedEof
  else
    match checkHeader key (stream.take 14) with
    | .error error => .error error
    | .ok garbageLen =>
        if (stream.drop 14).length < garbageLen then .error .unexpectedEof
        else .ok ((stream.drop 14).drop garbageLen)

/-! ## Writing a header -/

theorem exists_qualifying (rng : SimpleRng) :
    ∃ n, 3 ≤ qualifying
      (SimpleRng.fill 10 ((SimpleRng.advance^[10])^[n] rng)).1 :=
  SimpleRng.exists_round_satisfies (fun raw => 3 ≤ qualifying raw)
    ⟨2⟩ ⟨25⟩ (by decide) (by decide) (by decide) (by decide) rng

/-- A round that does not qualify brings the next that does nearer. -/
theorem find_qualifying_lt
    {rng : SimpleRng} (rejected : ¬ 3 ≤ qualifying (rng.fill 10).1) :
    Nat.find (exists_qualifying (rng.fill 10).2) <
      Nat.find (exists_qualifying rng) := by
  have found := Nat.find_spec (exists_qualifying rng)
  cases rounds : Nat.find (exists_qualifying rng) with
  | zero =>
      rw [rounds] at found
      exact absurd found rejected
  | succ n =>
      rw [rounds, Function.iterate_succ_apply,
        ← SimpleRng.fill_rng 10 rng] at found
      exact Nat.lt_succ_of_le (Nat.find_min' _ found)

/-- Ten random bytes, drawn until three of them are letters or digits. -/
def drawContent (rng : SimpleRng) : List UInt8 × SimpleRng :=
  let drawn := rng.fill 10
  if 3 ≤ qualifying drawn.1 then drawn else drawContent drawn.2
termination_by Nat.find (exists_qualifying rng)
decreasing_by
  exact find_qualifying_lt ‹_›

/-- One round of drawing, in a form that evaluates. -/
theorem drawContent_eq :
    drawContent = fun rng =>
      if 3 ≤ qualifying (rng.fill 10).1 then rng.fill 10
      else drawContent (rng.fill 10).2 := by
  funext rng
  rw [drawContent]

theorem drawContent_qualifying (rng : SimpleRng) :
    3 ≤ qualifying (drawContent rng).1 := by
  fun_induction drawContent rng with
  | case1 rng drawn accepted => exact accepted
  | case2 rng drawn rejected inductionHypothesis =>
      exact inductionHypothesis

theorem drawContent_length (rng : SimpleRng) :
    (drawContent rng).1.length = 10 := by
  fun_induction drawContent rng with
  | case1 rng drawn accepted => exact SimpleRng.fill_length 10 rng
  | case2 rng drawn rejected inductionHypothesis =>
      exact inductionHypothesis

/-- A header and its garbage; none if the length of the garbage panics. -/
def generateDynamicObfsV2 (key : ObfsKey) (rng : SimpleRng) :
    Option (List UInt8) :=
  let content := drawContent rng
  (computeGarbageLen content.1).map fun garbageLen =>
    xorKey key (content.1 ++ keyedHashTag content.1 key.bytes) ++
      (SimpleRng.fill garbageLen content.2).1

/-! ## The format -/

/-- A header under a key. -/
structure Header (key : ObfsKey) where
  content : List UInt8
  garbage : List UInt8
  content_length : content.length = 10
  enough : 3 ≤ qualifying content
  garbage_length : computeGarbageLen content = some garbage.length

namespace Header

variable {key : ObfsKey}

/-- The fourteen bytes under the key. -/
def wireHeader (header : Header key) : List UInt8 :=
  xorKey key (header.content ++ keyedHashTag header.content key.bytes)

/-- The bytes on the wire. -/
def wire (header : Header key) : List UInt8 :=
  header.wireHeader ++ header.garbage

theorem wireHeader_length (header : Header key) :
    header.wireHeader.length = 14 := by
  rw [wireHeader, xorKey_length, List.length_append,
    header.content_length, keyedHashTag_length]

theorem checkHeader_wireHeader (header : Header key) :
    checkHeader key header.wireHeader = .ok header.garbage.length := by
  have content :
      (xorKey key header.wireHeader).take 10 = header.content := by
    rw [wireHeader, xorKey_xorKey, ← header.content_length,
      List.take_left]
  have tag :
      (xorKey key header.wireHeader).drop 10 =
        keyedHashTag header.content key.bytes := by
    rw [wireHeader, xorKey_xorKey, ← header.content_length,
      List.drop_left]
  simp only [checkHeader, content, tag, ne_eq, not_true_eq_false, if_false,
    Nat.not_lt.2 header.enough, header.garbage_length]

end Header

/-- Fourteen bytes that pass the checks are those of a header. -/
theorem checkHeader_eq_ok
    {key : ObfsKey} {bytes : List UInt8} {garbageLen : ℕ}
    (fourteen : bytes.length = 14)
    (checked : checkHeader key bytes = .ok garbageLen)
    {garbage : List UInt8} (long : garbage.length = garbageLen) :
    ∃ header : Header key,
      header.wireHeader = bytes ∧ header.garbage = garbage := by
  simp only [checkHeader] at checked
  split at checked
  · cases checked
  · next tag =>
    rw [not_not] at tag
    split at checked
    · cases checked
    · next enough =>
      split at checked
      · cases checked
      · next computed =>
        cases checked
        refine ⟨
          { content := (xorKey key bytes).take 10
            garbage := garbage
            content_length := by
              rw [List.length_take, xorKey_length, fourteen]
              rfl
            enough := Nat.not_lt.1 enough
            garbage_length := by rw [computed, long] }, ?_, rfl⟩
        rw [Header.wireHeader, ← tag, List.take_append_drop,
          xorKey_xorKey]

/-- The check never reaches the slice index that underflows. -/
theorem checkHeader_ne_panicked
    (key : ObfsKey) (bytes : List UInt8) :
    checkHeader key bytes ≠ .error .panicked := by
  intro checked
  simp only [checkHeader] at checked
  split at checked
  · cases checked
  · split at checked
    · cases checked
    · next enough =>
      rcases exists_computeGarbageLen (Nat.not_lt.1 enough) with
        ⟨n, computed⟩
      rw [computed] at checked
      cases checked

/-- A stream is accepted if and only if it begins with a header. -/
theorem consumeDynamicObfsV2_eq_ok_iff
    {key : ObfsKey} {stream rest : List UInt8} :
    consumeDynamicObfsV2 key stream = .ok rest ↔
      ∃ header : Header key, stream = header.wire ++ rest := by
  constructor
  · intro consumed
    simp only [consumeDynamicObfsV2] at consumed
    split at consumed
    · cases consumed
    · next long =>
      split at consumed
      · cases consumed
      · next garbageLen checked =>
        split at consumed
        · cases consumed
        · next behind =>
          cases consumed
          have fourteen :
              (stream.take 14).length = 14 := by
            rw [List.length_take]
            exact Nat.min_eq_left (Nat.not_lt.1 long)
          have garbageLong :
              ((stream.drop 14).take garbageLen).length = garbageLen := by
            rw [List.length_take]
            exact Nat.min_eq_left (Nat.not_lt.1 behind)
          rcases checkHeader_eq_ok fourteen checked garbageLong with
            ⟨header, first, second⟩
          refine ⟨header, ?_⟩
          rw [Header.wire, first, second, List.append_assoc,
            List.take_append_drop, List.take_append_drop]
  · rintro ⟨header, rfl⟩
    have fourteen := header.wireHeader_length
    have first :
        (header.wire ++ rest).take 14 = header.wireHeader := by
      rw [Header.wire, List.append_assoc, ← fourteen, List.take_left]
    have second :
        (header.wire ++ rest).drop 14 = header.garbage ++ rest := by
      rw [Header.wire, List.append_assoc, ← fourteen, List.drop_left]
    have long : ¬ (header.wire ++ rest).length < 14 := by
      rw [Header.wire, List.length_append, List.length_append, fourteen]
      omega
    have behind :
        ¬ (header.garbage ++ rest).length < header.garbage.length := by
      rw [List.length_append]
      omega
    simp only [consumeDynamicObfsV2, if_neg long, first, second,
      header.checkHeader_wireHeader, if_neg behind, List.drop_left]

theorem consumeDynamicObfsV2_ne_panicked
    (key : ObfsKey) (stream : List UInt8) :
    consumeDynamicObfsV2 key stream ≠ .error .panicked := by
  intro consumed
  simp only [consumeDynamicObfsV2] at consumed
  split at consumed
  · cases consumed
  · split at consumed
    · next error checked =>
      cases consumed
      exact checkHeader_ne_panicked key _ checked
    · split at consumed <;> cases consumed

/-- Every generated prefix is a header. -/
theorem exists_header_of_generate
    (key : ObfsKey) (rng : SimpleRng) :
    ∃ header : Header key,
      generateDynamicObfsV2 key rng = some header.wire := by
  rcases exists_computeGarbageLen (drawContent_qualifying rng) with
    ⟨n, computed⟩
  refine ⟨
    { content := (drawContent rng).1
      garbage := (SimpleRng.fill n (drawContent rng).2).1
      content_length := drawContent_length rng
      enough := drawContent_qualifying rng
      garbage_length := by rw [computed, SimpleRng.fill_length] }, ?_⟩
  simp only [generateDynamicObfsV2, computed, Option.map_some,
    Header.wire, Header.wireHeader]

/-- Headers are a prefix code. -/
theorem Header.prefix_of_wire_append_prefix
    {key : ObfsKey} {left right : Header key} {first second : List UInt8}
    (isPrefix : left.wire ++ first <+: right.wire ++ second) :
    left.wire = right.wire ∧ first <+: second := by
  rcases isPrefix with ⟨rest, equal⟩
  rw [List.append_assoc] at equal
  have same :
      first ++ rest = second := by
    have readLeft :=
      consumeDynamicObfsV2_eq_ok_iff.2 ⟨left, (equal.symm : _ = _)⟩
    have readRight :=
      consumeDynamicObfsV2_eq_ok_iff.2
        ⟨right, (rfl : right.wire ++ second = _)⟩
    exact Except.ok.inj (readLeft.symm.trans readRight)
  refine ⟨?_, rest, same⟩
  rw [same] at equal
  exact List.append_cancel_right equal

end ByteHub.Io
