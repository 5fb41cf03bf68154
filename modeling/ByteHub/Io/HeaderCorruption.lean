import ByteHub.Io.Relay
import ByteHub.Library.Mixing

/-!
# Corrupted headers

Every step of the hash can be undone, so contents that differ in one byte
have different tags.  A header with one of its fourteen bytes changed is
therefore rejected, and nothing behind the fourteen bytes is read.
-/

namespace ByteHub.Io

open ByteHub.Library

/-! ## The hash loses nothing -/

/-- The inverse of the prime. -/
def fnvInverse : UInt32 := 0x359c449b

theorem fnvPrime_inverse : fnvPrime * fnvInverse = 1 := by
  decide

theorem fnvMix_injective (byte : UInt8) :
    Function.Injective fun h => fnvMix h byte := by
  have product := (Mixing.mul_leftInverse fnvPrime_inverse).injective
  intro h other equal
  exact (UInt32.xor_left_inj _).1 (product equal)

theorem fnvMix_tells (h : UInt32) : Function.Injective (fnvMix h) := by
  have product := (Mixing.mul_leftInverse fnvPrime_inverse).injective
  intro byte other equal
  have words : byte.toUInt32 = other.toUInt32 :=
    (UInt32.xor_right_inj h).1 (product equal)
  have bytes := congrArg UInt32.toUInt8 words
  rwa [UInt8.toUInt8_toUInt32, UInt8.toUInt8_toUInt32] at bytes

/-- The avalanche at the end. -/
def avalanche (h : UInt32) : UInt32 :=
  Mixing.foldHigh (Mixing.foldHigh h * 0x45d9f3b)

theorem avalanche_injective : Function.Injective avalanche := by
  have unit : (0x45d9f3b : UInt32) * 0x119de1f3 = 1 := by
    decide
  exact Mixing.foldHigh_involutive.injective.comp
    ((Mixing.mul_leftInverse unit).injective.comp
      Mixing.foldHigh_involutive.injective)

theorem toLeBytes_injective : Function.Injective toLeBytes := by
  intro h other equal
  have small := h.toNat_lt
  have small' := other.toNat_lt
  have word : (8 : UInt32).toNat % 32 = 8 ∧
      (16 : UInt32).toNat % 32 = 16 ∧ (24 : UInt32).toNat % 32 = 24 := by
    decide
  simp only [toLeBytes, List.cons.injEq, and_true, ← UInt8.toNat_inj,
    UInt32.toNat_toUInt8, UInt32.toNat_shiftRight, word,
    Nat.shiftRight_eq_div_pow] at equal
  apply UInt32.toNat_inj.1
  omega

theorem keyedHashTag_eq (data key : List UInt8) :
    keyedHashTag data key =
      toLeBytes
        (avalanche (data.foldl fnvMix (key.foldl fnvMix fnvOffset))) :=
  rfl

/-- Data that differ in one byte have different tags under every key. -/
theorem keyedHashTag_ne
    {data other : List UInt8} (differ : Mixing.DifferInOne data other)
    (key : List UInt8) : keyedHashTag data key ≠ keyedHashTag other key := by
  intro equal
  rw [keyedHashTag_eq, keyedHashTag_eq] at equal
  exact differ.foldl_ne fnvMix_injective fnvMix_tells _
    (avalanche_injective (toLeBytes_injective equal))

/-! ## Reading -/

/-- What a reader of headers has taken from its stream, and how it ends. -/
structure Consumed where
  read : ℕ
  result : Except ObfsError Unit

/-- `consume_dynamic_obfs_v2`, with the number of bytes it has read. -/
def consumeCounted (key : ObfsKey) (stream : List UInt8) : Consumed :=
  if stream.length < 14 then ⟨stream.length, .error .unexpectedEof⟩
  else
    match checkHeader key (stream.take 14) with
    | .error error => ⟨14, .error error⟩
    | .ok garbageLen =>
        if (stream.drop 14).length < garbageLen then
          ⟨stream.length, .error .unexpectedEof⟩
        else ⟨14 + garbageLen, .ok ()⟩

/-- The count is beside the result: behind it is the rest of the stream. -/
theorem consumeCounted_result (key : ObfsKey) (stream : List UInt8) :
    (consumeCounted key stream).result.map
        (fun _ => stream.drop (consumeCounted key stream).read) =
      consumeDynamicObfsV2 key stream := by
  rw [consumeCounted, consumeDynamicObfsV2]
  split
  · rfl
  · cases checkHeader key (stream.take 14) with
    | error error => rfl
    | ok garbageLen =>
        dsimp only
        split
        · rfl
        · rw [List.drop_drop]
          rfl

/-- Fourteen bytes that fail a check end the reading. -/
theorem consumeCounted_of_checkHeader
    {key : ObfsKey} {bytes : List UInt8} {error : ObfsError}
    (fourteen : bytes.length = 14)
    (checked : checkHeader key bytes = .error error)
    (rest : List UInt8) :
    consumeCounted key (bytes ++ rest) = ⟨14, .error error⟩ := by
  have long : ¬ (bytes ++ rest).length < 14 := by
    rw [List.length_append, fourteen]
    omega
  rw [consumeCounted, if_neg long, ← fourteen, List.take_left, checked]

theorem xorKey_differInOne
    {bytes other : List UInt8} (differ : Mixing.DifferInOne bytes other)
    (key : ObfsKey) :
    Mixing.DifferInOne (xorKey key bytes) (xorKey key other) := by
  apply differ.mapIdx
  intro i byte byte' equal
  exact (UInt8.xor_left_inj _).1 equal

/-- A changed byte is in the content, and the tag is that of another
content, or it is in the tag. -/
theorem Header.checkHeader_corrupted
    {key : ObfsKey} (header : Header key) {bytes : List UInt8}
    (differ : Mixing.DifferInOne header.wireHeader bytes) :
    checkHeader key bytes = .error .invalidData := by
  have decoded := xorKey_differInOne differ key
  rw [wireHeader, xorKey_xorKey] at decoded
  have mismatch :
      (xorKey key bytes).drop 10 ≠
        keyedHashTag ((xorKey key bytes).take 10) key.bytes := by
    rcases decoded.split 10 with ⟨content, tag⟩ | ⟨content, tag⟩
    · rw [← header.content_length, List.take_left] at content
      rw [← header.content_length, List.drop_left] at tag
      rw [← header.content_length, ← tag]
      exact keyedHashTag_ne content key.bytes
    · rw [← header.content_length, List.take_left] at content
      rw [← header.content_length, List.drop_left] at tag
      rw [← header.content_length, ← content]
      exact tag.ne.symm
  rw [checkHeader]
  exact if_pos mismatch

/-- Whatever byte of a generated header is changed, and whatever follows it,
the reader rejects it on the fourteen bytes alone. -/
theorem corruptedHeader_rejected (key : ObfsKey) :
    (∀ (rng : SimpleRng) (output corrupted : List UInt8),
      generateDynamicObfsV2 key rng = some output →
      Mixing.DifferInOne (output.take 14) corrupted →
        ∀ rest : List UInt8,
          consumeCounted key (corrupted ++ rest) =
              ⟨14, .error .invalidData⟩ ∧
            consumeDynamicObfsV2 key (corrupted ++ rest) =
              .error .invalidData) ∧
    (∀ content other : List UInt8, content.length = 10 →
      Mixing.DifferInOne content other →
        keyedHashTag content key.bytes ≠ keyedHashTag other key.bytes) := by
  constructor
  · intro rng output corrupted generated differ rest
    rcases exists_header_of_generate key rng with ⟨header, written⟩
    obtain rfl : header.wire = output :=
      Option.some.inj (written.symm.trans generated)
    rw [Header.wire, ← header.wireHeader_length, List.take_left] at differ
    have fourteen : corrupted.length = 14 :=
      differ.length_eq.symm.trans header.wireHeader_length
    have consumed :=
      consumeCounted_of_checkHeader fourteen
        (header.checkHeader_corrupted differ) rest
    refine ⟨consumed, ?_⟩
    rw [← consumeCounted_result, consumed]
    rfl
  · intro content other _ differ
    exact keyedHashTag_ne differ key.bytes

/-- The fourteen bytes drawn from state ten, and the same with another sixth
byte. -/
def headerOfTen : List UInt8 :=
  [166, 248, 0, 76, 217] ++ 145 :: [0, 110, 17, 184, 184, 101, 60, 161]

def corruptedOfTen : List UInt8 :=
  [166, 248, 0, 76, 217] ++ 144 :: [0, 110, 17, 184, 184, 101, 60, 161]

theorem generate_ten :
    (generateDynamicObfsV2 obfsKey ⟨10⟩).map (List.take 14) =
      some headerOfTen := by
  delta generateDynamicObfsV2
  rw [drawContent_eq]
  decide +kernel

theorem corruptedHeader_rejected_sixth_byte :
    consumeCounted obfsKey (corruptedOfTen ++ [1, 2, 3]) =
        ⟨14, .error .invalidData⟩ ∧
      keyedHashTag [0, 1, 2, 3, 4, 5, 6, 7, 8, 9] obfsKey.bytes ≠
        keyedHashTag [0, 1, 2, 3, 4, 5, 6, 7, 8, 8] obfsKey.bytes := by
  constructor
  · rcases Option.map_eq_some_iff.1 generate_ten with
      ⟨output, generated, first⟩
    refine ((corruptedHeader_rejected obfsKey).1 ⟨10⟩ output corruptedOfTen
      generated ?_ [1, 2, 3]).1
    rw [first]
    exact ⟨[166, 248, 0, 76, 217], [0, 110, 17, 184, 184, 101, 60, 161],
      145, 144, by decide, rfl, rfl⟩
  · exact (corruptedHeader_rejected obfsKey).2 _ _ rfl
      ⟨[0, 1, 2, 3, 4, 5, 6, 7, 8], [], 9, 8, by decide, rfl, rfl⟩

end ByteHub.Io
