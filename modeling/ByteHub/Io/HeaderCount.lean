import ByteHub.Io.ObfsHeader
import ByteHub.Library.Words

/-!
# How many headers a key has

The tag of a header is determined by its content, so under every key there
are as many headers of fourteen bytes as there are contents with three
letters or digits.  A probe that does not know the key opens with one of
them by chance only.
-/

namespace ByteHub.Io

open Finset
open ByteHub.Library

/-- The fourteen bytes that an accepted stream can begin with. -/
def openings (key : ObfsKey) : Set (List UInt8) :=
  {bytes | bytes.length = 14 ∧
    ∃ behind rest, consumeDynamicObfsV2 key (bytes ++ behind) = .ok rest}

/-- The fourteen bytes of a content under a key. -/
def sealed (key : ObfsKey) (content : List UInt8) : List UInt8 :=
  xorKey key (content ++ keyedHashTag content key.bytes)

theorem sealed_injOn (key : ObfsKey) :
    Set.InjOn (sealed key) {content | content.length = 10} := by
  intro content ten other ten' equal
  have plain := congrArg (xorKey key) equal
  rw [sealed, sealed, xorKey_xorKey, xorKey_xorKey] at plain
  exact (List.append_inj plain (ten.trans ten'.symm)).1

theorem countP_qualifies (raw : List UInt8) :
    raw.countP qualifies = qualifying raw := by
  rw [qualifying, List.countP_eq_length_filter]

/-- An accepted stream begins with the bytes of a content, and each of them
begins an accepted stream. -/
theorem openings_eq (key : ObfsKey) :
    openings key =
      Set.image (sealed key) (Words.atLeast qualifies 10 3) := by
  ext bytes
  constructor
  · rintro ⟨fourteen, behind, rest, consumed⟩
    rcases consumeDynamicObfsV2_eq_ok_iff.1 consumed with ⟨header, whole⟩
    rw [Header.wire, List.append_assoc] at whole
    have same := (List.append_inj whole
      (fourteen.trans header.wireHeader_length.symm)).1
    refine ⟨header.content, ⟨header.content_length, ?_⟩, same.symm⟩
    rw [countP_qualifies]
    exact header.enough
  · rintro ⟨content, ⟨ten, enough⟩, rfl⟩
    rw [countP_qualifies] at enough
    rcases exists_computeGarbageLen enough with ⟨n, computed⟩
    let header : Header key :=
      { content := content
        garbage := List.replicate n 0
        content_length := ten
        enough := enough
        garbage_length := by rw [computed, List.length_replicate] }
    refine ⟨header.wireHeader_length, header.garbage, [], ?_⟩
    rw [consumeDynamicObfsV2_eq_ok_iff]
    exact ⟨header, (List.append_nil _).symm⟩

instance finiteByte : Finite UInt8 :=
  Finite.of_injective UInt8.toFin fun _ _ => UInt8.toFin_inj.1

/-- The bytes with a property are counted by their numbers. -/
theorem ncard_bytes (marked : UInt8 → Bool) (value : Bool) :
    {byte | marked byte = value}.ncard =
      ((range 256).filter fun n =>
        marked (UInt8.ofNat n) = value).card := by
  have image :
      {byte | marked byte = value} =
        Set.image UInt8.ofNat
          ((range 256).filter fun n =>
            marked (UInt8.ofNat n) = value : Finset ℕ) := by
    ext byte
    constructor
    · intro held
      refine ⟨byte.toNat, ?_, UInt8.ofNat_toNat⟩
      rw [coe_filter]
      refine ⟨mem_range.2 byte.toNat_lt, ?_⟩
      rw [UInt8.ofNat_toNat]
      exact held
    · rintro ⟨n, member, rfl⟩
      rw [coe_filter] at member
      exact member.2
  have numbered : Set.InjOn UInt8.ofNat
      ((range 256).filter fun n =>
        marked (UInt8.ofNat n) = value : Finset ℕ) := by
    intro n member other member' equal
    have small := mem_range.1 (mem_filter.1 (mem_coe.1 member)).1
    have small' := mem_range.1 (mem_filter.1 (mem_coe.1 member')).1
    have numbers := congrArg UInt8.toNat equal
    rwa [UInt8.toNat_ofNat_of_lt' small, UInt8.toNat_ofNat_of_lt' small']
      at numbers
  rw [image, numbered.ncard_image, Set.ncard_coe_finset]

theorem ncard_qualifies :
    {byte | qualifies byte = true}.ncard = 36 := by
  rw [ncard_bytes]
  decide +kernel

theorem ncard_not_qualifies :
    {byte | qualifies byte = false}.ncard = 220 := by
  rw [ncard_bytes]
  decide +kernel

/-- Whatever the key, the number of openings is that of the contents with
three letters or digits: between one in `2 ^ 34` and one in `2 ^ 35` of the
strings of fourteen bytes. -/
theorem ncard_openings (key : ObfsKey) :
    (openings key).ncard =
        ∑ k ∈ Icc 3 10, Nat.choose 10 k * 36 ^ k * 220 ^ (10 - k) ∧
      (openings key).ncard * 2 ^ 34 < 256 ^ 14 ∧
      256 ^ 14 < (openings key).ncard * 2 ^ 35 := by
  have count : (openings key).ncard =
      ∑ k ∈ Icc 3 10, Nat.choose 10 k * 36 ^ k * 220 ^ (10 - k) := by
    have told := (sealed_injOn key).mono
      fun content (word : content ∈ Words.atLeast qualifies 10 3) => word.1
    rw [openings_eq, told.ncard_image, Words.ncard_atLeast,
      ncard_qualifies, ncard_not_qualifies]
  have value :
      ∑ k ∈ Icc 3 10, Nat.choose 10 k * 36 ^ k * 220 ^ (10 - k) =
        188673578833317174706176 := by
    decide
  refine ⟨count, ?_, ?_⟩
  · rw [count, value]
    norm_num
  · rw [count, value]
    norm_num

end ByteHub.Io
