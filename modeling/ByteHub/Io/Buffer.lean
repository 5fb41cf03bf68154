import Mathlib.Data.List.Basic
import Mathlib.Tactic.Common

/-!
# Buffers between a reader and a writer

A copy holds the bytes it has read and not yet written in a buffer: a slice
of memory or a unix pipe.  The class gives what a copy does to its buffer, the
lawful class what a copy relies on: the bytes offered to the writer are the
bytes read, each under a fixed image, in order.
-/

namespace ByteHub.Io

/-- The operations of a buffer, at the positions `pos` and `cap`. -/
class AsyncIOBuf (B : Type) where
  /-- The most bytes it can ever hold. -/
  capacity : B → ℕ
  /-- The room a read is offered, at a clock reading in nanoseconds. -/
  offered : B → ℕ → ℕ
  /-- The buffer after a read has brought some bytes. -/
  filled : B → List UInt8 → B
  /-- The bytes a write is offered. -/
  slice : B → ℕ → ℕ → List UInt8
  /-- The buffer after a write has accepted a number of bytes. -/
  drained : B → ℕ → B

/-- A buffer that hands on what it was filled with. -/
class LawfulIOBuf (B : Type) [AsyncIOBuf B] where
  /-- What becomes of a byte on its way through. -/
  image : B → UInt8 → UInt8
  /-- The buffer agrees with the two positions. -/
  Valid : B → ℕ → ℕ → Prop
  image_filled : ∀ (buf : B) bytes,
    image (AsyncIOBuf.filled buf bytes) = image buf
  image_drained : ∀ (buf : B) n,
    image (AsyncIOBuf.drained buf n) = image buf
  capacity_filled : ∀ {buf : B} {bytes : List UInt8} {pos nanos : ℕ},
    Valid buf pos pos → bytes.length ≤ AsyncIOBuf.offered buf nanos →
      AsyncIOBuf.capacity (AsyncIOBuf.filled buf bytes) =
        AsyncIOBuf.capacity buf
  capacity_drained : ∀ (buf : B) n,
    AsyncIOBuf.capacity (AsyncIOBuf.drained buf n) =
      AsyncIOBuf.capacity buf
  cap_le : ∀ {buf : B} {pos cap : ℕ},
    Valid buf pos cap → cap ≤ AsyncIOBuf.capacity buf
  slice_length : ∀ {buf : B} {pos cap : ℕ},
    Valid buf pos cap →
      (AsyncIOBuf.slice buf pos cap).length = cap - pos
  offered_pos : ∀ {buf : B} {pos : ℕ} (nanos : ℕ),
    Valid buf pos pos → 0 < AsyncIOBuf.capacity buf →
      0 < AsyncIOBuf.offered buf nanos
  valid_filled : ∀ {buf : B} {bytes : List UInt8} {pos nanos : ℕ},
    Valid buf pos pos → bytes.length ≤ AsyncIOBuf.offered buf nanos →
      Valid (AsyncIOBuf.filled buf bytes) 0 bytes.length
  slice_filled : ∀ {buf : B} {bytes : List UInt8} {pos nanos : ℕ},
    Valid buf pos pos → bytes.length ≤ AsyncIOBuf.offered buf nanos →
      AsyncIOBuf.slice (AsyncIOBuf.filled buf bytes) 0 bytes.length =
        bytes.map (image buf)
  valid_drained : ∀ {buf : B} {pos cap n : ℕ},
    Valid buf pos cap → n ≤ cap - pos →
      Valid (AsyncIOBuf.drained buf n) (pos + n) cap
  slice_drained : ∀ {buf : B} {pos cap n : ℕ},
    Valid buf pos cap → n ≤ cap - pos →
      AsyncIOBuf.slice (AsyncIOBuf.drained buf n) (pos + n) cap =
        (AsyncIOBuf.slice buf pos cap).drop n

/-! ## Memory -/

/-- A byte buffer together with the obfuscation mode of its task. -/
structure MemBuf where
  bytes : List UInt8
  mode : UInt8
deriving DecidableEq, Repr

/-- XOR with `0x5A` in the obfuscation modes. -/
def obfuscate (mode byte : UInt8) : UInt8 :=
  if mode = 0 then byte else byte ^^^ 0x5A

namespace MemBuf

/--
Length of a read.  In the obfuscation modes larger buffers are cut to
27%..62%, at a point taken from the subsecond nanoseconds of the clock.
-/
def targetLen (maxCap : ℕ) (mode : UInt8) (nanos : ℕ) : ℕ :=
  if 128 < maxCap ∧ mode ≠ 0 then
    let minBytes := maxCap * 27 / 100
    let maxBytes := maxCap * 62 / 100
    let range := maxBytes - minBytes + 1
    let targetLen := minBytes + nanos % range
    if targetLen = 0 then 1 else targetLen
  else maxCap

theorem targetLen_le (maxCap : ℕ) (mode : UInt8) (nanos : ℕ) :
    targetLen maxCap mode nanos ≤ maxCap := by
  unfold targetLen
  split
  · have rest :
        nanos % (maxCap * 62 / 100 - maxCap * 27 / 100 + 1) <
          maxCap * 62 / 100 - maxCap * 27 / 100 + 1 :=
      Nat.mod_lt _ (Nat.succ_pos _)
    dsimp only
    split <;> omega
  · exact Nat.le_refl _

/-- The cut never leaves a read without room. -/
theorem targetLen_pos
    {maxCap : ℕ} (nonempty : 0 < maxCap) (mode : UInt8) (nanos : ℕ) :
    0 < targetLen maxCap mode nanos := by
  unfold targetLen
  split
  · dsimp only
    split <;> omega
  · exact nonempty

instance : AsyncIOBuf MemBuf where
  capacity buf := buf.bytes.length
  offered buf nanos := targetLen buf.bytes.length buf.mode nanos
  filled buf bytes :=
    { buf with
      bytes :=
        bytes.map (obfuscate buf.mode) ++ buf.bytes.drop bytes.length }
  slice buf pos cap := (buf.bytes.drop pos).take (cap - pos)
  drained buf _ := buf

/-- Bytes in memory are obfuscated when they are read. -/
instance : LawfulIOBuf MemBuf where
  image buf := obfuscate buf.mode
  Valid buf _ cap := cap ≤ buf.bytes.length
  image_filled _ _ := rfl
  image_drained _ _ := rfl
  capacity_filled := by
    intro buf bytes pos nanos _ fits
    have room : bytes.length ≤ buf.bytes.length :=
      Nat.le_trans fits (targetLen_le _ _ _)
    simp only [AsyncIOBuf.capacity, AsyncIOBuf.filled, List.length_append,
      List.length_map, List.length_drop]
    omega
  capacity_drained _ _ := rfl
  cap_le valid := valid
  slice_length := by
    intro buf pos cap valid
    simp only [AsyncIOBuf.slice, List.length_take, List.length_drop]
    omega
  offered_pos nanos _ nonempty := targetLen_pos nonempty _ nanos
  valid_filled := by
    intro buf bytes pos nanos _ _
    simp [AsyncIOBuf.filled]
  slice_filled := by
    intro buf bytes pos nanos _ _
    simp [AsyncIOBuf.slice, AsyncIOBuf.filled]
  valid_drained valid _ := valid
  slice_drained := by
    intro buf pos cap n _ within
    simp only [AsyncIOBuf.slice, AsyncIOBuf.drained, List.drop_take,
      List.drop_drop]
    congr 1
    omega

end MemBuf

/-! ## Pipes -/

/-- A unix pipe: a queue of bytes in the kernel.  The kernel gives it a page
at least. -/
structure Pipe where
  content : List UInt8
  size : ℕ
  size_pos : 0 < size
deriving DecidableEq, Repr

namespace Pipe

instance : AsyncIOBuf Pipe where
  capacity pipe := pipe.size
  offered pipe _ := pipe.size - pipe.content.length
  filled pipe bytes := { pipe with content := pipe.content ++ bytes }
  slice pipe pos cap := pipe.content.take (cap - pos)
  drained pipe n := { pipe with content := pipe.content.drop n }

/-- A pipe passes its bytes on unchanged. -/
instance : LawfulIOBuf Pipe where
  image _ byte := byte
  Valid pipe pos cap := pipe.content.length = cap - pos ∧ cap ≤ pipe.size
  image_filled _ _ := rfl
  image_drained _ _ := rfl
  capacity_filled _ _ := rfl
  capacity_drained _ _ := rfl
  cap_le valid := valid.2
  slice_length := by
    intro pipe pos cap valid
    simp [AsyncIOBuf.slice, valid.1]
  offered_pos := by
    intro pipe pos _ valid nonempty
    have empty := valid.1
    change 0 < pipe.size - pipe.content.length
    change 0 < pipe.size at nonempty
    omega
  valid_filled := by
    intro pipe bytes pos nanos valid fits
    have empty := valid.1
    change bytes.length ≤ pipe.size - pipe.content.length at fits
    simp only [AsyncIOBuf.filled, List.length_append]
    omega
  slice_filled := by
    intro pipe bytes pos nanos valid _
    have empty : pipe.content = [] := by
      apply List.eq_nil_of_length_eq_zero
      rw [valid.1, Nat.sub_self]
    simp [AsyncIOBuf.slice, AsyncIOBuf.filled, empty]
  valid_drained := by
    intro pipe pos cap n valid within
    refine ⟨?_, valid.2⟩
    simp only [AsyncIOBuf.drained, List.length_drop, valid.1]
    omega
  slice_drained := by
    intro pipe pos cap n _ _
    simp only [AsyncIOBuf.slice, AsyncIOBuf.drained, List.drop_take]
    congr 1
    omega

end Pipe

/-! ## Either -/

/-- A buffer of one of two kinds. -/
instance {Left Right : Type} [AsyncIOBuf Left] [AsyncIOBuf Right] :
    AsyncIOBuf (Left ⊕ Right) where
  capacity
    | .inl buf => AsyncIOBuf.capacity buf
    | .inr buf => AsyncIOBuf.capacity buf
  offered
    | .inl buf, nanos => AsyncIOBuf.offered buf nanos
    | .inr buf, nanos => AsyncIOBuf.offered buf nanos
  filled
    | .inl buf, bytes => .inl (AsyncIOBuf.filled buf bytes)
    | .inr buf, bytes => .inr (AsyncIOBuf.filled buf bytes)
  slice
    | .inl buf, pos, cap => AsyncIOBuf.slice buf pos cap
    | .inr buf, pos, cap => AsyncIOBuf.slice buf pos cap
  drained
    | .inl buf, n => .inl (AsyncIOBuf.drained buf n)
    | .inr buf, n => .inr (AsyncIOBuf.drained buf n)

end ByteHub.Io
