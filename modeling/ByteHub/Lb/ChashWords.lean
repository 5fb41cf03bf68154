import ByteHub.Lb.IpHash
import ByteHub.Library.Mixing

/-!
# Hashing an address word by word

An address is hashed through `align_to`, which looks at the whole words at
aligned addresses only.  At an aligned place these are all of its bytes, on
targets of both byte orders.  At any other place the first and the last bytes
are left out, one word fewer is hashed, and the result is another one.
-/

namespace ByteHub.Lb.Chash

open ByteHub.Library

/-! ## Words of a target -/

/-- Byte order of a target. -/
inductive ByteOrder where
  | little
  | big
deriving DecidableEq, Repr

/-- Four bytes of memory as a native word. -/
def ByteOrder.native
    (order : ByteOrder) (b0 b1 b2 b3 : UInt8) : UInt32 :=
  match order with
  | .little => word b0 b1 b2 b3
  | .big => word b3 b2 b1 b0

/-- `u32::swap_bytes` -/
def swapBytes (x : UInt32) : UInt32 :=
  word (x >>> 24).toUInt8 (x >>> 16).toUInt8 (x >>> 8).toUInt8 x.toUInt8

/-- `u32::to_le` -/
def ByteOrder.toLe (order : ByteOrder) (x : UInt32) : UInt32 :=
  match order with
  | .little => x
  | .big => swapBytes x

/-- The native words of a slice that starts at an aligned address. -/
def ByteOrder.wordsOf (order : ByteOrder) : List UInt8 → List UInt32
  | b0 :: b1 :: b2 :: b3 :: rest =>
      order.native b0 b1 b2 b3 :: order.wordsOf rest
  | _ => []

/-- The middle part of `align_to::<u32>`. -/
def ByteOrder.alignTo
    (order : ByteOrder) (address : ℕ) (buf : List UInt8) : List UInt32 :=
  order.wordsOf (buf.drop ((4 - address % 4) % 4))

/-- `chash_for_ip`, with the words as the target reads them. -/
def ByteOrder.chashForIp
    (order : ByteOrder) (address : ℕ) (buf : List UInt8) : UInt32 :=
  ((order.alignTo address buf).map order.toLe).foldl mix (start buf.length)

/-! ## Bytes of a word -/

theorem word_toNat (b0 b1 b2 b3 : UInt8) :
    (word b0 b1 b2 b3).toNat =
      b0.toNat + 2 ^ 8 * b1.toNat + 2 ^ 16 * b2.toNat +
        2 ^ 24 * b3.toNat := by
  have small0 := b0.toNat_lt
  have small1 := b1.toNat_lt
  have small2 := b2.toNat_lt
  have small3 := b3.toNat_lt
  have byte : ∀ b : UInt8, b.toNat % 2 ^ 32 = b.toNat := by
    intro b
    have := b.toNat_lt
    omega
  have shifted1 : b1.toNat <<< 8 % 2 ^ 32 = b1.toNat <<< 8 := by
    rw [Nat.shiftLeft_eq]
    omega
  have shifted2 : b2.toNat <<< 16 % 2 ^ 32 = b2.toNat <<< 16 := by
    rw [Nat.shiftLeft_eq]
    omega
  have shifted3 : b3.toNat <<< 24 % 2 ^ 32 = b3.toNat <<< 24 := by
    rw [Nat.shiftLeft_eq]
    omega
  have parts :
      (word b0 b1 b2 b3).toNat =
        b0.toNat ||| b1.toNat <<< 8 ||| b2.toNat <<< 16 |||
          b3.toNat <<< 24 := by
    simp only [word, UInt32.toNat_or, UInt32.toNat_shiftLeft,
      UInt32.toNat_ofNat', byte]
    change
      b0.toNat ||| b1.toNat <<< 8 % 2 ^ 32 ||| b2.toNat <<< 16 % 2 ^ 32 |||
          b3.toNat <<< 24 % 2 ^ 32 = _
    rw [shifted1, shifted2, shifted3]
  have low :
      b0.toNat ||| b1.toNat <<< 8 = b0.toNat + 2 ^ 8 * b1.toNat := by
    rw [Nat.or_comm, ← Nat.shiftLeft_add_eq_or_of_lt small0,
      Nat.shiftLeft_eq]
    omega
  have middle :
      b0.toNat + 2 ^ 8 * b1.toNat ||| b2.toNat <<< 16 =
        b0.toNat + 2 ^ 8 * b1.toNat + 2 ^ 16 * b2.toNat := by
    rw [Nat.or_comm, ← Nat.shiftLeft_add_eq_or_of_lt (by omega),
      Nat.shiftLeft_eq]
    omega
  rw [parts, low, middle, Nat.or_comm,
    ← Nat.shiftLeft_add_eq_or_of_lt (by omega), Nat.shiftLeft_eq]
  omega

theorem swapBytes_word (b0 b1 b2 b3 : UInt8) :
    swapBytes (word b0 b1 b2 b3) = word b3 b2 b1 b0 := by
  have small0 := b0.toNat_lt
  have small1 := b1.toNat_lt
  have small2 := b2.toNat_lt
  have small3 := b3.toNat_lt
  have value := word_toNat b0 b1 b2 b3
  have top : (word b0 b1 b2 b3 >>> 24).toUInt8 = b3 := by
    apply UInt8.toNat_inj.1
    rw [UInt32.toNat_toUInt8, UInt32.toNat_shiftRight, value]
    change _ >>> 24 % 2 ^ 8 = _
    rw [Nat.shiftRight_eq_div_pow]
    omega
  have high : (word b0 b1 b2 b3 >>> 16).toUInt8 = b2 := by
    apply UInt8.toNat_inj.1
    rw [UInt32.toNat_toUInt8, UInt32.toNat_shiftRight, value]
    change _ >>> 16 % 2 ^ 8 = _
    rw [Nat.shiftRight_eq_div_pow]
    omega
  have low : (word b0 b1 b2 b3 >>> 8).toUInt8 = b1 := by
    apply UInt8.toNat_inj.1
    rw [UInt32.toNat_toUInt8, UInt32.toNat_shiftRight, value]
    change _ >>> 8 % 2 ^ 8 = _
    rw [Nat.shiftRight_eq_div_pow]
    omega
  have bottom : (word b0 b1 b2 b3).toUInt8 = b0 := by
    apply UInt8.toNat_inj.1
    rw [UInt32.toNat_toUInt8, value]
    omega
  rw [swapBytes, top, high, low, bottom]

/-- The byte order is undone word by word. -/
theorem ByteOrder.toLe_native
    (order : ByteOrder) (b0 b1 b2 b3 : UInt8) :
    order.toLe (order.native b0 b1 b2 b3) = word b0 b1 b2 b3 := by
  cases order with
  | little => rfl
  | big => exact swapBytes_word b3 b2 b1 b0

theorem ByteOrder.map_wordsOf (order : ByteOrder) (buf : List UInt8) :
    (order.wordsOf buf).map order.toLe = words buf := by
  induction buf using words.induct with
  | case1 b0 b1 b2 b3 rest inductionHypothesis =>
      rw [ByteOrder.wordsOf, List.map_cons, order.toLe_native,
        inductionHypothesis, words]
  | case2 buf short =>
      rw [words, ByteOrder.wordsOf]
      · rfl
      · exact short
      · exact short

/-- On every target the address is hashed as on a little-endian one. -/
theorem ByteOrder.chashForIp_eq
    (order : ByteOrder) (address : ℕ) (buf : List UInt8) :
    order.chashForIp address buf = Chash.chashForIp address buf := by
  rw [ByteOrder.chashForIp, ByteOrder.alignTo, order.map_wordsOf]
  rfl

/-! ## Folding a word in -/

/-- Undoes a shifted `xor`, and is undone by it. -/
def spread (x : UInt32) : UInt32 :=
  x ^^^ x >>> 16

/-- The inverse of the multiplier. -/
def inverse : UInt32 := 0xd8198e9b

theorem multiplier_inverse : multiplier * inverse = 1 := by
  decide

theorem spread_spread (x : UInt32) : spread (spread x) = x :=
  Mixing.foldHigh_involutive x

/-- The one word that takes a state to another one. -/
def between (h after : UInt32) : UInt32 :=
  spread after * inverse - h

theorem mix_eq_iff (h w after : UInt32) :
    mix h w = after ↔ w = between h after := by
  have unfolded : mix h w = spread ((h + w) * multiplier) := rfl
  rw [unfolded, between]
  constructor
  · rintro rfl
    rw [spread_spread, UInt32.mul_assoc, multiplier_inverse,
      UInt32.mul_one, UInt32.add_comm, UInt32.add_sub_cancel]
  · rintro rfl
    rw [UInt32.add_comm, UInt32.sub_add_cancel, UInt32.mul_assoc,
      UInt32.mul_comm inverse, multiplier_inverse, UInt32.mul_one,
      spread_spread]

theorem mix_bijective (h : UInt32) : Function.Bijective (mix h) := by
  rw [Function.bijective_iff_existsUnique]
  intro after
  refine ⟨between h after, (mix_eq_iff _ _ _).2 rfl, ?_⟩
  intro w reaches
  exact (mix_eq_iff _ _ _).1 reaches

/-! ## Places in memory -/

theorem word_inj {b0 b1 b2 b3 c0 c1 c2 c3 : UInt8} :
    word b0 b1 b2 b3 = word c0 c1 c2 c3 ↔
      b0 = c0 ∧ b1 = c1 ∧ b2 = c2 ∧ b3 = c3 := by
  constructor
  · intro same
    have values := congrArg UInt32.toNat same
    rw [word_toNat, word_toNat] at values
    have := b0.toNat_lt
    have := b1.toNat_lt
    have := b2.toNat_lt
    have := b3.toNat_lt
    have := c0.toNat_lt
    have := c1.toNat_lt
    have := c2.toNat_lt
    have := c3.toNat_lt
    simp only [← UInt8.toNat_inj]
    omega
  · rintro ⟨rfl, rfl, rfl, rfl⟩
    rfl

/-- Every word is the word of its bytes. -/
theorem word_bytes (w : UInt32) :
    word w.toUInt8 (w >>> 8).toUInt8 (w >>> 16).toUInt8
      (w >>> 24).toUInt8 = w := by
  have small := w.toNat_lt
  apply UInt32.toNat_inj.1
  rw [word_toNat]
  simp only [UInt32.toNat_toUInt8, UInt32.toNat_shiftRight]
  change
    w.toNat % 2 ^ 8 + 2 ^ 8 * (w.toNat >>> 8 % 2 ^ 8) +
        2 ^ 16 * (w.toNat >>> 16 % 2 ^ 8) +
          2 ^ 24 * (w.toNat >>> 24 % 2 ^ 8) = _
  simp only [Nat.shiftRight_eq_div_pow]
  omega

/-- Words alone leave nothing to finish with. -/
theorem absorb_eq_words
    (buf : List UInt8) (whole : buf.length % 4 = 0) (h : UInt32) :
    absorb h buf = (words buf).foldl mix h := by
  induction buf using words.induct generalizing h with
  | case1 b0 b1 b2 b3 rest inductionHypothesis =>
      rw [absorb, words, List.foldl_cons]
      apply inductionHypothesis
      simp only [List.length_cons] at whole
      omega
  | case2 buf short =>
      have empty : buf = [] := by
        match buf, short with
        | [], _ => rfl
        | [_], _ => simp at whole
        | [_, _], _ => simp at whole
        | [_, _, _], _ => simp at whole
        | b0 :: b1 :: b2 :: b3 :: rest, short =>
            exact (short b0 b1 b2 b3 rest rfl).elim
      subst empty
      rfl

/-- At an aligned place all words are hashed. -/
theorem chashForIp_aligned
    {address : ℕ} (aligned : address % 4 = 0)
    (buf : List UInt8) (whole : buf.length % 4 = 0) :
    chashForIp address buf = chash buf := by
  rw [chash, absorb_eq_words buf whole, chashForIp, aligned]
  rfl

/-- How many bytes stand before the first aligned address. -/
def headLength (address : ℕ) : ℕ :=
  (4 - address % 4) % 4

theorem headLength_cases {address : ℕ} (unaligned : address % 4 ≠ 0) :
    headLength address = 1 ∨ headLength address = 2 ∨
      headLength address = 3 := by
  rw [headLength]
  omega

/-- The last word of an address of four words is the one that takes the hash
of the first three to the hash of the three aligned ones. -/
def LastWordCoincides (address : ℕ) (buf : List UInt8) : Prop :=
  words (buf.drop 12) =
    [between ((words (buf.take 12)).foldl mix (start buf.length))
      ((words (buf.drop (headLength address))).foldl mix
        (start buf.length))]

theorem octets_v4 (octets : Fin 4 → UInt8) :
    (IpAddr.v4 octets).octets =
      [octets 0, octets 1, octets 2, octets 3] :=
  rfl

/-- An address of one word has no aligned word elsewhere. -/
theorem chashForIp_v4
    {address : ℕ} (unaligned : address % 4 ≠ 0)
    (octets : Fin 4 → UInt8) :
    chashForIp address (IpAddr.v4 octets).octets = start 4 := by
  have head := headLength_cases unaligned
  change
    (words ((IpAddr.v4 octets).octets.drop (headLength address))).foldl mix
      (start 4) = start 4
  rw [octets_v4]
  rcases head with one | two | three
  · rw [one]
    rfl
  · rw [two]
    rfl
  · rw [three]
    rfl

/-- One word takes the first state to itself. -/
theorem between_start :
    between (start 4) (start 4) = word 95 16 28 143 := by
  decide

theorem chash_v4 (octets : Fin 4 → UInt8) :
    chash (IpAddr.v4 octets).octets =
      mix (start 4)
        (word (octets 0) (octets 1) (octets 2) (octets 3)) :=
  rfl

theorem chash_v6 (octets : Fin 16 → UInt8) :
    chash (IpAddr.v6 octets).octets =
      mix ((words ((IpAddr.v6 octets).octets.take 12)).foldl mix (start 16))
        (word (octets 12) (octets 13) (octets 14) (octets 15)) :=
  rfl

/--
At an aligned place, and only there, every address is hashed as its bytes
are.  Elsewhere one address of four bytes still is, and those of sixteen
bytes whose last word happens to make up for the words left out.
-/
theorem chashForIp_eq_chash_iff (order : ByteOrder) (address : ℕ) :
    (∀ octets,
      order.chashForIp address (IpAddr.v4 octets).octets =
          chash (IpAddr.v4 octets).octets ↔
        address % 4 = 0 ∨
          (IpAddr.v4 octets).octets = [95, 16, 28, 143]) ∧
    (∀ octets,
      order.chashForIp address (IpAddr.v6 octets).octets =
          chash (IpAddr.v6 octets).octets ↔
        address % 4 = 0 ∨
          LastWordCoincides address (IpAddr.v6 octets).octets) ∧
    ((∀ octets,
      order.chashForIp address (IpAddr.v6 octets).octets =
        chash (IpAddr.v6 octets).octets) ↔
      address % 4 = 0) := by
  simp only [order.chashForIp_eq]
  by_cases aligned : address % 4 = 0
  · have v4 := fun octets =>
      chashForIp_aligned aligned (IpAddr.v4 octets).octets
        (by simp [IpAddr.octets])
    have v6 := fun octets =>
      chashForIp_aligned aligned (IpAddr.v6 octets).octets
        (by simp [IpAddr.octets])
    simp only [aligned, v4, v6, true_or, implies_true, and_self]
  · simp only [aligned, false_or, iff_false]
    refine ⟨?_, ?_, ?_⟩
    · intro octets
      rw [chashForIp_v4 aligned, chash_v4, eq_comm, mix_eq_iff,
        between_start, word_inj, octets_v4]
      simp
    · intro octets
      rw [chash_v6, eq_comm, mix_eq_iff]
      exact List.singleton_inj.symm
    · intro every
      have zeros := every fun _ => 0
      rw [chashForIp] at zeros
      change
        (words ((List.ofFn fun _ : Fin 16 => (0 : UInt8)).drop
          (headLength address))).foldl mix (start 16) = _ at zeros
      rcases headLength_cases aligned with one | two | three
      · rw [one] at zeros
        revert zeros
        decide
      · rw [two] at zeros
        revert zeros
        decide
      · rw [three] at zeros
        revert zeros
        decide

/-- An address just behind an aligned place has another hash. -/
theorem chashForIp_depends_on_its_place :
    ¬∀ (order : ByteOrder) (address : ℕ) (ip : IpAddr),
      order.chashForIp address ip.octets = chash ip.octets := by
  intro equal
  have unspecified := equal .little 1 (.v4 fun _ => 0)
  revert unspecified
  decide

end ByteHub.Lb.Chash
