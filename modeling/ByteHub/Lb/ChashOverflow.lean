import ByteHub.Lb.ChashWords

/-!
# Unchecked arithmetic of the hash

The hash adds and multiplies with operations whose overflow is undefined.
Here they give nothing when they overflow.  The multiplier is more than half
of the range, so that a product stays inside for the factors 0 and 1 only:
the empty slice is the one that is hashed without overflow.
-/

namespace ByteHub.Lb.Chash

/-! ## Operations that may not overflow -/

/-- `u32::unchecked_add` -/
def uncheckedAdd (a b : UInt32) : Option UInt32 :=
  if a.toNat + b.toNat < 2 ^ 32 then some (a + b) else none

/-- `u32::unchecked_mul` -/
def uncheckedMul (a b : UInt32) : Option UInt32 :=
  if a.toNat * b.toNat < 2 ^ 32 then some (a * b) else none

namespace Unchecked

/-- The state before the first word. -/
def start (length : ℕ) : Option UInt32 := do
  let product ← uncheckedMul (UInt32.ofNat length) multiplier
  some (seed ^^^ product)

/-- Fold one word into the hash. -/
def mix (h w : UInt32) : Option UInt32 := do
  let sum ← uncheckedAdd h w
  let product ← uncheckedMul sum multiplier
  some (product ^^^ product >>> 16)

/-- The last byte. -/
def last (h : UInt32) (b0 : UInt8) : Option UInt32 := do
  let sum ← uncheckedAdd h (UInt32.ofNat b0.toNat)
  let product ← uncheckedMul sum multiplier
  some (product ^^^ product >>> 24)

/-- The last one to three bytes. -/
def finish (h : UInt32) : List UInt8 → Option UInt32
  | [b0] => last h b0
  | [b0, b1] => do
      let h ← uncheckedAdd h (UInt32.ofNat b1.toNat <<< 8)
      last h b0
  | [b0, b1, b2] => do
      let h ← uncheckedAdd h (UInt32.ofNat b2.toNat <<< 16)
      let h ← uncheckedAdd h (UInt32.ofNat b1.toNat <<< 8)
      last h b0
  | _ => some h

/-- The word loop. -/
def absorb (h : UInt32) : List UInt8 → Option UInt32
  | b0 :: b1 :: b2 :: b3 :: rest => do
      let h ← mix h (word b0 b1 b2 b3)
      absorb h rest
  | tail => finish h tail

/-- `chash`, if none of its operations overflows. -/
def chash (buf : List UInt8) : Option UInt32 := do
  let h ← start buf.length
  absorb h buf

/-- `chash_for_ip`, if none of its operations overflows. -/
def chashForIp
    (order : ByteOrder) (address : ℕ) (buf : List UInt8) :
    Option UInt32 := do
  let h ← start buf.length
  ((order.alignTo address buf).map order.toLe).foldlM mix h

/-! ## Overflow -/

theorem uncheckedAdd_eq {a b sum : UInt32}
    (added : uncheckedAdd a b = some sum) :
    sum = a + b ∧ sum.toNat = a.toNat + b.toNat := by
  simp only [uncheckedAdd, Option.ite_none_right_eq_some,
    Option.some.injEq] at added
  rcases added with ⟨inside, rfl⟩
  exact ⟨rfl, by rw [UInt32.toNat_add, Nat.mod_eq_of_lt inside]⟩

theorem multiplier_toNat : multiplier.toNat = 3332679571 := by
  decide

/-- A state above 1 cannot be multiplied. -/
theorem uncheckedMul_large {h : UInt32} (large : 1 < h.toNat) :
    uncheckedMul h multiplier = none := by
  have beyond : ¬h.toNat * multiplier.toNat < 2 ^ 32 := by
    rw [multiplier_toNat]
    omega
  exact if_neg beyond

/-- An addition leaves a state above 1 where it is. -/
theorem add_large
    {h : UInt32} (large : 1 < h.toNat) (w : UInt32)
    {rest : UInt32 → Option UInt32}
    (fails : ∀ sum : UInt32, 1 < sum.toNat → rest sum = none) :
    (uncheckedAdd h w >>= rest) = none := by
  cases added : uncheckedAdd h w with
  | none => rfl
  | some sum =>
      apply fails
      have value := (uncheckedAdd_eq added).2
      omega

theorem mix_large {h : UInt32} (large : 1 < h.toNat) (w : UInt32) :
    mix h w = none := by
  apply add_large large
  intro sum stays
  rw [uncheckedMul_large stays]
  rfl

theorem last_large {h : UInt32} (large : 1 < h.toNat) (b0 : UInt8) :
    last h b0 = none := by
  apply add_large large
  intro sum stays
  rw [uncheckedMul_large stays]
  rfl

/-- From a state above 1 nothing but the empty rest can be hashed. -/
theorem absorb_large {h : UInt32} (large : 1 < h.toNat) :
    ∀ {buf : List UInt8}, buf ≠ [] → absorb h buf = none
  | [], nonempty => absurd rfl nonempty
  | [b0], _ => last_large large b0
  | [b0, _], _ =>
      add_large large _ fun _ stays => last_large stays b0
  | [b0, _, _], _ =>
      add_large large _ fun _ stays =>
        add_large stays _ fun _ stays => last_large stays b0
  | b0 :: b1 :: b2 :: b3 :: rest, _ => by
      rw [absorb, mix_large large]
      rfl

/-- A first state is above 1. -/
theorem start_large {length : ℕ} {h : UInt32}
    (started : start length = some h) : 1 < h.toNat := by
  simp only [start, uncheckedMul, Option.bind_eq_bind] at started
  split at started
  · next inside =>
    have few :
        UInt32.ofNat length = 0 ∨ UInt32.ofNat length = 1 := by
      rw [multiplier_toNat] at inside
      rw [← UInt32.toNat_inj, ← UInt32.toNat_inj]
      change
        (UInt32.ofNat length).toNat = 0 ∨ (UInt32.ofNat length).toNat = 1
      omega
    rcases few with none | one
    · rw [none] at started
      cases started
      decide
    · rw [one] at started
      cases started
      decide
  · cases started

theorem start_short {length : ℕ}
    (several : 2 ≤ length) (small : length < 2 ^ 32) :
    start length = none := by
  have value : (UInt32.ofNat length).toNat = length := by
    rw [UInt32.toNat_ofNat', Nat.mod_eq_of_lt small]
  rw [start, uncheckedMul_large (by omega)]
  rfl

theorem chash_of_nonempty {buf : List UInt8} (nonempty : buf ≠ []) :
    chash buf = none := by
  cases started : start buf.length with
  | none => simp [chash, started]
  | some h =>
      simp [chash, started, absorb_large (start_large started) nonempty]

theorem chashForIp_overflows
    (order : ByteOrder) (address : ℕ) (ip : IpAddr) :
    chashForIp order address ip.octets = none := by
  have several : start ip.octets.length = none := by
    cases ip with
    | v4 octets =>
        exact start_short (by simp [IpAddr.octets]) (by simp [IpAddr.octets])
    | v6 octets =>
        exact start_short (by simp [IpAddr.octets]) (by simp [IpAddr.octets])
  rw [chashForIp, several]
  rfl

/-- Only the empty slice is hashed without overflow, and no address is. -/
theorem chash_stays_inside_iff
    (buf : List UInt8) (order : ByteOrder) (address : ℕ) (ip : IpAddr) :
    ((chash buf).isSome ↔ buf = []) ∧
      ¬(chashForIp order address ip.octets).isSome := by
  constructor
  · constructor
    · intro inside
      by_contra nonempty
      rw [chash_of_nonempty nonempty] at inside
      cases inside
    · rintro rfl
      rfl
  · rw [chashForIp_overflows]
    exact Bool.false_ne_true

/-- The label of a virtual node is not hashed without overflow. -/
theorem chash_overflows_on_a_label :
    ¬((∀ buf, (chash buf).isSome) ∧
      ∀ order address ip,
        (chashForIp order address (IpAddr.octets ip)).isSome) := by
  rintro ⟨inside, -⟩
  have first := inside (label 0)
  rw [chash_of_nonempty] at first
  · cases first
  · simp [label]

end Unchecked

end ByteHub.Lb.Chash
