import ByteHub.Lb.IpHashRing
import ByteHub.Library.Exhaustion

/-!
# Retrying on the ring

Selections of one client in turn with failure reports.  Without health checks
all of them name the same peer.  With health checks a failed peer leaves the
walk for a while; whether the others get their turn depends on whether the
clock can pass the deadlines, and on whether it can overflow them.
-/

namespace ByteHub.Lb.IpHash

open ByteHub.Library

/-- The balancer before selection `k`, with a failure report after each. -/
def beforeSelection
    (ih : IpHash) (search : BinarySearch) (client : Client)
    (clock : ℕ → UInt32) : ℕ → IpHash
  | 0 => ih
  | k + 1 =>
      match (beforeSelection ih search client clock k).next search client
        (clock (2 * k)) with
      | (none, after) => after
      | (some token, after) => after.onFailure (clock (2 * k + 1)) token

/-- The answer of selection `k`. -/
def selected
    (ih : IpHash) (search : BinarySearch) (client : Client)
    (clock : ℕ → UInt32) (k : ℕ) : Option Token :=
  ((beforeSelection ih search client clock k).next search client
    (clock (2 * k))).1

theorem beforeSelection_succ
    {ih after : IpHash} {search : BinarySearch} {client : Client}
    {clock : ℕ → UInt32} {k : ℕ} {token : Token}
    (chosen :
      (beforeSelection ih search client clock k).next search client
        (clock (2 * k)) = (some token, after)) :
    beforeSelection ih search client clock (k + 1) =
      after.onFailure (clock (2 * k + 1)) token := by
  rw [beforeSelection, chosen]

/-! ## Without health checks -/

section Unchecked

variable {weights : Weights} {ih : IpHash}

theorem beforeSelection_unchecked
    (shape : Shape weights none ih) (two : 2 ≤ weights.count)
    (search : BinarySearch) (client : Client) (clock : ℕ → UInt32)
    (k : ℕ) : beforeSelection ih search client clock k = ih := by
  induction k with
  | zero => rfl
  | succ k inductionHypothesis =>
      rw [beforeSelection, inductionHypothesis,
        next_unchecked shape two search client]
      cases ih.primary search client with
      | none => rfl
      | some token => exact onFailure_unchecked shape _ token

theorem selected_unchecked
    (shape : Shape weights none ih) (two : 2 ≤ weights.count)
    (search : BinarySearch) (client : Client) (clock : ℕ → UInt32)
    (k : ℕ) :
    selected ih search client clock k = ih.primary search client := by
  rw [selected, beforeSelection_unchecked shape two search client,
    next_unchecked shape two search client]

end Unchecked

/-! ## With health checks -/

section Checked

variable {weights : Weights} {cfg : HealthCheckConfig} {ih : IpHash}
variable (search : BinarySearch) (client : Client) (clock : ℕ → UInt32)

theorem backend_failed
    (shape : Shape weights (some cfg) ih) (now : UInt32)
    {position : ℕ} (inside : position < weights.count)
    (other : ℕ) :
    (ih.onFailure now (Token.ofPosition position)).backend other =
      if other = position then failedBackend cfg now (ih.backend position)
      else ih.backend other := by
  rw [onFailure_checked shape now inside]
  split
  · next same =>
    rw [same, backend_alter_self (by rw [shape.length_eq]; exact inside)]
  · next distinct => exact backend_alter_of_ne distinct ih _

/-- A selection and its report keep the shape and the first peer, name a
peer, and change the health of that peer only. -/
structure Round
    (weights : Weights) (cfg : HealthCheckConfig) (search : BinarySearch)
    (client : Client) (now then_ : UInt32) (before after : IpHash)
    (position : ℕ) : Prop where
  inside : position < weights.count
  shape : Shape weights (some cfg) after
  primary_eq : after.primary search client = before.primary search client
  others : ∀ other, other ≠ position →
    after.backend other = before.backend other
  chosen :
    (excluded cfg now (before.backend position) = false ∧
      after.backend position =
        failedBackend cfg then_
          (recovered cfg (before.backend position)) ∧
      ∀ head < weights.count,
        before.primary search client = some (Token.ofPosition head) →
          excluded cfg now (before.backend head) = false →
            position = head) ∨
    ((∀ other < weights.count,
        excluded cfg now (before.backend other) = true) ∧
      before.primary search client = some (Token.ofPosition position) ∧
      after.backend position =
        failedBackend cfg then_ (before.backend position))

section Round

variable {search client} {now then_ : UInt32} {before after : IpHash}
variable {position other head : ℕ}

/-- While some peer is open, the peer named is, and pays. -/
theorem Round.pays
    (round :
      Round weights cfg search client now then_ before after position)
    (inside : other < weights.count)
    (opens : excluded cfg now (before.backend other) = false) :
    excluded cfg now (before.backend position) = false ∧
      after.backend position =
        failedBackend cfg then_
          (recovered cfg (before.backend position)) := by
  rcases round.chosen with ⟨passes, paid, _⟩ | ⟨all, _, _⟩
  · exact ⟨passes, paid⟩
  · have shut := all other inside
    rw [opens] at shut
    cases shut

/-- The first peer of the client is named while it is open. -/
theorem Round.eq_head
    (round :
      Round weights cfg search client now then_ before after position)
    (inside : head < weights.count)
    (isHead : before.primary search client = some (Token.ofPosition head))
    (opens : excluded cfg now (before.backend head) = false) :
    position = head := by
  rcases round.chosen with ⟨_, _, rule⟩ | ⟨all, _, _⟩
  · exact rule head inside isHead opens
  · have shut := all head inside
    rw [opens] at shut
    cases shut

/-- The peer named has failed. -/
theorem Round.exists_failed
    (round :
      Round weights cfg search client now then_ before after position) :
    ∃ health, after.backend position = failedBackend cfg then_ health := by
  rcases round.chosen with ⟨_, paid, _⟩ | ⟨_, _, paid⟩
  · exact ⟨_, paid⟩
  · exact ⟨_, paid⟩

end Round

theorem exists_round
    (shape : Shape weights (some cfg) ih) (two : 2 ≤ weights.count)
    (now then_ : UInt32) :
    ∃ position after,
      ih.next search client now =
          (some (Token.ofPosition position), after) ∧
        Round weights cfg search client now then_ ih
          (after.onFailure then_ (Token.ofPosition position)) position := by
  rcases next_cases shape two search client now with
    ⟨position, inside, passes, named, first⟩ | ⟨all, named⟩
  · have altered := shape.alter position (recovered cfg)
    refine ⟨position, _, named, inside, ?_, ?_, ?_, .inl ⟨passes, ?_, first⟩⟩
    · rw [onFailure_checked altered then_ inside]
      exact altered.alter _ _
    · rw [onFailure_checked altered then_ inside]
      rfl
    · intro other distinct
      rw [backend_failed altered then_ inside, if_neg distinct,
        backend_alter_of_ne distinct]
    · rw [backend_failed altered then_ inside, if_pos rfl,
        backend_alter_self (by rw [shape.length_eq]; exact inside)]
  · rcases shape.exists_primary two search client with
      ⟨head, inside, first⟩
    rw [first] at named
    refine ⟨head, _, named, inside, ?_, ?_, ?_, .inr ⟨all, first, ?_⟩⟩
    · rw [onFailure_checked shape then_ inside]
      exact shape.alter _ _
    · rw [onFailure_checked shape then_ inside]
      rfl
    · intro other distinct
      rw [backend_failed shape then_ inside, if_neg distinct]
    · rw [backend_failed shape then_ inside, if_pos rfl]

theorem shape_beforeSelection
    (shape : Shape weights (some cfg) ih) (two : 2 ≤ weights.count)
    (k : ℕ) :
    Shape weights (some cfg) (beforeSelection ih search client clock k) ∧
      (beforeSelection ih search client clock k).primary search client =
        ih.primary search client := by
  induction k with
  | zero => exact ⟨shape, rfl⟩
  | succ k inductionHypothesis =>
      rcases exists_round search client inductionHypothesis.1 two
        (clock (2 * k)) (clock (2 * k + 1)) with
        ⟨position, after, named, round⟩
      rw [beforeSelection_succ named]
      exact ⟨round.shape, round.primary_eq.trans inductionHypothesis.2⟩

/-- What happens in round `k`. -/
theorem exists_round_at
    (shape : Shape weights (some cfg) ih) (two : 2 ≤ weights.count)
    (k : ℕ) :
    ∃ position,
      selected ih search client clock k =
          some (Token.ofPosition position) ∧
        Round weights cfg search client (clock (2 * k))
          (clock (2 * k + 1)) (beforeSelection ih search client clock k)
          (beforeSelection ih search client clock (k + 1)) position := by
  rcases exists_round search client
    (shape_beforeSelection search client clock shape two k).1 two
    (clock (2 * k)) (clock (2 * k + 1)) with
    ⟨position, after, named, round⟩
  refine ⟨position, ?_, ?_⟩
  · rw [selected, named]
  · rw [beforeSelection_succ named]
    exact round

/-- A peer that is never selected keeps its health. -/
theorem backend_of_never_selected
    (shape : Shape weights (some cfg) ih) (two : 2 ≤ weights.count)
    {position : ℕ}
    (never : ∀ k, selected ih search client clock k ≠
      some (Token.ofPosition position)) (k : ℕ) :
    (beforeSelection ih search client clock k).backend position =
      ih.backend position := by
  induction k with
  | zero => rfl
  | succ k inductionHypothesis =>
      rcases exists_round_at search client clock shape two k with
        ⟨chosen, named, round⟩
      have distinct : position ≠ chosen := by
        rintro rfl
        exact never k named
      rw [round.others position distinct, inductionHypothesis]

end Checked

/-! ## Deadlines -/

section Deadlines

variable {cfg : HealthCheckConfig} {now last : UInt32}
variable {health : BackendHealth}

theorem excluded_eq_false_of_passed
    (passed : cfg.maxFails ≤ health.fails → health.checked ≤ now) :
    excluded cfg now health = false := by
  rw [excluded, Bool.and_eq_false_iff, decide_eq_false_iff_not,
    decide_eq_false_iff_not, UInt32.not_lt]
  by_cases many : cfg.maxFails ≤ health.fails
  · exact .inr (passed many)
  · exact .inl many

/-- Any other deadline has passed as soon as it is set. -/
theorem add_le_self_of_not_fits
    {timeout : UInt32}
    (unfit : ¬ (0 < timeout ∧ last.toNat + timeout.toNat < 2 ^ 32)) :
    last + timeout ≤ last := by
  have lastSmall := last.toNat_lt
  have timeoutSmall := timeout.toNat_lt
  rw [UInt32.le_iff_toNat_le, UInt32.toNat_add]
  by_cases positive : 0 < timeout
  · have high : ¬ last.toNat + timeout.toNat < 2 ^ 32 :=
      fun fits => unfit ⟨positive, fits⟩
    omega
  · have zero : timeout.toNat = 0 := by
      have notPositive : ¬ 0 < timeout.toNat := positive
      omega
    rw [zero, Nat.add_zero, Nat.mod_eq_of_lt lastSmall]

theorem failedBackend_limit
    (reached : cfg.maxFails ≤ health.fails + 1) :
    failedBackend cfg now health =
      ⟨health.fails + 1, now + cfg.failTimeoutSecs⟩ :=
  if_pos reached

theorem failedBackend_below
    (few : ¬ cfg.maxFails ≤ health.fails + 1) :
    failedBackend cfg now health = ⟨health.fails + 1, health.checked⟩ :=
  if_neg few

/-- How many failures exclude a peer that has none. -/
def failsToExclude (cfg : HealthCheckConfig) : ℕ :=
  max cfg.maxFails.toNat 1

/-- How many more failures exclude a peer that is not excluded now. -/
def owed (cfg : HealthCheckConfig) (now : UInt32)
    (health : BackendHealth) : ℕ :=
  if excluded cfg now health then 0
  else if cfg.maxFails ≤ health.fails then failsToExclude cfg
  else cfg.maxFails.toNat - health.fails.toNat

theorem owed_le : owed cfg now health ≤ failsToExclude cfg := by
  unfold owed failsToExclude
  split
  · omega
  · split <;> omega

theorem owed_pos (passes : excluded cfg now health = false) :
    0 < owed cfg now health := by
  unfold owed failsToExclude
  rw [passes, if_neg Bool.false_ne_true]
  split
  · omega
  · next few =>
    have below : health.fails.toNat < cfg.maxFails.toNat :=
      Nat.lt_of_not_le few
    omega

theorem owed_below_limit
    (few : ¬ cfg.maxFails ≤ health.fails) :
    owed cfg now health = cfg.maxFails.toNat - health.fails.toNat := by
  simp [owed, excluded, few]

/-- Whether the next failure of a peer completes the number that excludes
it. -/
def LastFailure (cfg : HealthCheckConfig) (health : BackendHealth) : Prop :=
  cfg.maxFails ≤ (recovered cfg health).fails + 1

/-- That failure excludes the peer up to its deadline. -/
theorem LastFailure.excludes
    (last_ : LastFailure cfg health)
    (ahead : now < then_ + cfg.failTimeoutSecs) :
    excluded cfg now (failedBackend cfg then_ (recovered cfg health)) =
      true := by
  rw [failedBackend_limit last_, excluded, Bool.and_eq_true,
    decide_eq_true_iff, decide_eq_true_iff]
  exact ⟨last_, ahead⟩

/-- Every other failure pays. -/
theorem owed_failed_lt_of_more
    (more : ¬ LastFailure cfg health)
    (passes : excluded cfg now health = false) :
    owed cfg now (failedBackend cfg then_ (recovered cfg health)) <
      owed cfg now health := by
  rw [LastFailure] at more
  rw [failedBackend_below more, owed_below_limit more]
  have short :
      ¬ cfg.maxFails.toNat ≤ ((recovered cfg health).fails + 1).toNat :=
    more
  by_cases many : cfg.maxFails ≤ health.fails
  · rw [recovered, if_pos many] at short ⊢
    have before : owed cfg now health = failsToExclude cfg := by
      simp [owed, passes, many]
    rw [before, failsToExclude]
    change ¬ cfg.maxFails.toNat ≤ 1 at short
    change cfg.maxFails.toNat - 1 < _
    omega
  · rw [recovered, if_neg many, owed_below_limit many]
    have below : health.fails.toNat < cfg.maxFails.toNat :=
      Nat.lt_of_not_le many
    have step : (health.fails + 1).toNat = health.fails.toNat + 1 := by
      have small := cfg.maxFails.toNat_lt
      exact toNat_add_of_lt (by change health.fails.toNat + 1 < _; omega)
    rw [step]
    omega

/-- A failed attempt pays, as long as the deadline it may set lies ahead. -/
theorem owed_failed_lt
    (ahead : now < then_ + cfg.failTimeoutSecs)
    (passes : excluded cfg now health = false) :
    owed cfg now (failedBackend cfg then_ (recovered cfg health)) <
      owed cfg now health := by
  by_cases last_ : LastFailure cfg health
  · have shut := last_.excludes ahead
    have nothing :
        owed cfg now (failedBackend cfg then_ (recovered cfg health)) = 0 :=
      if_pos shut
    rw [nothing]
    exact owed_pos passes
  · exact owed_failed_lt_of_more last_ passes

/-- A peer that is excluded at some time is excluded at all earlier ones. -/
theorem excluded_of_le
    {later : UInt32} (before : now ≤ later)
    (shut : excluded cfg later health = true) :
    excluded cfg now health = true := by
  rw [excluded, Bool.and_eq_true, decide_eq_true_iff,
    decide_eq_true_iff] at shut ⊢
  exact ⟨shut.1, UInt32.lt_of_le_of_lt before shut.2⟩

end Deadlines

section Owed

variable {weights : Weights} {cfg : HealthCheckConfig}
variable {search : BinarySearch} {client : Client}
variable {now early late : UInt32} {before after : IpHash}
variable {position : ℕ}

/-- Where the peer named pays, nobody owes more than before. -/
theorem Round.owed_le
    (round :
      Round weights cfg search client early late before after position)
    (pays : owed cfg now (after.backend position) <
      owed cfg now (before.backend position)) (other : ℕ) :
    owed cfg now (after.backend other) ≤
      owed cfg now (before.backend other) := by
  by_cases same : other = position
  · rw [same]
    exact Nat.le_of_lt pays
  · rw [round.others other same]

end Owed

/-! ## Who is selected -/

section Selected

variable {weights : Weights} {cfg : HealthCheckConfig} {ih : IpHash}
variable {search : BinarySearch} {client : Client}
variable {clock : ℕ → UInt32} {last : UInt32}

/-- The attempts that exclude all peers but two, one after the other. -/
def stretch (count : ℕ) (cfg : HealthCheckConfig) : ℕ :=
  (count - 2) * failsToExclude cfg

/-- More attempts than it takes to select every peer. -/
def patience (count : ℕ) (cfg : HealthCheckConfig) : ℕ :=
  2 * count * failsToExclude cfg

/--
Exclusions outlast the attempts: the deadlines of the given state are over
at one of the selections, and for long enough after it no deadline overflows
the clock or passes within a stretch of attempts.
-/
structure Outlasts
    (weights : Weights) (cfg : HealthCheckConfig) (ih : IpHash)
    (clock : ℕ → UInt32) (settled : ℕ) : Prop where
  rises : ∀ {j k : ℕ}, j ≤ k →
    k ≤ 2 * (settled + patience weights.count cfg) → clock j ≤ clock k
  over_ : ∀ position < weights.count,
    cfg.maxFails ≤ (ih.backend position).fails →
      (ih.backend position).checked ≤ clock (2 * settled)
  outlasts : ∀ k,
    k + 1 + stretch weights.count cfg ≤
        settled + patience weights.count cfg →
      (clock (2 * (k + 1 + stretch weights.count cfg))).toNat <
        (clock (2 * k + 1)).toNat + cfg.failTimeoutSecs.toNat
  fits :
    (clock (2 * (settled + patience weights.count cfg))).toNat +
      cfg.failTimeoutSecs.toNat < 2 ^ 32

/-- A deadline set in time lies ahead for a stretch of attempts. -/
theorem Outlasts.ahead
    {settled : ℕ} (outlasts : Outlasts weights cfg ih clock settled)
    {first k : ℕ} (after : first ≤ k)
    (upTo : first + 1 + stretch weights.count cfg <
      settled + patience weights.count cfg)
    (inTime : k ≤ first + 1 + stretch weights.count cfg) :
    clock (2 * (first + 1 + stretch weights.count cfg)) <
      clock (2 * k + 1) + cfg.failTimeoutSecs := by
  have window := outlasts.outlasts first (Nat.le_of_lt upTo)
  have later : clock (2 * first + 1) ≤ clock (2 * k + 1) :=
    outlasts.rises (by omega) (by omega)
  have end_ :
      clock (2 * k + 1) ≤
        clock (2 * (settled + patience weights.count cfg)) :=
    outlasts.rises (by omega) (Nat.le_refl _)
  have room := outlasts.fits
  rw [UInt32.le_iff_toNat_le] at later end_
  rw [UInt32.lt_iff_toNat_lt, toNat_add_of_lt (by omega)]
  omega

section Passed

variable {settled position : ℕ}

/-- A peer that is never selected is open once its deadline is over. -/
theorem Outlasts.opens
    (outlasts : Outlasts weights cfg ih clock settled)
    (shape : Shape weights (some cfg) ih) (two : 2 ≤ weights.count)
    (inside : position < weights.count)
    (never : ∀ k, selected ih search client clock k ≠
      some (Token.ofPosition position))
    {k : ℕ} (after : settled ≤ k)
    (upTo : k ≤ settled + patience weights.count cfg) :
    excluded cfg (clock (2 * k))
      ((beforeSelection ih search client clock k).backend position) =
        false := by
  rw [backend_of_never_selected search client clock shape two never]
  apply excluded_eq_false_of_passed
  intro many
  exact UInt32.le_trans (outlasts.over_ position inside many)
    (outlasts.rises (by omega) (by omega))

/-- Sooner or later some other peer completes its failures: until then, each
attempt pays. -/
theorem Outlasts.exists_lastFailure
    (outlasts : Outlasts weights cfg ih clock settled)
    (shape : Shape weights (some cfg) ih) (two : 2 ≤ weights.count)
    (inside : position < weights.count)
    (never : ∀ k, selected ih search client clock k ≠
      some (Token.ofPosition position)) :
    ∃ k payer, settled ≤ k ∧
      k ≤ settled + weights.count * failsToExclude cfg ∧
      selected ih search client clock k = some (Token.ofPosition payer) ∧
      payer < weights.count ∧
      LastFailure cfg
        ((beforeSelection ih search client clock k).backend payer) ∧
      (beforeSelection ih search client clock (k + 1)).backend payer =
        failedBackend cfg (clock (2 * k + 1))
          (recovered cfg
            ((beforeSelection ih search client clock k).backend payer)) := by
  have enough :
      2 * weights.count * failsToExclude cfg =
        weights.count * failsToExclude cfg +
          weights.count * failsToExclude cfg := by
    rw [Nat.mul_assoc, Nat.two_mul]
  have endless : ∀ health, excluded cfg (UInt32.ofNat (2 ^ 32 - 1)) health =
      false := by
    intro health
    apply excluded_eq_false_of_passed
    intro _
    exact Nat.le_of_lt_succ health.checked.toNat_lt
  by_contra none_
  push Not at none_
  have bounded := @Exhaustion.rounds_le ℕ (Finset.range weights.count)
    (fun k other =>
      owed cfg (UInt32.ofNat (2 ^ 32 - 1))
        ((beforeSelection ih search client clock k).backend other))
    settled (weights.count * failsToExclude cfg + 1)
    (Finset.range weights.count) (failsToExclude cfg)
    (fun _ _ => owed_le) (Finset.Subset.refl _)
    (fun _ member outside => absurd member outside) ?_
  · rw [Finset.card_range] at bounded
    omega
  · intro k after before
    rcases exists_round_at search client clock shape two k with
      ⟨payer, named, round⟩
    have open_ := outlasts.opens shape two inside never after
      (by rw [patience, enough]; omega)
    have paid := (round.pays inside open_).2
    have more :
        ¬ LastFailure cfg
          ((beforeSelection ih search client clock k).backend payer) :=
      fun last_ => none_ k payer after (by omega) named round.inside last_
        paid
    have pays :
        owed cfg (UInt32.ofNat (2 ^ 32 - 1))
            ((beforeSelection ih search client clock (k + 1)).backend
              payer) <
          owed cfg (UInt32.ofNat (2 ^ 32 - 1))
            ((beforeSelection ih search client clock k).backend payer) := by
      rw [paid]
      exact owed_failed_lt_of_more more (endless _)
    exact ⟨payer, Finset.mem_range.2 round.inside, pays,
      fun other _ => round.owed_le pays other⟩

/-- A stretch that begins in time is over in time. -/
theorem stretch_lt_patience
    {start : ℕ} (two : 2 ≤ weights.count)
    (before : start ≤ settled + weights.count * failsToExclude cfg) :
    start + 1 + stretch weights.count cfg <
      settled + patience weights.count cfg := by
  have positive : 0 < failsToExclude cfg := Nat.le_max_right _ _
  have enough :
      2 * weights.count * failsToExclude cfg =
        weights.count * failsToExclude cfg +
          (weights.count - 2) * failsToExclude cfg +
          2 * failsToExclude cfg := by
    rw [← Nat.add_mul, ← Nat.add_mul]
    congr 1
    omega
  rw [patience, enough, stretch]
  omega

/-- Within a stretch each attempt pays off some of what another peer owes at
its end. -/
theorem Outlasts.exists_payer
    (outlasts : Outlasts weights cfg ih clock settled)
    (shape : Shape weights (some cfg) ih) (two : 2 ≤ weights.count)
    (inside : position < weights.count)
    (never : ∀ k, selected ih search client clock k ≠
      some (Token.ofPosition position))
    {start k : ℕ} (after : settled ≤ start)
    (inPatience : start + 1 + stretch weights.count cfg <
      settled + patience weights.count cfg)
    (from_ : start ≤ k)
    (upTo : k ≤ start + 1 + stretch weights.count cfg) {now : UInt32}
    (end_ :
      clock (2 * (start + 1 + stretch weights.count cfg)) = now) :
    ∃ payer < weights.count, payer ≠ position ∧
      owed cfg now
          ((beforeSelection ih search client clock (k + 1)).backend payer) <
        owed cfg now
          ((beforeSelection ih search client clock k).backend payer) ∧
      ∀ other,
        owed cfg now
            ((beforeSelection ih search client clock (k + 1)).backend
              other) ≤
          owed cfg now
            ((beforeSelection ih search client clock k).backend other) := by
  rcases exists_round_at search client clock shape two k with
    ⟨payer, chosen, round⟩
  rcases round.pays inside
    (outlasts.opens shape two inside never (by omega) (by omega)) with
    ⟨passes, paid⟩
  have sooner : clock (2 * k) ≤ now :=
    end_ ▸ outlasts.rises (by omega) (by omega)
  have ahead : now < clock (2 * k + 1) + cfg.failTimeoutSecs :=
    end_ ▸ outlasts.ahead from_ inPatience upTo
  have passesLater :
      excluded cfg now
        ((beforeSelection ih search client clock k).backend payer) =
          false := by
    apply Bool.eq_false_iff.2
    intro shut
    rw [excluded_of_le sooner shut] at passes
    cases passes
  have pays := owed_failed_lt ahead passesLater
  rw [← paid] at pays
  refine ⟨payer, round.inside, ?_, pays, round.owed_le pays⟩
  rintro rfl
  exact never k chosen

/--
If exclusions outlast the attempts, every peer is selected: were one passed
over, the others would all be excluded within a stretch that begins with one
of them.
-/
theorem exists_selected_of_outlasts
    (outlasts : Outlasts weights cfg ih clock settled)
    (shape : Shape weights (some cfg) ih) (two : 2 ≤ weights.count)
    (inside : position < weights.count) :
    ∃ k, selected ih search client clock k =
      some (Token.ofPosition position) := by
  by_contra never
  push Not at never
  rcases outlasts.exists_lastFailure shape two inside never with
    ⟨start, first, after, before, named, firstInside, last_, paidFirst⟩
  have distinct : first ≠ position := by
    rintro rfl
    exact never start named
  have steps := stretch_lt_patience two before
  -- What counts is who is shut at the last selection of the stretch.
  generalize end_ : clock (2 * (start + 1 + stretch weights.count cfg)) =
    now
  have ahead : now < clock (2 * start + 1) + cfg.failTimeoutSecs :=
    end_ ▸ outlasts.ahead (Nat.le_refl _) steps (by omega)
  have bounded := @Exhaustion.rounds_le ℕ
    ((Finset.range weights.count).erase position)
    (fun k other =>
      owed cfg now
        ((beforeSelection ih search client clock k).backend other))
    (start + 1) (stretch weights.count cfg + 1)
    (((Finset.range weights.count).erase position).erase first)
    (failsToExclude cfg) (fun _ _ => owed_le) (Finset.erase_subset _ _)
    ?_ ?_
  · rw [Finset.card_erase_of_mem
        (Finset.mem_erase.2 ⟨distinct, Finset.mem_range.2 firstInside⟩),
      Finset.card_erase_of_mem (Finset.mem_range.2 inside),
      Finset.card_range, Nat.sub_sub] at bounded
    exact absurd bounded (Nat.not_succ_le_self _)
  · intro other member outside
    have isFirst : other = first := by
      by_contra differs
      exact outside (Finset.mem_erase.2 ⟨differs, member⟩)
    rw [isFirst, paidFirst]
    exact if_pos (last_.excludes ahead)
  · intro k from_ upTo
    rcases outlasts.exists_payer shape two inside never after steps
      (Nat.le_of_succ_le from_) (by omega) end_ with
      ⟨payer, payerInside, other, pays, nobody⟩
    exact ⟨payer,
      Finset.mem_erase.2 ⟨other, Finset.mem_range.2 payerInside⟩, pays,
      fun other _ => nobody other⟩

end Passed

/-- Where every deadline has passed as soon as it is set, all selections but
the one at the start name the first peer. -/
theorem selected_succ_of_wraps
    (shape : Shape weights (some cfg) ih) (two : 2 ≤ weights.count)
    (stands : ∀ k, clock (k + 1) = last)
    (wraps : last + cfg.failTimeoutSecs ≤ last)
    (ends : ∀ position < weights.count,
      cfg.maxFails ≤ (ih.backend position).fails →
        (ih.backend position).checked ≤ last) (k : ℕ) :
    selected ih search client clock (k + 1) =
      ih.primary search client := by
  have failed (health : BackendHealth) :
      cfg.maxFails ≤ (failedBackend cfg last health).fails →
        (failedBackend cfg last health).checked ≤ last := by
    by_cases reached : cfg.maxFails ≤ health.fails + 1
    · rw [failedBackend_limit reached]
      exact fun _ => wraps
    · rw [failedBackend_below reached]
      exact fun many => absurd many reached
  have passed (rounds : ℕ) :
      ∀ position < weights.count,
        cfg.maxFails ≤
            ((beforeSelection ih search client clock rounds).backend
              position).fails →
          ((beforeSelection ih search client clock rounds).backend
            position).checked ≤ last := by
    induction rounds with
    | zero => exact ends
    | succ rounds inductionHypothesis =>
        intro position inside
        rcases exists_round_at search client clock shape two rounds with
          ⟨chosen, _, round⟩
        by_cases same : position = chosen
        · rcases round.exists_failed with ⟨health, paid⟩
          rw [same, paid, stands]
          exact failed health
        · rw [round.others position same]
          exact inductionHypothesis position inside
  have opens (position : ℕ) (inside : position < weights.count) :
      excluded cfg (clock (2 * (k + 1)))
        ((beforeSelection ih search client clock (k + 1)).backend
          position) = false := by
    rw [Nat.mul_succ, stands]
    exact excluded_eq_false_of_passed (passed (k + 1) position inside)
  rcases exists_round_at search client clock shape two (k + 1) with
    ⟨chosen, named, round⟩
  rcases shape.exists_primary two search client with
    ⟨head, inside, isHead⟩
  have same :=
    (shape_beforeSelection search client clock shape two (k + 1)).2
  have equal :=
    round.eq_head inside (same.trans isHead) (opens head inside)
  rw [named, isHead, equal]

end Selected

end ByteHub.Lb.IpHash
