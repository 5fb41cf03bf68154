import ByteHub.Core.Failover
import ByteHub.Lb.RoundRobinOverflow
import ByteHub.Lb.RoundRobinRetry

/-!
# Failover under round robin

A call over peers that are all down selects and fails in turn, so it ends if
and only if the round robin balancer gives every peer its turn.  With
positive weights it does.  A peer of weight zero can be passed over for
ever, and the call then never returns.
-/

namespace ByteHub.Core

open ByteHub.Lb
open ByteHub.Lb.RoundRobin

variable {Addr Stream Error : Type}

section Selections

variable {weights : Weights} {config : Option HealthCheckConfig}
variable {rr : RoundRobin} {clock : ℕ → UInt32} (client : Client)

theorem selection_roundRobin
    (shape : Shape weights config rr) (two : 2 ≤ weights.count) (k : ℕ) :
    selection client (.roundRobin rr) clock k =
      (selected rr clock k,
        .roundRobin ((beforeSelection rr clock k).next
          (clock (2 * k))).2) := by
  induction k with
  | zero => rfl
  | succ k inductionHypothesis =>
      have shaped := shape_beforeSelection shape two clock k
      rcases next_token shaped two (clock (2 * k)) with
        ⟨position, _, chosen⟩
      rw [selection, inductionHypothesis]
      unfold selected
      rw [beforeSelection_succ chosen, chosen]
      rfl

theorem total_roundRobin (shape : Shape weights config rr) :
    (Balancer.roundRobin rr).total = UInt8.ofNat weights.count :=
  shape.total_eq

theorem selectsBelow_roundRobin
    (shape : Shape weights config rr) (two : 2 ≤ weights.count) :
    SelectsBelow client (.roundRobin rr) clock weights.count := by
  intro k
  rw [selection_roundRobin client shape two]
  exact next_token (shape_beforeSelection shape two clock k) two _

end Selections

/-! ## Calls over peers that are all down -/

/--
Every call over peers that are all down ends with an error after attempting
each of them: for every history of the balancer, every monotone course of
time in which the exclusions running at the start come to an end, and every
network that refuses all connections.
-/
def RoundRobinTriesAll
    (weights : Weights) (config : Option HealthCheckConfig) : Prop :=
  ∀ (Addr Stream Error : Type) (ctx : CallContext Addr)
    (network : Network Addr Stream Error)
    (history : List (Call × UInt32)) (time : ℕ → ℕ),
    Answers (fun _ => False) network → Monotone time →
      ExclusionsEnd ((new weights config).performAll history)
        (readings time) →
        FailsHavingTriedAll ctx
          (.roundRobin ((new weights config).performAll history))
          (readings time) network weights.count

/-- The clock stands still in its last second, where nobody is excluded. -/
theorem allPass_lastSecond (config : Option HealthCheckConfig) :
    AllPass config (readings fun _ => 2 ^ 32 - 1) := by
  intro k p
  cases config with
  | none => rfl
  | some cfg =>
      have late : ¬ UInt32.ofNat (2 ^ 32 - 1) < p.checked := by
        rw [UInt32.not_lt, UInt32.le_iff_toNat_le]
        exact Nat.le_of_lt_succ p.checked.toNat_lt
      unfold healthGate readings
      dsimp only
      rw [if_neg late]
      split <;> rfl

section Starved

variable {weights : Weights}

theorem exclusionsEnd_new
    (weights : Weights) (config : Option HealthCheckConfig)
    (clock : ℕ → UInt32) : ExclusionsEnd (new weights config) clock := by
  intro p member _ _ _
  exact ⟨0, by
    rw [(rested_new weights config p member).2.2]
    exact UInt32.zero_le⟩

/-- Some peer is never selected if some weight is zero. -/
theorem exists_never_selected
    (config : Option HealthCheckConfig) (two : 2 ≤ weights.count)
    (fits : FitsI16 weights) {position : ℕ}
    (inside : position < weights.count)
    (zero : weights.at position = 0) :
    ∃ starved < weights.count, ∀ k,
      selected (new weights config) (readings fun _ => 2 ^ 32 - 1) k ≠
        some (Token.ofPosition starved) := by
  have shape := shape_new weights config two
  have balanced := balanced_new weights config two
  have pass := allPass_lastSecond config
  have share := shareAt_rested shape (rested_new weights config)
  have credit := creditAt_new weights config two
  by_cases positive : ∃ other < weights.count, 1 ≤ weights.at other
  · rcases positive with ⟨other, otherInside, earns⟩
    refine ⟨position, inside, fun k => ?_⟩
    exact (not_selected_beside_positive shape balanced two fits
      (earnsWeight_new weights config) pass inside otherInside earns
      (by simp [share, zero]) (by rw [credit]) k).1
  · push Not at positive
    refine ⟨1, by omega, fun k => ?_⟩
    rw [(selected_first shape balanced two fits pass
      (by
        intro other _
        have nothing : weights.at other = 0 := by
          by_cases within : other < weights.count
          · exact Nat.lt_one_iff.1 (positive other within)
          · exact weights.at_outside (not_lt.1 within)
        simp [share, nothing])
      (by intro other; rw [credit]) k).1]
    decide

end Starved

/-- With positive weights whose credits cannot leave 16 bits every peer is
tried. -/
theorem roundRobinTriesAll_of_positive
    {weights : Weights} (config : Option HealthCheckConfig)
    (two : 2 ≤ weights.count) (fits : FitsI16 weights)
    (positive : ∀ position < weights.count, 1 ≤ weights.at position) :
    RoundRobinTriesAll weights config := by
  intro Addr Stream Error ctx network history time answers _ ends
  have fresh := shape_new weights config two
  have shape := fresh.performAll two history
  have balanced :=
    (balanced_new weights config two).performAll fresh two fits history
  have earns :=
    (keeps_earnsWeight config).performAll fresh two
      (earnsWeight_new weights config) history
  rw [failsHavingTriedAll_iff ctx two weights.bounded
    (total_roundRobin shape)
    (selectsBelow_roundRobin _ shape two) answers fun _ => id]
  intro position inside
  rcases exists_selected shape balanced two fits earns ends inside
    (positive position inside) with ⟨k, chosen⟩
  refine ⟨k, ?_⟩
  rw [selection_roundRobin _ shape two]
  exact chosen

/-- A weight of zero leaves some peer untried in some call. -/
theorem positive_of_roundRobinTriesAll
    {weights : Weights} {config : Option HealthCheckConfig}
    (two : 2 ≤ weights.count) (fits : FitsI16 weights)
    (triesAll : RoundRobinTriesAll weights config) :
    ∀ position < weights.count, 1 ≤ weights.at position := by
  intro position inside
  by_contra notPositive
  have zero : weights.at position = 0 := by omega
  have shape := shape_new weights config two
  rcases exists_never_selected config two fits inside zero with
    ⟨starved, starvedInside, never⟩
  have fails :
      FailsHavingTriedAll anyContext (.roundRobin (new weights config))
        (readings fun _ => 2 ^ 32 - 1) refusing weights.count :=
    triesAll Unit Unit Unit anyContext refusing []
      (fun _ => 2 ^ 32 - 1) refusing_answers monotone_const
      (exclusionsEnd_new weights config _)
  rw [failsHavingTriedAll_iff anyContext two weights.bounded
    (total_roundRobin shape) (selectsBelow_roundRobin _ shape two)
    refusing_answers fun _ => id] at fails
  rcases fails starved starvedInside with ⟨k, chosen⟩
  rw [selection_roundRobin _ shape two] at chosen
  exact never k chosen

end ByteHub.Core
