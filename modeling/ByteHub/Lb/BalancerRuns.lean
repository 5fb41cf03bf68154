import ByteHub.Lb.Balancer
import ByteHub.Lb.IpHashRing
import ByteHub.Lb.RoundRobinRetry

/-!
# Runs of the combined balancer

A balancer that was built from weights keeps the shape its strategy has over
every run, and it names none but the peers it was built for.
-/

namespace ByteHub.Lb

/-! ## What operations leave alone -/

section Total

variable (now : UInt32) (token : Token)

theorem IpHash.settings_next
    (ih : IpHash) (search : BinarySearch) (client : Client) :
    (ih.next search client now).2.total = ih.total ∧
      (ih.next search client now).2.config = ih.config := by
  unfold IpHash.next
  split
  · exact ⟨rfl, rfl⟩
  · dsimp only
    split
    · exact ⟨rfl, rfl⟩
    · split <;> exact ⟨rfl, rfl⟩

theorem IpHash.settings_onSuccess (ih : IpHash) :
    (ih.onSuccess token).total = ih.total ∧
      (ih.onSuccess token).config = ih.config := by
  unfold IpHash.onSuccess
  split <;> exact ⟨rfl, rfl⟩

theorem IpHash.settings_onFailure (ih : IpHash) :
    (ih.onFailure now token).total = ih.total ∧
      (ih.onFailure now token).config = ih.config := by
  unfold IpHash.onFailure
  split <;> exact ⟨rfl, rfl⟩

theorem RoundRobin.settings_perform (rr : RoundRobin) (call : Call) :
    (rr.perform call now).total = rr.total ∧
      (rr.perform call now).config = rr.config := by
  cases call with
  | next =>
      simp only [perform, next]
      split
      · exact ⟨rfl, rfl⟩
      · split
        · exact ⟨rfl, rfl⟩
        · split <;> exact ⟨rfl, rfl⟩
  | onSuccess token =>
      simp only [perform, onSuccess]
      split <;> exact ⟨rfl, rfl⟩
  | onFailure token =>
      simp only [perform, onFailure]
      split <;> exact ⟨rfl, rfl⟩

theorem RoundRobin.total_performAll
    (rr : RoundRobin) (calls : List (Call × UInt32)) :
    (rr.performAll calls).total = rr.total := by
  induction calls using List.reverseRecOn with
  | nil => rfl
  | append_singleton calls call inductionHypothesis =>
      rw [performAll_concat, (settings_perform _ _ _).1, inductionHypothesis]

end Total

namespace IpHash

variable {weights : Weights} {config : Option HealthCheckConfig}
variable {ih : IpHash}

theorem Shape.next
    (shape : Shape weights config ih) (two : 2 ≤ weights.count)
    (search : BinarySearch) (client : Client) (now : UInt32) :
    Shape weights config (ih.next search client now).2 := by
  cases config with
  | none =>
      rw [next_unchecked shape two]
      exact shape
  | some cfg =>
      rcases next_cases shape two search client now with
        ⟨position, _, _, chosen, _⟩ | ⟨_, chosen⟩
      · rw [chosen]
        exact shape.alter position _
      · rw [chosen]
        exact shape

theorem Shape.onSuccess
    (shape : Shape weights config ih) (token : Token) :
    Shape weights config (ih.onSuccess token) := by
  unfold IpHash.onSuccess
  split
  · exact shape
  · exact shape.alter token.index.toNat _

theorem Shape.onFailure
    (shape : Shape weights config ih) (now : UInt32) (token : Token) :
    Shape weights config (ih.onFailure now token) := by
  unfold IpHash.onFailure
  split
  · exact shape
  · exact shape.alter token.index.toNat _

theorem Shape.next_inside
    (shape : Shape weights config ih) (two : 2 ≤ weights.count)
    (search : BinarySearch) (client : Client) (now : UInt32) :
    ∃ position < weights.count,
      (ih.next search client now).1 = some (Token.ofPosition position) := by
  rcases shape.exists_primary two search client with
    ⟨head, inside, primary⟩
  cases config with
  | none =>
      rw [next_unchecked shape two]
      exact ⟨head, inside, primary⟩
  | some cfg =>
      rcases next_cases shape two search client now with
        ⟨position, inside, _, chosen, _⟩ | ⟨_, chosen⟩
      · exact ⟨position, inside, by rw [chosen]⟩
      · exact ⟨head, inside, by rw [chosen, primary]⟩

end IpHash

namespace Balancer

/-! ## Runs -/

/-- A call on the balancer. -/
inductive Call where
  | next (client : Client)
  | onSuccess (token : Token)
  | onFailure (token : Token)

/-- The balancer after a call made at a clock reading. -/
def perform (balancer : Balancer) (call : Call) (now : UInt32) : Balancer :=
  match call with
  | .next client => (balancer.next client now).2
  | .onSuccess token => balancer.onSuccess token
  | .onFailure token => balancer.onFailure now token

/-- The balancer after a sequence of calls. -/
def performAll
    (balancer : Balancer) (calls : List (Call × UInt32)) : Balancer :=
  calls.foldl (fun state call => state.perform call.1 call.2) balancer

/-- No call changes the number of peers or the health configuration. -/
theorem settings_perform
    (balancer : Balancer) (call : Call) (now : UInt32) :
    (balancer.perform call now).total = balancer.total ∧
      (balancer.perform call now).healthConfig = balancer.healthConfig := by
  cases balancer with
  | off => cases call <;> exact ⟨rfl, rfl⟩
  | ipHash search ih =>
      cases call with
      | next client => exact ih.settings_next now search client
      | onSuccess token => exact ih.settings_onSuccess token
      | onFailure token => exact ih.settings_onFailure now token
  | roundRobin rr =>
      cases call with
      | next client => exact rr.settings_perform now .next
      | onSuccess token => exact rr.settings_perform now (.onSuccess token)
      | onFailure token => exact rr.settings_perform now (.onFailure token)

/-- What no run changes about a balancer for some weights. -/
inductive Shape (weights : Weights) (config : Option HealthCheckConfig) :
    Strategy → Balancer → Prop where
  | off : Shape weights config .off .off
  | ipHash
      {search : BinarySearch} {ih : IpHash}
      (total_eq : ih.total = UInt8.ofNat weights.count)
      (shape : 2 ≤ weights.count → IpHash.Shape weights config ih) :
      Shape weights config .ipHash (.ipHash search ih)
  | roundRobin
      {rr : RoundRobin} (total_eq : rr.total = UInt8.ofNat weights.count)
      (shape : 2 ≤ weights.count → RoundRobin.Shape weights config rr) :
      Shape weights config .roundRobin (.roundRobin rr)

section Shape

variable {weights : Weights} {config : Option HealthCheckConfig}
variable {strategy : Strategy} {balancer : Balancer}

theorem Shape.perform
    (shape : Shape weights config strategy balancer) (call : Call)
    (now : UInt32) :
    Shape weights config strategy (balancer.perform call now) := by
  cases shape with
  | off => cases call <;> exact .off
  | @ipHash search ih total_eq shape =>
      cases call with
      | next client =>
          exact .ipHash ((ih.settings_next now search client).1.trans total_eq)
            fun two => (shape two).next two search client now
      | onSuccess token =>
          exact .ipHash ((ih.settings_onSuccess token).1.trans total_eq)
            fun two => (shape two).onSuccess token
      | onFailure token =>
          exact .ipHash ((ih.settings_onFailure now token).1.trans total_eq)
            fun two => (shape two).onFailure now token
  | @roundRobin rr total_eq shape =>
      cases call with
      | next client =>
          exact .roundRobin ((rr.settings_perform now .next).1.trans total_eq)
            fun two => (shape two).perform two .next now
      | onSuccess token =>
          exact .roundRobin
            ((rr.settings_perform now (.onSuccess token)).1.trans total_eq)
            fun two => (shape two).perform two (.onSuccess token) now
      | onFailure token =>
          exact .roundRobin
            ((rr.settings_perform now (.onFailure token)).1.trans total_eq)
            fun two => (shape two).perform two (.onFailure token) now

theorem Shape.performAll
    (shape : Shape weights config strategy balancer)
    (calls : List (Call × UInt32)) :
    Shape weights config strategy (balancer.performAll calls) := by
  induction calls generalizing balancer with
  | nil => exact shape
  | cons call calls inductionHypothesis =>
      exact inductionHypothesis (shape.perform call.1 call.2)

/-- The number of peers, if the balancer selects at all. -/
theorem Shape.total_eq
    (shape : Shape weights config strategy balancer)
    (selects : strategy ≠ .off) :
    balancer.total.toNat = weights.count := by
  have small : weights.count < 256 := Nat.lt_succ_of_le weights.bounded
  cases shape with
  | off => exact (selects rfl).elim
  | ipHash total_eq _ | roundRobin total_eq _ =>
      rw [total, total_eq, UInt8.toNat_ofNat_of_lt' small]

private theorem few
    {total : UInt8} {count : ℕ} (total_eq : total = UInt8.ofNat count)
    (small : count < 256) (notTwo : ¬ 2 ≤ count) : total ≤ 1 := by
  rw [total_eq, UInt8.le_iff_toNat_le, UInt8.toNat_ofNat_of_lt' small]
  exact Nat.le_of_lt_succ (Nat.lt_of_not_le notTwo)

/-- A selection names a peer, the first one if there is none to choose
from. -/
theorem Shape.next_inside
    (shape : Shape weights config strategy balancer) (client : Client)
    (now : UInt32) :
    ∃ position, (balancer.next client now).1 =
        some (Token.ofPosition position) ∧
      (position < weights.count ∨ position = 0 ∧
        (strategy = .off ∨ weights.count ≤ 1)) := by
  have small : weights.count < 256 := Nat.lt_succ_of_le weights.bounded
  cases shape with
  | off => exact ⟨0, rfl, .inr ⟨rfl, .inl rfl⟩⟩
  | @ipHash search ih total_eq shape =>
      by_cases two : 2 ≤ weights.count
      · rcases (shape two).next_inside two search client now with
          ⟨position, inside, chosen⟩
        exact ⟨position, chosen, .inl inside⟩
      · refine ⟨0, ?_, .inr ⟨rfl, .inr (by omega)⟩⟩
        rw [Balancer.next, IpHash.next, if_pos (few total_eq small two)]
        rfl
  | @roundRobin rr total_eq shape =>
      by_cases two : 2 ≤ weights.count
      · rcases RoundRobin.next_token (shape two) two now with
          ⟨position, inside, chosen⟩
        exact ⟨position, chosen, .inl inside⟩
      · refine ⟨0, ?_, .inr ⟨rfl, .inr (by omega)⟩⟩
        rw [Balancer.next,
          RoundRobin.next_few now rr (few total_eq small two)]
        rfl

end Shape

/-- The only reason not to build a balancer is the number of weights. -/
theorem new_eq_none_iff
    {sort : UnstableSort} {search : BinarySearch} {strategy : Strategy}
    {values : List UInt8} {config : Option HealthCheckConfig}
    (selects : strategy ≠ .off) :
    new sort search strategy values config = none ↔
      255 < values.length := by
  cases strategy with
  | off => exact (selects rfl).elim
  | ipHash | roundRobin =>
      rw [new, ← Nat.not_le]
      split
      · next bounded => simp [bounded]
      · next unbounded => simp [unbounded]

/-- A balancer has its shape when it is built. -/
theorem shape_new
    {sort : UnstableSort} {search : BinarySearch} {strategy : Strategy}
    {values : List UInt8} {config : Option HealthCheckConfig}
    {balancer : Balancer} (bounded : values.length ≤ 255)
    (built : new sort search strategy values config = some balancer) :
    Shape ⟨values, bounded⟩ config strategy balancer := by
  cases strategy with
  | off =>
      cases built
      exact .off
  | ipHash =>
      rw [new, dif_pos bounded] at built
      cases built
      exact .ipHash rfl fun two => IpHash.shape_fresh sort _ config two
  | roundRobin =>
      rw [new, dif_pos bounded] at built
      cases built
      exact .roundRobin rfl fun two => RoundRobin.shape_new _ config two

/-- A balancer that selects has been built for all the weights. -/
theorem shape_of_new
    {sort : UnstableSort} {search : BinarySearch} {strategy : Strategy}
    {values : List UInt8} {config : Option HealthCheckConfig}
    {balancer : Balancer}
    (built : new sort search strategy values config = some balancer)
    (selects : strategy ≠ .off) :
    ∃ weights, Shape weights config strategy balancer ∧
      weights.count = values.length := by
  by_cases bounded : values.length ≤ 255
  · exact ⟨_, shape_new bounded built, rfl⟩
  · cases strategy with
    | off => exact (selects rfl).elim
    | ipHash | roundRobin =>
        rw [new, dif_neg bounded] at built
        cases built

/-- Every balancer that is built has a shape. -/
theorem exists_shape
    {sort : UnstableSort} {search : BinarySearch} {strategy : Strategy}
    {values : List UInt8} {config : Option HealthCheckConfig}
    {balancer : Balancer}
    (built : new sort search strategy values config = some balancer) :
    ∃ weights, Shape weights config strategy balancer := by
  by_cases bounded : values.length ≤ 255
  · exact ⟨_, shape_new bounded built⟩
  · cases strategy with
    | off =>
        cases built
        exact ⟨⟨[], Nat.zero_le _⟩, .off⟩
    | ipHash | roundRobin =>
        rw [new, dif_neg bounded] at built
        cases built

end Balancer

end ByteHub.Lb
