import ByteHub.Lb.BalancerRuns

/-!
# Overflow of the round robin credits

The total and the credits of a selection are `i16`.  Each operation on them
is given with its exact result, before that is cut down to 16 bits.  Over any
run the results stay in range when the number of peers times the largest
weight does, and this is exact in the two numbers: beyond it already the
first selection among peers of equal weight leaves the range.
-/

namespace ByteHub.Lb.RoundRobin

open Finset
open ByteHub.Library.SmoothCredit

/-! ## Exact results -/

/-- The numbers an `i16` holds. -/
def InI16 (value : ℤ) : Prop :=
  -32768 ≤ value ∧ value ≤ 32767

instance (value : ℤ) : Decidable (InI16 value) := by
  unfold InI16
  infer_instance

/-- The additions of one iteration, `tw += ew` and `cw += ew`. -/
def Scan.results
    (config : Option HealthCheckConfig) (now : UInt32)
    (scan : Scan) (p : Node) : List ℤ :=
  match healthGate config now p with
  | none => []
  | some q =>
      [scan.tw.toInt + q.share.toInt, q.cw.toInt + q.share.toInt]

/-- The additions of the selection loop. -/
def scanResults
    (config : Option HealthCheckConfig) (now : UInt32) :
    Scan → List Node → List ℤ
  | _, [] => []
  | scan, p :: rest =>
      scan.results config now p ++
        scanResults config now (scan.step config now p) rest

/-- The additions and the final `cw -= tw` of a selection. -/
def nextResults (rr : RoundRobin) (now : UInt32) : List ℤ :=
  if rr.total ≤ 1 then []
  else
    let scan := scanAll rr.config now rr.nodes
    scanResults rr.config now Scan.start rr.nodes ++
      match scan.best with
      | some (position, _) =>
          (scan.nodes[position]?).toList.map fun x =>
            x.cw.toInt - scan.tw.toInt
      | none => []

/-- No operation of any `next` in a run leaves the range of `i16`. -/
def NeverOverflows
    (rr : RoundRobin) (calls : List (Call × UInt32)) : Prop :=
  ∀ before now after, calls = before ++ (.next, now) :: after →
    ∀ result ∈ (rr.performAll before).nextResults now, InI16 result

theorem inI16_toInt (value : Int16) : InI16 value.toInt := by
  have lower := value.le_toInt
  have upper := value.toInt_lt
  constructor <;> omega

theorem bmod_of_inI16 {value : ℤ} (inside : InI16 value) :
    Int.bmod value (2 ^ 16) = value := by
  rcases inside with ⟨lower, upper⟩
  apply Int.bmod_eq_of_le <;> norm_num <;> omega

section Scan

variable {config : Option HealthCheckConfig} {now : UInt32}

/-- Where in the loop a result comes from. -/
theorem mem_scanResults
    {walked rest : List Node} {result : ℤ}
    (member :
      result ∈ scanResults config now (scanAll config now walked) rest) :
    ∃ front p back q, walked ++ rest = front ++ p :: back ∧
      healthGate config now p = some q ∧
        (result = (scanAll config now front).tw.toInt + q.share.toInt ∨
          result = q.cw.toInt + q.share.toInt) := by
  induction rest generalizing walked with
  | nil => cases member
  | cons p rest inductionHypothesis =>
      rw [scanResults, List.mem_append] at member
      rcases member with here | later
      · unfold Scan.results at here
        cases gate : healthGate config now p with
        | none =>
            rw [gate] at here
            cases here
        | some q =>
            rw [gate] at here
            refine ⟨walked, p, rest, q, rfl, gate, ?_⟩
            simpa using here
      · rw [← scanAll_concat] at later
        rcases inductionHypothesis later with
          ⟨front, r, back, q, split, gate, sources⟩
        refine ⟨front, r, back, q, ?_, gate, sources⟩
        rw [← split, List.append_assoc, List.singleton_append]

/-- A loop that does not overflow computes the exact total. -/
theorem scanAll_tw_of_inI16
    {walked rest : List Node}
    (sound : (scanAll config now walked).tw.toInt =
      (walked.map (earned config now)).sum)
    (inside : ∀ result ∈
      scanResults config now (scanAll config now walked) rest,
        InI16 result) :
    (scanAll config now (walked ++ rest)).tw.toInt =
      ((walked ++ rest).map (earned config now)).sum := by
  induction rest generalizing walked with
  | nil => simpa using sound
  | cons p rest inductionHypothesis =>
      rw [← List.singleton_append, ← List.append_assoc]
      apply inductionHypothesis
      · rw [scanAll_concat, List.map_append, List.sum_append, ← sound]
        cases gate : healthGate config now p with
        | none => simp [Scan.step, earned, gate]
        | some q =>
            have fits :
                InI16 ((scanAll config now walked).tw.toInt +
                  q.share.toInt) := by
              apply inside
              rw [scanResults, Scan.results, gate]
              simp
            simp only [Scan.step, earned, gate, List.map_singleton,
              List.sum_singleton, Int16.toInt_add]
            rw [bmod_of_inI16 fits, share_toInt]
      · intro result member
        apply inside
        rw [scanResults, List.mem_append, ← scanAll_concat]
        exact .inr member

end Scan

/-! ## Weights that fit -/

section Fits

variable {weights : Weights} {config : Option HealthCheckConfig}
variable {rr : RoundRobin} {now : UInt32}

theorem earned_nonneg
    (config : Option HealthCheckConfig) (now : UInt32) (p : Node) :
    0 ≤ earned config now p := by
  unfold earned
  split
  · exact le_rfl
  · exact Int.natCast_nonneg _

/-- A node earns no more than the largest weight. -/
theorem Shape.earned_le
    (shape : Shape weights config rr) {p : Node} (member : p ∈ rr.nodes) :
    earned config now p ≤ weights.cap := by
  rcases List.mem_iff_getElem?.1 member with ⟨position, here⟩
  unfold earned
  split
  · exact Int.natCast_nonneg _
  · next q passed =>
    rw [healthGate_ew passed]
    exact_mod_cast shape.ew_le here

/-- A total over some of the nodes, and one node more. -/
theorem Shape.sum_earned_le
    (shape : Shape weights config rr) (now : UInt32)
    {front back : List Node} {p : Node}
    (split : rr.nodes = front ++ p :: back) :
    (front.map (earned config now)).sum + earned config now p ≤
      weights.count * weights.cap := by
  have each :
      ∀ value ∈ (front ++ [p]).map (earned config now),
        value ≤ (weights.cap : ℤ) := by
    intro value member
    rcases List.mem_map.1 member with ⟨r, there, rfl⟩
    apply shape.earned_le
    rw [split]
    rcases List.mem_append.1 there with old | last
    · exact List.mem_append_left _ old
    · rw [List.mem_singleton.1 last]
      simp
  have bounded := List.sum_le_card_nsmul _ _ each
  rw [List.map_append, List.sum_append, List.map_singleton,
    List.sum_singleton] at bounded
  have count : front.length + 1 ≤ weights.count := by
    rw [← shape.length_eq, split]
    simp
  have scaled :
      ((front.length + 1 : ℕ) : ℤ) * weights.cap ≤
        weights.count * weights.cap :=
    mul_le_mul_of_nonneg_right (by exact_mod_cast count)
      (Int.natCast_nonneg _)
  apply bounded.trans
  simpa using scaled

/-- The additions of the loop stay in range. -/
theorem scanResults_inI16
    (shape : Shape weights config rr) (balanced : Balanced weights rr)
    (fits : FitsI16 weights) :
    ∀ result ∈ scanResults config now Scan.start rr.nodes,
      InI16 result := by
  intro result member
  have started :
      result ∈
        scanResults config now (scanAll config now []) rr.nodes :=
    member
  rcases mem_scanResults started with
    ⟨front, p, back, q, split, passed, total | credit⟩
  · rw [List.nil_append] at split
    have small := shape.sum_earned_le now split
    have product := fits.product
    have before : 0 ≤ (front.map (earned config now)).sum := by
      apply List.sum_nonneg
      intro value member
      rcases List.mem_map.1 member with ⟨r, _, rfl⟩
      exact earned_nonneg config now r
    have here : earned config now p = q.ew.toNat := by
      rw [earned, passed]
    have nonneg := earned_nonneg config now p
    have summed : InI16 (front.map (earned config now)).sum := by
      constructor <;> linarith
    rw [total, scanAll_tw, bmod_of_inI16 summed, share_toInt, ← here]
    constructor <;> linarith
  · rw [List.nil_append] at split
    have here : rr.nodes[front.length]? = some p := by
      rw [split]
      simp
    have upper := balanced.credit_le (shape.inRange here)
    have lower := balanced.credit_ge (shape.inRange here)
    have shareUpper := shape.share_le front.length
    have shareLower := share_nonneg rr.nodes front.length
    have product := fits.product
    have capPos : (0 : ℤ) ≤ weights.cap := Int.natCast_nonneg _
    rw [creditAt, valueAt_of_some here] at upper lower
    rw [shareAt, valueAt_of_some here] at shareUpper shareLower
    rw [credit, share_toInt, healthGate_ew passed, healthGate_cw passed]
    constructor <;> linarith

/-- A selection stays in range. -/
theorem nextResults_inI16
    (shape : Shape weights config rr) (balanced : Balanced weights rr)
    (two : 2 ≤ weights.count) (fits : FitsI16 weights) :
    ∀ result ∈ rr.nextResults now, InI16 result := by
  intro result member
  rw [nextResults, if_neg (shape.many two), shape.config_eq,
    List.mem_append] at member
  rcases member with addition | payment
  · exact scanResults_inI16 shape balanced fits result addition
  have best := scanAll_best config now rr.nodes
  cases found : (scanAll config now rr.nodes).best with
  | none =>
      rw [found] at payment
      cases payment
  | some pair =>
      rcases pair with ⟨position, cw⟩
      rw [found] at best payment
      have best' := best
      rcases best' with ⟨p, q, here, passed, cwEq, _⟩
      subst cwEq
      have leads :=
        (leader_of_best shape balanced fits here passed best).1
      have lowest :=
        (balanced.afterTurn shape leads).2.2 position (shape.inRange here)
      rw [afterTurn_chosen _ _ _ leads.mem] at lowest
      have upper := balanced.credit_le (shape.inRange here)
      have shareUpper := shape.share_le position
      have product := fits.product
      have capPos : (0 : ℤ) ≤ weights.cap := Int.natCast_nonneg _
      have nonneg :
          0 ≤ ∑ position ∈ eligible config now rr.nodes,
            shareAt rr.nodes position :=
        sum_nonneg fun position _ => share_nonneg rr.nodes position
      have paid :
          result =
            q.credited.cw.toInt -
              (scanAll config now rr.nodes).tw.toInt := by
        simpa [scanAll_nodes, here, visited, passed] using payment
      rw [paid, scanAll_tw_toInt shape fits,
        credited_toInt shape balanced fits here passed]
      constructor <;> linarith

/-- In a run of weights that fit nothing overflows. -/
theorem neverOverflows_new
    (weights : Weights) (config : Option HealthCheckConfig)
    (fits : weights.count ≤ 1 ∨ FitsI16 weights)
    (calls : List (Call × UInt32)) :
    NeverOverflows (new weights config) calls := by
  intro before now after _ result member
  by_cases two : 2 ≤ weights.count
  · have shape := shape_new weights config two
    have balanced := balanced_new weights config two
    have fit : FitsI16 weights := by
      rcases fits with few | fit
      · omega
      · exact fit
    exact nextResults_inI16 (shape.performAll two before)
      (balanced.performAll shape two fit before) two fit result member
  · have total :
        ((new weights config).performAll before).total ≤ 1 := by
      rw [total_performAll, UInt8.le_iff_toNat_le]
      change weights.count % 256 ≤ 1
      omega
    rw [nextResults, if_pos total] at member
    cases member

end Fits

/-! ## Weights that do not -/

section Exceeds

variable {config : Option HealthCheckConfig} {now : UInt32}

/-- A fresh node earns its weight. -/
theorem earned_freshNode (position : ℕ) (weight : UInt8) :
    earned config now (freshNode position weight) = weight.toNat := by
  have early : ¬now < 0 := UInt32.not_lt_zero
  cases config with
  | none => rfl
  | some cfg =>
      by_cases failed : cfg.maxFails ≤ 0 <;>
        simp [earned, healthGate, freshNode, Node.recovered, failed]

theorem sum_earned_new
    (weights : Weights) (config : Option HealthCheckConfig) (now : UInt32)
    (two : 2 ≤ weights.count) :
    ((new weights config).nodes.map (earned config now)).sum =
      weights.sum := by
  have several : ¬weights.count ≤ 1 := by omega
  have each :
      (weights.values.mapIdx freshNode).map (earned config now) =
        weights.values.map fun weight => (weight.toNat : ℤ) := by
    apply List.ext_getElem
    · simp
    · intro position _ _
      simp [earned_freshNode]
  simp only [new, several, if_false, each, Weights.sum]
  induction weights.values with
  | nil => rfl
  | cons weight values inductionHypothesis =>
      simp [inductionHypothesis]

theorem sum_le_count (weights : Weights) :
    weights.sum ≤ weights.count * 255 := by
  have each : ∀ value ∈ weights.values.map UInt8.toNat, value ≤ 255 := by
    intro value member
    rcases List.mem_map.1 member with ⟨weight, _, rfl⟩
    exact Nat.le_of_lt_succ weight.toNat_lt
  simpa [Weights.sum, Weights.count] using List.sum_le_card_nsmul _ _ each

/-- Weights that sum up to more than an `i16` holds overflow at once. -/
theorem not_neverOverflows_new
    (weights : Weights) (config : Option HealthCheckConfig) (now : UInt32)
    (exceeds : 32767 < weights.sum) :
    ¬NeverOverflows (new weights config) [(.next, now)] := by
  intro never
  have two : 2 ≤ weights.count := by
    have bounded := sum_le_count weights
    omega
  have shape := shape_new weights config two
  have inside := never [] now [] rfl
  have total :
      (scanAll config now (new weights config).nodes).tw.toInt =
        weights.sum := by
    rw [← sum_earned_new weights config now two]
    have started := @scanAll_tw_of_inI16 config now []
      (new weights config).nodes rfl
    apply started
    intro result member
    apply inside
    rw [performAll, List.foldl_nil, nextResults,
      if_neg (shape.many two), shape.config_eq]
    exact List.mem_append_left _ member
  have fits :=
    inI16_toInt (scanAll config now (new weights config).nodes).tw
  rw [total] at fits
  have upper := fits.2
  omega

end Exceeds

/-! ## The exact limit -/

/-- Under a bound on the number and the size of the weights no run of any
list overflows exactly when the product fits an `i16`; and every list whose
sum does not fit overflows at its first selection. -/
theorem never_overflows_iff
    (count : ℕ) (few : count ≤ 255) (bound : UInt8) :
    ((∀ weights : Weights, weights.count = count →
        (∀ weight ∈ weights.values, weight ≤ bound) →
          ∀ config calls, NeverOverflows (new weights config) calls) ↔
      count * bound.toNat ≤ 32767) ∧
      ∀ weights : Weights, 32767 < weights.sum →
        ∀ config now,
          ¬NeverOverflows (new weights config) [(.next, now)] := by
  refine ⟨⟨?_, ?_⟩, ?_⟩
  · intro never
    by_contra exceeds
    let equal : Weights := ⟨List.replicate count bound, by simpa using few⟩
    have sum : equal.sum = count * bound.toNat := by
      simp [equal, Weights.sum]
    apply not_neverOverflows_new equal none 0
    · rw [sum]
      omega
    · apply never
      · simp [equal, Weights.count]
      · intro weight member
        rw [List.eq_of_mem_replicate member]
        exact UInt8.le_refl _
  · rintro fits weights rfl below config calls
    apply neverOverflows_new
    right
    have cap : weights.cap ≤ max bound.toNat 1 :=
      weights.cap_le fun weight member =>
        UInt8.le_iff_toNat_le.1 (below weight member)
    have product := Nat.mul_le_mul_left weights.count cap
    rcases Nat.le_total bound.toNat 1 with small | large
    · rw [Nat.max_eq_right small] at product
      exact product.trans (by omega)
    · rw [Nat.max_eq_left large] at product
      exact product.trans fits
  · intro weights exceeds config now
    exact not_neverOverflows_new weights config now exceeds

theorem never_overflows_iff_128 :
    ((∀ weights : Weights, weights.count = 128 →
        (∀ weight ∈ weights.values, weight ≤ 255) →
          ∀ config calls, NeverOverflows (new weights config) calls) ↔
      128 * (255 : UInt8).toNat ≤ 32767) ∧
      ∀ weights : Weights, 32767 < weights.sum →
        ∀ config now,
          ¬NeverOverflows (new weights config) [(.next, now)] :=
  never_overflows_iff 128 (by decide) 255

/-- A hundred and twenty nine peers of the largest weight. -/
theorem never_overflows_iff_fails :
    ¬∀ (weights : Weights) (config : Option HealthCheckConfig)
      (calls : List (Call × UInt32)),
        NeverOverflows (new weights config) calls := by
  intro never
  exact not_neverOverflows_new ⟨List.replicate 129 255, by simp⟩ none 0
    (by simp [Weights.sum]) (never _ _ _)

end ByteHub.Lb.RoundRobin
