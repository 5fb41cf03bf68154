import ByteHub.Lb.RoundRobinFairness
import ByteHub.Lb.RoundRobinHealth
import ByteHub.Lb.RoundRobinStarvation

/-!
# What a run of calls hands out

The answers of the selections in a run, with reports between them.  A peer
that no failure is reported for is among them again and again; without a
health configuration reports change nothing and each peer has its exact
share.
-/

namespace ByteHub.Lb.RoundRobin

/-- The answers of the selections in a run. -/
def answers (rr : RoundRobin) : List (Call × UInt32) → List (Option Token)
  | [] => []
  | (call, now) :: calls =>
      (if call = .next then [(rr.next now).1] else []) ++
        answers (rr.perform call now) calls

section Answers

variable {rr : RoundRobin}

theorem answers_append
    (rr : RoundRobin) (before after : List (Call × UInt32)) :
    answers rr (before ++ after) =
      answers rr before ++ answers (rr.performAll before) after := by
  induction before generalizing rr with
  | nil => rfl
  | cons call before inductionHypothesis =>
      rw [List.cons_append, answers, answers, inductionHypothesis,
        List.append_assoc]
      rfl

theorem length_answers (rr : RoundRobin) (calls : List (Call × UInt32)) :
    (answers rr calls).length = selections calls := by
  induction calls generalizing rr with
  | nil => rfl
  | cons call calls inductionHypothesis =>
      rw [answers, List.length_append, inductionHypothesis,
        selections_cons, Nat.add_comm]
      congr 1
      split <;> rfl

/-- A selection in a run has its answer among those of the run. -/
theorem answer_mem_answers
    (before after : List (Call × UInt32)) (now : UInt32) :
    ((rr.performAll before).next now).1 ∈
      answers rr (before ++ (Call.next, now) :: after) := by
  rw [answers_append]
  apply List.mem_append_right
  rw [answers, if_pos rfl]
  exact List.mem_append_left _ (List.mem_singleton_self _)

/-- Where the answers of a run are cut, the run can be cut. -/
theorem exists_cut_of_answers
    {calls : List (Call × UInt32)} {first second : List (Option Token)}
    (split : answers rr calls = first ++ second) :
    ∃ before after, calls = before ++ after ∧
      answers rr before = first ∧
        answers (rr.performAll before) after = second := by
  induction calls generalizing rr first with
  | nil =>
      obtain ⟨rfl, rfl⟩ := List.append_eq_nil_iff.1 split.symm
      exact ⟨[], [], rfl, rfl, rfl⟩
  | cons call calls inductionHypothesis =>
      rcases call with ⟨call, now⟩
      rw [answers] at split
      by_cases selects : call = .next
      · rw [if_pos selects, List.singleton_append] at split
        cases first with
        | nil =>
            refine ⟨[], (call, now) :: calls, rfl, rfl, ?_⟩
            change answers rr ((call, now) :: calls) = second
            rw [answers, if_pos selects, List.singleton_append, split,
              List.nil_append]
        | cons answer first =>
            rcases List.cons.inj split with ⟨same, rest⟩
            rcases inductionHypothesis rest with
              ⟨before, after, whole, left, right⟩
            refine ⟨(call, now) :: before, after, ?_, ?_, right⟩
            · rw [whole, List.cons_append]
            · rw [answers, if_pos selects, left, same,
                List.singleton_append]
      · rw [if_neg selects, List.nil_append] at split
        rcases inductionHypothesis split with
          ⟨before, after, whole, left, right⟩
        refine ⟨(call, now) :: before, after, ?_, ?_, right⟩
        · rw [whole, List.cons_append]
        · rw [answers, if_neg selects, List.nil_append, left]

end Answers

/-! ## A peer without failures -/

/-- No failure of the peer is reported in the run. -/
def Unblamed (position : ℕ) (calls : List (Call × UInt32)) : Prop :=
  ∀ call ∈ calls, call.1 ≠ .onFailure (Token.ofPosition position)

/-- The peer has no failure on record and no deadline. -/
def Spotless (rr : RoundRobin) (position : ℕ) : Prop :=
  ∀ p, rr.nodes[position]? = some p → p.fails = 0 ∧ p.checked = 0

section Spotless

variable {weights : Weights} {config : Option HealthCheckConfig}
variable {rr : RoundRobin} {position : ℕ}

theorem spotless_new
    (weights : Weights) (config : Option HealthCheckConfig)
    (position : ℕ) : Spotless (new weights config) position := by
  intro p here
  exact (rested_new weights config p (List.mem_of_getElem? here)).2

/-- A visit keeps counters that are zero. -/
theorem visited_spotless
    {p : Node} (none : p.fails = 0 ∧ p.checked = 0) (now : UInt32) :
    (visited config now p).fails = 0 ∧
      (visited config now p).checked = 0 := by
  unfold visited
  cases gate : healthGate config now p with
  | none => exact none
  | some q =>
      rcases healthGate_eq_some gate with rfl | rfl
      · exact none
      · exact ⟨rfl, rfl⟩

/-- A call that reports no failure of the peer adds none. -/
theorem Spotless.perform
    (shape : Shape weights config rr) (two : 2 ≤ weights.count)
    (inside : position < weights.count)
    (spotless : Spotless rr position) {call : Call} (now : UInt32)
    (unblamed : call ≠ .onFailure (Token.ofPosition position)) :
    Spotless (rr.perform call now) position := by
  rcases shape.exists_node inside with ⟨p, here⟩
  have none := spotless p here
  intro q there
  cases call with
  | next =>
      rcases next_node (shape.many two) now position with
        ⟨settle, settles, after⟩
      change (rr.next now).2.nodes[position]? = some q at there
      rw [after, here, Option.map_some, Option.some.injEq] at there
      have kept := @visited_spotless rr.config p none now
      rcases settles with rfl | ⟨tw, rfl⟩
      · rw [← there]
        exact kept
      · rw [← there]
        exact kept
  | onSuccess token =>
      change (rr.onSuccess token).nodes[position]? = some q at there
      unfold onSuccess at there
      split at there
      · exact spotless q there
      · rw [updateNode_node shape _ _ inside, here, Option.map_some,
          Option.some.injEq] at there
        rw [← there]
        split
        · exact ⟨rfl, rfl⟩
        · exact none
  | onFailure token =>
      change (rr.onFailure now token).nodes[position]? = some q at there
      unfold onFailure at there
      split at there
      · exact spotless q there
      · rw [updateNode_node shape _ _ inside, here, Option.map_some,
          Option.some.injEq] at there
        rw [← there, if_neg]
        · exact none
        · rintro rfl
          exact unblamed rfl

theorem Spotless.performAll
    (shape : Shape weights config rr) (two : 2 ≤ weights.count)
    (inside : position < weights.count)
    (spotless : Spotless rr position) {calls : List (Call × UInt32)}
    (unblamed : Unblamed position calls) :
    Spotless (rr.performAll calls) position := by
  induction calls using List.reverseRecOn with
  | nil => exact spotless
  | append_singleton calls call inductionHypothesis =>
      rw [performAll_concat]
      have earlier : Unblamed position calls := by
        intro other member
        exact unblamed other (List.mem_append_left _ member)
      exact (inductionHypothesis earlier).perform
        (shape.performAll two calls) two inside call.2
        (unblamed call (List.mem_append_right _ List.mem_cons_self))

/-- A peer without failures passes the gate. -/
theorem Spotless.eligible
    (shape : Shape weights config rr)
    (inside : position < weights.count)
    (spotless : Spotless rr position) (now : UInt32) :
    position ∈ eligible config now rr.nodes := by
  rcases shape.exists_node inside with ⟨p, here⟩
  rcases spotless p here with ⟨_, open_⟩
  rw [mem_eligible]
  cases config with
  | none => exact ⟨p, p, here, rfl⟩
  | some cfg =>
      by_cases failed : cfg.maxFails ≤ p.fails
      · refine ⟨p, p.recovered, here, ?_⟩
        rw [healthGate, if_pos failed, if_neg]
        rw [open_]
        exact Nat.not_lt_zero _
      · refine ⟨p, p, here, ?_⟩
        rw [healthGate, if_neg failed]

/-- A peer of positive weight that no failure is reported for is among the
answers of every run with enough selections. -/
theorem mem_answers_of_unblamed
    (shape : Shape weights config rr) (balanced : Balanced weights rr)
    (two : 2 ≤ weights.count) (fits : FitsI16 weights)
    (earns : ∀ p ∈ rr.nodes, EarnsWeight p)
    (inside : position < weights.count)
    (positive : 1 ≤ weights.at position)
    (spotless : Spotless rr position) {calls : List (Call × UInt32)}
    (unblamed : Unblamed position calls)
    (long : 2 * weights.cap * (weights.count - 1) <
      (answers rr calls).length) :
    some (Token.ofPosition position) ∈ answers rr calls := by
  by_contra never
  have skipped : PassedOver rr position calls := by
    intro before now after split
    have shaped := shape.performAll two before
    have quiet : Unblamed position before := by
      intro call member
      apply unblamed call
      rw [split]
      exact List.mem_append_left _ member
    refine ⟨?_, ?_⟩
    · rw [shape.config_eq]
      exact (spotless.performAll shape two inside quiet).eligible shaped
        inside now
    · intro answered
      apply never
      rw [split, ← answered]
      exact answer_mem_answers before after now
  have short := selections_mul_le shape balanced two fits inside skipped
    (weighs_one shape two earns inside positive calls)
  rw [Nat.mul_one, ← length_answers rr] at short
  omega

/-- The other peers are answered at most so often for each time that a peer
of positive weight is which no failure is reported for. -/
theorem length_answers_le_of_unblamed
    (shape : Shape weights config rr) (balanced : Balanced weights rr)
    (two : 2 ≤ weights.count) (fits : FitsI16 weights)
    (earns : ∀ p ∈ rr.nodes, EarnsWeight p)
    (inside : position < weights.count)
    (positive : 1 ≤ weights.at position)
    (spotless : Spotless rr position) {calls : List (Call × UInt32)}
    (unblamed : Unblamed position calls) :
    (answers rr calls).length ≤
      2 * weights.cap * (weights.count - 1) *
          ((answers rr calls).count (some (Token.ofPosition position)) +
            1) +
        (answers rr calls).count (some (Token.ofPosition position)) := by
  -- The answers are taken away from the front, as many as must have the
  -- peer among them.
  induction size : (answers rr calls).length using Nat.strong_induction_on
    generalizing rr calls with
  | h length inductionHypothesis =>
      let bound := 2 * weights.cap * (weights.count - 1)
      by_cases short : length ≤ bound
      · calc
          length ≤ bound * 1 := by rw [Nat.mul_one]; exact short
          _ ≤ bound * ((answers rr calls).count _ + 1) :=
            Nat.mul_le_mul_left _ (Nat.le_add_left 1 _)
          _ ≤ _ := Nat.le_add_right _ _
      · rcases exists_cut_of_answers
            (List.take_append_drop (bound + 1) (answers rr calls)).symm with
          ⟨before, after, whole, front, rest⟩
        have quietBefore : Unblamed position before := by
          intro call member
          apply unblamed call
          rw [whole]
          exact List.mem_append_left _ member
        have quietAfter : Unblamed position after := by
          intro call member
          apply unblamed call
          rw [whole]
          exact List.mem_append_right _ member
        have frontLength : (answers rr before).length = bound + 1 := by
          rw [front, List.length_take, size]
          omega
        have restLength :
            (answers (rr.performAll before) after).length =
              length - (bound + 1) := by
          rw [rest, List.length_drop, size]
        have served := List.one_le_count_iff.2
          (mem_answers_of_unblamed shape balanced two fits earns inside
            positive spotless quietBefore
            (by rw [frontLength]; exact Nat.lt_succ_self bound))
        have shorter := inductionHypothesis (length - (bound + 1))
          (by omega) (shape.performAll two before)
          (balanced.performAll shape two fits before)
          ((keeps_earnsWeight config).performAll shape two earns before)
          (spotless.performAll shape two inside quietBefore) quietAfter
          restLength
        rw [whole, answers_append, List.count_append]
        generalize (answers rr before).count _ = first at served ⊢
        generalize (answers (rr.performAll before) after).count _ = second
          at shorter ⊢
        have grown : bound * (second + 1) + bound ≤
            bound * (first + second + 1) := by
          rw [← Nat.mul_succ]
          exact Nat.mul_le_mul_left bound (by omega)
        change length - (bound + 1) ≤ bound * (second + 1) + second
          at shorter
        change length ≤ bound * (first + second + 1) + (first + second)
        omega

end Spotless

/-! ## Exact shares -/

section Unchecked

variable {weights : Weights} {rr : RoundRobin}

/-- Without a health configuration the clock is not looked at. -/
theorem next_unchecked
    (unchecked : rr.config = none) (now other : UInt32) :
    rr.next now = rr.next other := by
  have same : Scan.step none now = Scan.step none other := rfl
  simp only [next, unchecked, scanAll, same]

/-- Reports change nothing, and selections go on. -/
theorem answers_unchecked
    (two : 2 ≤ weights.count) (first : ℕ)
    (calls : List (Call × UInt32)) :
    answers (afterNexts (new weights none) (fun _ => 0) first) calls =
        (List.range (selections calls)).map (fun offset =>
          served (new weights none) (fun _ => 0) (first + offset)) ∧
      (afterNexts (new weights none) (fun _ => 0) first).performAll
          calls =
        afterNexts (new weights none) (fun _ => 0)
          (first + selections calls) := by
  induction calls generalizing first with
  | nil => exact ⟨rfl, rfl⟩
  | cons call calls inductionHypothesis =>
      rcases call with ⟨call, now⟩
      have unchecked := (shape_afterNexts (shape_new weights none two) two
        (fun _ => 0) first).config_eq
      cases call with
      | next =>
          have moved :
              (afterNexts (new weights none) (fun _ => 0) first).perform
                  .next now =
                afterNexts (new weights none) (fun _ => 0)
                  (first + 1) := by
            change (RoundRobin.next _ now).2 = _
            rw [next_unchecked unchecked now 0]
            rfl
          rcases inductionHypothesis (first + 1) with ⟨later, final⟩
          constructor
          · rw [answers, if_pos rfl, moved, later,
              next_unchecked unchecked now 0]
            rw [selections_cons, if_pos rfl, List.range_succ_eq_map,
              List.map_cons, List.map_map, List.singleton_append]
            congr 1
            apply List.map_congr_left
            intro offset _
            rw [Function.comp_apply, Nat.add_right_comm, Nat.add_assoc]
          · change (RoundRobin.perform _ .next now).performAll calls = _
            rw [moved, final, selections_cons, if_pos rfl,
              Nat.add_right_comm, Nat.add_assoc]
      | onSuccess token =>
          have kept :
              (afterNexts (new weights none) (fun _ => 0) first).perform
                  (.onSuccess token) now =
                afterNexts (new weights none) (fun _ => 0) first := by
            change RoundRobin.onSuccess _ token = _
            rw [onSuccess, unchecked]
          constructor
          · rw [answers, if_neg (by simp), kept]
            exact (inductionHypothesis first).1
          · change (RoundRobin.perform _ _ now).performAll calls = _
            rw [kept]
            exact (inductionHypothesis first).2
      | onFailure token =>
          have kept :
              (afterNexts (new weights none) (fun _ => 0) first).perform
                  (.onFailure token) now =
                afterNexts (new weights none) (fun _ => 0) first := by
            change RoundRobin.onFailure _ now token = _
            rw [onFailure, unchecked]
          constructor
          · rw [answers, if_neg (by simp), kept]
            exact (inductionHypothesis first).1
          · change (RoundRobin.perform _ _ now).performAll calls = _
            rw [kept]
            exact (inductionHypothesis first).2

/-- How often a token is among the answers of some calls of `next`. -/
theorem count_served
    (clock : ℕ → UInt32) (first length : ℕ) (token : Token) :
    ((List.range length).map fun offset =>
        served rr clock (first + offset)).count (some token) =
      servedCount rr clock first length token := by
  rw [servedCount]
  induction length with
  | zero => rfl
  | succ length inductionHypothesis =>
      rw [List.range_succ, List.map_append, List.count_append,
        inductionHypothesis, Finset.range_add_one, Finset.filter_insert]
      simp only [List.map_cons, List.map_nil, List.count_singleton,
        beq_iff_eq]
      split
      · rw [Finset.card_insert_of_notMem (by simp)]
      · rfl

/-- After any run, as many selections as the weights sum up to give each
peer its share, whatever is reported between them. -/
theorem count_answers
    (two : 2 ≤ weights.count) (positive : 0 < weights.sum)
    (small : weights.count * weights.sum ≤ 32767)
    (earlier calls : List (Call × UInt32))
    (round : (answers ((new weights none).performAll earlier)
      calls).length = weights.sum)
    {position : ℕ} (inside : position < weights.count) :
    (answers ((new weights none).performAll earlier) calls).count
        (some (Token.ofPosition position)) =
      weights.at position := by
  have fits : FitsI16 weights :=
    (Nat.mul_le_mul_left _ (cap_le_sum weights positive)).trans small
  have total :
      ∑ position ∈ Finset.range weights.count,
        (weights.at position : ℤ) = weights.sum := by
    rw [← Nat.cast_sum, sum_at_eq_sum]
  have before := (answers_unchecked two 0 earlier).2
  rw [afterNexts, Nat.zero_add] at before
  rw [before] at round ⊢
  rw [length_answers] at round
  rw [(answers_unchecked two _ calls).1, round, count_served,
    servedCount_eq_turns two fits _ _ _ inside]
  exact_mod_cast
    (creditRun two fits fun _ => 0).turns_window total positive
      (fun _ _ => Int.natCast_nonneg _) (Finset.mem_range.2 inside) _

/-- A whole number of rounds gives each peer its share so many times. -/
theorem count_answers_rounds
    (two : 2 ≤ weights.count) (positive : 0 < weights.sum)
    (small : weights.count * weights.sum ≤ 32767)
    {rounds : ℕ} {calls : List (Call × UInt32)}
    (whole : (answers (new weights none) calls).length =
      rounds * weights.sum)
    {position : ℕ} (inside : position < weights.count) :
    (answers (new weights none) calls).count
        (some (Token.ofPosition position)) =
      rounds * weights.at position := by
  induction rounds generalizing calls with
  | zero =>
      rw [Nat.zero_mul, List.length_eq_zero_iff] at whole
      rw [whole, Nat.zero_mul]
      rfl
  | succ rounds inductionHypothesis =>
      rcases exists_cut_of_answers
          (List.take_append_drop (rounds * weights.sum)
            (answers (new weights none) calls)).symm with
        ⟨before, after, split, front, last⟩
      have earlier : (answers (new weights none) before).length =
          rounds * weights.sum := by
        rw [front, List.length_take, whole, Nat.succ_mul]
        exact Nat.min_eq_left (Nat.le_add_right _ _)
      have round : (answers ((new weights none).performAll before)
          after).length = weights.sum := by
        rw [last, List.length_drop, whole, Nat.succ_mul]
        exact Nat.add_sub_cancel_left _ _
      rw [split, answers_append, List.count_append,
        inductionHypothesis earlier,
        count_answers two positive small before after round inside,
        Nat.succ_mul]

end Unchecked

end ByteHub.Lb.RoundRobin
