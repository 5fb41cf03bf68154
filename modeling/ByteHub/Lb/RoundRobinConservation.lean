import ByteHub.Lb.RoundRobinAvailability

/-!
# Conservation of credit

A selection hands out effective weights to the peers outside their windows
and takes the same total back from the one it names.  Without overflow the
credits of all peers, excluded ones included, sum up to zero in every state
of every run.
-/

namespace ByteHub.Lb.RoundRobin

/-- The sum of all credits. -/
def totalCredit (nodes : List Node) : ℤ :=
  (nodes.map fun p => p.cw.toInt).sum

section Sums

variable {config : Option HealthCheckConfig} {now : UInt32}
variable {nodes : List Node} {p : Node}

@[simp]
theorem totalCredit_nil : totalCredit [] = 0 :=
  rfl

@[simp]
theorem totalCredit_cons (p : Node) (nodes : List Node) :
    totalCredit (p :: nodes) = p.cw.toInt + totalCredit nodes := by
  rw [totalCredit, List.map_cons, List.sum_cons]
  rfl

/-- Walking over the nodes adds what they earn. -/
theorem totalCredit_visited
    (sound : ∀ p ∈ nodes, ∀ q, healthGate config now p = some q →
      InI16 (q.cw.toInt + q.share.toInt)) :
    totalCredit (nodes.map (visited config now)) =
      totalCredit nodes + (nodes.map (earned config now)).sum := by
  induction nodes with
  | nil => rfl
  | cons p rest inductionHypothesis =>
      have later := inductionHypothesis fun r member =>
        sound r (List.mem_cons_of_mem _ member)
      have here :
          (visited config now p).cw.toInt =
            p.cw.toInt + earned config now p := by
        cases gate : healthGate config now p with
        | none => simp [visited, earned, gate]
        | some q =>
            have credited := credited_toInt_of_inI16
              (sound p List.mem_cons_self q gate) gate
            simp [visited, earned, gate, credited, healthGate_ew gate]
      rw [List.map_cons, totalCredit_cons, totalCredit_cons,
        List.map_cons, List.sum_cons, later, here]
      ring

/-- A change of one node shows in the sum by its difference. -/
theorem totalCredit_modify
    {position : ℕ} (here : nodes[position]? = some p)
    (update : Node → Node) :
    totalCredit (nodes.modify position update) =
      totalCredit nodes + ((update p).cw.toInt - p.cw.toInt) := by
  induction nodes generalizing position with
  | nil => cases here
  | cons first rest inductionHypothesis =>
      cases position with
      | zero =>
          cases here
          rw [List.modify_zero_cons, totalCredit_cons, totalCredit_cons]
          ring
      | succ position =>
          have later := inductionHypothesis here
          rw [List.modify_succ_cons, totalCredit_cons, totalCredit_cons,
            later]
          ring

end Sums

section Steps

variable {weights : Weights} {config : Option HealthCheckConfig}
variable {rr : RoundRobin} {now : UInt32}

/-- The best node is determined. -/
theorem best_eq_of_isBest
    {nodes : List Node} {position : ℕ} {cw : Int16}
    (best : IsBest config now nodes (some (position, cw))) :
    (scanAll config now nodes).best = some (position, cw) := by
  have held := scanAll_best config now nodes
  rcases best with ⟨p, q, here, passed, cwEq, maximal⟩
  cases found : (scanAll config now nodes).best with
  | none =>
      rw [found] at held
      have skipped := held p (List.mem_of_getElem? here)
      rw [passed] at skipped
      cases skipped
  | some pair =>
      rcases pair with ⟨position', cw'⟩
      rw [found] at held
      rcases held with ⟨p', q', here', passed', cwEq', maximal'⟩
      have below := maximal position' p' q' here' passed'
      have above := maximal' position p q here passed
      rw [← cwEq'] at below
      rw [← cwEq] at above
      have same : cw' = cw := Int16.le_antisymm below.1 above.1
      rcases Nat.lt_trichotomy position' position with less | equal | more
      · exact (Int16.lt_irrefl (same ▸ below.2 less)).elim
      · rw [equal, same]
      · exact (Int16.lt_irrefl (same ▸ above.2 more)).elim

theorem getElem?_visited
    {nodes : List Node} {position : ℕ} {p q : Node}
    (here : nodes[position]? = some p)
    (passed : healthGate config now p = some q) :
    (nodes.map (visited config now))[position]? = some q.credited := by
  rw [List.getElem?_map, here]
  simp [visited, passed]

/-- The payment of the selected node is one of the results. -/
theorem Shape.payment_mem
    (shape : Shape weights config rr) (two : 2 ≤ weights.count)
    {position : ℕ} {p q : Node} (here : rr.nodes[position]? = some p)
    (passed : healthGate config now p = some q)
    (best :
      IsBest config now rr.nodes (some (position, q.credited.cw))) :
    q.credited.cw.toInt - (scanAll config now rr.nodes).tw.toInt ∈
      rr.nextResults now := by
  rw [nextResults, if_neg (shape.many two), shape.config_eq,
    List.mem_append]
  right
  rw [best_eq_of_isBest best, scanAll_nodes]
  simp [getElem?_visited here passed]

theorem Shape.scan_sound
    (shape : Shape weights config rr) (two : 2 ≤ weights.count)
    (sound : ∀ result ∈ rr.nextResults now, InI16 result)
    {result : ℤ}
    (member : result ∈ scanResults config now Scan.start rr.nodes) :
    InI16 result := by
  apply sound
  rw [nextResults, if_neg (shape.many two), shape.config_eq,
    List.mem_append]
  exact .inl member

/-- What a selection hands out it takes back. -/
theorem Shape.totalCredit_next
    (shape : Shape weights config rr) (two : 2 ≤ weights.count)
    (sound : ∀ result ∈ rr.nextResults now, InI16 result) :
    totalCredit (rr.next now).2.nodes = totalCredit rr.nodes := by
  rcases next_cases now rr (shape.many two) with
    ⟨position, p, q, here, passed, best, _, left⟩ | ⟨_, _, same⟩
  · rw [shape.config_eq] at passed best left
    have handed :
        totalCredit (rr.nodes.map (visited config now)) =
          totalCredit rr.nodes +
            (rr.nodes.map (earned config now)).sum :=
      totalCredit_visited fun r member s gate =>
        shape.scan_sound two sound
          (credit_mem_scanResults Scan.start member gate)
    have total :
        (scanAll config now rr.nodes).tw.toInt =
          (rr.nodes.map (earned config now)).sum := by
      have exactly := @scanAll_tw_of_inI16 config now [] rr.nodes rfl
      exact exactly fun result member => shape.scan_sound two sound member
    have paid :
        (q.credited.settled (scanAll config now rr.nodes).tw).cw.toInt =
          q.credited.cw.toInt -
            (scanAll config now rr.nodes).tw.toInt := by
      rw [Node.settled, Int16.toInt_sub]
      exact bmod_of_inI16
        (sound _ (shape.payment_mem two here passed best))
    rw [left, totalCredit_modify (getElem?_visited here passed), handed,
      paid, total]
    ring
  · rw [same]

theorem totalCredit_eq_sum_creditAt (nodes : List Node) :
    totalCredit nodes =
      ∑ position ∈ Finset.range nodes.length, creditAt nodes position :=
  sum_map_eq_sum_valueAt _ nodes

/-- Reports leave the credits alone. -/
theorem Shape.totalCredit_perform
    (shape : Shape weights config rr) (two : 2 ≤ weights.count)
    (call : Call)
    (sound : call = .next →
      ∀ result ∈ rr.nextResults now, InI16 result) :
    totalCredit (rr.perform call now).nodes = totalCredit rr.nodes := by
  have after := shape.perform two call now
  cases call with
  | next => exact shape.totalCredit_next two (sound rfl)
  | onSuccess token =>
      have credits : creditAt (rr.perform (.onSuccess token) now).nodes =
          creditAt rr.nodes :=
        creditAt_onSuccess shape token
      rw [totalCredit_eq_sum_creditAt, totalCredit_eq_sum_creditAt,
        after.length_eq, shape.length_eq, credits]
  | onFailure token =>
      have credits : creditAt (rr.perform (.onFailure token) now).nodes =
          creditAt rr.nodes :=
        creditAt_onFailure shape now token
      rw [totalCredit_eq_sum_creditAt, totalCredit_eq_sum_creditAt,
        after.length_eq, shape.length_eq, credits]

end Steps

/-! ## Runs -/

theorem totalCredit_new
    (weights : Weights) (config : Option HealthCheckConfig)
    (two : 2 ≤ weights.count) :
    totalCredit (new weights config).nodes = 0 := by
  rw [totalCredit_eq_sum_creditAt, creditAt_new weights config two]
  exact Finset.sum_const_zero

theorem NeverOverflows.front
    {rr : RoundRobin} {calls : List (Call × UInt32)}
    {call : Call × UInt32} (never : NeverOverflows rr (calls ++ [call])) :
    NeverOverflows rr calls := by
  intro before now after split
  apply never before now (after ++ [call])
  rw [split, List.append_assoc, List.cons_append]

/-- Whatever calls are made at whatever times, the credits of all peers sum
up to zero, unless an operation overflows. -/
theorem totalCredit_eq_zero
    {weights : Weights} (two : 2 ≤ weights.count)
    (config : Option HealthCheckConfig) (calls : List (Call × UInt32))
    (never : NeverOverflows (new weights config) calls) :
    (((new weights config).performAll calls).nodes.map
      fun p => p.cw.toInt).sum = 0 := by
  change totalCredit ((new weights config).performAll calls).nodes = 0
  induction calls using List.reverseRecOn with
  | nil => exact totalCredit_new weights config two
  | append_singleton calls call inductionHypothesis =>
      rcases call with ⟨call, now⟩
      have shape :=
        (shape_new weights config two).performAll two calls
      rw [performAll_concat, shape.totalCredit_perform two]
      · exact inductionHypothesis never.front
      · rintro rfl
        exact never calls now [] rfl

/-- Two peers, of which one has failed and is excluded for a while. -/
theorem totalCredit_eq_zero_pair :
    (((new .pair (some ⟨1, 10, none⟩)).performAll
      [(.next, 0), (.onFailure ⟨0⟩, 0), (.next, 5)]).nodes.map
        fun p => p.cw.toInt).sum = 0 := by
  have two : 2 ≤ Weights.pair.count := Nat.le_refl 2
  apply totalCredit_eq_zero two
  apply neverOverflows_new
  decide

end ByteHub.Lb.RoundRobin
