import ByteHub.Lb.RoundRobinHealth

/-!
# Selecting and failing in turn

What a caller sees that reports a failure after every selection.  A peer of
positive weight that is not selected earns credit in every round in which
it passes the health gate; credits are bounded, so its turn comes.  A peer of
weight zero earns nothing, and its turn need not come.
-/

namespace ByteHub.Lb.RoundRobin

open Finset
open ByteHub.Library.SmoothCredit

/-- The balancer before selection `k`, with a failure report after each. -/
def beforeSelection (rr : RoundRobin) (clock : ℕ → UInt32) :
    ℕ → RoundRobin
  | 0 => rr
  | k + 1 =>
      match (beforeSelection rr clock k).next (clock (2 * k)) with
      | (none, after) => after
      | (some token, after) => after.onFailure (clock (2 * k + 1)) token

/-- The answer of selection `k`. -/
def selected (rr : RoundRobin) (clock : ℕ → UInt32) (k : ℕ) :
    Option Token :=
  ((beforeSelection rr clock k).next (clock (2 * k))).1

section Retry

variable {weights : Weights} {config : Option HealthCheckConfig}
variable {rr : RoundRobin} {clock : ℕ → UInt32}

/-! ## One selection -/

theorem nearest_mem
    {nodes : List Node} (some_ : nodes ≠ []) :
    ∃ p ∈ nodes, nearest nodes = some (p.checked, p.token) := by
  induction nodes using List.reverseRecOn with
  | nil => exact (some_ rfl).elim
  | append_singleton nodes p inductionHypothesis =>
      have unfolded :
          nearest (nodes ++ [p]) = nearer (nearest nodes) p := by
        simp [nearest, List.foldl_append]
      rw [unfolded]
      by_cases empty : nodes = []
      · subst empty
        exact ⟨p, by simp, rfl⟩
      · rcases inductionHypothesis empty with ⟨q, member, found⟩
        rw [found, nearer]
        split
        · exact ⟨p, by simp, rfl⟩
        · exact ⟨q, by simp [member], rfl⟩

/-- A selection always names one of the peers. -/
theorem next_token
    (shape : Shape weights config rr) (two : 2 ≤ weights.count)
    (now : UInt32) :
    ∃ position < weights.count,
      (rr.next now).1 = some (Token.ofPosition position) := by
  rcases next_cases now rr (shape.many two) with
    ⟨position, p, _, here, _, _, token, _⟩ | ⟨nobody, token, _⟩
  · exact ⟨position, shape.inRange here,
      by rw [token, shape.token_eq here]⟩
  · rcases shape.exists_node (show 0 < weights.count by omega) with
      ⟨first, there⟩
    have nonempty : rr.nodes ≠ [] := by
      rintro empty
      rw [empty] at there
      cases there
    cases configured : rr.config with
    | none =>
        have skipped := nobody first (List.mem_of_getElem? there)
        rw [configured] at skipped
        cases skipped
    | some cfg =>
        rcases nearest_mem nonempty with ⟨p, member, found⟩
        rcases List.mem_iff_getElem?.1 member with ⟨position, here⟩
        refine ⟨position, shape.inRange here, ?_⟩
        rw [token, configured, found, ← shape.token_eq here]
        rfl

/-- A node that is not selected is only walked over. -/
theorem next_waiting
    (shape : Shape weights config rr) (two : 2 ≤ weights.count)
    {now : UInt32} {position : ℕ} {p : Node}
    (here : rr.nodes[position]? = some p)
    (waits : (rr.next now).1 ≠ some (Token.ofPosition position)) :
    (rr.next now).2.nodes[position]? = some (visited config now p) := by
  rcases next_cases now rr (shape.many two) with
    ⟨chosen, q, _, there, _, _, token, nodes⟩ | ⟨nobody, _, same⟩
  · have other : chosen ≠ position := by
      rintro rfl
      rw [token, shape.token_eq there] at waits
      exact waits rfl
    rw [nodes, shape.config_eq]
    simp [other, here]
  · have skipped := nobody p (List.mem_of_getElem? here)
    rw [shape.config_eq] at skipped
    rw [same, here]
    simp [visited, skipped]

theorem onFailure_other
    (shape : Shape weights config rr) (now : UInt32) {token : Token}
    {position : ℕ} (inside : position < weights.count)
    (other : token ≠ Token.ofPosition position) :
    (rr.onFailure now token).nodes[position]? = rr.nodes[position]? := by
  unfold onFailure
  split
  · rfl
  · dsimp only
    rw [updateNode_node shape _ _ inside]
    cases rr.nodes[position]? <;> simp [other]

/-! ## The invariants hold before every selection -/

/-- What a round does to the balancer. -/
theorem beforeSelection_succ
    {k : ℕ} {token : Token} (chosen : selected rr clock k = some token) :
    beforeSelection rr clock (k + 1) =
      (((beforeSelection rr clock k).perform .next (clock (2 * k))).perform
        (.onFailure token) (clock (2 * k + 1))) := by
  unfold selected at chosen
  rw [beforeSelection]
  cases answer : (beforeSelection rr clock k).next (clock (2 * k)) with
  | mk answered after =>
      rw [answer] at chosen
      cases chosen
      simp [perform, answer]

theorem shape_beforeSelection
    (shape : Shape weights config rr) (two : 2 ≤ weights.count)
    (clock : ℕ → UInt32) (k : ℕ) :
    Shape weights config (beforeSelection rr clock k) := by
  induction k with
  | zero => exact shape
  | succ k inductionHypothesis =>
      rcases next_token inductionHypothesis two (clock (2 * k)) with
        ⟨position, _, chosen⟩
      rw [beforeSelection_succ chosen]
      exact (inductionHypothesis.perform two _ _).perform two _ _

theorem balanced_beforeSelection
    (shape : Shape weights config rr) (balanced : Balanced weights rr)
    (two : 2 ≤ weights.count) (fits : FitsI16 weights)
    (clock : ℕ → UInt32) (k : ℕ) :
    Balanced weights (beforeSelection rr clock k) := by
  induction k with
  | zero => exact balanced
  | succ k inductionHypothesis =>
      have shaped := shape_beforeSelection shape two clock k
      rcases next_token shaped two (clock (2 * k)) with
        ⟨position, _, chosen⟩
      rw [beforeSelection_succ chosen]
      exact (inductionHypothesis.perform shaped two fits _ _).perform
        (shaped.perform two _ _) two fits _ _

theorem Keeps.beforeSelection
    {kept : Node → Prop} (keeps : Keeps config kept)
    (shape : Shape weights config rr) (two : 2 ≤ weights.count)
    (all : ∀ p ∈ rr.nodes, kept p) (k : ℕ) :
    ∀ p ∈ (beforeSelection rr clock k).nodes, kept p := by
  induction k with
  | zero => exact all
  | succ k inductionHypothesis =>
      have shaped := shape_beforeSelection shape two clock k
      rcases next_token shaped two (clock (2 * k)) with
        ⟨position, _, chosen⟩
      rw [beforeSelection_succ chosen]
      exact keeps.perform (shaped.perform two _ _) two
        (keeps.perform shaped two inductionHypothesis _ _) _ _

/-- A node is only walked over in a round that does not select it. -/
theorem beforeSelection_waiting
    (shape : Shape weights config rr) (two : 2 ≤ weights.count)
    {k position : ℕ} {p : Node}
    (here : (beforeSelection rr clock k).nodes[position]? = some p)
    (waits : selected rr clock k ≠ some (Token.ofPosition position)) :
    (beforeSelection rr clock (k + 1)).nodes[position]? =
      some (visited config (clock (2 * k)) p) := by
  have shaped := shape_beforeSelection shape two clock k
  rcases next_token shaped two (clock (2 * k)) with ⟨other, _, chosen⟩
  rw [beforeSelection_succ chosen]
  have different : Token.ofPosition other ≠ Token.ofPosition position := by
    intro equal
    rw [← equal] at waits
    exact waits chosen
  have after :
      Shape weights config
        ((beforeSelection rr clock k).next (clock (2 * k))).2 :=
    shaped.perform two .next _
  change (((beforeSelection rr clock k).next (clock (2 * k))).2.onFailure
    (clock (2 * k + 1)) (Token.ofPosition other)).nodes[position]? = _
  rw [onFailure_other after _ (shaped.inRange here) different]
  exact next_waiting shaped two here waits

/-- In a round a waiting position earns its share if it is eligible. -/
theorem credit_waiting
    (shape : Shape weights config rr) (balanced : Balanced weights rr)
    (two : 2 ≤ weights.count) (fits : FitsI16 weights)
    {k position : ℕ}
    (joined : position ∈
      eligible config (clock (2 * k)) (beforeSelection rr clock k).nodes)
    (waits : selected rr clock k ≠ some (Token.ofPosition position)) :
    creditAt (beforeSelection rr clock (k + 1)).nodes position =
      creditAt (beforeSelection rr clock k).nodes position +
        shareAt (beforeSelection rr clock k).nodes position := by
  have shaped := shape_beforeSelection shape two clock k
  have balancedHere :=
    balanced_beforeSelection shape balanced two fits clock k
  rcases next_turn shaped balancedHere two fits (clock (2 * k)) with
    ⟨chosen, leads, _, token, credit, _⟩ | ⟨nobody, _⟩
  · have other : position ≠ chosen := by
      rintro rfl
      exact waits token
    rw [beforeSelection_succ token]
    have after :
        Shape weights config
          ((beforeSelection rr clock k).next (clock (2 * k))).2 :=
      shaped.perform two .next _
    change creditAt (((beforeSelection rr clock k).next
      (clock (2 * k))).2.onFailure _ _).nodes position = _
    rw [creditAt_onFailure after, credit,
      afterTurn_waiting _ _ _ other joined]
  · rw [nobody] at joined
    exact (notMem_empty position joined).elim

/-! ## Peers of positive weight -/

/-- The node passes the health gate at every clock reading. -/
def Open (config : Option HealthCheckConfig) (p : Node) : Prop :=
  ∀ now, (healthGate config now p).isSome

/-- A node that has passed the gate stays open until it fails again. -/
theorem open_visited
    {now : UInt32} {p : Node}
    (passes : (healthGate config now p).isSome) :
    Open config (visited config now p) := by
  intro later
  cases config with
  | none => rfl
  | some cfg =>
      unfold visited healthGate at *
      dsimp only at *
      by_cases failed : cfg.maxFails ≤ p.fails
      · by_cases waiting : now < p.checked
        · simp [failed, waiting] at passes
        · have late : ¬ later < (0 : UInt32) := UInt32.not_lt.2
            (UInt32.zero_le)
          simp only [failed, waiting, if_true, if_false]
          simp only [Node.credited, Node.recovered, late, if_false]
          split <;> rfl
      · simp [failed, Node.credited]

/-- The exclusions that run when the call starts are over at some later
selection. -/
def ExclusionsEnd (rr : RoundRobin) (clock : ℕ → UInt32) : Prop :=
  ∀ p ∈ rr.nodes, ∀ cfg, rr.config = some cfg →
    cfg.maxFails ≤ p.fails → ∃ k, p.checked ≤ clock (2 * k)

/-- A node that is never selected passes the gate at some selection. -/
theorem exists_passes
    (shape : Shape weights config rr) (two : 2 ≤ weights.count)
    (ends : ExclusionsEnd rr clock) {position : ℕ}
    (inside : position < weights.count)
    (waits : ∀ k,
      selected rr clock k ≠ some (Token.ofPosition position)) :
    ∃ k p, (beforeSelection rr clock k).nodes[position]? = some p ∧
      (healthGate config (clock (2 * k)) p).isSome := by
  rcases shape.exists_node inside with ⟨p, here⟩
  by_contra never
  push Not at never
  -- A gate that never opens leaves the node as it was at the start.
  have still :
      ∀ k, (beforeSelection rr clock k).nodes[position]? = some p := by
    intro k
    induction k with
    | zero => exact here
    | succ k inductionHypothesis =>
        have closed :
            healthGate config (clock (2 * k)) p = none :=
          Option.not_isSome_iff_eq_none.1 (never k p inductionHypothesis)
        rw [beforeSelection_waiting shape two inductionHypothesis (waits k),
          visited, closed]
  cases config with
  | none => exact never 0 p (still 0) rfl
  | some cfg =>
      by_cases failed : cfg.maxFails ≤ p.fails
      · rcases ends p (List.mem_of_getElem? here) cfg shape.config_eq
          failed with ⟨k, passed⟩
        apply never k p (still k)
        simp [healthGate, failed, UInt32.not_lt.2 passed]
      · apply never 0 p (still 0)
        simp [healthGate, failed]

/-- Once a node that is never selected has passed the gate, it is open in
every round. -/
theorem stays_open
    (shape : Shape weights config rr) (two : 2 ≤ weights.count)
    {position opened : ℕ} {p : Node}
    (never : ∀ k,
      selected rr clock k ≠ some (Token.ofPosition position))
    (here : (beforeSelection rr clock opened).nodes[position]? = some p)
    (passes : (healthGate config (clock (2 * opened)) p).isSome)
    (rounds : ℕ) :
    ∃ q,
      (beforeSelection rr clock (opened + 1 + rounds)).nodes[position]? =
        some q ∧ Open config q := by
  induction rounds with
  | zero =>
      exact ⟨_, beforeSelection_waiting shape two here (never opened),
        open_visited passes⟩
  | succ rounds inductionHypothesis =>
      rcases inductionHypothesis with ⟨q, there, isOpen⟩
      exact ⟨_, beforeSelection_waiting shape two there (never _),
        open_visited (isOpen _)⟩

/-- A peer of positive weight has a share in every round. -/
theorem one_le_shareAt
    (shape : Shape weights config rr) (two : 2 ≤ weights.count)
    (earns : ∀ p ∈ rr.nodes, EarnsWeight p) {position : ℕ}
    (positive : 1 ≤ weights.at position) {k : ℕ} {q : Node}
    (there : (beforeSelection rr clock k).nodes[position]? = some q) :
    1 ≤ shareAt (beforeSelection rr clock k).nodes position := by
  have shaped := shape_beforeSelection shape two clock k
  have earnsHere :=
    (keeps_earnsWeight config).beforeSelection shape two earns k q
      (List.mem_of_getElem? there)
  rw [shareAt, valueAt_of_some there]
  exact_mod_cast earnsHere (by rw [shaped.weight_eq there]; exact positive)

/-- An open peer of positive weight that is never selected gains credit in
every round. -/
theorem credit_grows
    (shape : Shape weights config rr) (balanced : Balanced weights rr)
    (two : 2 ≤ weights.count) (fits : FitsI16 weights)
    (earns : ∀ p ∈ rr.nodes, EarnsWeight p) {position start : ℕ}
    (positive : 1 ≤ weights.at position)
    (never : ∀ k,
      selected rr clock k ≠ some (Token.ofPosition position))
    (stays : ∀ rounds, ∃ q,
      (beforeSelection rr clock (start + rounds)).nodes[position]? =
        some q ∧ Open config q) (rounds : ℕ) :
    creditAt (beforeSelection rr clock start).nodes position + rounds ≤
      creditAt (beforeSelection rr clock (start + rounds)).nodes
        position := by
  induction rounds with
  | zero => simp
  | succ rounds inductionHypothesis =>
      rcases stays rounds with ⟨q, there, isOpen⟩
      rcases Option.isSome_iff_exists.1
        (isOpen (clock (2 * (start + rounds)))) with ⟨r, gate⟩
      have earned :=
        credit_waiting shape balanced two fits
          (mem_eligible.2 ⟨q, r, there, gate⟩) (never _)
      have share := one_le_shareAt shape two earns positive there
      rw [← Nat.add_assoc, earned]
      push_cast
      linarith

/-- A peer of positive weight gets its turn: else its credit would grow past
the bound. -/
theorem exists_selected
    (shape : Shape weights config rr) (balanced : Balanced weights rr)
    (two : 2 ≤ weights.count) (fits : FitsI16 weights)
    (earns : ∀ p ∈ rr.nodes, EarnsWeight p)
    (ends : ExclusionsEnd rr clock) {position : ℕ}
    (inside : position < weights.count)
    (positive : 1 ≤ weights.at position) :
    ∃ k, selected rr clock k = some (Token.ofPosition position) := by
  by_contra never
  push Not at never
  rcases exists_passes shape two ends inside never with
    ⟨opened, p, here, passes⟩
  have growth :=
    credit_grows shape balanced two fits earns positive never
      (stays_open shape two never here passes)
      (2 * (weights.cap * weights.count) + 1)
  have upper :=
    (balanced_beforeSelection shape balanced two fits clock
      (opened + 1 + (2 * (weights.cap * weights.count) + 1))).credit_le
        inside
  have lower :=
    (balanced_beforeSelection shape balanced two fits clock
      (opened + 1)).credit_ge inside
  have cap : (0 : ℤ) ≤ weights.cap := Int.natCast_nonneg _
  push_cast at growth
  linarith

/-! ## Peers of weight zero -/

/-- No node is excluded at any selection. -/
def AllPass
    (config : Option HealthCheckConfig) (clock : ℕ → UInt32) : Prop :=
  ∀ k p, (healthGate config (clock (2 * k)) p).isSome

/-- A round in which nobody is excluded is a turn of all positions. -/
theorem open_turn
    (shape : Shape weights config rr) (balanced : Balanced weights rr)
    (two : 2 ≤ weights.count) (fits : FitsI16 weights)
    (pass : AllPass config clock) (k : ℕ) :
    ∃ chosen,
      IsLeader (range weights.count)
        (shareAt (beforeSelection rr clock k).nodes)
        (creditAt (beforeSelection rr clock k).nodes) chosen ∧
      (∀ other ∈ range weights.count, other < chosen →
        creditAt (beforeSelection rr clock k).nodes other
            + shareAt (beforeSelection rr clock k).nodes other <
          creditAt (beforeSelection rr clock k).nodes chosen
            + shareAt (beforeSelection rr clock k).nodes chosen) ∧
      selected rr clock k = some (Token.ofPosition chosen) ∧
      creditAt (beforeSelection rr clock (k + 1)).nodes =
        afterTurn (range weights.count)
          (shareAt (beforeSelection rr clock k).nodes) chosen
          (creditAt (beforeSelection rr clock k).nodes) := by
  have shaped := shape_beforeSelection shape two clock k
  have balancedHere :=
    balanced_beforeSelection shape balanced two fits clock k
  have everybody :
      eligible config (clock (2 * k)) (beforeSelection rr clock k).nodes =
        range weights.count := by
    rw [eligible_of_passes (pass k), shaped.length_eq]
  have turn := next_turn shaped balancedHere two fits (clock (2 * k))
  rw [everybody] at turn
  rcases turn with ⟨chosen, leads, first, token, credit, _⟩ | ⟨nobody, _⟩
  · have after :
        Shape weights config
          ((beforeSelection rr clock k).next (clock (2 * k))).2 :=
      shaped.perform two .next _
    refine ⟨chosen, leads, first, token, ?_⟩
    rw [beforeSelection_succ token]
    change creditAt (((beforeSelection rr clock k).next
      (clock (2 * k))).2.onFailure _ _).nodes = _
    rw [creditAt_onFailure after, credit]
  · have inside : 0 ∈ range weights.count := mem_range.2 (by omega)
    rw [nobody] at inside
    exact (notMem_empty 0 inside).elim

/-- Shares of positions that are not selected stay. -/
theorem share_waiting
    (shape : Shape weights config rr) (two : 2 ≤ weights.count)
    {k position : ℕ}
    (waits : selected rr clock k ≠ some (Token.ofPosition position)) :
    shareAt (beforeSelection rr clock (k + 1)).nodes position =
      shareAt (beforeSelection rr clock k).nodes position := by
  have shaped := shape_beforeSelection shape two clock k
  have shapedNext :=
    shape_beforeSelection shape two clock (k + 1)
  unfold shareAt valueAt
  cases here : (beforeSelection rr clock k).nodes[position]? with
  | none =>
      rw [List.getElem?_eq_none]
      rw [shapedNext.length_eq, ← shaped.length_eq]
      exact List.getElem?_eq_none_iff.1 here
  | some p =>
      rw [beforeSelection_waiting shape two here waits]
      simp [visited_ew]

/-- Without share and credit a position leads only if nobody earns. -/
theorem not_selected_of_nothing
    (shape : Shape weights config rr) (balanced : Balanced weights rr)
    (two : 2 ≤ weights.count) (fits : FitsI16 weights)
    (earns : ∀ p ∈ rr.nodes, EarnsWeight p)
    (pass : AllPass config clock) {position other : ℕ}
    (inside : position < weights.count) (otherInside : other < weights.count)
    (positive : 1 ≤ weights.at other) {k : ℕ}
    (share : shareAt (beforeSelection rr clock k).nodes position = 0)
    (credit : creditAt (beforeSelection rr clock k).nodes position = 0) :
    selected rr clock k ≠ some (Token.ofPosition position) := by
  have shaped := shape_beforeSelection shape two clock k
  have balancedHere :=
    balanced_beforeSelection shape balanced two fits clock k
  rcases open_turn shape balanced two fits pass k with
    ⟨chosen, leads, _, token, _⟩
  rw [token]
  intro equal
  have chosenInside := mem_range.1 leads.mem
  have bound := weights.bounded
  unfold Weights.count at *
  rw [Option.some.injEq,
    Token.ofPosition_inj (by omega) (by omega)] at equal
  subst equal
  have none_earns :
      ∑ member ∈ range weights.values.length,
        (creditAt (beforeSelection rr clock k).nodes member +
          shareAt (beforeSelection rr clock k).nodes member) ≤ 0 := by
    apply sum_nonpos
    intro member joined
    have below := leads.le member joined
    rwa [credit, share] at below
  have zero := balancedHere.zero
  unfold Weights.count at zero
  rw [sum_add_distrib, zero, zero_add] at none_earns
  rcases shaped.exists_node otherInside with ⟨p, here⟩
  have earnsHere :=
    (keeps_earnsWeight config).beforeSelection shape two earns k p
      (List.mem_of_getElem? here)
  have share : 1 ≤ shareAt (beforeSelection rr clock k).nodes other := by
    rw [shareAt, valueAt_of_some here]
    exact_mod_cast
      earnsHere (by rw [shaped.weight_eq here]; exact positive)
  have single :=
    single_le_sum
      (fun member _ =>
        share_nonneg (beforeSelection rr clock k).nodes member)
      (mem_range.2 otherInside)
  linarith

/-- A position without share and credit is not selected while another one
has a share. -/
theorem not_selected_beside_positive
    (shape : Shape weights config rr) (balanced : Balanced weights rr)
    (two : 2 ≤ weights.count) (fits : FitsI16 weights)
    (earns : ∀ p ∈ rr.nodes, EarnsWeight p)
    (pass : AllPass config clock) {position other : ℕ}
    (inside : position < weights.count) (otherInside : other < weights.count)
    (positive : 1 ≤ weights.at other)
    (noShare : shareAt rr.nodes position = 0)
    (noCredit : creditAt rr.nodes position = 0) (k : ℕ) :
    selected rr clock k ≠ some (Token.ofPosition position) ∧
      shareAt (beforeSelection rr clock k).nodes position = 0 ∧
      creditAt (beforeSelection rr clock k).nodes position = 0 := by
  have waits {k : ℕ} :=
    @not_selected_of_nothing _ _ _ _ shape balanced two fits earns pass _ _
      inside otherInside positive k
  induction k with
  | zero => exact ⟨waits noShare noCredit, noShare, noCredit⟩
  | succ k inductionHypothesis =>
      rcases inductionHypothesis with ⟨notChosen, share, credit⟩
      have shaped := shape_beforeSelection shape two clock k
      have joined :
          position ∈ eligible config (clock (2 * k))
            (beforeSelection rr clock k).nodes := by
        rw [eligible_of_passes (pass k), shaped.length_eq]
        exact mem_range.2 inside
      have shareNext :
          shareAt (beforeSelection rr clock (k + 1)).nodes position = 0 :=
        (share_waiting shape two notChosen).trans share
      have creditNext :
          creditAt (beforeSelection rr clock (k + 1)).nodes position =
            0 := by
        rw [credit_waiting shape balanced two fits joined notChosen,
          credit, share, add_zero]
      exact ⟨waits shareNext creditNext, shareNext, creditNext⟩

/-- If only the first position has a share, it wins the tie and pays its own
share. -/
theorem first_turn
    (shape : Shape weights config rr) (balanced : Balanced weights rr)
    (two : 2 ≤ weights.count) (fits : FitsI16 weights)
    (pass : AllPass config clock) {k : ℕ}
    (share : ∀ position, 0 < position →
      shareAt (beforeSelection rr clock k).nodes position = 0)
    (credit : ∀ position,
      creditAt (beforeSelection rr clock k).nodes position = 0) :
    selected rr clock k = some (Token.ofPosition 0) ∧
      ∀ position,
        creditAt (beforeSelection rr clock (k + 1)).nodes position = 0 := by
  have firstMember : 0 ∈ range weights.count := mem_range.2 (by omega)
  rcases open_turn shape balanced two fits pass k with
    ⟨chosen, leads, first, token, after⟩
  have isFirst : chosen = 0 := by
    by_contra later
    have positive := Nat.pos_of_ne_zero later
    have less := first 0 firstMember positive
    rw [credit, credit, share chosen positive, zero_add, zero_add]
      at less
    exact absurd (share_nonneg (beforeSelection rr clock k).nodes 0)
      (not_le.2 less)
  subst isFirst
  refine ⟨token, ?_⟩
  intro position
  have total :
      ∑ member ∈ range weights.count,
          shareAt (beforeSelection rr clock k).nodes member =
        shareAt (beforeSelection rr clock k).nodes 0 := by
    rw [sum_eq_single_of_mem 0 firstMember]
    intro member _ nonzero
    exact share member (Nat.pos_of_ne_zero nonzero)
  rw [after]
  unfold afterTurn
  rw [credit, total]
  by_cases isZero : position = 0
  · subst isZero
    simp [firstMember]
  · simp [isZero, share position (Nat.pos_of_ne_zero isZero)]

/-- If only the first position can have a share, it is always selected. -/
theorem selected_first
    (shape : Shape weights config rr) (balanced : Balanced weights rr)
    (two : 2 ≤ weights.count) (fits : FitsI16 weights)
    (pass : AllPass config clock)
    (noShare : ∀ position, 0 < position → shareAt rr.nodes position = 0)
    (noCredit : ∀ position, creditAt rr.nodes position = 0) (k : ℕ) :
    selected rr clock k = some (Token.ofPosition 0) ∧
      (∀ position, 0 < position →
        shareAt (beforeSelection rr clock k).nodes position = 0) ∧
      ∀ position,
        creditAt (beforeSelection rr clock k).nodes position = 0 := by
  have shares :
      ∀ k,
        (∀ position, 0 < position →
          shareAt (beforeSelection rr clock k).nodes position = 0) ∧
        ∀ position,
          creditAt (beforeSelection rr clock k).nodes position = 0 := by
    intro k
    induction k with
    | zero => exact ⟨noShare, noCredit⟩
    | succ k inductionHypothesis =>
        rcases inductionHypothesis with ⟨share, credit⟩
        rcases first_turn shape balanced two fits pass share credit with
          ⟨chosen, creditNext⟩
        refine ⟨?_, creditNext⟩
        intro position positive
        by_cases inside : position < 256
        · have waits :
              selected rr clock k ≠ some (Token.ofPosition position) := by
            rw [chosen, Ne, Option.some.injEq,
              Token.ofPosition_inj (by omega) inside]
            omega
          rw [share_waiting shape two waits]
          exact share position positive
        · have shapedNext :=
            shape_beforeSelection shape two clock (k + 1)
          have small := shapedNext.count_lt
          rw [shareAt, valueAt, List.getElem?_eq_none (by omega)]
          rfl
  rcases shares k with ⟨share, credit⟩
  exact ⟨(first_turn shape balanced two fits pass share credit).1, share,
    credit⟩

end Retry

end ByteHub.Lb.RoundRobin
