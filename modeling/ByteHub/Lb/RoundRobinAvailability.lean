import ByteHub.Lb.Exclusion
import ByteHub.Lb.RoundRobinOverflow

/-!
# Availability

As long as some peer is outside its exclusion window, a selection names such
a peer: the one of most credit, counted without overflow.  The peers inside
their windows keep credit and weight.  When all peers are inside, the one
whose window ends first is named, and nothing changes.
-/

namespace ByteHub.Lb.RoundRobin

open IpHash (excluded)

section Exact

variable {config : Option HealthCheckConfig} {cfg : HealthCheckConfig}
variable {now : UInt32} {p q : Node} {nodes : List Node}

/-- The credit a node reaches in the loop is one of the loop's results. -/
theorem credit_mem_scanResults
    (scan : Scan) (member : p ∈ nodes)
    (passed : healthGate config now p = some q) :
    q.cw.toInt + q.share.toInt ∈ scanResults config now scan nodes := by
  induction nodes generalizing scan with
  | nil => cases member
  | cons first rest inductionHypothesis =>
      rw [scanResults, List.mem_append]
      rcases List.mem_cons.1 member with rfl | later
      · left
        rw [Scan.results, passed]
        exact List.mem_cons_of_mem _ List.mem_cons_self
      · right
        exact inductionHypothesis _ later

/-- In range, the credit a node reaches is the exact sum. -/
theorem credited_toInt_of_inI16
    (inside : InI16 (q.cw.toInt + q.share.toInt))
    (passed : healthGate config now p = some q) :
    q.credited.cw.toInt = p.cw.toInt + p.ew.toNat := by
  rw [share_toInt] at inside
  rw [Node.credited, Int16.toInt_add, share_toInt, bmod_of_inI16 inside,
    healthGate_cw passed, healthGate_ew passed]

theorem healthGate_eq_some_of_open
    (passes : excluded cfg now p.counters = false) :
    ∃ q, healthGate (some cfg) now p = some q := by
  cases gate : healthGate (some cfg) now p with
  | none =>
      rw [healthGate_eq_none_iff, passes] at gate
      cases gate
  | some q => exact ⟨q, rfl⟩

theorem open_of_healthGate
    (passed : healthGate (some cfg) now p = some q) :
    excluded cfg now p.counters = false := by
  rw [← Bool.not_eq_true, ← healthGate_eq_none_iff, passed]
  exact nofun

/-- The fallback finds the first node of the smallest deadline. -/
theorem nearest_first (nonempty : nodes ≠ []) :
    ∃ (position : ℕ) (p : Node), nodes[position]? = some p ∧
      nearest nodes = some (p.checked, p.token) ∧
      ∀ (other : ℕ) (q : Node), nodes[other]? = some q →
        p.checked ≤ q.checked ∧
          (other < position → p.checked < q.checked) := by
  induction nodes using List.reverseRecOn with
  | nil => exact (nonempty rfl).elim
  | append_singleton nodes last inductionHypothesis =>
      have step :
          nearest (nodes ++ [last]) = nearer (nearest nodes) last := by
        rw [nearest, nearest, List.foldl_append]
        rfl
      rcases List.eq_nil_or_concat nodes with rfl | ⟨front, p, split⟩
      · refine ⟨0, last, rfl, rfl, ?_⟩
        intro other q there
        rcases getElem?_concat_eq_some.1 there with none | ⟨rfl, rfl⟩
        · cases none
        · exact ⟨UInt32.le_refl _, fun before => (by cases before)⟩
      have held := inductionHypothesis (by simp [split])
      rcases held with ⟨position, p, here, found, smallest⟩
      have within := (List.getElem?_eq_some_iff.1 here).1
      rw [step, found, nearer]
      by_cases earlier : last.checked < p.checked
      · rw [if_pos earlier]
        refine ⟨nodes.length, last, by simp, rfl, ?_⟩
        intro other q there
        rcases getElem?_concat_eq_some.1 there with old | ⟨rfl, rfl⟩
        · have below :=
            UInt32.lt_of_lt_of_le earlier (smallest other q old).1
          exact ⟨UInt32.le_of_lt below, fun _ => below⟩
        · exact ⟨UInt32.le_refl _, fun before =>
            (Nat.lt_irrefl _ before).elim⟩
      · rw [if_neg earlier]
        refine ⟨position, p, getElem?_concat_eq_some.2 (.inl here), rfl, ?_⟩
        intro other q there
        rcases getElem?_concat_eq_some.1 there with old | ⟨rfl, rfl⟩
        · exact smallest other q old
        · exact ⟨UInt32.not_lt.1 earlier, fun before =>
            (Nat.lt_asymm before within).elim⟩

end Exact

/-! ## One selection -/

/-- What a selection gives that names the peer `p` at `position`. -/
structure Available
    (cfg : HealthCheckConfig) (now : UInt32) (rr : RoundRobin)
    (position : ℕ) (p : Node) (left : RoundRobin) : Prop where
  /-- If some peer is outside its window, so is the one named, and its
  credit is the largest, the first one on ties. -/
  outside :
    (∃ other ∈ rr.nodes, excluded cfg now other.counters = false) →
      excluded cfg now p.counters = false ∧
      ∀ (other : ℕ) (q : Node), rr.nodes[other]? = some q →
        excluded cfg now q.counters = false →
          q.cw.toInt + q.ew.toNat ≤ p.cw.toInt + p.ew.toNat ∧
          (other < position →
            q.cw.toInt + q.ew.toNat < p.cw.toInt + p.ew.toNat)
  /-- The peers inside their windows keep credit and weight. -/
  frame : ∀ (other : ℕ) (q : Node), rr.nodes[other]? = some q →
    excluded cfg now q.counters = true →
      ∃ kept : Node, left.nodes[other]? = some kept ∧ kept.cw = q.cw ∧
        kept.ew = q.ew
  /-- If all peers are inside, the first window to end decides. -/
  inside :
    (∀ other ∈ rr.nodes, excluded cfg now other.counters = true) →
      left = rr ∧
      ∀ (other : ℕ) (q : Node), rr.nodes[other]? = some q →
        p.checked ≤ q.checked ∧
          (other < position → p.checked < q.checked)

section Selection

variable {weights : Weights} {cfg : HealthCheckConfig}
variable {rr : RoundRobin} {now : UInt32}

theorem Shape.nextResults_eq
    (shape : Shape weights (some cfg) rr) (two : 2 ≤ weights.count)
    {p q : Node} (member : p ∈ rr.nodes)
    (passed : healthGate (some cfg) now p = some q)
    (sound : ∀ result ∈ rr.nextResults now, InI16 result) :
    q.credited.cw.toInt = p.cw.toInt + p.ew.toNat := by
  apply credited_toInt_of_inI16 _ passed
  apply sound
  rw [nextResults, if_neg (shape.many two), shape.config_eq,
    List.mem_append]
  exact .inl (credit_mem_scanResults _ member passed)

/-- The node at a position after the selection of a node. -/
theorem getElem?_selected
    {position other : ℕ} {tw : Int16} {q : Node}
    (there : rr.nodes[other]? = some q)
    (skipped : healthGate (some cfg) now q = none)
    (distinct : position ≠ other) :
    ((rr.nodes.map (visited (some cfg) now)).modify position
      (Node.settled tw))[other]? = some q := by
  rw [getElem?_modify_eq_some]
  refine ⟨q, ?_, (if_neg distinct).symm⟩
  rw [List.getElem?_map, there]
  simp [visited, skipped]

/-- What a selection by credit gives. -/
theorem Shape.available_best
    (shape : Shape weights (some cfg) rr) (two : 2 ≤ weights.count)
    (sound : ∀ result ∈ rr.nextResults now, InI16 result)
    {position : ℕ} {p q : Node} (here : rr.nodes[position]? = some p)
    (passed : healthGate (some cfg) now p = some q)
    (best : IsBest (some cfg) now rr.nodes (some (position, q.credited.cw)))
    {left : RoundRobin} {tw : Int16}
    (nodes : left.nodes =
      (rr.nodes.map (visited (some cfg) now)).modify position
        (Node.settled tw)) :
    Available cfg now rr position p left := by
  refine ⟨?_, ?_, ?_⟩
  · intro _
    refine ⟨open_of_healthGate passed, ?_⟩
    rcases best with ⟨p', q', here', passed', cwEq, maximal⟩
    intro other r there passes
    rcases healthGate_eq_some_of_open passes with ⟨s, rPassed⟩
    rcases maximal other r s there rPassed with ⟨most, ties⟩
    have chosen := shape.nextResults_eq two
      (List.mem_of_getElem? here) passed sound
    have compared := shape.nextResults_eq two
      (List.mem_of_getElem? there) rPassed sound
    rw [← chosen, ← compared]
    exact ⟨Int16.le_iff_toInt_le.1 most, fun before =>
      Int16.lt_iff_toInt_lt.1 (ties before)⟩
  · intro other r there shut
    have skipped := healthGate_eq_none_iff.2 shut
    refine ⟨r, ?_, rfl, rfl⟩
    rw [nodes]
    apply getElem?_selected there skipped
    rintro rfl
    rw [here, Option.some.injEq] at there
    rw [there, skipped] at passed
    cases passed
  · intro all
    have shut := all p (List.mem_of_getElem? here)
    rw [open_of_healthGate passed] at shut
    cases shut

/-- What a selection gives while all peers are inside their windows. -/
theorem available_nearest
    {position : ℕ} {p : Node}
    (none : ∀ q ∈ rr.nodes, healthGate (some cfg) now q = none)
    (smallest : ∀ (other : ℕ) (q : Node), rr.nodes[other]? = some q →
      p.checked ≤ q.checked ∧
        (other < position → p.checked < q.checked)) :
    Available cfg now rr position p rr := by
  refine ⟨?_, ?_, fun _ => ⟨rfl, smallest⟩⟩
  · rintro ⟨other, member, passes⟩
    rw [healthGate_eq_none_iff.1 (none other member)] at passes
    cases passes
  · intro other q there _
    exact ⟨q, there, rfl, rfl⟩

theorem Shape.available
    (shape : Shape weights (some cfg) rr) (two : 2 ≤ weights.count)
    (sound : ∀ result ∈ rr.nextResults now, InI16 result) :
    ∃ (position : ℕ) (p : Node), rr.nodes[position]? = some p ∧
      (rr.next now).1 = some p.token ∧
      Available cfg now rr position p (rr.next now).2 := by
  rcases next_cases now rr (shape.many two) with
    ⟨position, p, q, here, passed, best, token, left⟩ |
    ⟨none, token, same⟩
  · rw [shape.config_eq] at passed best left
    refine ⟨position, p, here, token, ?_⟩
    rw [left]
    exact shape.available_best two sound here passed best rfl
  · rw [shape.config_eq] at none token
    have nonempty : rr.nodes ≠ [] := by
      intro empty
      have count := shape.length_eq
      rw [empty, List.length_nil] at count
      omega
    rcases nearest_first nonempty with
      ⟨position, p, here, found, smallest⟩
    refine ⟨position, p, here, ?_, ?_⟩
    · rw [token, found]
      rfl
    · rw [same]
      exact available_nearest none smallest

end Selection

/-! ## Selections in a run -/

/-- After any calls a selection without overflow names a peer, by most
credit outside the windows or by the first window to end. -/
theorem next_available
    {weights : Weights} (two : 2 ≤ weights.count)
    (cfg : HealthCheckConfig) (calls : List (Call × UInt32))
    (now : UInt32)
    (never : NeverOverflows (new weights (some cfg))
      (calls ++ [(.next, now)])) :
    ∃ (token : Token) (position : ℕ) (p : Node),
      (((new weights (some cfg)).performAll calls).next now).1 =
        some token ∧
      token.index <
        ((new weights (some cfg)).performAll calls).total ∧
      token = Token.ofPosition position ∧
      ((new weights (some cfg)).performAll calls).nodes[position]? =
        some p ∧
      Available cfg now ((new weights (some cfg)).performAll calls)
        position p
        (((new weights (some cfg)).performAll calls).next now).2 := by
  have shape := (shape_new weights (some cfg) two).performAll two calls
  rcases shape.available two (never calls now [] rfl) with
    ⟨position, p, here, token, available⟩
  have within := shape.inRange here
  refine ⟨p.token, position, p, token, ?_, shape.token_eq here, here,
    available⟩
  have small : weights.count < 256 := Nat.lt_succ_of_le weights.bounded
  rw [shape.total_eq, shape.token_eq here, UInt8.lt_iff_toNat_lt,
    weights.ofPosition_toNat within, UInt8.toNat_ofNat_of_lt' small]
  exact within

/-- The first of two peers has failed, and the second one is named. -/
theorem next_available_pair :
    ∃ (token : Token) (position : ℕ) (p : Node),
      (((new .pair (some ⟨1, 10, none⟩)).performAll
        [(.onFailure ⟨0⟩, 0)]).next 5).1 = some token ∧
      token.index <
        ((new .pair (some ⟨1, 10, none⟩)).performAll
          [(.onFailure ⟨0⟩, 0)]).total ∧
      token = Token.ofPosition position ∧
      ((new .pair (some ⟨1, 10, none⟩)).performAll
        [(.onFailure ⟨0⟩, 0)]).nodes[position]? = some p ∧
      Available ⟨1, 10, none⟩ 5
        ((new .pair (some ⟨1, 10, none⟩)).performAll
          [(.onFailure ⟨0⟩, 0)]) position p
        (((new .pair (some ⟨1, 10, none⟩)).performAll
          [(.onFailure ⟨0⟩, 0)]).next 5).2 := by
  have two : 2 ≤ Weights.pair.count := Nat.le_refl 2
  apply next_available two
  apply neverOverflows_new
  decide

end ByteHub.Lb.RoundRobin
