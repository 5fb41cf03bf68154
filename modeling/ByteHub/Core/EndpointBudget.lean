import ByteHub.Core.EndpointLedger
import ByteHub.Lb.FailureTally

/-!
# What a peer that is down can cost

Within one `fail_timeout` a peer that refuses every dial is dialled at most
once for each connection, and a little less than `max_fails` times more, as
long as another peer behaves well: once it is excluded nobody selects it, and
until then every selection but those being dialled has brought it nearer.
-/

namespace ByteHub.Core

open ByteHub.Lb
open ByteHub.Library

variable {Addr Stream Error : Type}

namespace Endpoint

/-- The failures of the peer are on its record, the other peer has none, and
the selections of the peer are within the budget. -/
structure Budgeted
    (weights : Weights) (cfg : HealthCheckConfig) (strategy : Strategy)
    (start : UInt32) (position other : ℕ)
    (state : Endpoint Stream Error) : Prop where
  clean : Clean (Token.ofPosition other) state
  ledgered : Ledgered (Token.ofPosition position) state
  shape : Balancer.Shape weights (some cfg) strategy state.balancer
  passes : state.balancer.counters other = BackendHealth.fresh
  tallied : Balancer.Tallied cfg start position
    (failures (Token.ofPosition position) state) state.balancer
  budget : state.selected.count (some (Token.ofPosition position)) ≤
    cfg.maxFails.toNat - 1 + state.accepted

section Budgeted

variable {ctx : CallContext Addr} {setup : RelaySetup Error}
variable {weights : Weights} {cfg : HealthCheckConfig}
variable {strategy : Strategy} {start : UInt32} {position other : ℕ}
variable {state next : Endpoint Stream Error}
variable {label : EndpointLabel Addr Stream Error}

/-- The peer is selected while its failures are below the limit. -/
theorem Budgeted.failures_lt
    (budgeted : Budgeted weights cfg strategy start position other state)
    (selects : strategy ≠ .off) (two : 2 ≤ weights.count)
    (inside : position < weights.count) (otherInside : other < weights.count)
    {client : Client} {now : UInt32}
    (window : Balancer.Timely cfg start now)
    (selected : (state.balancer.next client now).1 =
      some (Token.ofPosition position)) :
    failures (Token.ofPosition position) state < cfg.maxFails.toNat := by
  by_contra reached
  have shut := budgeted.tallied.excludes (not_lt.1 reached) window
  have passes : state.balancer.excludes cfg other now = false := by
    rw [Balancer.excludes, budgeted.passes]
    exact IpHash.excluded_fresh cfg now
  exact budgeted.shape.next_ne selects two inside otherInside shut passes
    client selected

/-- A selection of the peer leaves the budget where it was. -/
theorem Budgeted.budget_step
    (budgeted : Budgeted weights cfg strategy start position other state)
    (selects : strategy ≠ .off) (two : 2 ≤ weights.count)
    (inside : position < weights.count) (otherInside : other < weights.count)
    (within : ∀ now, label.reading = some now →
      Balancer.Timely cfg start now)
    (ledgered : Ledgered (Token.ofPosition position) next)
    (stepped : (machine ctx setup).step state label = some next) :
    next.selected.count (some (Token.ofPosition position)) ≤
      cfg.maxFails.toNat - 1 + next.accepted := by
  have before := budgeted.budget
  rcases step_cases stepped with
    ⟨client, rfl, rfl⟩ | ⟨number, task, own, rfl, found, moved⟩
  · exact before.trans (Nat.le_succ _)
  · rcases moved.selected_cases with
      ⟨now, loop, rfl, chosen, _, logged, grown⟩ | ⟨_, same⟩
    · by_cases here : loop.token = some (Token.ofPosition position)
      · have below := budgeted.failures_lt selects two inside otherInside
          (within now rfl) (chosen.symm.trans here)
        have kept : failures (Token.ofPosition position) next =
            failures (Token.ofPosition position) state := by
          rw [failures, logged, List.countP_append]
          rfl
        have tasks : pending (Token.ofPosition position) next ≤
            next.accepted :=
          pending_le next
        rw [ledgered.ledger, kept]
        omega
      · have none : [loop.token].count
            (some (Token.ofPosition position)) = 0 := by
          rw [List.count_eq_zero, List.mem_singleton]
          exact Ne.symm here
        rw [grown, List.count_append, none, moved.accepted_eq]
        exact before
    · rw [same, moved.accepted_eq]
      exact before

theorem budgeted_step
    (selects : strategy ≠ .off) (two : 2 ≤ weights.count)
    (one : 1 ≤ cfg.maxFails.toNat)
    (inside : position < weights.count) (otherInside : other < weights.count)
    (budgeted : Budgeted weights cfg strategy start position other state)
    (behaves : Behaves ctx setup (Token.ofPosition other) state label)
    (refuses : Refuses ctx (Token.ofPosition position) state label)
    (within : ∀ now, label.reading = some now →
      Balancer.Timely cfg start now)
    (stepped : (machine ctx setup).step state label = some next)
    (fits : next.accepted + cfg.maxFails.toNat ≤ 2 ^ 32) :
    Budgeted weights cfg strategy start position other next := by
  have clean := clean_step budgeted.clean behaves stepped
  have ledgered := ledgered_step budgeted.ledgered refuses stepped
  have budget := budgeted.budget_step selects two inside otherInside within
    ledgered stepped
  rcases calls_of_step stepped with
    ⟨same, kept⟩ | ⟨call, now, read, moved, grown⟩
  · refine ⟨clean, ledgered, ?_, ?_, ?_, budget⟩
    · rw [same]
      exact budgeted.shape
    · rw [same]
      exact budgeted.passes
    · rw [same, failures, kept]
      exact budgeted.tallied
  · have window := within now read
    have made : (call, now) ∈ next.calls := by
      rw [grown]
      exact List.mem_append_right _ List.mem_cons_self
    refine ⟨clean, ledgered, ?_, ?_, ?_, budget⟩
    · rw [moved]
      exact budgeted.shape.perform call now
    · rw [moved]
      exact Balancer.fresh_of_perform budgeted.shape selects two otherInside
        budgeted.passes now (clean.calls _ made)
    · by_cases failed : call = .onFailure (Token.ofPosition position)
      · subst failed
        have more : failures (Token.ofPosition position) next =
            failures (Token.ofPosition position) state + 1 := by
          rw [failures, grown, List.countP_append, List.countP_singleton,
            if_pos (isFailure_iff.2 rfl), failures]
        have books := ledgered.ledger
        rw [more, moved]
        exact budgeted.tallied.failed budgeted.shape selects two inside
          window (by omega)
      · have same : failures (Token.ofPosition position) next =
            failures (Token.ofPosition position) state := by
          rw [failures, grown, List.countP_append, List.countP_singleton,
            if_neg (mt isFailure_iff.1 failed), failures, Nat.add_zero]
        rw [same, moved]
        exact budgeted.tallied.kept budgeted.shape selects two inside window
          (ledgered.unpraised _ made) failed

theorem accepted_le_of_run
    {labels : List (EndpointLabel Addr Stream Error)}
    {final : Endpoint Stream Error}
    (ran : (machine ctx setup).run state labels = some final) :
    state.accepted ≤ final.accepted := by
  refine Machine.run_invariant
    (fun later => state.accepted ≤ later.accepted) ?_ (Nat.le_refl _) ran
  intro earlier later label more stepped
  rcases step_cases stepped with
    ⟨client, _, rfl⟩ | ⟨number, task, own, _, _, moved⟩
  · exact more.trans (Nat.le_succ _)
  · rw [moved.accepted_eq]
    exact more

end Budgeted

end Endpoint

open Endpoint in
/-- Within one `fail_timeout` a peer that refuses every dial is selected at
most `max_fails - 1` times more than there are connections, while another
peer behaves well, under round robin and in whatever order the tasks run. -/
theorem endpoint_budget
    (ctx : CallContext Addr) (setup : RelaySetup Error)
    {sort : UnstableSort} {search : BinarySearch}
    {values : List UInt8} {cfg : HealthCheckConfig} {balancer : Balancer}
    (built : Balancer.new sort search .roundRobin values (some cfg) =
      some balancer)
    (two : 2 ≤ values.length) (one : 1 ≤ cfg.maxFails.toNat)
    {position other : ℕ} (inside : position < values.length)
    (otherInside : other < values.length)
    {labels : List (EndpointLabel Addr Stream Error)}
    {final : Endpoint Stream Error}
    (ran : (machine ctx setup).run (start balancer) labels = some final)
    (behaves : (machine ctx setup).EachStep
      (Behaves ctx setup (Token.ofPosition other)) (start balancer) labels)
    (refuses : (machine ctx setup).EachStep
      (Refuses ctx (Token.ofPosition position)) (start balancer) labels)
    {begins : UInt32}
    (within : ∀ label ∈ labels, ∀ now, label.reading = some now →
      Balancer.Timely cfg begins now)
    (fits : final.accepted + cfg.maxFails.toNat ≤ 2 ^ 32) :
    final.selected.count (some (Token.ofPosition position)) ≤
      cfg.maxFails.toNat - 1 + final.accepted := by
  have selects : Strategy.roundRobin ≠ .off := by decide
  have bounded : values.length ≤ 255 := by
    by_contra long
    rw [(Balancer.new_eq_none_iff selects).2 (not_le.1 long)] at built
    cases built
  have initially : Budgeted ⟨values, bounded⟩ cfg .roundRobin begins position
      other (start balancer : Endpoint Stream Error) :=
    { clean := clean_start _ _
      ledgered := ledgered_start _ _
      shape := Balancer.shape_new bounded built
      passes := Balancer.counters_new bounded two built otherInside
      tallied := Balancer.tallied_zero one begins
        (Balancer.counters_new bounded two built inside)
      budget := Nat.zero_le _ }
  have budgeted : Budgeted ⟨values, bounded⟩ cfg .roundRobin begins position
      other final := by
    refine Machine.run_invariant_of_allowed _
      (fun state label =>
        Behaves ctx setup (Token.ofPosition other) state label ∧
        Refuses ctx (Token.ofPosition position) state label ∧
        (∀ now, label.reading = some now →
          Balancer.Timely cfg begins now) ∧
        ∀ next, (machine ctx setup).step state label = some next →
          next.accepted + cfg.maxFails.toNat ≤ 2 ^ 32)
      ?_ initially ?_ ran
    · rintro state next label kept ⟨well, refused, window, small⟩ stepped
      exact budgeted_step selects two one inside otherInside kept well
        refused window stepped (small next stepped)
    · intro before label after state split reached
      refine ⟨behaves before label after state split reached,
        refuses before label after state split reached, ?_, ?_⟩
      · apply within
        rw [split]
        exact List.mem_append_right _ List.mem_cons_self
      · intro next stepped
        rw [split, Machine.run_append_eq_some] at ran
        rcases ran with ⟨middle, came, rest⟩
        cases reached.symm.trans came
        rcases (Machine.run_cons_eq_some _).1 rest with
          ⟨following, step, goes⟩
        cases stepped.symm.trans step
        have more := accepted_le_of_run goes
        omega
  exact budgeted.budget

open Endpoint in
/-- One client can be refused once by a peer that is excluded at its first
failure. -/
theorem endpoint_budget_refusal :
    ∃ final : Endpoint Unit Unit,
      (machine pairOfPeers plainSetup).run
          (start (.roundRobin (RoundRobin.new .pair (some ⟨1, 30, none⟩))))
          firstRefusal = some final ∧
        final.selected.count (some (Token.ofPosition 0)) ≤ 1 := by
  have ran : ∃ final : Endpoint Unit Unit,
      (machine pairOfPeers plainSetup).run
          (start (.roundRobin (RoundRobin.new .pair (some ⟨1, 30, none⟩))))
          firstRefusal = some final ∧ final.accepted = 1 :=
    ⟨_, rfl, rfl⟩
  rcases ran with ⟨final, ran, one⟩
  have built : Balancer.new .insertion .first .roundRobin [1, 1]
      (some ⟨1, 30, none⟩) =
        some (.roundRobin (RoundRobin.new .pair (some ⟨1, 30, none⟩))) :=
    rfl
  have refuses : (machine pairOfPeers plainSetup).EachStep
      (Refuses pairOfPeers (Token.ofPosition 0))
      (start (.roundRobin (RoundRobin.new .pair (some ⟨1, 30, none⟩))) :
        Endpoint Unit Unit)
      firstRefusal := by
    intro before label after state split _ number task loop attempt _
    rintro rfl _ _
    have member : .task number (.dial attempt) ∈ firstRefusal := by
      rw [split]
      exact List.mem_append_right _ List.mem_cons_self
    have attempted : number = 0 ∧ attempt = refused () := by
      simpa [firstRefusal] using member
    rw [attempted.2]
    exact ⟨(), dial_refused _ _ _⟩
  have within : ∀ label ∈ firstRefusal, ∀ now, label.reading = some now →
      Balancer.Timely ⟨1, 30, none⟩ 7 now := by
    intro label member now read
    simp only [firstRefusal, List.mem_cons, List.not_mem_nil,
      or_false] at member
    rcases member with rfl | rfl | rfl | rfl
    · cases read
    · cases read
    · cases read
      exact ⟨by decide, by decide, by decide⟩
    · cases read
  have budget := endpoint_budget pairOfPeers plainSetup built (by decide)
    (by decide) (show 0 < 2 by decide) (show 1 < 2 by decide)
    ran behaves_firstRefusal refuses within (by rw [one]; decide)
  rw [one] at budget
  exact ⟨final, ran, budget⟩

end ByteHub.Core
