import ByteHub.Lb.IpHashTies
import ByteHub.Library.Clockwise

/-!
# Minimal disruption

A selection names the peer of the first virtual node, clockwise from where
the client's hash lands, whose peer is not excluded.  So when one more peer
becomes excluded, only the clients of that peer move to another one.
-/

namespace ByteHub.Lb.IpHash

open Library.Clockwise

/-- A ring as it is built, its peers in any state of health. -/
def built
    (sort : UnstableSort) (weights : Weights)
    (config : Option HealthCheckConfig) (backends : List BackendHealth) :
    IpHash :=
  { new sort weights config with backends := backends }

/-- Whether the peer at a position is inside its exclusion window. -/
def shut (ih : IpHash) (now : UInt32) (position : ℕ) : Bool :=
  ih.config.any fun cfg => excluded cfg now (ih.backend position)

/-- Whether a selection may name the peer of a virtual node. -/
def admits (ih : IpHash) (now : UInt32) (node : VirtualNode) : Bool :=
  !ih.shut now node.token.index.toNat

/-! ## The walk of one selection -/

section Walk

variable {weights : Weights} {config : Option HealthCheckConfig}
variable {cfg : HealthCheckConfig} {ih : IpHash} {now : UInt32}

theorem probe_eq_find?
    (cfg : HealthCheckConfig) (now : UInt32)
    (backends : List BackendHealth) (nodes : List VirtualNode) :
    probe cfg now backends nodes =
      (nodes.find? fun node =>
        !excluded cfg now
          (backends.getD node.token.index.toNat BackendHealth.fresh)).map
        VirtualNode.token := by
  induction nodes with
  | nil => rfl
  | cons node rest inductionHypothesis =>
      rw [probe, List.find?_cons, inductionHypothesis]
      cases excluded cfg now
        (backends.getD node.token.index.toNat BackendHealth.fresh) with
      | true => rfl
      | false => rfl

theorem Shape.admits_checked (shape : Shape weights (some cfg) ih) :
    ih.admits now = fun node =>
      !excluded cfg now
        (ih.backends.getD node.token.index.toNat BackendHealth.fresh) := by
  ext node
  rw [admits, shut, shape.config_eq]
  rfl

/-- The peer of the first virtual node that is not excluded is named, and
at most the health of this peer changes. -/
theorem next_of_find?
    (shape : Shape weights config ih) (two : 2 ≤ weights.count)
    {search : BinarySearch} {client : Client} {node : VirtualNode}
    (found :
      (ih.ring search client).find? (ih.admits now) = some node) :
    ∃ change,
      ih.next search client now =
        (some node.token, ih.alter node.token.index.toNat change) := by
  cases config with
  | none =>
      have all : ih.admits now = fun _ => true := by
        ext node
        rw [admits, shut, shape.config_eq]
        rfl
      rw [all] at found
      refine ⟨id, ?_⟩
      rw [next_unchecked shape two, IpHash.alter, List.modify_id]
      rw [primary]
      cases walk : ih.ring search client with
      | nil =>
          rw [walk] at found
          cases found
      | cons first rest =>
          rw [walk] at found
          cases found
          rfl
  | some cfg =>
      rw [shape.admits_checked] at found
      refine ⟨recovered cfg, ?_⟩
      rw [next_checked shape two, probe_eq_find?, found]
      rfl

/-- If all peers are excluded, the first virtual node decides. -/
theorem next_of_all_shut
    (shape : Shape weights config ih) (two : 2 ≤ weights.count)
    {search : BinarySearch} {client : Client}
    (found : (ih.ring search client).find? (ih.admits now) = none) :
    ih.next search client now = (ih.primary search client, ih) := by
  cases config with
  | none => exact next_unchecked shape two search client now
  | some cfg =>
      rw [shape.admits_checked] at found
      rw [next_checked shape two, probe_eq_find?, found]
      rfl

theorem Shape.all_shut
    (shape : Shape weights config ih) {search : BinarySearch}
    {client : Client}
    (found : (ih.ring search client).find? (ih.admits now) = none)
    {position : ℕ} (inside : position < weights.count) :
    ih.shut now position = true := by
  rcases shape.covers_ring search client inside with ⟨node, member, named⟩
  have passed := List.find?_eq_none.1 found node member
  rw [admits, named, weights.ofPosition_toNat inside,
    Bool.not_eq_true', Bool.not_eq_false] at passed
  exact passed

theorem admits_iff
    {node : VirtualNode} {position : ℕ} (inside : position < weights.count)
    (named : node.token = Token.ofPosition position) :
    ih.admits now node = true ↔ ih.shut now position = false := by
  rw [admits, named, weights.ofPosition_toNat inside, Bool.not_eq_true']

end Walk

/-! ## What a selection does -/

/-- The outcome of a selection that starts at a place of the ring. -/
structure Probes
    (ih : IpHash) (now : UInt32) (start : ℕ) (token : Option Token)
    (left : IpHash) : Prop where
  /-- The first peer clockwise that is not excluded, or the primary one. -/
  answer :
    (∃ node,
      First ih.nodes start (fun node => ih.admits now node = true) node ∧
        token = some node.token) ∨
    (∀ position < ih.backends.length, ih.shut now position = true) ∧
      ∃ primary, ih.nodes[start]? = some primary ∧
        token = some primary.token
  /-- The health of every other peer stays. -/
  frame : ∀ position < ih.backends.length,
    token ≠ some (Token.ofPosition position) →
      left.backend position = ih.backend position
  rest : left = { ih with backends := left.backends }
  length_eq : left.backends.length = ih.backends.length

/-- Two states of which the second excludes one peer more. -/
structure ExcludesMore
    (peer : ℕ) (now : UInt32) (before after : IpHash) : Prop where
  same : ∀ position < before.backends.length, position ≠ peer →
    after.backend position = before.backend position
  shut : after.shut now peer = true

/-- The clients of other peers stay where they are, and those of the peer
move to one that is not excluded. -/
structure DisruptsOnly
    (peer : ℕ) (now : UInt32) (after : IpHash)
    (token token' : Option Token) : Prop where
  others : token ≠ some (Token.ofPosition peer) → token' = token
  own : token = some (Token.ofPosition peer) →
    (∃ position < after.backends.length,
      after.shut now position = false) →
      ∃ position < after.backends.length,
        after.shut now position = false ∧
          token' = some (Token.ofPosition position)

section Disruption

variable {weights : Weights} {config : Option HealthCheckConfig}
variable {ih before after : IpHash} {now : UInt32}
variable {search : BinarySearch} {client : Client}

theorem Shape.probes
    (shape : Shape weights config ih) (two : 2 ≤ weights.count)
    {start : ℕ} (place : startOf search ih.nodes client.hash = start)
    (within : start < ih.nodes.length) :
    Probes ih now start (ih.next search client now).1
      (ih.next search client now).2 := by
  cases found : (ih.ring search client).find? (ih.admits now) with
  | some node =>
      rcases next_of_find? shape two found with ⟨change, selected⟩
      have first := first_of_find? found
      rw [place] at first
      rw [selected]
      refine ⟨.inl ⟨node, first, rfl⟩, ?_, rfl, ?_⟩
      · intro position _ other
        apply backend_alter_of_ne
        rintro rfl
        apply other
        dsimp only
        rw [Option.some.injEq, Token.eq_ofPosition_iff]
        exact node.token.index.toNat_lt
      · rw [IpHash.alter, List.length_modify]
  | none =>
      rw [next_of_all_shut shape two found]
      refine ⟨.inr ⟨?_, ?_⟩, fun _ _ _ => rfl, rfl, rfl⟩
      · intro position inside
        exact shape.all_shut found (shape.length_eq ▸ inside)
      · have here := List.getElem?_eq_getElem within
        refine ⟨ih.nodes[start], here, ?_⟩
        rw [primary, ring, place, List.head?_rotate within, here]
        rfl

/-- If some peer is not excluded, such a peer is named. -/
theorem Probes.named
    {start : ℕ} {token : Option Token} {left : IpHash}
    (shape : Shape weights config ih)
    (probes : Probes ih now start token left) {position : ℕ}
    (inside : position < weights.count)
    (passes : ih.shut now position = false) :
    ∃ node,
      First ih.nodes start (fun node => ih.admits now node = true) node ∧
        token = some node.token := by
  rcases probes.answer with named | ⟨all, _⟩
  · exact named
  · have shut := all position (shape.length_eq ▸ inside)
    rw [passes] at shut
    cases shut

theorem ExcludesMore.shut_eq
    (shape : Shape weights config before)
    (shape' : Shape weights config after) {peer : ℕ}
    (more : ExcludesMore peer now before after) {position : ℕ}
    (inside : position < weights.count) (distinct : position ≠ peer) :
    after.shut now position = before.shut now position := by
  rw [IpHash.shut, IpHash.shut, shape.config_eq, shape'.config_eq,
    more.same position (shape.length_eq ▸ inside) distinct]

theorem ExcludesMore.kept
    (shape : Shape weights config before)
    (shape' : Shape weights config after) {peer : ℕ}
    (more : ExcludesMore peer now before after) {position : ℕ}
    (inside : position < weights.count)
    (passes : after.shut now position = false) :
    position ≠ peer ∧ before.shut now position = false := by
  have distinct : position ≠ peer := by
    rintro rfl
    rw [more.shut] at passes
    cases passes
  exact ⟨distinct, more.shut_eq shape shape' inside distinct ▸ passes⟩

/-- The clients of the other peers get the answer they got before. -/
theorem Probes.others
    {start peer : ℕ} {token token' : Option Token} {left left' : IpHash}
    (shape : Shape weights config before)
    (shape' : Shape weights config after)
    (nodes_eq : after.nodes = before.nodes)
    (more : ExcludesMore peer now before after)
    (probes : Probes before now start token left)
    (probes' : Probes after now start token' left')
    (other : token ≠ some (Token.ofPosition peer)) : token' = token := by
  rcases probes.answer with ⟨node, first, rfl⟩ | ⟨all, primary, here, rfl⟩
  · -- the first node that was admitted still is the first one
    rcases shape.inside node first.mem with ⟨position, inside, named⟩
    have distinct : position ≠ peer := by
      rintro rfl
      exact other (congrArg some named)
    have passes := (more.shut_eq shape shape' inside distinct).trans
      ((admits_iff inside named).1 first.accepted)
    rcases probes'.named shape' inside passes with ⟨node', first', rfl⟩
    have still : First before.nodes start
        (fun node => after.admits now node = true) node := by
      apply first.mono
      · intro skipped member accepted
        rcases shape.inside skipped member with ⟨place, within, placed⟩
        exact (admits_iff within placed).2
          (more.kept shape shape' within
            ((admits_iff within placed).1 accepted)).2
      · exact (admits_iff inside named).2 passes
    rw [nodes_eq] at first'
    rw [still.unique first']
  · -- all were excluded and still are
    rcases probes'.answer with ⟨node, first, rfl⟩ | ⟨_, primary', here', rfl⟩
    · rcases shape'.inside node first.mem with ⟨position, inside, named⟩
      have passed := more.kept shape shape' inside
        ((admits_iff inside named).1 first.accepted)
      rw [all position (shape.length_eq ▸ inside)] at passed
      cases passed.2
    · rw [nodes_eq, here] at here'
      rw [Option.some.inj here']

/-- Of two states, the second with one peer more excluded, the answers differ
only for the clients of that peer. -/
theorem Probes.disrupts
    {start peer : ℕ} {token token' : Option Token} {left left' : IpHash}
    (shape : Shape weights config before)
    (shape' : Shape weights config after)
    (nodes_eq : after.nodes = before.nodes)
    (more : ExcludesMore peer now before after)
    (probes : Probes before now start token left)
    (probes' : Probes after now start token' left') :
    DisruptsOnly peer now after token token' where
  others := probes.others shape shape' nodes_eq more probes'
  own _ := by
    rintro ⟨position, inside, passes⟩
    rcases probes'.named shape' (shape'.length_eq ▸ inside) passes with
      ⟨node, first, rfl⟩
    rcases shape'.inside node first.mem with ⟨chosen, within, named⟩
    exact ⟨chosen, shape'.length_eq ▸ within,
      (admits_iff within named).1 first.accepted, congrArg some named⟩

/--
A client has a place on the ring that its hash lands on.  In every state of
health the selection names the first peer clockwise from there that is not
excluded, or the primary one, and touches no other peer's health.  If one
more peer is excluded, only the clients of that peer move, and they move to
a peer that is not excluded.
-/
theorem next_disrupts_minimally
    (two : 2 ≤ weights.count) (sort : UnstableSort)
    (search : BinarySearch) (config : Option HealthCheckConfig)
    (client : Client) (now : UInt32) :
    ∃ start primary,
      startOf search (new sort weights config).nodes client.hash = start ∧
      (new sort weights config).nodes[start]? = some primary ∧
      Lands (new sort weights config).nodes client.hash primary ∧
      (∀ backends, backends.length = weights.count →
        Probes (built sort weights config backends) now start
          ((built sort weights config backends).next search client now).1
          ((built sort weights config backends).next search client
            now).2) ∧
      ∀ (peer : ℕ) (before after : List BackendHealth),
        before.length = weights.count → after.length = weights.count →
          ExcludesMore peer now (built sort weights config before)
            (built sort weights config after) →
            DisruptsOnly peer now (built sort weights config after)
              ((built sort weights config before).next search client
                now).1
              ((built sort weights config after).next search client
                now).1 := by
  have ordered :
      (new sort weights config).nodes =
        sort.sort (unsortedRing weights) :=
    if_neg (by omega)
  have nonempty : (new sort weights config).nodes ≠ [] := by
    rcases (shape_fresh sort weights config two).covers 0
      (Nat.lt_of_lt_of_le Nat.two_pos two) with ⟨node, member, _⟩
    exact List.ne_nil_of_mem member
  rcases startOf_lands search client.hash
      (ordered ▸ sort.sorted (unsortedRing weights)) nonempty with
    ⟨primary, here, lands⟩
  have probes {backends : List BackendHealth}
      (length_eq : backends.length = weights.count) :
      Probes (built sort weights config backends) now _ _ _ :=
    (shape_new sort weights config two length_eq).probes two rfl
      (List.getElem?_eq_some_iff.1 here).1
  refine ⟨_, primary, rfl, here, lands, fun _ => probes, ?_⟩
  intro peer before after length_eq length_eq' more
  exact (probes length_eq).disrupts
    (shape_new sort weights config two length_eq)
    (shape_new sort weights config two length_eq') rfl more
    (probes length_eq')

end Disruption

/-- The first of two peers fails, and the clients of the second one stay. -/
theorem next_disrupts_minimally_pair :
    DisruptsOnly 0 0
      (built .insertion .pair (some ⟨1, 10, none⟩)
        [⟨1, 10⟩, BackendHealth.fresh])
      ((built .insertion .pair (some ⟨1, 10, none⟩)
        [BackendHealth.fresh, BackendHealth.fresh]).next .first localhost
          0).1
      ((built .insertion .pair (some ⟨1, 10, none⟩)
        [⟨1, 10⟩, BackendHealth.fresh]).next .first localhost 0).1 := by
  have two : 2 ≤ Weights.pair.count := Nat.le_refl 2
  rcases next_disrupts_minimally two .insertion .first
      (some ⟨1, 10, none⟩) localhost 0 with
    ⟨_, _, _, _, _, _, disrupts⟩
  refine disrupts 0 _ _ rfl rfl ⟨?_, rfl⟩
  intro position inside other
  have second : position = 1 := by
    change position < 2 at inside
    omega
  rw [second]
  rfl

end ByteHub.Lb.IpHash
