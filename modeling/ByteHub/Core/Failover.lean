import ByteHub.Core.Connect

/-!
# Calls over peers that are down or up

As long as no attempt succeeds, the selections of a call do not depend on
what was tried: they are the balancer's own answers to a failure report
after every selection.  The call returns in the first round that selects a
reachable peer or completes the set of tried peers.
-/

namespace ByteHub.Core

open ByteHub.Lb

variable {Addr Stream Error : Type}

/-! ## The selections of a call that keeps failing -/

/-- The balancer after the report on a selection. -/
def afterReport
    (selection : Option Token × Balancer) (now : UInt32) : Balancer :=
  match selection.1 with
  | none => selection.2
  | some token => selection.2.onFailure now token

/-- Selection `k` of a call all of whose attempts fail. -/
def selection
    (client : Client) (balancer : Balancer) (clock : ℕ → UInt32) :
    ℕ → Option Token × Balancer
  | 0 => balancer.next client (clock 0)
  | k + 1 =>
      (afterReport (selection client balancer clock k)
        (clock (2 * k + 1))).next client (clock (2 * k + 2))

/-- The peers tried in the first `rounds` rounds. -/
def triedIn
    (client : Client) (balancer : Balancer) (clock : ℕ → UInt32) :
    ℕ → Finset UInt8
  | 0 => ∅
  | rounds + 1 =>
      match (selection client balancer clock rounds).1 with
      | none => triedIn client balancer clock rounds
      | some token =>
          insert token.index (triedIn client balancer clock rounds)

theorem mem_triedIn
    {client : Client} {balancer : Balancer} {clock : ℕ → UInt32}
    {rounds : ℕ} {index : UInt8} :
    index ∈ triedIn client balancer clock rounds ↔
      ∃ k < rounds,
        (selection client balancer clock k).1 = some ⟨index⟩ := by
  induction rounds with
  | zero => simp [triedIn]
  | succ rounds inductionHypothesis =>
      have split :
          (∃ k < rounds + 1,
              (selection client balancer clock k).1 = some ⟨index⟩) ↔
            (selection client balancer clock rounds).1 = some ⟨index⟩ ∨
              ∃ k < rounds,
                (selection client balancer clock k).1 = some ⟨index⟩ := by
        constructor
        · rintro ⟨k, before, chosen⟩
          rcases Nat.eq_or_lt_of_le (Nat.le_of_lt_succ before) with
            rfl | earlier
          · exact Or.inl chosen
          · exact Or.inr ⟨k, earlier, chosen⟩
        · rintro (chosen | ⟨k, before, chosen⟩)
          · exact ⟨rounds, Nat.lt_succ_self rounds, chosen⟩
          · exact ⟨k, Nat.lt_succ_of_lt before, chosen⟩
      rw [split, ← inductionHypothesis]
      rw [triedIn]
      cases chosen : (selection client balancer clock rounds).1 with
      | none => simp
      | some token =>
          rw [Finset.mem_insert, Option.some.injEq]
          constructor
          · rintro (rfl | old)
            · exact Or.inl rfl
            · exact Or.inr old
          · rintro (rfl | old)
            · exact Or.inl rfl
            · exact Or.inr old

/-- `total == 0 || tried.len() as u8 >= total` after some rounds. -/
def triedEnough
    (client : Client) (balancer : Balancer) (clock : ℕ → UInt32)
    (total : UInt8) (rounds : ℕ) : Bool :=
  total = 0 ||
    total ≤ UInt8.ofNat (triedIn client balancer clock rounds).card

/-- Every selection of the failing call names a peer below `count`. -/
def SelectsBelow
    (client : Client) (balancer : Balancer) (clock : ℕ → UInt32)
    (count : ℕ) : Prop :=
  ∀ k, ∃ position < count,
    (selection client balancer clock k).1 =
      some (Token.ofPosition position)

/-- None of the first selections names a reachable peer. -/
def MissesUpTo
    (reachable : Token → Prop) (client : Client) (balancer : Balancer)
    (clock : ℕ → UInt32) (rounds : ℕ) : Prop :=
  ∀ k < rounds, ∀ token,
    (selection client balancer clock k).1 = some token → ¬ reachable token

/-! ## Networks of peers that are down or up -/

/--
Reachable peers answer every attempt, however late, and the address queries
of the log line succeed for them.  All others refuse every attempt, and have
no idle connection in the pool.
-/
structure Answers
    (reachable : Token → Prop) (network : Network Addr Stream Error) :
    Prop where
  up : ∀ index {token : Token}, reachable token →
    ∀ addr, ∃ stream, (network index (some token)).connect addr = .ok stream
  localAddr : ∀ index {token : Token}, reachable token →
    (network index (some token)).localPeerAddr = .ok ()
  streamAddr : ∀ index {token : Token}, reachable token →
    (network index (some token)).streamPeerAddr = .ok ()
  noIdle : ∀ index {token : Token}, ¬ reachable token →
    (network index (some token)).popIdle = none
  down : ∀ index {token : Token}, ¬ reachable token →
    ∀ addr, ∃ error,
      (network index (some token)).connect addr = .error error

/-- How a call may end: with a stream to a reachable peer, or with an error
once enough peers were tried and none of them was reachable. -/
def Settles
    (reachable : Token → Prop) (client : Client) (balancer : Balancer)
    (clock : ℕ → UInt32) (total : UInt8) (rounds : ℕ)
    (result : Except (ConnectError Error) (Stream × Option Token)) :
    Prop :=
  (∃ stream token, reachable token ∧ result = .ok (stream, some token)) ∨
    (triedEnough client balancer clock total rounds = true ∧
      MissesUpTo reachable client balancer clock rounds ∧
      ∃ error, result = .error error)

/-- A loop holds a slow candidate, which is reachable, unless no reachable
peer was selected. -/
def HoldsCandidate
    (reachable : Token → Prop) (client : Client) (balancer : Balancer)
    (clock : ℕ → UInt32) (rounds : ℕ) (loop : ConnectLoop Stream) : Prop :=
  (loop.fallbackStream = none ∧ loop.fallbackMs = none ∧
      MissesUpTo reachable client balancer clock rounds) ∨
    ∃ stream token ms, reachable token ∧
      loop.fallbackStream = some stream ∧
      loop.fallbackToken = some token ∧ loop.fallbackMs = some ms

/-- A loop has made the selections of a call that keeps failing. -/
structure Follows
    (client : Client) (balancer : Balancer) (clock : ℕ → UInt32) (k : ℕ)
    (loop : ConnectLoop Stream) : Prop where
  balancer_eq : loop.balancer = (selection client balancer clock k).2
  token_eq : loop.token = (selection client balancer clock k).1
  tried_eq : loop.tried = triedIn client balancer clock k

/-- The loop before round `k`, if no round before has returned. -/
structure FailsUpTo
    (reachable : Token → Prop) (client : Client) (balancer : Balancer)
    (clock : ℕ → UInt32) (k : ℕ) (loop : ConnectLoop Stream) : Prop where
  balancer_eq : loop.balancer = (selection client balancer clock k).2
  token_eq : loop.token = (selection client balancer clock k).1
  tried_eq : loop.tried = triedIn client balancer clock k
  candidate :
    HoldsCandidate reachable client balancer clock k loop

theorem FailsUpTo.follows
    {reachable : Token → Prop} {client : Client} {balancer : Balancer}
    {clock : ℕ → UInt32} {k : ℕ} {loop : ConnectLoop Stream}
    (fails : FailsUpTo reachable client balancer clock k loop) :
    Follows client balancer clock k loop where
  balancer_eq := fails.balancer_eq
  token_eq := fails.token_eq
  tried_eq := fails.tried_eq

section Rounds

variable (ctx : CallContext Addr) (total : UInt8)
variable (maxLatency : Option UInt32) {balancer : Balancer}
variable {clock : ℕ → UInt32} {network : Network Addr Stream Error}
variable {reachable : Token → Prop} {k : ℕ} {token : Token}
variable {loop : ConnectLoop Stream}

theorem failsUpTo_firstLoop
    (reachable : Token → Prop) (balancer : Balancer)
    (clock : ℕ → UInt32) :
    FailsUpTo reachable ctx.client balancer clock 0
      (firstLoop ctx balancer (clock 0) : ConnectLoop Stream) where
  balancer_eq := rfl
  token_eq := rfl
  tried_eq := rfl
  candidate :=
    .inl ⟨rfl, rfl, fun k before => absurd before (Nat.not_lt_zero k)⟩

/-! ### What a round dials -/

theorem dial_up
    (answers : Answers reachable network) (up : reachable token)
    (chosen : loop.token = some token) :
    ∃ stream, loop.dial ctx (network k (some token)) = .ok stream := by
  unfold ConnectLoop.dial
  split
  · exact ⟨_, rfl⟩
  · rw [chosen]
    exact answers.up k up _

theorem dial_down
    (answers : Answers reachable network) (down : ¬ reachable token)
    (chosen : loop.token = some token) :
    ∃ error, loop.dial ctx (network k (some token)) = .error error := by
  unfold ConnectLoop.dial
  rw [answers.noIdle k down]
  split
  · next impossible => cases impossible
  · rw [chosen]
    exact answers.down k down _

theorem logged_up
    (answers : Answers reachable network) (up : reachable token) :
    ConnectLoop.logged ctx (network k (some token)) = .ok () := by
  unfold ConnectLoop.logged
  rw [answers.localAddr k up, answers.streamAddr k up]
  cases ctx.logsInfo <;> rfl

/-! ### What a failed round leaves -/

theorem missesUpTo_succ
    (misses : MissesUpTo reachable ctx.client balancer clock k)
    (chosen : (selection ctx.client balancer clock k).1 = some token)
    (down : ¬ reachable token) :
    MissesUpTo reachable ctx.client balancer clock (k + 1) := by
  intro j before other named
  rcases Nat.eq_or_lt_of_le (Nat.le_of_lt_succ before) with rfl | earlier
  · rw [chosen, Option.some.injEq] at named
    exact named ▸ down
  · exact misses j earlier other named

/-- A refused attempt changes nothing about the slow candidate. -/
theorem holdsCandidate_down
    (holds : HoldsCandidate reachable ctx.client balancer clock k loop)
    (chosen : (selection ctx.client balancer clock k).1 = some token)
    (down : ¬ reachable token) :
    HoldsCandidate reachable ctx.client balancer clock (k + 1) loop := by
  rcases holds with ⟨noStream, noMs, misses⟩ | kept
  · exact .inl
      ⟨noStream, noMs, missesUpTo_succ ctx misses chosen down⟩
  · exact .inr kept

/-- A slow stream becomes the candidate, or a faster one stays. -/
theorem holdsCandidate_remembered
    (holds : HoldsCandidate reachable ctx.client balancer clock k loop)
    (up : reachable token) (stream : Stream) (ms : ℕ) :
    HoldsCandidate reachable ctx.client balancer clock (k + 1)
      (loop.remembered stream (some token) ms) := by
  unfold ConnectLoop.remembered
  split
  · exact .inr ⟨stream, token, ms, up, rfl, rfl, rfl⟩
  · next slower =>
    rcases holds with ⟨_, noMs, _⟩ | kept
    · rw [noMs] at slower
      exact absurd rfl slower
    · exact .inr kept

theorem giveUp_settles
    (holds :
      HoldsCandidate reachable ctx.client balancer clock (k + 1) loop)
    (enough : triedEnough ctx.client balancer clock total (k + 1) = true)
    (error : ConnectError Error) :
    Settles reachable ctx.client balancer clock total (k + 1)
      (loop.giveUp error).result := by
  unfold ConnectLoop.giveUp
  rcases holds with
    ⟨noStream, _, misses⟩ | ⟨stream, token, _, up, kept, named, _⟩
  · rw [noStream]
    exact .inr ⟨enough, misses, error, rfl⟩
  · rw [kept, named]
    exact .inl ⟨stream, token, up, rfl⟩

/-- The report on a selection, and the set of tried peers after it. -/
theorem reported_eq
    (follows : Follows ctx.client balancer clock k loop)
    (chosen : (selection ctx.client balancer clock k).1 = some token) :
    loop.reported (clock (2 * k + 1)) =
      { loop with
        balancer :=
          afterReport (selection ctx.client balancer clock k)
            (clock (2 * k + 1))
        tried := triedIn ctx.client balancer clock (k + 1) } := by
  simp only [ConnectLoop.reported, follows.token_eq, follows.balancer_eq,
    follows.tried_eq, chosen, afterReport, triedIn]

/-- The loop stops when enough peers were tried. -/
theorem exhausted_eq
    (tried_eq : loop.tried = triedIn ctx.client balancer clock (k + 1)) :
    loop.exhausted total =
      triedEnough ctx.client balancer clock total (k + 1) := by
  rw [ConnectLoop.exhausted, tried_eq, triedEnough]

theorem follows_selectNext
    (balancer_eq : loop.balancer =
      afterReport (selection ctx.client balancer clock k)
        (clock (2 * k + 1)))
    (tried_eq : loop.tried = triedIn ctx.client balancer clock (k + 1)) :
    Follows ctx.client balancer clock (k + 1)
      (loop.selectNext ctx.client (clock (2 * k + 2))) where
  balancer_eq := by rw [ConnectLoop.selectNext, balancer_eq, selection]
  token_eq := by rw [ConnectLoop.selectNext, balancer_eq, selection]
  tried_eq := tried_eq

/-- The end of a round that has reported a failure. -/
theorem afterFailure_cases
    (balancer_eq : loop.balancer =
      afterReport (selection ctx.client balancer clock k)
        (clock (2 * k + 1)))
    (tried_eq : loop.tried = triedIn ctx.client balancer clock (k + 1))
    (holds :
      HoldsCandidate reachable ctx.client balancer clock (k + 1) loop)
    (error : ConnectError Error) :
    (∃ connected : Connected Stream Error,
      (if loop.exhausted total then .done (loop.giveUp error)
        else .again (loop.selectNext ctx.client (clock (2 * k + 2)))) =
          Round.done connected ∧
        Settles reachable ctx.client balancer clock total (k + 1)
          connected.result) ∨
    ∃ next,
      (if loop.exhausted total then .done (loop.giveUp error)
        else .again (loop.selectNext ctx.client (clock (2 * k + 2)))) =
          (Round.again next : Round Stream Error) ∧
        FailsUpTo reachable ctx.client balancer clock (k + 1) next ∧
        triedEnough ctx.client balancer clock total (k + 1) = false := by
  rw [exhausted_eq ctx total tried_eq]
  cases tried : triedEnough ctx.client balancer clock total (k + 1) with
  | true =>
      exact .inl ⟨_, if_pos rfl, giveUp_settles ctx total holds tried error⟩
  | false =>
      refine .inr ⟨_, if_neg Bool.false_ne_true, ?_, rfl⟩
      have follows := follows_selectNext ctx balancer_eq tried_eq
      exact {
        balancer_eq := follows.balancer_eq
        token_eq := follows.token_eq
        tried_eq := follows.tried_eq
        candidate := holds }

/-! ### One round -/

/-- A round ends the call as it should, or leaves a loop that has failed in
one more round. -/
theorem round_cases
    (answers : Answers reachable network)
    (fails : FailsUpTo reachable ctx.client balancer clock k loop)
    (chosen : (selection ctx.client balancer clock k).1 = some token) :
    (∃ connected,
      loop.round ctx total maxLatency (network k (some token))
          (clock (2 * k + 1)) (clock (2 * k + 2)) = .done connected ∧
        Settles reachable ctx.client balancer clock total (k + 1)
          connected.result) ∨
    ∃ next,
      loop.round ctx total maxLatency (network k (some token))
          (clock (2 * k + 1)) (clock (2 * k + 2)) = .again next ∧
        FailsUpTo reachable ctx.client balancer clock (k + 1) next ∧
        triedEnough ctx.client balancer clock total (k + 1) = false := by
  have named : loop.token = some token := fails.token_eq.trans chosen
  by_cases up : reachable token
  · rcases @dial_up _ _ _ ctx _ _ k _ _ answers up named with
      ⟨stream, dialled⟩
    simp only [ConnectLoop.round, dialled,
      reported_eq ctx fails.follows chosen]
    split
    · apply afterFailure_cases ctx total
      · exact ConnectLoop.remembered_balancer _ _ _ _
      · exact ConnectLoop.remembered_tried _ _ _ _
      · rw [named]
        refine holdsCandidate_remembered ctx ?_ up _ _
        exact fails.candidate
    · rw [logged_up ctx answers up, named]
      exact .inl ⟨_, rfl, .inl ⟨stream, token, up, rfl⟩⟩
  · rcases @dial_down _ _ _ ctx _ _ k _ _ answers up named with
      ⟨error, refused⟩
    simp only [ConnectLoop.round, refused,
      reported_eq ctx fails.follows chosen]
    refine afterFailure_cases ctx total ?_ ?_ ?_ _
    · rfl
    · rfl
    · exact holdsCandidate_down ctx fails.candidate chosen up

/-! ### All rounds -/

/-- A call that returns has settled, and attempted what it selected. -/
theorem connectRounds_returned
    {count : ℕ} (answers : Answers reachable network)
    (below : SelectsBelow ctx.client balancer clock count)
    {fuel index : ℕ} {returned : Returned Stream Error}
    (fails : FailsUpTo reachable ctx.client balancer clock index loop)
    (returns :
      connectRounds ctx total maxLatency clock network fuel index loop =
        some returned) :
    ∃ last, index ≤ last ∧
      (∀ k, index ≤ k → k ≤ last →
        (selection ctx.client balancer clock k).1 ∈ returned.attempted) ∧
      Settles reachable ctx.client balancer clock total (last + 1)
        returned.connected.result := by
  induction fuel generalizing index loop returned with
  | zero => cases returns
  | succ fuel inductionHypothesis =>
      rcases below index with ⟨position, _, chosen⟩
      have named := fails.token_eq.trans chosen
      rw [connectRounds, named] at returns
      rcases round_cases ctx total maxLatency answers fails chosen with
        ⟨connected, done, settles⟩ | ⟨next, again, failsOn, _⟩
      · rw [done] at returns
        cases returns
        refine ⟨index, Nat.le_refl index, ?_, settles⟩
        intro k after before
        rw [Nat.le_antisymm before after, chosen]
        exact List.mem_singleton_self _
      · rw [again] at returns
        rcases Option.map_eq_some_iff.1 returns with ⟨later, rest, rfl⟩
        rcases inductionHypothesis failsOn rest with
          ⟨last, after, visited, settles⟩
        refine ⟨last, Nat.le_of_succ_le after, ?_, settles⟩
        intro k from_ upTo
        rcases Nat.eq_or_lt_of_le from_ with rfl | further
        · rw [chosen]
          exact List.mem_cons_self
        · exact List.mem_cons_of_mem _ (visited k further upTo)

/-- A call returns by the round that completes the set of tried peers. -/
theorem connectRounds_returns
    {count : ℕ} (answers : Answers reachable network)
    (below : SelectsBelow ctx.client balancer clock count)
    {index last : ℕ} (after : index ≤ last)
    (fails : FailsUpTo reachable ctx.client balancer clock index loop)
    (enough :
      triedEnough ctx.client balancer clock total (last + 1) = true) :
    ∃ returned,
      connectRounds ctx total maxLatency clock network (last + 1 - index)
        index loop = some returned := by
  induction gap : last - index generalizing index loop with
  | zero =>
      have here : index = last := by omega
      subst here
      rcases below index with ⟨position, _, chosen⟩
      rw [Nat.add_sub_cancel_left, connectRounds,
        fails.token_eq.trans chosen]
      rcases round_cases ctx total maxLatency answers fails chosen with
        ⟨connected, done, _⟩ | ⟨next, _, _, missing⟩
      · rw [done]
        exact ⟨_, rfl⟩
      · rw [enough] at missing
        cases missing
  | succ gap inductionHypothesis =>
      rcases below index with ⟨position, _, chosen⟩
      have fuel : last + 1 - index = (last + 1 - (index + 1)) + 1 := by
        omega
      rw [fuel, connectRounds, fails.token_eq.trans chosen]
      rcases round_cases ctx total maxLatency answers fails chosen with
        ⟨connected, done, _⟩ | ⟨next, again, failsOn, _⟩
      · rw [done]
        exact ⟨_, rfl⟩
      · rw [again]
        rcases inductionHypothesis (by omega) failsOn (by omega) with
          ⟨returned, rest⟩
        exact ⟨_, Option.map_eq_some_iff.2 ⟨returned, rest, rfl⟩⟩

end Rounds

/-! ## When the set of tried peers is complete -/

section Exhausted

variable {client : Client} {balancer : Balancer} {clock : ℕ → UInt32}
variable {count : ℕ}

/-- The indices of the first `count` peers. -/
def peerIndices (count : ℕ) : Finset UInt8 :=
  (Finset.range count).image fun position =>
    (Token.ofPosition position).index

theorem card_peerIndices (small : count ≤ 255) :
    (peerIndices count).card = count := by
  rw [peerIndices, Finset.card_image_of_injOn, Finset.card_range]
  intro left leftMem right rightMem equal
  have leftSmall := Finset.mem_range.1 leftMem
  have rightSmall := Finset.mem_range.1 rightMem
  exact (Token.ofPosition_inj (by omega) (by omega)).1
    (congrArg Token.mk equal)

theorem triedIn_subset
    (below : SelectsBelow client balancer clock count) (rounds : ℕ) :
    triedIn client balancer clock rounds ⊆ peerIndices count := by
  intro index tried
  rcases mem_triedIn.1 tried with ⟨k, _, chosen⟩
  rcases below k with ⟨position, inside, named⟩
  rw [named, Option.some.injEq] at chosen
  exact Finset.mem_image.2
    ⟨position, Finset.mem_range.2 inside, congrArg Token.index chosen⟩

/-- The loop stops once every peer below the total has been selected. -/
theorem triedEnough_iff
    (positive : 0 < count) (small : count ≤ 255)
    (below : SelectsBelow client balancer clock count) (rounds : ℕ) :
    triedEnough client balancer clock (UInt8.ofNat count) rounds = true ↔
      ∀ position < count, ∃ k < rounds,
        (selection client balancer clock k).1 =
          some (Token.ofPosition position) := by
  have subset := triedIn_subset below rounds
  have atMost := Finset.card_le_card subset
  rw [card_peerIndices small] at atMost
  have total : (UInt8.ofNat count).toNat = count :=
    UInt8.toNat_ofNat_of_lt' (by change count < 256; omega)
  have card :
      (UInt8.ofNat (triedIn client balancer clock rounds).card).toNat =
        (triedIn client balancer clock rounds).card :=
    UInt8.toNat_ofNat_of_lt' (by change _ < 256; omega)
  have nonzero : UInt8.ofNat count ≠ 0 := by
    intro zero
    rw [zero] at total
    change 0 = count at total
    omega
  have counted :
      triedEnough client balancer clock (UInt8.ofNat count) rounds =
          true ↔
        count ≤ (triedIn client balancer clock rounds).card := by
    rw [triedEnough, decide_eq_false nonzero, Bool.false_or,
      decide_eq_true_iff, UInt8.le_iff_toNat_le, total, card]
  have complete :
      count ≤ (triedIn client balancer clock rounds).card ↔
        peerIndices count ⊆ triedIn client balancer clock rounds := by
    constructor
    · intro enough
      rw [Finset.eq_of_subset_of_card_le subset
        (by rw [card_peerIndices small]; exact enough)]
    · intro covered
      have atLeast := Finset.card_le_card covered
      rwa [card_peerIndices small] at atLeast
  rw [counted, complete]
  constructor
  · intro covered position inside
    exact mem_triedIn.1
      (covered (Finset.mem_image.2
        ⟨position, Finset.mem_range.2 inside, rfl⟩))
  · intro selected index member
    rcases Finset.mem_image.1 member with ⟨position, inside, rfl⟩
    exact mem_triedIn.2 (selected position (Finset.mem_range.1 inside))

end Exhausted

/-! ## Calls -/

/-- Finitely many events that each happen have all happened by some time. -/
theorem exists_common_bound
    {happens : ℕ → ℕ → Prop} {count : ℕ}
    (each : ∀ position < count, ∃ k, happens position k) :
    ∃ bound, ∀ position < count, ∃ k < bound, happens position k := by
  induction count with
  | zero => exact ⟨0, fun position inside => absurd inside (by omega)⟩
  | succ count inductionHypothesis =>
      rcases inductionHypothesis fun position inside =>
        each position (Nat.lt_succ_of_lt inside) with ⟨bound, within⟩
      rcases each count (Nat.lt_succ_self count) with ⟨k, happened⟩
      refine ⟨max bound (k + 1), ?_⟩
      intro position inside
      rcases Nat.eq_or_lt_of_le (Nat.le_of_lt_succ inside) with
        rfl | earlier
      · exact ⟨k, by omega, happened⟩
      · rcases within position earlier with ⟨j, before, there⟩
        exact ⟨j, by omega, there⟩

section Calls

variable {balancer : Balancer} {clock : ℕ → UInt32}
variable {network : Network Addr Stream Error} {count : ℕ}

/-- The call ends with an error after attempting every peer. -/
def FailsHavingTriedAll
    (ctx : CallContext Addr) (balancer : Balancer)
    (clock : ℕ → UInt32) (network : Network Addr Stream Error)
    (count : ℕ) : Prop :=
  ∃ fuel returned error,
    tryConnectWithFallback ctx balancer clock network fuel =
      some returned ∧
    returned.connected.result = .error error ∧
    ∀ position < count,
      some (Token.ofPosition position) ∈ returned.attempted

/-- The call ends with a stream to a reachable peer. -/
def EndsReachable
    (reachable : Token → Prop) (ctx : CallContext Addr)
    (balancer : Balancer) (clock : ℕ → UInt32)
    (network : Network Addr Stream Error) : Prop :=
  ∃ fuel returned stream token,
    tryConnectWithFallback ctx balancer clock network fuel =
      some returned ∧
    reachable token ∧
    returned.connected.result = .ok (stream, some token)

/-- A balancer that keeps selecting until every peer has had its turn makes
the call return, after it has attempted every peer or met a reachable one. -/
theorem exists_settled
    {reachable : Token → Prop} (ctx : CallContext Addr)
    (two : 2 ≤ count) (small : count ≤ 255)
    (total : balancer.total = UInt8.ofNat count)
    (below : SelectsBelow ctx.client balancer clock count)
    (answers : Answers reachable network)
    (selected : ∀ position < count, ∃ k,
      (selection ctx.client balancer clock k).1 =
        some (Token.ofPosition position)) :
    ∃ fuel returned,
      tryConnectWithFallback ctx balancer clock network fuel =
          some returned ∧
        ((∃ stream token, reachable token ∧
            returned.connected.result = .ok (stream, some token)) ∨
          ((∃ error, returned.connected.result = .error error) ∧
            ∀ position < count, ¬ reachable (Token.ofPosition position) ∧
              some (Token.ofPosition position) ∈ returned.attempted)) := by
  rcases exists_common_bound selected with ⟨bound, within⟩
  have enough :
      triedEnough ctx.client balancer clock (UInt8.ofNat count)
        (bound + 1) = true := by
    rw [triedEnough_iff (by omega) small below]
    intro position inside
    rcases within position inside with ⟨k, before, chosen⟩
    exact ⟨k, Nat.lt_succ_of_lt before, chosen⟩
  have fails :=
    @failsUpTo_firstLoop _ Stream ctx reachable balancer clock
  rcases connectRounds_returns ctx (UInt8.ofNat count)
      (balancer.healthConfig.bind HealthCheckConfig.maxLatencyMs)
      answers below (Nat.zero_le _) fails enough with
    ⟨returned, returns⟩
  refine ⟨bound + 1, returned, ?_, ?_⟩
  · rw [tryConnectWithFallback, total]
    exact returns
  · rcases connectRounds_returned ctx _ _ answers below fails returns with
      ⟨last, _, visited, up | ⟨complete, misses, failed⟩⟩
    · exact .inl up
    · refine .inr ⟨failed, ?_⟩
      intro position inside
      rcases (triedEnough_iff (by omega) small below _).1 complete position
        inside with ⟨k, before, named⟩
      exact ⟨misses k before _ named,
        named ▸ visited k (Nat.zero_le k) (Nat.le_of_lt_succ before)⟩

/-- If some peer is reachable, such a call ends with a stream to one. -/
theorem endsReachable_of_selected
    {reachable : Token → Prop} (ctx : CallContext Addr)
    (two : 2 ≤ count) (small : count ≤ 255)
    (total : balancer.total = UInt8.ofNat count)
    (below : SelectsBelow ctx.client balancer clock count)
    (answers : Answers reachable network)
    (selected : ∀ position < count, ∃ k,
      (selection ctx.client balancer clock k).1 =
        some (Token.ofPosition position))
    (some_ : ∃ position < count, reachable (Token.ofPosition position)) :
    EndsReachable reachable ctx balancer clock network := by
  rcases exists_settled ctx two small total below answers selected with
    ⟨fuel, returned, returns, ⟨stream, token, up, result⟩ | ⟨_, missed⟩⟩
  · exact ⟨fuel, returned, stream, token, returns, up, result⟩
  · rcases some_ with ⟨position, inside, up⟩
    exact absurd up (missed position inside).1

/-- If nobody is reachable, a call that returns has selected everybody. -/
theorem selected_of_returns
    {reachable : Token → Prop} (ctx : CallContext Addr)
    (two : 2 ≤ count) (small : count ≤ 255)
    (total : balancer.total = UInt8.ofNat count)
    (below : SelectsBelow ctx.client balancer clock count)
    (answers : Answers reachable network)
    (nobody : ∀ token, ¬ reachable token)
    {fuel : ℕ} {returned : Returned Stream Error}
    (returns : tryConnectWithFallback ctx balancer clock network fuel =
      some returned)
    {position : ℕ} (inside : position < count) :
    ∃ k, (selection ctx.client balancer clock k).1 =
      some (Token.ofPosition position) := by
  rw [tryConnectWithFallback, total] at returns
  rcases connectRounds_returned ctx _ _ answers below
      (failsUpTo_firstLoop ctx reachable balancer clock) returns with
    ⟨last, _, _, ⟨_, token, up, _⟩ | ⟨complete, _⟩⟩
  · exact absurd up (nobody token)
  · have covers := (triedEnough_iff (by omega) small below _).1 complete
    rcases covers position inside with ⟨k, _, chosen⟩
    exact ⟨k, chosen⟩

/-- If nobody is reachable, a call ends as it should exactly if the balancer
keeps selecting until every peer has had its turn. -/
theorem failsHavingTriedAll_iff
    {reachable : Token → Prop} (ctx : CallContext Addr)
    (two : 2 ≤ count) (small : count ≤ 255)
    (total : balancer.total = UInt8.ofNat count)
    (below : SelectsBelow ctx.client balancer clock count)
    (answers : Answers reachable network)
    (nobody : ∀ token, ¬ reachable token) :
    FailsHavingTriedAll ctx balancer clock network count ↔
      ∀ position < count, ∃ k,
        (selection ctx.client balancer clock k).1 =
          some (Token.ofPosition position) := by
  constructor
  · rintro ⟨fuel, returned, error, returns, _, _⟩ position inside
    exact selected_of_returns ctx two small total below answers nobody
      returns inside
  · intro selected
    rcases exists_settled ctx two small total below answers selected with
      ⟨fuel, returned, returns, ⟨_, token, up, _⟩ | ⟨⟨error, failed⟩, all⟩⟩
    · exact absurd up (nobody token)
    · exact ⟨fuel, returned, error, returns, failed,
        fun position inside => (all position inside).2⟩

/-- If nobody is reachable and some peer never has its turn, the call never
returns. -/
theorem never_returns
    {reachable : Token → Prop} (ctx : CallContext Addr)
    (two : 2 ≤ count) (small : count ≤ 255)
    (total : balancer.total = UInt8.ofNat count)
    (below : SelectsBelow ctx.client balancer clock count)
    (answers : Answers reachable network)
    (nobody : ∀ token, ¬ reachable token)
    {starved : ℕ} (inside : starved < count)
    (never : ∀ k, (selection ctx.client balancer clock k).1 ≠
      some (Token.ofPosition starved)) (fuel : ℕ) :
    tryConnectWithFallback ctx balancer clock network fuel = none := by
  by_contra returns
  rcases Option.ne_none_iff_exists'.1 returns with ⟨returned, returns⟩
  rcases selected_of_returns ctx two small total below answers nobody
    returns inside with ⟨k, chosen⟩
  exact never k chosen

end Calls

/-! ## Times and networks -/

/-- The readings of a clock that shows the given times in seconds. -/
def readings (time : ℕ → ℕ) (k : ℕ) : UInt32 :=
  UInt32.ofNat (time k)

/-- A network of peers that are all down. -/
def refusing : Network Unit Unit Unit := fun _ _ =>
  { popIdle := none
    connect := fun _ => .error ()
    elapsedMs := 0
    localPeerAddr := .ok ()
    streamPeerAddr := .ok () }

theorem refusing_answers : Answers (fun _ => False) refusing where
  up _ _ isUp := isUp.elim
  localAddr _ _ isUp := isUp.elim
  streamAddr _ _ isUp := isUp.elim
  noIdle _ _ _ := rfl
  down _ _ _ _ := ⟨(), rfl⟩

/-- A client at the address `0.0.0.0`. -/
def anyClient : Client where
  ip := .v4 fun _ => 0
  address := 0

/-- A call to a single address that logs nothing. -/
def anyContext : CallContext Unit where
  raddr := ()
  extraRaddrs := []
  pool := false
  client := anyClient
  logsInfo := false

end ByteHub.Core
