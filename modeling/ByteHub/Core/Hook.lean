import ByteHub.Core.Connect
import ByteHub.Lb.BalancerRuns

/-!
# The pre-connect hook

A loaded library sees the first packet of a client and names a peer.  The
connection waits for its verdict, stops at a rejection, and then dials
without regard to the peer that was named: the remote address, or the peers
that the balancer selects.
-/

namespace ByteHub.Core

open ByteHub.Lb

variable {Addr Stream Error : Type}

/-! ## The hook -/

/-- The library of the hook. -/
structure Hook where
  loaded : Bool
  firstPktLen : UInt32
  /-- Given the number of extra remotes and the first packet. -/
  decideRemoteIdx : Int32 → List UInt8 → Int32

/-- How the hook ends. -/
inductive HookEnd (Addr Error : Type) where
  | peer (addr : Addr)
  | rejected
  | io (error : Error)
  | panicked
deriving DecidableEq, Repr

/-- Peek until `len` bytes are there.  Too few answers leave it waiting. -/
def peekFirst (len : ℕ) :
    List (Except Error (List UInt8)) → Option (Except Error (List UInt8))
  | [] => none
  | .error error :: _ => some (.error error)
  | .ok bytes :: answers =>
      if bytes.length < len then peekFirst len answers
      else some (.ok bytes)

/-- The first packet; none is read where its length is 0. -/
def firstPacket
    (hook : Hook) (answers : List (Except Error (List UInt8))) :
    Option (Except Error (List UInt8)) :=
  if hook.firstPktLen = 0 then some (.ok [])
  else peekFirst hook.firstPktLen.toNat answers

/-- The `match` on the verdict.  Its variable has held the number of extra
remotes before; in the guard it is the verdict itself. -/
def peerOfVerdict
    (raddr : Addr) (extraRaddrs : List Addr) (idx : Int32) :
    HookEnd Addr Error :=
  if idx = 0 then .peer raddr
  else if 1 ≤ idx ∧ idx ≤ idx then
    match extraRaddrs[idx.toInt.toNat - 1]? with
    | some addr => .peer addr
    | none => .panicked
  else .rejected

def preConnectHook
    (hook : Hook) (raddr : Addr) (extraRaddrs : List Addr)
    (answers : List (Except Error (List UInt8))) :
    Option (HookEnd Addr Error) :=
  if hook.loaded then
    (firstPacket hook answers).map fun packet =>
      match packet with
      | .error error => .io error
      | .ok buf =>
          peerOfVerdict raddr extraRaddrs
            (hook.decideRemoteIdx (.ofNat extraRaddrs.length) buf)
  else some (.peer raddr)

/-! ## Dialling -/

/-- The tokens that the retry loop attempts within a number of rounds. -/
def attemptedWithin
    (ctx : CallContext Addr) (total : UInt8)
    (maxLatency : Option UInt32) (clock : ℕ → UInt32)
    (network : Network Addr Stream Error) :
    ℕ → ℕ → ConnectLoop Stream → List (Option Token)
  | 0, _, _ => []
  | rounds + 1, index, loop =>
      loop.token ::
        match loop.round ctx total maxLatency (network index loop.token)
            (clock (2 * index + 1)) (clock (2 * index + 2)) with
        | .done _ => []
        | .again next =>
            attemptedWithin ctx total maxLatency clock network rounds
              (index + 1) next

/-- The builds without and with the balancer. -/
inductive Build where
  | unbalanced
  | balanced (balancer : Balancer)

/-- The addresses a connection dials within its first `rounds + 1` rounds. -/
def Build.dials
    (build : Build) (ctx : CallContext Addr) (clock : ℕ → UInt32)
    (network : Network Addr Stream Error) (rounds : ℕ) : List Addr :=
  match build with
  | .unbalanced => [ctx.raddr]
  | .balanced balancer =>
      (attemptedWithin ctx balancer.total
        (balancer.healthConfig.bind HealthCheckConfig.maxLatencyMs)
        clock network (rounds + 1) 0
        (firstLoop ctx balancer (clock 0))).map ctx.selected

/-- How far a connection gets, with the addresses it dials. -/
inductive Dialling (Addr Error : Type) where
  | waiting
  | dials (addrs : List Addr)
  | rejected
  | io (error : Error)
  | panicked
deriving DecidableEq, Repr

/-- The beginning of `connect_and_relay`.  What the hook returns is dropped;
only its errors count. -/
def connectAndRelay
    (build : Build) (hook : Hook) (ctx : CallContext Addr)
    (answers : List (Except Error (List UInt8)))
    (clock : ℕ → UInt32) (network : Network Addr Stream Error)
    (rounds : ℕ) : Dialling Addr Error :=
  match preConnectHook hook ctx.raddr ctx.extraRaddrs answers with
  | none => .waiting
  | some (.peer _) => .dials (build.dials ctx clock network rounds)
  | some .rejected => .rejected
  | some (.io error) => .io error
  | some .panicked => .panicked

/-! ## What can be dialled -/

/-- The balancer may come to select the token. -/
def Selectable (balancer : Balancer) (token : Option Token) : Prop :=
  ∃ calls client now,
    ((balancer.performAll calls).next client now).1 = token

/-- The addresses that a build may come to dial for an endpoint. -/
def Build.MayDial
    (build : Build) (ctx : CallContext Addr) (addr : Addr) : Prop :=
  match build with
  | .unbalanced => addr = ctx.raddr
  | .balanced balancer =>
      ∃ token, Selectable balancer token ∧ addr = ctx.selected token

/-- An endpoint's build later on, after calls on its balancer. -/
def Build.Later : Build → Build → Prop
  | .unbalanced, .unbalanced => True
  | .balanced balancer, .balanced later =>
      ∃ calls, later = balancer.performAll calls
  | _, _ => False

theorem Build.later_refl (build : Build) : build.Later build := by
  cases build with
  | unbalanced => trivial
  | balanced balancer => exact ⟨[], rfl⟩

/-- The token of a loop is the last thing its balancer was asked for. -/
def FromBalancer
    (balancer : Balancer) (loop : ConnectLoop Stream) : Prop :=
  Selectable balancer loop.token ∧
    ∃ calls, loop.balancer = balancer.performAll calls

theorem performAll_concat
    (balancer : Balancer) (calls : List (Balancer.Call × UInt32))
    (call : Balancer.Call) (now : UInt32) :
    balancer.performAll (calls ++ [(call, now)]) =
      (balancer.performAll calls).perform call now := by
  simp [Balancer.performAll]

section Rounds

variable {balancer : Balancer} {loop next : ConnectLoop Stream}
variable {ctx : CallContext Addr} {total : UInt8}
variable {maxLatency : Option UInt32} {clock : ℕ → UInt32}

theorem fromBalancer_selectNext
    {calls : List (Balancer.Call × UInt32)}
    (reached : loop.balancer = balancer.performAll calls)
    (client : Client) (now : UInt32) :
    FromBalancer balancer (loop.selectNext client now) := by
  constructor
  · exact ⟨calls, client, now, by rw [ConnectLoop.selectNext, reached]⟩
  · refine ⟨calls ++ [(.next client, now)], ?_⟩
    rw [performAll_concat, ConnectLoop.selectNext, reached]
    rfl

theorem fromBalancer_firstLoop
    (balancer : Balancer) {calls : List (Balancer.Call × UInt32)}
    (ctx : CallContext Addr) (now : UInt32) :
    FromBalancer balancer
      (firstLoop ctx (balancer.performAll calls) now :
        ConnectLoop Stream) := by
  constructor
  · exact ⟨calls, ctx.client, now, rfl⟩
  · refine ⟨calls ++ [(.next ctx.client, now)], ?_⟩
    rw [performAll_concat]
    rfl

theorem reported_balancer
    {calls : List (Balancer.Call × UInt32)}
    (reached : loop.balancer = balancer.performAll calls)
    (now : UInt32) :
    ∃ calls, (loop.reported now).balancer = balancer.performAll calls := by
  cases named : loop.token with
  | none => exact ⟨calls, by simp only [ConnectLoop.reported, named, reached]⟩
  | some token =>
      refine ⟨calls ++ [(.onFailure token, now)], ?_⟩
      rw [performAll_concat]
      simp only [ConnectLoop.reported, named, reached]
      rfl

/-- A round that goes on has asked the balancer again. -/
theorem fromBalancer_round
    (attempt : Attempt Addr Stream Error) (reportAt selectAt : UInt32)
    (before : FromBalancer balancer loop)
    (again :
      loop.round ctx total maxLatency attempt reportAt selectAt =
        .again next) :
    FromBalancer balancer next := by
  rcases before.2 with ⟨calls, reached⟩
  rcases reported_balancer reached reportAt with ⟨later, reported⟩
  rw [ConnectLoop.round] at again
  split at again
  · split at again
    · simp only at again
      split at again
      · cases again
      · cases again
        apply fromBalancer_selectNext
        rw [ConnectLoop.remembered_balancer, reported]
    · split at again <;> cases again
  · simp only at again
    split at again
    · cases again
    · cases again
      exact fromBalancer_selectNext reported _ _

/-- Every token attempted is one the balancer may select. -/
theorem selectable_of_attempted
    (network : Network Addr Stream Error) {rounds index : ℕ}
    (before : FromBalancer balancer loop) {token : Option Token}
    (attempted :
      token ∈ attemptedWithin ctx total maxLatency clock network rounds
        index loop) :
    Selectable balancer token := by
  induction rounds generalizing index loop with
  | zero => cases attempted
  | succ rounds inductionHypothesis =>
      rw [attemptedWithin] at attempted
      rcases List.mem_cons.1 attempted with rfl | later
      · exact before.1
      · split at later
        · cases later
        · next again =>
          exact inductionHypothesis (fromBalancer_round _ _ _ before again)
            later

end Rounds

/-! ## The verdict and the peer -/

section Verdict

variable {build : Build} {hook : Hook} {ctx : CallContext Addr}
variable {idx : Int32} {buf : List UInt8}
variable {answers : List (Except Error (List UInt8))}

/-- The peer a verdict names, if it names one. -/
def namedPeer (ctx : CallContext Addr) (idx : Int32) : Option Addr :=
  if idx < 0 then none
  else if idx = 0 then some ctx.raddr
  else ctx.extraRaddrs[idx.toInt.toNat - 1]?

/-- The peer that was named is dialled and no other one, and nobody is
dialled if none was named. -/
def Honours
    (ctx : CallContext Addr) (idx : Int32)
    (dialling : Dialling Addr Error) : Prop :=
  match namedPeer ctx idx with
  | some addr =>
      ∃ addrs, dialling = .dials addrs ∧ addrs ≠ [] ∧
        ∀ dialled ∈ addrs, dialled = addr
  | none => dialling = .rejected

/-- Verdicts from 1 on without a remote are the ones that panic. -/
theorem peerOfVerdict_eq (ctx : CallContext Addr) (idx : Int32) :
    (peerOfVerdict ctx.raddr ctx.extraRaddrs idx : HookEnd Addr Error) =
      match namedPeer ctx idx with
      | some addr => .peer addr
      | none => if idx < 0 then .rejected else .panicked := by
  rw [peerOfVerdict, namedPeer]
  by_cases negative : idx < 0
  · have nonzero : idx ≠ 0 := by
      rintro rfl
      exact Int32.lt_irrefl negative
    have below : ¬1 ≤ idx := by
      rw [Int32.le_iff_toInt_le]
      rw [Int32.lt_iff_toInt_lt] at negative
      change ¬(1 : Int) ≤ idx.toInt
      change idx.toInt < 0 at negative
      omega
    simp [negative, nonzero, below]
  · by_cases zero : idx = 0
    · simp [zero]
    · have above : 1 ≤ idx := by
        rw [Int32.le_iff_toInt_le]
        rw [Int32.lt_iff_toInt_lt] at negative
        have other : idx.toInt ≠ 0 := fun equal =>
          zero (Int32.toInt_inj.1 equal)
        change (1 : Int) ≤ idx.toInt
        change ¬idx.toInt < 0 at negative
        omega
      simp only [negative, zero, if_false, above, Int32.le_refl, and_self,
        if_true]

theorem preConnectHook_eq
    (ctx : CallContext Addr) (loaded : hook.loaded = true)
    (packet : firstPacket hook answers = some (.ok buf)) :
    preConnectHook hook ctx.raddr ctx.extraRaddrs answers =
      some (peerOfVerdict ctx.raddr ctx.extraRaddrs
        (hook.decideRemoteIdx (.ofNat ctx.extraRaddrs.length) buf)) := by
  rw [preConnectHook, if_pos loaded, packet]
  rfl

/-- Every address dialled is one the build may dial. -/
theorem mayDial_of_dials
    {later : Build} {client : Client} {clock : ℕ → UInt32}
    {network : Network Addr Stream Error} {rounds : ℕ} {addr : Addr}
    (goesOn : build.Later later)
    (dialled :
      addr ∈ later.dials { ctx with client := client } clock network
        rounds) :
    build.MayDial ctx addr := by
  cases build with
  | unbalanced =>
      cases later with
      | unbalanced => exact List.mem_singleton.1 dialled
      | balanced => exact goesOn.elim
  | balanced balancer =>
      cases later with
      | unbalanced => exact goesOn.elim
      | balanced now =>
          rcases goesOn with ⟨calls, rfl⟩
          rcases List.mem_map.1 dialled with ⟨token, attempted, rfl⟩
          exact ⟨token,
            selectable_of_attempted network
              (fromBalancer_firstLoop balancer _ _) attempted, rfl⟩

/-- Every address the build may dial is dialled first by some connection. -/
theorem dials_of_mayDial
    (network : Network Addr Stream Error) {addr : Addr}
    (may : build.MayDial ctx addr) :
    ∃ later client clock, build.Later later ∧
      later.dials { ctx with client := client } clock network 0 =
        [addr] := by
  cases build with
  | unbalanced =>
      cases may
      exact ⟨.unbalanced, ctx.client, fun _ => 0, trivial, rfl⟩
  | balanced balancer =>
      rcases may with ⟨token, ⟨calls, client, now, rfl⟩, rfl⟩
      refine ⟨.balanced (balancer.performAll calls), client, fun _ => now,
        ⟨calls, rfl⟩, ?_⟩
      simp only [Build.dials, attemptedWithin]
      split <;> rfl

theorem dials_ne_nil
    (build : Build) (ctx : CallContext Addr) (clock : ℕ → UInt32)
    (network : Network Addr Stream Error) (rounds : ℕ) :
    build.dials ctx clock network rounds ≠ [] := by
  cases build with
  | unbalanced => exact List.cons_ne_nil _ _
  | balanced balancer =>
      rw [Build.dials, attemptedWithin]
      exact List.cons_ne_nil _ _

/--
The verdict is honoured by every connection of an endpoint exactly when it is
a rejection, or names the only address that the endpoint may dial anyway.
-/
theorem connectAndRelay_honours_iff
    (build : Build) (network : Network Addr Stream Error)
    (loaded : hook.loaded = true)
    (packet : firstPacket hook answers = some (.ok buf))
    (verdict :
      hook.decideRemoteIdx (.ofNat ctx.extraRaddrs.length) buf = idx) :
    (∀ later client clock rounds, build.Later later →
      Honours ctx idx
        (connectAndRelay later hook { ctx with client := client } answers
          clock network rounds)) ↔
      idx < 0 ∨ ∃ addr, namedPeer ctx idx = some addr ∧
        ∀ dialled, build.MayDial ctx dialled → dialled = addr := by
  have ends : ∀ later client clock rounds,
      connectAndRelay later hook { ctx with client := client } answers clock
          network rounds =
        match (peerOfVerdict ctx.raddr ctx.extraRaddrs idx :
          HookEnd Addr Error) with
        | .peer _ =>
            .dials (later.dials { ctx with client := client } clock network
              rounds)
        | .rejected => .rejected
        | .io error => .io error
        | .panicked => .panicked := by
    intro later client clock rounds
    simp only [connectAndRelay, preConnectHook_eq ctx loaded packet, verdict]
    split <;> simp_all
  have peer :
      (peerOfVerdict ctx.raddr ctx.extraRaddrs idx : HookEnd Addr Error) =
        _ :=
    peerOfVerdict_eq ctx idx
  cases named : namedPeer ctx idx with
  | none =>
      by_cases negative : idx < 0
      · simp [Honours, named, ends, peer, negative]
      · simp only [Honours, named, ends, peer, negative, if_false,
          reduceCtorEq, false_and, exists_false, or_false, iff_false]
        intro honours
        exact honours build ctx.client (fun _ => 0) 0 (Build.later_refl build)
  | some addr =>
      have nonnegative : ¬idx < 0 := by
        intro negative
        rw [namedPeer, if_pos negative] at named
        cases named
      simp only [Honours, named, ends, peer, nonnegative, false_or,
        Dialling.dials.injEq, exists_eq_left', Option.some.injEq]
      constructor
      · intro honours dialled may
        rcases dials_of_mayDial network may with
          ⟨later, client, clock, goesOn, dials⟩
        have only := (honours later client clock 0 goesOn).2
        rw [dials] at only
        exact only dialled (List.mem_singleton_self _)
      · intro only later client clock rounds goesOn
        refine ⟨dials_ne_nil _ _ _ _ _, ?_⟩
        intro dialled member
        exact only dialled (mayDial_of_dials goesOn member)

end Verdict

/-- A library with one verdict for everyone, without a look at the packet. -/
def Hook.constant (idx : Int32) : Hook where
  loaded := true
  firstPktLen := 0
  decideRemoteIdx _ _ := idx

/-- An endpoint with the remote 0 and the extra remote 1. -/
def twoRemotes : CallContext ℕ where
  raddr := 0
  extraRaddrs := [1]
  pool := false
  client := ⟨.v4 fun _ => 0, 0⟩
  logsInfo := false

/-- Everyone answers at once. -/
def answering : Network ℕ Unit Unit := fun _ _ =>
  { popIdle := none
    connect := fun _ => .ok ()
    elapsedMs := 0
    localPeerAddr := .ok ()
    streamPeerAddr := .ok () }

/-- Without the balancer the default verdict is honoured. -/
theorem connectAndRelay_honours_iff_default :
    (∀ later client clock rounds, Build.Later .unbalanced later →
      Honours twoRemotes 0
        (connectAndRelay later (.constant 0)
          { twoRemotes with client := client } [] clock answering
          rounds)) ↔
      (0 : Int32) < 0 ∨ ∃ addr, namedPeer twoRemotes 0 = some addr ∧
        ∀ dialled, Build.MayDial .unbalanced twoRemotes dialled →
          dialled = addr :=
  connectAndRelay_honours_iff .unbalanced answering rfl
    (rfl : firstPacket (.constant 0) [] = some (.ok [])) rfl

/-- The extra remote is named, and the remote dialled. -/
theorem connectAndRelay_ignores_the_verdict :
    ¬∀ (build : Build) (hook : Hook) (ctx : CallContext ℕ)
      (answers : List (Except Unit (List UInt8))) (buf : List UInt8)
      (clock : ℕ → UInt32) (network : Network ℕ Unit Unit) (rounds : ℕ),
      hook.loaded = true → firstPacket hook answers = some (.ok buf) →
        Honours ctx
          (hook.decideRemoteIdx (.ofNat ctx.extraRaddrs.length) buf)
          (connectAndRelay build hook ctx answers clock network
            rounds) := by
  intro honours
  rcases honours .unbalanced (.constant 1) twoRemotes [] [] (fun _ => 0)
      answering 0 rfl rfl with ⟨addrs, dials, -, only⟩
  cases dials
  cases only 0 (List.mem_singleton_self 0)

end ByteHub.Core
