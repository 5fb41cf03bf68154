import ByteHub.Conf.Endpoint
import ByteHub.Core.Connect
import ByteHub.Lb.BalancerRuns

/-!
# Weights and remotes

What becomes of the weights in a balance text.  Numbers that do not fit a
`u8` are dropped before positions become tokens, and the number of weights
is never compared with the number of remotes.  So weights and remotes are
aligned if every number fits and there are as many as remotes.
-/

namespace ByteHub.Conf

open ByteHub.Core
open ByteHub.Lb

/-! ## Trimming and splitting -/

theorem trim_cons_of_isWhitespace
    {c : Char} (white : isWhitespace c = true) (text : List Char) :
    trim (c :: text) = trim text := by
  rw [trim, List.dropWhile_cons_of_pos white]
  rfl

theorem trim_concat_of_isWhitespace
    {c : Char} (white : isWhitespace c = true) (text : List Char) :
    trim (text ++ [c]) = trim text := by
  unfold trim
  rw [List.dropWhile_append]
  cases rest : text.dropWhile isWhitespace with
  | nil => simp [white]
  | cons d rest =>
      rw [if_neg (by simp)]
      exact List.rdropWhile_concat_pos _ _ _ white

/-- Appending to a text appends to its last piece. -/
theorem exists_splitOn_concat
    {separator c : Char} (other : c ≠ separator) (text : List Char) :
    ∃ pieces last,
      text.splitOn separator = pieces ++ [last] ∧
      (text ++ [c]).splitOn separator = pieces ++ [last ++ [c]] := by
  induction text with
  | nil => exact ⟨[], [], by simp, by
      simp [List.splitOn_cons_eq_if_modifyHead, other]⟩
  | cons d text inductionHypothesis =>
      rcases inductionHypothesis with ⟨pieces, last, before, after⟩
      rw [List.cons_append, List.splitOn_cons_eq_if_modifyHead,
        List.splitOn_cons_eq_if_modifyHead, before, after]
      split
      · exact ⟨[] :: pieces, last, rfl, rfl⟩
      · cases pieces with
        | nil => exact ⟨[], d :: last, rfl, rfl⟩
        | cons piece pieces => exact ⟨(d :: piece) :: pieces, last, rfl, rfl⟩

section Split

variable {separator : Char} (solid : isWhitespace separator = false)

include solid

theorem ne_separator
    {c : Char} (white : isWhitespace c = true) : c ≠ separator := by
  rintro rfl
  rw [solid] at white
  cases white

theorem map_trim_splitOn_dropWhile (text : List Char) :
    ((text.dropWhile isWhitespace).splitOn separator).map trim =
      (text.splitOn separator).map trim := by
  induction text with
  | nil => rfl
  | cons c text inductionHypothesis =>
      cases white : isWhitespace c with
      | false => rw [List.dropWhile_cons_of_neg (by simp [white])]
      | true =>
          rw [List.dropWhile_cons_of_pos white, inductionHypothesis,
            List.splitOn_cons_eq_if_modifyHead,
            if_neg (by simpa using ne_separator solid white)]
          cases text.splitOn separator with
          | nil => rfl
          | cons piece pieces =>
              simp [trim_cons_of_isWhitespace white]

theorem map_trim_splitOn_rdropWhile (text : List Char) :
    ((text.rdropWhile isWhitespace).splitOn separator).map trim =
      (text.splitOn separator).map trim := by
  induction text using List.reverseRecOn with
  | nil => rfl
  | append_singleton text c inductionHypothesis =>
      cases white : isWhitespace c with
      | false => rw [List.rdropWhile_concat_neg _ _ _ (by simp [white])]
      | true =>
          rw [List.rdropWhile_concat_pos _ _ _ white, inductionHypothesis]
          rcases exists_splitOn_concat (ne_separator solid white) text with
            ⟨pieces, last, before, after⟩
          rw [before, after]
          simp [trim_concat_of_isWhitespace white]

/-- Trimming a text before it is split changes no trimmed piece. -/
theorem map_trim_splitOn_trim (text : List Char) :
    ((trim text).splitOn separator).map trim =
      (text.splitOn separator).map trim := by
  rw [trim, map_trim_splitOn_rdropWhile solid,
    map_trim_splitOn_dropWhile solid]

end Split

theorem splitOnce_append
    {separator : Char} {before : List Char} (none_ : separator ∉ before)
    (after : List Char) :
    splitOnce separator (before ++ separator :: after) =
      some (before, after) := by
  induction before with
  | nil => simp [splitOnce]
  | cons c before inductionHypothesis =>
      rw [List.mem_cons, not_or] at none_
      rw [List.cons_append, splitOnce, if_neg (Ne.symm none_.1),
        inductionHypothesis none_.2]
      rfl

/-! ## Balance texts -/

/-- A text `strategy: w0, w1, ..., wk` with at least one number. -/
structure Spells
    (text : List Char) (strategy : Strategy) (numbers : List ℕ) : Prop where
  spelt : ∃ (name : List Char) (entries : List (List Char)),
    text = name ++ ':' :: [','].intercalate entries ∧
    ':' ∉ name ∧ Strategy.ofName (trim name) = some strategy ∧
    entries ≠ [] ∧ (∀ entry ∈ entries, ',' ∉ entry) ∧
    entries.map (fun entry => parseNumber (trim entry)) = numbers.map some

/-- The numbers that fit a weight. -/
def fitting (numbers : List ℕ) : List ℕ :=
  numbers.filter fun number => number ≤ 255

theorem filterMap_parseU8
    {entries : List (List Char)} {numbers : List ℕ}
    (parsed : entries.map parseNumber = numbers.map some) :
    entries.filterMap parseU8 = (fitting numbers).map UInt8.ofNat := by
  induction entries generalizing numbers with
  | nil =>
      cases numbers with
      | nil => rfl
      | cons => cases parsed
  | cons entry entries inductionHypothesis =>
      cases numbers with
      | nil => cases parsed
      | cons number numbers =>
          rcases List.cons.inj parsed with ⟨here, there⟩
          have narrowed :
              parseU8 entry =
                if number ≤ 255 then some (UInt8.ofNat number)
                else none := by
            rw [parseU8, here, Option.bind_some]
            exact if_congr Nat.lt_succ_iff rfl rfl
          have rest := inductionHypothesis there
          by_cases fits : number ≤ 255
          · rw [List.filterMap_cons_some (narrowed.trans (if_pos fits)),
              rest, fitting, fitting,
              List.filter_cons_of_pos (by simpa using fits), List.map_cons]
          · rw [List.filterMap_cons_none (narrowed.trans (if_neg fits)),
              rest, fitting, fitting,
              List.filter_cons_of_neg (by simpa using fits)]

/-- What a balance text is read as. -/
theorem balanceOf_eq
    {text : List Char} {strategy : Strategy} {numbers : List ℕ}
    (spells : Spells text strategy numbers) :
    EndpointConf.balanceOf text =
      (some strategy, (fitting numbers).map UInt8.ofNat) := by
  rcases spells.spelt with
    ⟨name, entries, rfl, noColon, named, nonempty, noComma, parsed⟩
  have pieces :
      ((trim ([','].intercalate entries)).splitOn ',').map trim =
        entries.map trim := by
    rw [map_trim_splitOn_trim (by decide),
      List.splitOn_intercalate ',' noComma nonempty]
  have weights :
      ((trim ([','].intercalate entries)).splitOn ',').filterMap
          (fun w => parseU8 (trim w)) =
        (fitting numbers).map UInt8.ofNat := by
    have read :
        (entries.map trim).map parseNumber = numbers.map some := by
      rw [List.map_map]
      exact parsed
    rw [← filterMap_parseU8 read, ← pieces, List.filterMap_map]
    rfl
  rw [EndpointConf.balanceOf, splitOnce_append noColon]
  exact Prod.ext named weights

/-! ## Alignment -/

/-- Every number belongs to the peer at its place.  A single peer takes all
connections, so no weight is kept of it. -/
def HasWeights (balancer : Balancer) (numbers : List ℕ) : Prop :=
  balancer.total.toNat = numbers.length ∧
    (2 ≤ numbers.length →
      match balancer with
      | .off => False
      | .ipHash _ ih =>
          ∃ ratio, 0 < ratio ∧
            ∀ (position : ℕ) (number : ℕ),
              numbers[position]? = some number →
                ih.nodes.countP
                    (fun node => node.token = Token.ofPosition position) =
                  number * ratio + 1
      | .roundRobin rr =>
          rr.nodes.map (fun node => (node.token, node.weight.toNat)) =
            numbers.mapIdx fun position number =>
              (Token.ofPosition position, number))

/-- After some calls a selection can name the token. -/
def Nameable (balancer : Balancer) (token : Token) : Prop :=
  ∃ (calls : List (Balancer.Call × UInt32)) (client : Client)
    (now : UInt32),
    ((balancer.performAll calls).next client now).1 = some token

/-- The remote a token selects stands at the token's own place, so different
tokens select different remotes. -/
def SelectsOwnRemote
    {kaminari : Kaminari} (endpoint : Endpoint kaminari) (token : Token) :
    Prop :=
  ∀ ctx : CallContext RemoteAddr,
    ctx.raddr = endpoint.raddr → ctx.extraRaddrs = endpoint.extraRaddrs →
      (endpoint.raddr :: endpoint.extraRaddrs)[token.index.toNat]? =
        some (ctx.selected (some token))

/-- Weights and remotes are aligned. -/
structure Aligned
    {kaminari : Kaminari} (endpoint : Endpoint kaminari)
    (remotes : ℕ) (numbers : List ℕ) : Prop where
  total_eq : endpoint.connOpts.balancer.total.toNat = remotes
  weights : HasWeights endpoint.connOpts.balancer numbers
  selects : ∀ token, Nameable endpoint.connOpts.balancer token →
    SelectsOwnRemote endpoint token

theorem selectsOwnRemote_of_lt
    {kaminari : Kaminari} {endpoint : Endpoint kaminari} {token : Token}
    (inside : token.index.toNat < 1 + endpoint.extraRaddrs.length) :
    SelectsOwnRemote endpoint token := by
  intro ctx raddr extraRaddrs
  rw [CallContext.selected, raddr, extraRaddrs]
  by_cases first : token.index = 0
  · simp [first]
  · rw [if_neg first]
    have positive : token.index.toNat ≠ 0 := by
      intro zero
      exact first (UInt8.toNat_inj.1 zero)
    rcases Nat.exists_eq_succ_of_ne_zero positive with ⟨place, placed⟩
    rw [placed] at inside ⊢
    have there : place < endpoint.extraRaddrs.length := by omega
    simp [List.getD_eq_getElem?_getD, there]

theorem countP_replicas
    (ratio : ℕ) {place position : ℕ} (weight : UInt8)
    (placeSmall : place < 256) (positionSmall : position < 256) :
    (replicas ratio place weight).countP
        (fun node => node.token = Token.ofPosition position) =
      if place = position then weight.toNat * ratio + 1 else 0 := by
  rw [replicas, List.countP_map]
  by_cases same : place = position
  · subst same
    simp [Function.comp_def]
  · have differs :
        Token.ofPosition place ≠ Token.ofPosition position := by
      rw [Ne, Token.ofPosition_inj placeSmall positionSmall]
      exact same
    simp [Function.comp_def, differs, same]

/-- The virtual nodes of one peer among those of all. -/
theorem countP_flatten_replicas
    (ratio offset : ℕ) {position : ℕ} (values : List UInt8)
    (small : offset + values.length ≤ 256) (inRange : position < 256) :
    ((values.mapIdx fun place weight =>
        replicas ratio (offset + place) weight).flatten).countP
        (fun node => node.token = Token.ofPosition position) =
      if offset ≤ position then
        (values[position - offset]?).elim 0 fun weight =>
          weight.toNat * ratio + 1
      else 0 := by
  induction values generalizing offset with
  | nil => simp
  | cons weight values inductionHypothesis =>
      rw [List.length_cons] at small
      have rest := inductionHypothesis (offset + 1) (by omega)
      have shift :
          (values.mapIdx fun place weight =>
              replicas ratio (offset + (place + 1)) weight) =
            values.mapIdx fun place weight =>
              replicas ratio (offset + 1 + place) weight := by
        congr
        funext place weight
        rw [Nat.add_assoc, Nat.add_comm 1]
      rw [List.mapIdx_cons, List.flatten_cons, List.countP_append, shift,
        rest, Nat.add_zero, countP_replicas ratio weight (by omega) inRange]
      rcases Nat.lt_trichotomy offset position with before | rfl | after
      · rw [if_neg (Nat.ne_of_lt before), if_pos (Nat.succ_le_of_lt before),
          if_pos (Nat.le_of_lt before)]
        have step : position - offset = position - (offset + 1) + 1 := by
          omega
        rw [step, List.getElem?_cons_succ, Nat.zero_add]
      · simp
      · rw [if_neg (Nat.ne_of_gt after), if_neg (by omega),
          if_neg (by omega)]

theorem replicaRatio_pos (values : List UInt8) :
    0 < replicaRatio values := by
  unfold replicaRatio
  dsimp only
  split
  · exact Nat.one_pos
  · split
    · exact Nat.succ_pos _
    · next nonzero =>
      exact Nat.div_pos (by omega) (Nat.pos_of_ne_zero nonzero)

section New

variable {numbers : List ℕ}

/-- A weight that fits a byte is the byte. -/
theorem toNat_of_fits
    (fit : ∀ number ∈ numbers, number ≤ 255) {position number : ℕ}
    (here : numbers[position]? = some number) :
    (UInt8.ofNat number).toNat = number :=
  UInt8.toNat_ofNat_of_lt'
    (Nat.lt_succ_of_le (fit number (List.mem_of_getElem? here)))

/-- The virtual nodes of each peer on a new ring. -/
theorem countP_nodes_ipHash
    (sort : UnstableSort) (config : Option HealthCheckConfig)
    (fit : ∀ number ∈ numbers, number ≤ 255)
    (bounded : (numbers.map UInt8.ofNat).length ≤ 255)
    (several : ¬ (numbers.map UInt8.ofNat).length ≤ 1)
    {position number : ℕ} (here : numbers[position]? = some number) :
    (IpHash.new sort ⟨numbers.map UInt8.ofNat, bounded⟩
        config).nodes.countP
        (fun node => node.token = Token.ofPosition position) =
      number * replicaRatio (numbers.map UInt8.ofNat) + 1 := by
  have inside : position < numbers.length :=
    (List.getElem?_eq_some_iff.1 here).1
  have small : position < 256 := by
    rw [List.length_map] at bounded
    omega
  have ring :
      (IpHash.new sort ⟨numbers.map UInt8.ofNat, bounded⟩ config).nodes =
        sort.sort (unsortedRing ⟨numbers.map UInt8.ofNat, bounded⟩) :=
    if_neg several
  have count :=
    countP_flatten_replicas (replicaRatio (numbers.map UInt8.ofNat)) 0
      (numbers.map UInt8.ofNat) (by omega) small
  simp only [Nat.zero_add, Nat.zero_le, if_true, Nat.sub_zero,
    List.getElem?_map, here, Option.map_some, Option.elim_some,
    toNat_of_fits fit here] at count
  rw [ring, (sort.perm _).countP_eq]
  exact count

/-- The nodes of a new round robin, by their tokens and weights. -/
theorem nodes_roundRobin
    (config : Option HealthCheckConfig)
    (fit : ∀ number ∈ numbers, number ≤ 255)
    (bounded : (numbers.map UInt8.ofNat).length ≤ 255)
    (several : ¬ (numbers.map UInt8.ofNat).length ≤ 1) :
    (RoundRobin.new ⟨numbers.map UInt8.ofNat, bounded⟩ config).nodes.map
        (fun node => (node.token, node.weight.toNat)) =
      numbers.mapIdx fun position number =>
        (Token.ofPosition position, number) := by
  have nodes :
      (RoundRobin.new ⟨numbers.map UInt8.ofNat, bounded⟩ config).nodes =
        (numbers.map UInt8.ofNat).mapIdx RoundRobin.freshNode :=
    if_neg several
  rw [nodes]
  apply List.ext_getElem?
  intro position
  rw [List.getElem?_map, List.getElem?_mapIdx, List.getElem?_map,
    List.getElem?_mapIdx]
  cases here : numbers[position]? with
  | none => rfl
  | some number =>
      simp [RoundRobin.freshNode, toNat_of_fits fit here]

/-- A balancer for weights has just these weights. -/
theorem hasWeights_new
    {sort : UnstableSort} {search : BinarySearch} {strategy : Strategy}
    {config : Option HealthCheckConfig} {balancer : Balancer}
    (fit : ∀ number ∈ numbers, number ≤ 255)
    (few : numbers.length ≤ 255) (selects : strategy ≠ .off)
    (built : Balancer.new sort search strategy
      (numbers.map UInt8.ofNat) config = some balancer) :
    HasWeights balancer numbers := by
  have bounded : (numbers.map UInt8.ofNat).length ≤ 255 := by
    rw [List.length_map]
    exact few
  have shape := Balancer.shape_new bounded built
  refine ⟨?_, ?_⟩
  · rw [shape.total_eq selects]
    exact List.length_map _
  · intro two
    have several : ¬ (numbers.map UInt8.ofNat).length ≤ 1 := by
      rw [List.length_map]
      omega
    cases strategy with
    | off => exact (selects rfl).elim
    | ipHash =>
        rw [Balancer.new, dif_pos bounded] at built
        cases built
        exact ⟨_, replicaRatio_pos _, fun position number here =>
          countP_nodes_ipHash sort config fit bounded several here⟩
    | roundRobin =>
        rw [Balancer.new, dif_pos bounded] at built
        cases built
        exact nodes_roundRobin config fit bounded several

end New

/-- Every token of a balancer with a peer for every remote selects its own
remote. -/
theorem selects_of_total
    {kaminari : Kaminari} {endpoint : Endpoint kaminari}
    {weights : Weights} {config : Option HealthCheckConfig}
    {strategy : Strategy}
    (shape : endpoint.connOpts.balancer.Shape weights config strategy)
    (count : weights.count = 1 + endpoint.extraRaddrs.length)
    {token : Token} (nameable : Nameable endpoint.connOpts.balancer token) :
    SelectsOwnRemote endpoint token := by
  rcases nameable with ⟨calls, client, now, named⟩
  rcases (shape.performAll calls).next_inside client now with
    ⟨position, chosen, inside | ⟨first, _⟩⟩
  · rw [named, Option.some.injEq] at chosen
    apply selectsOwnRemote_of_lt
    rw [chosen, weights.ofPosition_toNat inside, ← count]
    exact inside
  · rw [named, Option.some.injEq] at chosen
    apply selectsOwnRemote_of_lt
    rw [chosen, first, Token.ofPosition_toNat (by decide)]
    omega

section Endpoints

variable (system : System) {conf : EndpointConf}
variable {text : String} {strategy : Strategy} {numbers : List ℕ}

/-- The endpoint cannot be built, whatever its balance text. -/
def EndpointConf.Unbuildable (conf : EndpointConf) : Prop :=
  ({ conf with balance := none } : EndpointConf).build system = none

theorem unbuildable_iff :
    conf.Unbuildable system ↔ conf.parts system = none := by
  have sameParts :
      ({ conf with balance := none } : EndpointConf).parts system =
        conf.parts system := rfl
  rw [EndpointConf.Unbuildable, EndpointConf.build_eq, sameParts]
  cases conf.parts system with
  | none => exact ⟨fun _ => rfl, fun _ => rfl⟩
  | some parts =>
      constructor
      · intro built
        cases built
      · intro built
        cases built

theorem length_of_mapM
    {α β : Type} {build : α → Option β} {items : List α} {built : List β}
    (all : items.mapM build = some built) :
    built.length = items.length := by
  induction items generalizing built with
  | nil =>
      cases all
      rfl
  | cons item items inductionHypothesis =>
      rw [List.mapM_cons] at all
      rcases Option.bind_eq_some_iff.1 all with ⟨first, _, rest⟩
      rcases Option.bind_eq_some_iff.1 rest with ⟨others, there, made⟩
      cases made
      rw [List.length_cons, List.length_cons, inductionHypothesis there]

theorem parts_extraRaddrs
    {parts : EndpointConf.Parts system.kaminari}
    (built : conf.parts system = some parts) :
    parts.extraRaddrs.length = conf.extraRemotes.length := by
  simp only [EndpointConf.parts, Option.bind_eq_bind,
    Option.bind_eq_some_iff] at built
  rcases built with ⟨_, _, _, _, _, extra, _, _, _, _, _, _, made⟩
  cases made
  exact length_of_mapM extra

/-- The balancer a text stands for. -/
theorem ownBalancer_eq
    (balance : conf.balance = some text)
    (spells : Spells text.toList strategy numbers) :
    conf.ownBalancer system =
      Balancer.new system.sort system.search strategy
        ((fitting numbers).map UInt8.ofNat)
        (EndpointConf.healthCheckOf conf.network.maxFails
          conf.network.failTimeout conf.network.maxLatency) := by
  rw [EndpointConf.ownBalancer, EndpointConf.buildBalancer, balance]
  dsimp only
  rw [balanceOf_eq spells]
  rfl

/-- A balancer for the numbers that fit is aligned just where all of them do
and there are as many as remotes. -/
theorem aligned_iff
    {kaminari : Kaminari} {endpoint : Endpoint kaminari}
    {sort : UnstableSort} {search : BinarySearch}
    {config : Option HealthCheckConfig}
    (selects : strategy ≠ .off) (few : (fitting numbers).length ≤ 255)
    (built : Balancer.new sort search strategy
      ((fitting numbers).map UInt8.ofNat) config =
        some endpoint.connOpts.balancer) :
    Aligned endpoint (1 + endpoint.extraRaddrs.length) numbers ↔
      (∀ number ∈ numbers, number ≤ 255) ∧
        numbers.length = 1 + endpoint.extraRaddrs.length := by
  have bounded : ((fitting numbers).map UInt8.ofNat).length ≤ 255 := by
    rw [List.length_map]
    exact few
  have shape := Balancer.shape_new bounded built
  have total :
      endpoint.connOpts.balancer.total.toNat = (fitting numbers).length :=
    (shape.total_eq selects).trans (List.length_map _)
  constructor
  · rintro ⟨remotes, weights, _⟩
    have all : (fitting numbers).length = numbers.length :=
      total.symm.trans weights.1
    refine ⟨?_, weights.1.symm.trans remotes⟩
    intro number member
    simpa using List.length_filter_eq_length_iff.1 all number member
  · rintro ⟨fit, length⟩
    have all : fitting numbers = numbers :=
      List.filter_eq_self.2 fun number member => by
        simpa using fit number member
    refine ⟨?_, ?_, ?_⟩
    · rw [total, all]
      exact length
    · rw [all] at built few
      exact hasWeights_new fit few selects built
    · intro token nameable
      refine selects_of_total shape ?_ nameable
      rw [Weights.count, List.length_map, all]
      exact length

/-- Building is rejected, or weights and remotes are aligned. -/
def RejectedOrAligned
    (conf : EndpointConf) (numbers : List ℕ) : Prop :=
  conf.build system = none ∨
    ∃ info, conf.build system = some info ∧
      Aligned info.endpoint (1 + conf.extraRemotes.length) numbers

/--
For every endpoint with a balance text of a selecting strategy: building it
is rejected or weights and remotes are aligned, if and only if the endpoint
cannot be built anyway, more than 255 of the numbers fit a weight, or all of
them do and there are as many as remotes.
-/
theorem weights_aligned_iff
    (balance : conf.balance = some text)
    (spells : Spells text.toList strategy numbers)
    (selects : strategy ≠ .off) :
    RejectedOrAligned system conf numbers ↔
      conf.Unbuildable system ∨ 255 < (fitting numbers).length ∨
        ((∀ number ∈ numbers, number ≤ 255) ∧
          numbers.length = 1 + conf.extraRemotes.length) := by
  rw [unbuildable_iff, RejectedOrAligned, EndpointConf.build_eq,
    ownBalancer_eq system balance spells]
  cases partsBuilt : conf.parts system with
  | none => exact ⟨fun _ => .inl rfl, fun _ => .inl rfl⟩
  | some parts =>
      have extra := parts_extraRaddrs system partsBuilt
      rw [Option.bind_some, Option.map_eq_none_iff,
        Balancer.new_eq_none_iff selects, List.length_map]
      by_cases many : 255 < (fitting numbers).length
      · exact ⟨fun _ => .inr (.inl many), fun _ => .inl many⟩
      have few := Nat.le_of_not_lt many
      cases built : Balancer.new system.sort system.search strategy
          ((fitting numbers).map UInt8.ofNat)
          (EndpointConf.healthCheckOf conf.network.maxFails
            conf.network.failTimeout conf.network.maxLatency) with
      | none =>
          rw [Balancer.new_eq_none_iff selects, List.length_map] at built
          exact absurd built many
      | some balancer =>
          have same :=
            @aligned_iff _ _ _
              (conf.assemble system parts balancer).endpoint _ _ _ selects
              few built
          rw [← extra]
          constructor
          · rintro (tooMany | ⟨info, made, aligned⟩)
            · exact absurd tooMany many
            · cases made
              exact .inr (.inr (same.1 aligned))
          · rintro (impossible | tooMany | fits)
            · cases impossible
            · exact absurd tooMany many
            · exact .inr ⟨_, rfl, same.2 fits⟩

end Endpoints

/-! ## A text whose numbers do not all fit -/

/-- Three remotes with a weight too large for the second one. -/
def threeRemotes : EndpointConf where
  listen := "0.0.0.0:5000"
  remote := "10.0.0.1:80"
  extraRemotes := ["10.0.0.2:80", "10.0.0.3:80"]
  obfs := none
  probeTargets := []
  balance := some "roundrobin: 1, 300, 2"
  through := none
  interface := none
  listenInterface := none
  listenTransport := none
  remoteTransport := none
  network := .empty

/-- A system that reads the addresses of the endpoint. -/
def threeAddresses : System :=
  .reading
    [("0.0.0.0:5000", .quad 0 0 0 0 5000),
      ("10.0.0.1:80", .quad 10 0 0 1 80),
      ("10.0.0.2:80", .quad 10 0 0 2 80),
      ("10.0.0.3:80", .quad 10 0 0 3 80)]

theorem threeRemotes_spells :
    Spells "roundrobin: 1, 300, 2".toList .roundRobin [1, 300, 2] := by
  refine ⟨"roundrobin".toList, [" 1".toList, " 300".toList, " 2".toList],
    ?_, ?_, ?_, ?_, ?_, ?_⟩
  · decide
  · decide
  · decide
  · decide
  · decide
  · decide

/-- The second weight is dropped and the third taken for it. -/
theorem threeRemotes_misaligned :
    Spells "roundrobin: 1, 300, 2".toList .roundRobin [1, 300, 2] ∧
      ¬ RejectedOrAligned threeAddresses threeRemotes [1, 300, 2] := by
  have two :
      (threeRemotes.build threeAddresses).map
          (fun info => info.endpoint.connOpts.balancer.total) = some 2 := by
    decide +kernel
  refine ⟨threeRemotes_spells, ?_⟩
  rintro (rejected | ⟨info, built, aligned⟩)
  · rw [rejected] at two
    cases two
  · rw [built, Option.map_some, Option.some.injEq] at two
    have three := aligned.total_eq
    rw [two] at three
    cases three

/-- The three remotes with weights that all fit. -/
def threeFitting : EndpointConf :=
  { threeRemotes with balance := some "roundrobin: 1, 3, 2" }

theorem threeFitting_spells :
    Spells "roundrobin: 1, 3, 2".toList .roundRobin [1, 3, 2] := by
  refine ⟨"roundrobin".toList, [" 1".toList, " 3".toList, " 2".toList],
    ?_, ?_, ?_, ?_, ?_, ?_⟩
  · decide
  · decide
  · decide
  · decide
  · decide
  · decide

/-- With fitting weights the three remotes are built, and aligned. -/
theorem weights_aligned_iff_threeFitting :
    ∃ info, threeFitting.build threeAddresses = some info ∧
      Aligned info.endpoint 3 [1, 3, 2] := by
  have built : (threeFitting.build threeAddresses).isSome = true := by
    decide +kernel
  have sound : RejectedOrAligned threeAddresses threeFitting [1, 3, 2] :=
    (weights_aligned_iff threeAddresses rfl threeFitting_spells
      (by decide)).2 (.inr (.inr ⟨by decide, rfl⟩))
  rcases sound with rejected | aligned
  · rw [rejected] at built
    cases built
  · exact aligned

end ByteHub.Conf
