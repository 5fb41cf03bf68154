import ByteHub.Lb.Peer

/-!
# The smooth weighted round robin balancer

A `RoundRobin` holds one node per peer under a mutex.  `next` walks over all
nodes once: excluded nodes are skipped, the others earn their effective
weight, and the first node of maximal credit is selected and pays the total.
`onSuccess` and `onFailure` maintain the failure counter and the exclusion
deadline of a single node.

The credits and the total are `i16`, the counters and the clock `u32`; all
of them wrap as in a release build.  The clock reading is an argument.
-/

namespace ByteHub.Lb

/-- Round-robin node. -/
structure Node where
  cw : Int16
  ew : UInt8
  weight : UInt8
  token : Token
  fails : UInt32
  checked : UInt32
deriving DecidableEq, Repr

/-- The cast `ew as i16`. -/
def Node.share (p : Node) : Int16 :=
  Int16.ofNat p.ew.toNat

/-- The node has earned its effective weight. -/
def Node.credited (p : Node) : Node :=
  { p with cw := p.cw + p.share }

/-- The health state of a node without failures. -/
def Node.recovered (p : Node) : Node :=
  { p with fails := 0, checked := 0 }

/-- The selected node pays the total and regains one step of weight. -/
def Node.settled (tw : Int16) (p : Node) : Node :=
  { p with
    cw := p.cw - tw
    ew := if p.ew < p.weight then p.ew + 1 else p.ew }

/-- Round robin balancer. -/
structure RoundRobin where
  nodes : List Node
  total : UInt8
  config : Option HealthCheckConfig
deriving DecidableEq, Repr

namespace RoundRobin

/-- The node the constructor makes for a weight. -/
def freshNode (position : ℕ) (weight : UInt8) : Node where
  cw := 0
  ew := weight
  weight := weight
  token := Token.ofPosition position
  fails := 0
  checked := 0

/-- Constructor: lists of at most one weight get no nodes at all. -/
def new (weights : Weights) (config : Option HealthCheckConfig) :
    RoundRobin where
  nodes :=
    if weights.count ≤ 1 then []
    else weights.values.mapIdx freshNode
  total := UInt8.ofNat weights.count
  config := config

/-! ## Selection -/

/--
The health gate of the selection loop.  A node inside its exclusion window
is skipped (`none`); one whose window is over recovers.
-/
def healthGate
    (config : Option HealthCheckConfig) (now : UInt32) (p : Node) :
    Option Node :=
  match config with
  | none => some p
  | some cfg =>
      if cfg.maxFails ≤ p.fails then
        if now < p.checked then none else some p.recovered
      else some p

/--
Loop state of `next`: the nodes walked over so far, the total weight `tw`,
position and credit of `best`, and `first_token`.
-/
structure Scan where
  nodes : List Node
  tw : Int16
  best : Option (ℕ × Int16)
  firstToken : Option Token
deriving DecidableEq, Repr

def Scan.start : Scan where
  nodes := []
  tw := 0
  best := none
  firstToken := none

/-- A node with strictly more credit replaces the best one so far. -/
def better
    (best : Option (ℕ × Int16)) (position : ℕ) (cw : Int16) :
    Option (ℕ × Int16) :=
  match best with
  | some (held, heldCw) =>
      if heldCw < cw then some (position, cw) else some (held, heldCw)
  | none => some (position, cw)

/-- One iteration of the selection loop. -/
def Scan.step
    (config : Option HealthCheckConfig) (now : UInt32)
    (scan : Scan) (p : Node) : Scan :=
  let firstToken :=
    if config.isSome then scan.firstToken.or (some p.token)
    else scan.firstToken
  match healthGate config now p with
  | none =>
      { scan with nodes := scan.nodes ++ [p], firstToken := firstToken }
  | some q =>
      { nodes := scan.nodes ++ [q.credited]
        tw := scan.tw + q.share
        best := better scan.best scan.nodes.length q.credited.cw
        firstToken := firstToken }

/-- The whole selection loop. -/
def scanAll
    (config : Option HealthCheckConfig) (now : UInt32)
    (nodes : List Node) : Scan :=
  nodes.foldl (Scan.step config now) Scan.start

/-- A node with a strictly earlier deadline replaces the nearest so far. -/
def nearer (held : Option (UInt32 × Token)) (p : Node) :
    Option (UInt32 × Token) :=
  match held with
  | none => some (p.checked, p.token)
  | some (deadline, token) =>
      if p.checked < deadline then some (p.checked, p.token)
      else some (deadline, token)

/-- The node closest to recovery, the first one on ties. -/
def nearest (nodes : List Node) : Option (UInt32 × Token) :=
  nodes.foldl nearer none

/-- Select the next peer. -/
def next (rr : RoundRobin) (now : UInt32) : Option Token × RoundRobin :=
  if rr.total ≤ 1 then (some ⟨0⟩, rr)
  else
    let scan := scanAll rr.config now rr.nodes
    match scan.best with
    | some (position, _) =>
        (scan.nodes[position]?.map Node.token,
          { rr with
            nodes := scan.nodes.modify position (Node.settled scan.tw) })
    | none =>
        if rr.config.isSome then
          (((nearest scan.nodes).map Prod.snd).or scan.firstToken,
            { rr with nodes := scan.nodes })
        else (none, { rr with nodes := scan.nodes })

/-! ## Health reports -/

/-- Apply an update to the first node that carries the token. -/
def updateNode
    (token : Token) (update : Node → Node) (nodes : List Node) :
    List Node :=
  nodes.replaceF fun p => if p.token = token then some (update p) else none

/-- Record success for a peer. -/
def onSuccess (rr : RoundRobin) (token : Token) : RoundRobin :=
  match rr.config with
  | none => rr
  | some _ =>
      { rr with nodes := updateNode token Node.recovered rr.nodes }

/--
The failure update of a node.  The deadline is set only when the counter
first reaches `max_fails`; the effective weight drops to one on every
failure at or past it.
-/
def failedNode (cfg : HealthCheckConfig) (now : UInt32) (p : Node) : Node :=
  let fails := p.fails + 1
  if cfg.maxFails ≤ fails then
    { p with
      fails := fails
      checked :=
        if p.fails < cfg.maxFails then now + cfg.failTimeoutSecs
        else p.checked
      ew := 1 }
  else { p with fails := fails }

/-- Record failure for a peer. -/
def onFailure (rr : RoundRobin) (now : UInt32) (token : Token) :
    RoundRobin :=
  match rr.config with
  | none => rr
  | some cfg =>
      { rr with nodes := updateNode token (failedNode cfg now) rr.nodes }

end RoundRobin

end ByteHub.Lb
