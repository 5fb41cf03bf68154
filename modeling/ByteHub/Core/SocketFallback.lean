import ByteHub.Core.SocketConnect

/-!
# When every address is tried

A connection that fails leaves the next address to try.  An error before the
connection does not: the addresses behind it are never tried, although one
of them may be of the family that the local address fits.
-/

namespace ByteHub.Core

open ByteHub.Conf (ConnectOpts Kaminari NetConf RemoteAddr SocketAddr System)
open ByteHub.Lb (IpAddr)

/-! ## How an attempt to connect ends -/

section Timeout

variable {T : Type} {polls : List (Polled T)} {timeout : UInt64}

/-- A poll finds the value, and none before it finds the end of the delay. -/
def InTime (polls : List (Polled T)) (timeout : UInt64) (value : T) : Prop :=
  ∃ (before : List (Polled T)) (polled : Polled T)
    (after : List (Polled T)),
    polls = before ++ polled :: after ∧ polled.value = some value ∧
      ∀ earlier ∈ before,
        earlier.value = none ∧ (earlier.delay → timeout = 0)

/-- A poll finds a value, or the end of a delay. -/
def Ends (polls : List (Polled T)) (timeout : UInt64) : Prop :=
  ∃ polled ∈ polls, polled.value.isSome ∨ polled.delay ∧ timeout ≠ 0

theorem Timeout.poll_eq_ok_iff {delay : Bool} {polled : Polled T} {v : T} :
    Timeout.poll delay polled = some (.ok v) ↔ polled.value = some v := by
  unfold Timeout.poll
  cases polled.value with
  | some value => simp
  | none => simp

theorem Timeout.poll_eq_none_iff {polled : Polled T} :
    Timeout.poll (timeout ≠ 0) polled = none ↔
      polled.value = none ∧ (polled.delay → timeout = 0) := by
  unfold Timeout.poll
  cases polled.value with
  | some value => simp
  | none => cases polled.delay <;> simp

theorem timeoutfut_eq_ok_iff {v : T} :
    timeoutfut polls timeout = some (.ok v) ↔ InTime polls timeout v := by
  simp only [timeoutfut, List.findSome?_eq_some_iff,
    Timeout.poll_eq_ok_iff, Timeout.poll_eq_none_iff, InTime]

theorem Ends.timeoutfut_ne_none (ends : Ends polls timeout) :
    timeoutfut polls timeout ≠ none := by
  intro pending
  obtain ⟨polled, member, found⟩ := ends
  have silent := List.findSome?_eq_none_iff.1 pending polled member
  rw [Timeout.poll_eq_none_iff] at silent
  rcases found with value | ⟨expired, limited⟩
  · simp [silent.1] at value
  · exact limited (silent.2 expired)

end Timeout

variable {kaminari : Kaminari} {Stream Error : Type}

namespace SocketCalls

variable (calls : SocketCalls Stream Error)
  (connOpts : ConnectOpts kaminari)

/-- The socket is created and bound, and it is connected in time. -/
structure Admits : Prop where
  creation : calls.newSocket connOpts.sendMptcp = .ok ()
  binding : whenSet connOpts.bindAddress calls.bind = .ok ()
  device : whenSet connOpts.bindInterface calls.bindToDevice = .ok ()
  connection :
    ∃ stream : Stream,
      InTime calls.connect connOpts.connectTimeout (.ok stream)

/-- No step before the connection fails. -/
structure Prepared : Prop where
  creation : calls.newSocket connOpts.sendMptcp = .ok ()
  binding : whenSet connOpts.bindAddress calls.bind = .ok ()
  device : whenSet connOpts.bindInterface calls.bindToDevice = .ok ()
  keepalive :
    whenSet (TcpKeepalive.build connOpts) calls.setTcpKeepalive = .ok ()

variable {calls connOpts}

theorem prepare_eq_ok_iff :
    calls.prepare connOpts = .ok () ↔ calls.Prepared connOpts := by
  simp only [prepare, ignored, bind_eq_ok_iff, true_and,
    Unique.exists_iff]
  constructor
  · rintro ⟨creation, binding, device, keepalive⟩
    exact ⟨creation, binding, device, keepalive⟩
  · rintro ⟨creation, binding, device, keepalive⟩
    exact ⟨creation, binding, device, keepalive⟩

theorem prepare_eq_error
    {error : Error} (failed : calls.prepare connOpts = .error error) :
    ¬ calls.Prepared connOpts := by
  intro prepared
  rw [prepare_eq_ok_iff.2 prepared] at failed
  cases failed

/-- Once the socket is ready, the connection decides. -/
theorem Prepared.admits_iff (prepared : calls.Prepared connOpts) :
    calls.Admits connOpts ↔
      ∃ stream : Stream,
        calls.connecting connOpts = some (.ok (.ok stream)) := by
  simp only [connecting, timeoutfut_eq_ok_iff]
  constructor
  · intro admits
    exact admits.connection
  · intro connection
    exact
      ⟨prepared.creation, prepared.binding, prepared.device, connection⟩

end SocketCalls

/-! ## How a call ends -/

variable {connOpts : ConnectOpts kaminari}

/-- The connection to an address is made. -/
def Target.Connects
    (target : Target Stream Error) (connOpts : ConnectOpts kaminari) :
    Prop :=
  target.2.Prepared connOpts ∧ target.2.Admits connOpts

/-- An address is left for the next one. -/
def Target.Passed
    (target : Target Stream Error) (connOpts : ConnectOpts kaminari) :
    Prop :=
  target.2.Prepared connOpts ∧ ¬ target.2.Admits connOpts

/-- A call ends at the first address that is not left for the next one, or
behind the last one. -/
inductive Ending
    (connOpts : ConnectOpts kaminari) :
    List (Target Stream Error) → SocketConnected Stream Error → Prop where
  | connected
      {here : Target Stream Error}
      (connects : here.Connects connOpts)
      (after : List (Target Stream Error)) (stream : Stream) :
      Ending connOpts (here :: after) ⟨[here.1], .ok stream⟩
  | broken
      {here : Target Stream Error}
      (broken : ¬ here.2.Prepared connOpts)
      (after : List (Target Stream Error)) (error : SocketError Error) :
      Ending connOpts (here :: after) ⟨[here.1], .error error⟩
  | exhausted (error : SocketError Error) :
      Ending connOpts [] ⟨[], .error error⟩
  | passed
      {here : Target Stream Error} {after : List (Target Stream Error)}
      {connected : SocketConnected Stream Error}
      (passed : here.Passed connOpts)
      (later : Ending connOpts after connected) :
      Ending connOpts (here :: after) (connected.after here.1)

/-- A call ends, and it ends this way, when every attempt does. -/
theorem connectLoop_ending
    {targets : List (Target Stream Error)}
    (ends : ∀ target ∈ targets,
      Ends target.2.connect connOpts.connectTimeout)
    (lastErr : Option Error) :
    ∃ connected : SocketConnected Stream Error,
      connectLoop connOpts lastErr targets = some connected ∧
        Ending connOpts targets connected := by
  induction targets generalizing lastErr with
  | nil => exact ⟨_, rfl, .exhausted _⟩
  | cons target targets ih =>
      obtain ⟨addr, calls⟩ := target
      have later := ih fun target member =>
        ends target (List.mem_cons_of_mem _ member)
      unfold connectLoop
      cases preparing : calls.prepare connOpts with
      | error e =>
          exact
            ⟨_, rfl,
              .broken (SocketCalls.prepare_eq_error preparing) _ _⟩
      | ok _ =>
          have prepared := SocketCalls.prepare_eq_ok_iff.1 preparing
          have admits_iff := prepared.admits_iff
          cases connecting : calls.connecting connOpts with
          | none =>
              have ended := ends _ List.mem_cons_self
              exact (ended.timeoutfut_ne_none connecting).elim
          | some outcome =>
              rw [connecting] at admits_iff
              cases outcome with
              | error timedOut =>
                  have left : Target.Passed (addr, calls) connOpts :=
                    ⟨prepared, by simpa using admits_iff⟩
                  obtain ⟨connected, found, ending⟩ := later lastErr
                  rw [found]
                  exact ⟨_, rfl, .passed left ending⟩
              | ok answer =>
                  cases answer with
                  | error e =>
                      have left : Target.Passed (addr, calls) connOpts :=
                        ⟨prepared, by simpa using admits_iff⟩
                      obtain ⟨connected, found, ending⟩ := later (some e)
                      dsimp only
                      rw [found]
                      exact ⟨_, rfl, .passed left ending⟩
                  | ok stream =>
                      have admits := admits_iff.2 ⟨stream, rfl⟩
                      exact ⟨_, rfl, .connected ⟨prepared, admits⟩ _ _⟩

/-! ## Every address is tried -/

/-- A stream is returned if an address admits one, and an error only after
every address. -/
structure TriesAll
    (connOpts : ConnectOpts kaminari) (targets : List (Target Stream Error))
    (connected : SocketConnected Stream Error) : Prop where
  succeeds :
    (∃ target ∈ targets, target.2.Admits connOpts) →
      ∃ stream : Stream, connected.result = .ok stream
  exhausts :
    ∀ error : SocketError Error,
      connected.result = .error error →
        connected.tried = targets.map Prod.fst

/-- Before the first connection no step fails on the way to one, except at
the last address, and there only if it admits no connection either. -/
def OnlyConnectingFails
    (connOpts : ConnectOpts kaminari)
    (targets : List (Target Stream Error)) : Prop :=
  ∀ (before : List (Target Stream Error)) (here : Target Stream Error)
    (after : List (Target Stream Error)),
    targets = before ++ here :: after →
    (∀ earlier ∈ before, ¬ earlier.Connects connOpts) →
    ¬ here.2.Prepared connOpts →
      after = [] ∧ ¬ here.2.Admits connOpts

section Conditions

variable {here : Target Stream Error} {after : List (Target Stream Error)}
  {connected : SocketConnected Stream Error}

theorem OnlyConnectingFails.of_connects
    (connects : here.Connects connOpts) :
    OnlyConnectingFails connOpts (here :: after) := by
  intro before failing rest split none fails
  cases before with
  | nil =>
      obtain ⟨rfl, -⟩ := List.cons.inj split
      exact (fails connects.1).elim
  | cons first before =>
      obtain ⟨rfl, -⟩ := List.cons.inj split
      exact (none _ List.mem_cons_self connects).elim

theorem onlyConnectingFails_iff_of_broken
    (broken : ¬ here.2.Prepared connOpts) :
    OnlyConnectingFails connOpts (here :: after) ↔
      after = [] ∧ ¬ here.2.Admits connOpts := by
  constructor
  · intro only
    exact only [] here after rfl (by simp) broken
  · rintro ⟨rfl, refuses⟩ before failing rest split - -
    have := List.append_eq_singleton_iff.1 split.symm
    simp at this
    obtain ⟨rfl, rfl, rfl⟩ := this
    exact ⟨rfl, refuses⟩

theorem onlyConnectingFails_iff_of_passed
    (passed : here.Passed connOpts) :
    OnlyConnectingFails connOpts (here :: after) ↔
      OnlyConnectingFails connOpts after := by
  constructor
  · intro only before failing rest split none
    apply only (here :: before) failing rest
    · rw [split, List.cons_append]
    · rintro earlier (_ | ⟨_, member⟩)
      · exact fun connects => passed.2 connects.2
      · exact none earlier member
  · intro only before failing rest split none fails
    cases before with
    | nil =>
        obtain ⟨rfl, -⟩ := List.cons.inj split
        exact (fails passed.1).elim
    | cons first before =>
        obtain ⟨rfl, behind⟩ := List.cons.inj split
        exact
          only before failing rest behind
            (fun earlier member =>
              none earlier (List.mem_cons_of_mem _ member))
            fails

theorem triesAll_iff_of_broken
    (error : SocketError Error) :
    TriesAll connOpts (here :: after) ⟨[here.1], .error error⟩ ↔
      after = [] ∧ ¬ here.2.Admits connOpts := by
  constructor
  · intro tries
    have all := tries.exhausts error rfl
    have none : after = [] := by simpa using all
    refine ⟨none, fun admits => ?_⟩
    obtain ⟨stream, ok⟩ :=
      tries.succeeds ⟨here, List.mem_cons_self, admits⟩
    cases ok
  · rintro ⟨rfl, refuses⟩
    constructor
    · rintro ⟨target, member, admits⟩
      rw [List.mem_singleton.1 member] at admits
      exact (refuses admits).elim
    · intro _ _
      rfl

theorem triesAll_iff_of_passed (passed : here.Passed connOpts) :
    TriesAll connOpts (here :: after) (connected.after here.1) ↔
      TriesAll connOpts after connected := by
  constructor
  · rintro ⟨succeeds, exhausts⟩
    constructor
    · rintro ⟨target, member, admits⟩
      exact succeeds ⟨target, List.mem_cons_of_mem _ member, admits⟩
    · intro error failed
      exact List.tail_eq_of_cons_eq (exhausts error failed)
  · rintro ⟨succeeds, exhausts⟩
    constructor
    · rintro ⟨target, member, admits⟩
      rcases List.mem_cons.1 member with rfl | member
      · exact (passed.2 admits).elim
      · exact succeeds ⟨target, member, admits⟩
    · intro error failed
      exact congrArg (here.1 :: ·) (exhausts error failed)

end Conditions

theorem Ending.triesAll_iff
    {targets : List (Target Stream Error)}
    {connected : SocketConnected Stream Error}
    (ending : Ending connOpts targets connected) :
    TriesAll connOpts targets connected ↔
      OnlyConnectingFails connOpts targets := by
  induction ending with
  | connected connects after stream =>
      have only :=
        @OnlyConnectingFails.of_connects _ _ _ _ _ after connects
      refine ⟨fun _ => only, fun _ => ⟨fun _ => ⟨stream, rfl⟩, ?_⟩⟩
      rintro error ⟨⟩
  | broken broken after error =>
      rw [triesAll_iff_of_broken, onlyConnectingFails_iff_of_broken broken]
  | exhausted error =>
      constructor
      · intro _ before here after split
        simp at split
      · intro _
        exact ⟨by simp, fun _ _ => rfl⟩
  | passed passed later ih =>
      rw [triesAll_iff_of_passed passed, ih,
        onlyConnectingFails_iff_of_passed passed]

variable {resolveIp : String → Except Error (List IpAddr)}
  {raddr : RemoteAddr} {lookup : LookupRemoteAddr}

/-- A call tries every address exactly when only connecting fails. -/
theorem socketConnect_triesAll_iff
    (resolved : resolveAddr resolveIp raddr = .ok lookup)
    (calls : ℕ → SocketCalls Stream Error)
    (connOpts : ConnectOpts kaminari)
    (ends : ∀ target ∈ lookup.targets calls,
      Ends target.2.connect connOpts.connectTimeout) :
    (∃ connected : SocketConnected Stream Error,
      socketConnect resolveIp calls raddr connOpts = some connected ∧
        TriesAll connOpts (lookup.targets calls) connected) ↔
      OnlyConnectingFails connOpts (lookup.targets calls) := by
  obtain ⟨connected, found, ending⟩ := connectLoop_ending ends none
  rw [← ending.triesAll_iff, socketConnect, resolved]
  constructor
  · rintro ⟨returned, same, tries⟩
    cases Option.some.inj (found.symm.trans same)
    exact tries
  · intro tries
    exact ⟨connected, found, tries⟩

/-! ## A remote of both families -/

/-- A name with an IPv6 address before an IPv4 address. -/
def bothFamilies (_host : String) : Except String (List IpAddr) :=
  .ok [.v6 fun _ => 1, .v4 fun _ => 1]

def bothLookup : LookupRemoteAddr :=
  .doLookup [.v6 fun _ => 1, .v4 fun _ => 1] 443

/-- Sockets that are bound to addresses of their own family only, where the
IPv6 address refuses the connection. -/
def callsInTurn (turn : ℕ) : SocketCalls Unit String where
  newSocket _ := .ok ()
  setTcpNodelay := .ok ()
  setReuseAddress := .ok ()
  bind addr :=
    if addr.isIpv4 = decide (turn = 1) then .ok ()
    else .error "invalid argument"
  bindToDevice _ := .ok ()
  setTcpKeepalive _ := .ok ()
  connect :=
    [⟨none, false⟩,
      ⟨some (if turn = 1 then .ok () else .error "connection refused"),
        false⟩]

/-- The options of an endpoint with a local address. -/
def optsThrough (bindAddress : Option SocketAddr) :
    ConnectOpts (System.reading []).kaminari :=
  { (NetConf.empty.build (System.reading []).kaminari).connOpts with
    bindAddress := bindAddress }

def throughIpv4 : ConnectOpts (System.reading []).kaminari :=
  optsThrough (some (.quad 192 0 2 1 0))

theorem callsInTurn_ends
    (bindAddress : Option SocketAddr) (lookup : LookupRemoteAddr) :
    ∀ target ∈ lookup.targets callsInTurn,
      Ends target.2.connect (optsThrough bindAddress).connectTimeout := by
  intro target member
  obtain ⟨turn, _, rfl⟩ := List.mem_mapIdx.1 member
  exact
    ⟨_, List.mem_cons_of_mem _ List.mem_cons_self, Or.inl rfl⟩

/-- Without a local address the refused connection leaves the next one. -/
theorem socketConnect_triesAll_both_families :
    ∃ connected : SocketConnected Unit String,
      socketConnect bothFamilies callsInTurn (.domainName "relay" 443)
          (optsThrough none) =
        some connected ∧
        TriesAll (optsThrough none) (bothLookup.targets callsInTurn)
          connected := by
  refine
    (socketConnect_triesAll_iff rfl callsInTurn (optsThrough none)
      (callsInTurn_ends none _)).2 ?_
  rintro before ⟨addr, calls⟩ after split - unprepared
  have member : (addr, calls) ∈ bothLookup.targets callsInTurn := by
    rw [split]
    simp
  obtain ⟨turn, _, same⟩ := List.mem_mapIdx.1 member
  cases same
  exact (unprepared ⟨rfl, rfl, rfl, rfl⟩).elim

/-- An IPv4 local address does not fit the first address.  The second one,
which admits a connection, is not tried. -/
theorem socketConnect_breaks_off :
    resolveAddr bothFamilies (.domainName "relay" 443) =
        .ok bothLookup ∧
      (∀ target ∈ bothLookup.targets callsInTurn,
        Ends target.2.connect throughIpv4.connectTimeout) ∧
      ¬ ∃ connected : SocketConnected Unit String,
        socketConnect bothFamilies callsInTurn (.domainName "relay" 443)
            throughIpv4 =
          some connected ∧
          TriesAll throughIpv4 (bothLookup.targets callsInTurn)
            connected := by
  refine ⟨rfl, callsInTurn_ends _ _, ?_⟩
  rintro ⟨connected, returned, tries⟩
  cases Option.some.inj returned
  have admits : (callsInTurn 1).Admits throughIpv4 :=
    ⟨rfl, rfl, rfl, (), [⟨none, false⟩], _, [], rfl, rfl, by simp⟩
  obtain ⟨stream, ok⟩ :=
    tries.succeeds
      ⟨_, List.mem_cons_of_mem _ List.mem_cons_self, admits⟩
  cases ok

end ByteHub.Core
