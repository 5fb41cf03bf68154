import ByteHub.Conf.Loading
import Std.Data.String.ToNat

/-!
# The ports of a legacy file

A port entry is a number or an inclusive range.  The expansion goes through
half-open ranges of `u16`, so that the bound above 65535 wraps to 0 and the
entries that end there give no port at all.
-/

namespace ByteHub.Conf

/-! ## Entries -/

/-- What a port entry means: the ports from one to another one. -/
structure PortRange where
  first : UInt16
  last : UInt16
  ordered : first ≤ last

namespace PortRange

/-- The range of one port. -/
def single (port : UInt16) : PortRange where
  first := port
  last := port
  ordered := UInt16.le_refl port

def ports (range : PortRange) : List ℕ :=
  List.range' range.first.toNat
    (range.last.toNat + 1 - range.first.toNat)

/-- The range ends at the largest port there is. -/
def EndsAtTop (range : PortRange) : Prop :=
  range.last = 65535

instance (range : PortRange) : Decidable range.EndsAtTop :=
  inferInstanceAs (Decidable (range.last = 65535))

/-- The text is a decimal number for the range, or two with a dash. -/
def Written (range : PortRange) (text : List Char) : Prop :=
  (parseU16 text = some range.first ∧ range.last = range.first) ∨
    ∃ start stop, text = start ++ '-' :: stop ∧
      parseU16 start = some range.first ∧
        parseU16 stop = some range.last

end PortRange

/-- All ports of some entries, in order. -/
def expand (ranges : List PortRange) : List ℕ :=
  ranges.flatMap PortRange.ports

/-- The entries that do not end at the top. -/
def belowTop (ranges : List PortRange) : List PortRange :=
  ranges.filter fun range => ¬range.EndsAtTop

/-! ## Reading an entry -/

theorem digits_no_dash
    {text : List Char} {value : ℕ} (read : digits text = some value) :
    '-' ∉ text := by
  intro dash
  cases text with
  | nil => cases dash
  | cons c rest =>
      simp only [digits, Option.ite_none_right_eq_some] at read
      have isDigit := List.all_eq_true.1 read.1 '-' dash
      cases isDigit

theorem parseU16_no_dash
    {text : List Char} {value : UInt16}
    (read : parseU16 text = some value) : '-' ∉ text := by
  rcases Option.bind_eq_some_iff.1 read with ⟨number, parsed, -⟩
  unfold parseNumber at parsed
  split at parsed
  · intro dash
    rcases List.mem_cons.1 dash with plus | later
    · cases plus
    · exact digits_no_dash parsed later
  · exact digits_no_dash parsed

namespace LegacyConf

/-- An entry is read as the half-open range behind its last port. -/
theorem flattenRange_eq
    {range : PortRange} {text : List Char} (written : range.Written text) :
    flattenRange text =
      some (portsBetween range.first (range.last + 1)) := by
  rcases written with ⟨read, single⟩ | ⟨start, stop, rfl, first, last⟩
  · have alone := List.splitOn_eq_singleton (parseU16_no_dash read)
    simp only [flattenRange, alone, read, single]
    rfl
  · have parts :
        (start ++ '-' :: stop).splitOn '-' = [start, stop] := by
      rw [List.splitOn_append_cons_self_of_not_mem (parseU16_no_dash first),
        List.splitOn_eq_singleton (parseU16_no_dash last)]
    simp only [flattenRange, parts, first, last]
    rfl

theorem add_one_toNat {port : UInt16} (below : port ≠ 65535) :
    (port + 1).toNat = port.toNat + 1 := by
  have other : port.toNat ≠ 65535 := fun equal =>
    below (UInt16.toNat_inj.1 equal)
  have small := port.toNat_lt
  rw [UInt16.toNat_add]
  change (port.toNat + 1) % 65536 = _
  omega

/-- Below the top the half-open range has the ports of the entry. -/
theorem portsBetween_below
    (range : PortRange) (below : ¬range.EndsAtTop) :
    (portsBetween range.first (range.last + 1)).map UInt16.toNat =
      range.ports := by
  rw [portsBetween, add_one_toNat below, PortRange.ports, List.map_map,
    List.range'_eq_map_range]
  apply List.map_congr_left
  intro offset inside
  have bound := List.mem_range.1 inside
  have small := range.last.toNat_lt
  change (range.first + UInt16.ofNat offset).toNat = _
  rw [UInt16.toNat_add, UInt16.toNat_ofNat']
  omega

/-- At the top it is empty. -/
theorem portsBetween_top (range : PortRange) (top : range.EndsAtTop) :
    portsBetween range.first (range.last + 1) = [] := by
  have wrapped : range.last + 1 = 0 := by
    rw [show range.last = 65535 from top]
    rfl
  rw [portsBetween, wrapped]
  simp

/-- The entries that end at the top are dropped. -/
theorem flattenPorts_eq
    {ranges : List PortRange} {texts : List String}
    (written : List.Forall₂
      (fun range text => PortRange.Written range text.toList)
      ranges texts) :
    ∃ ports, flattenPorts texts = some ports ∧
      ports.map UInt16.toNat = expand (belowTop ranges) := by
  induction written with
  | nil => exact ⟨[], rfl, rfl⟩
  | @cons range text ranges texts written _ inductionHypothesis =>
      rcases inductionHypothesis with ⟨ports, flattened, ports_eq⟩
      rcases Option.map_eq_some_iff.1 flattened with ⟨lists, each, rfl⟩
      refine ⟨portsBetween range.first (range.last + 1) ++ lists.flatten,
        ?_, ?_⟩
      · simp only [flattenPorts, List.mapM_cons, flattenRange_eq written,
          each]
        rfl
      · rw [List.map_append, ports_eq]
        by_cases top : range.EndsAtTop
        · have dropped : belowTop (range :: ranges) = belowTop ranges := by
            simp [belowTop, top]
          rw [dropped, portsBetween_top range top]
          rfl
        · have kept :
              belowTop (range :: ranges) = range :: belowTop ranges := by
            simp [belowTop, top]
          rw [kept, portsBetween_below range top]
          rfl

/-! ## Addresses and ports side by side -/

/-- The first `len` elements, with the first one where they run out. -/
def filled {Element : Type} (xs : List Element) (first : Element) (len : ℕ) :
    List Element :=
  (List.range len).map fun i => xs.getD i first

/-- The texts for addresses and ports, filled up to a length. -/
def joined (addrs : List String) (ports : List ℕ) (len : ℕ) : List String :=
  (filled addrs (addrs.headD "") len).zipWith
    (fun addr port => addr ++ ":" ++ toString port)
    (filled ports (ports.headD 0) len)

@[simp]
theorem filled_length
    {Element : Type} (xs : List Element) (first : Element) (len : ℕ) :
    (filled xs first len).length = len := by
  simp [filled]

@[simp]
theorem joined_length
    (addrs : List String) (ports : List ℕ) (len : ℕ) :
    (joined addrs ports len).length = len := by
  simp [joined]

/-- `take(len).chain(repeat(first)).take(len)` -/
theorem take_chain_repeat
    {Element : Type} (xs : List Element) (first : Element) (len : ℕ) :
    (xs.take len ++ List.replicate len first).take len =
      filled xs first len := by
  apply List.ext_getElem
  · simp
  · intro i inside _
    have small : i < len := by
      rw [List.length_take] at inside
      omega
    simp only [List.getElem_take, filled, List.getElem_map,
      List.getElem_range, List.getD_eq_getElem?_getD]
    by_cases within : i < xs.length
    · rw [List.getElem_append_left (by simp; omega), List.getElem_take,
        List.getElem?_eq_getElem within, Option.getD_some]
    · rw [List.getElem_append_right (by simp; omega),
        List.getElem_replicate, List.getElem?_eq_none (by omega),
        Option.getD_none]

theorem filled_map
    {Element Other : Type} (f : Element → Other) (xs : List Element)
    (first : Element) (len : ℕ) :
    (filled xs first len).map f = filled (xs.map f) (f first) len := by
  simp only [filled, List.map_map]
  apply List.map_congr_left
  intro i _
  simp only [Function.comp, List.getD_eq_getElem?_getD, List.getElem?_map]
  cases xs[i]? <;> rfl

theorem joinAddrPort_nil (addrs : List String) (len : ℕ) :
    joinAddrPort addrs [] len = none :=
  rfl

theorem joinAddrPort_eq
    {addrs : List String} {ports : List UInt16} (len : ℕ)
    (someAddr : addrs ≠ []) (somePort : ports ≠ []) :
    joinAddrPort addrs ports len =
      some (joined addrs (ports.map UInt16.toNat) len) := by
  cases addrs with
  | nil => exact absurd rfl someAddr
  | cons addr0 addrs =>
      cases ports with
      | nil => exact absurd rfl somePort
      | cons port0 ports =>
          have texts :=
            filled_map UInt16.toNat (port0 :: ports) port0 len
          simp only [joinAddrPort, List.head?_cons, Option.bind_eq_bind,
            Option.bind_some, take_chain_repeat, joined, List.headD_cons,
            List.map_cons] at texts ⊢
          rw [← texts, List.zipWith_map_right]

/-- The texts tell the ports apart. -/
theorem joined_inj
    {addrs : List String} {ports others : List ℕ} {len : ℕ} :
    joined addrs ports len = joined addrs others len ↔
      filled ports (ports.headD 0) len =
        filled others (others.headD 0) len := by
  constructor
  · intro same
    apply List.ext_getElem
    · simp
    · intro i left right
      have small : i < len := by simpa using left
      have texts := congrArg (fun list => list[i]?) same
      simp only [joined] at texts
      rw [List.getElem?_eq_getElem (by simpa using small),
        List.getElem?_eq_getElem (by simpa using small),
        List.getElem_zipWith, List.getElem_zipWith,
        Option.some.injEq, String.append_right_inj] at texts
      exact Nat.repr_injective texts
  · intro same
    rw [joined, same, joined]

/-! ## The conversion -/

section Conversion

variable {legacy : LegacyConf} {listenPorts remotePorts : List UInt16}

/-- The conversion gives one endpoint a port, with these addresses. -/
def ConvertsTo
    (legacy : LegacyConf) (listenPorts remotePorts : List ℕ) : Prop :=
  ∃ full, legacy.into = some full ∧
    full.endpoints.map EndpointConf.listen =
      joined legacy.listenAddrs listenPorts listenPorts.length ∧
    full.endpoints.map EndpointConf.remote =
      joined legacy.remoteAddrs remotePorts listenPorts.length

theorem into_converts
    (listens : flattenPorts legacy.listenPorts = some listenPorts)
    (remotes : flattenPorts legacy.remotePorts = some remotePorts)
    (someListenAddr : legacy.listenAddrs ≠ [])
    (someRemoteAddr : legacy.remoteAddrs ≠ [])
    (someListen : listenPorts ≠ []) (someRemote : remotePorts ≠ []) :
    ConvertsTo legacy (listenPorts.map UInt16.toNat)
      (remotePorts.map UInt16.toNat) := by
  rw [ConvertsTo, into, listens, remotes]
  simp only [Option.bind_eq_bind, Option.bind_some,
    joinAddrPort_eq listenPorts.length someListenAddr someListen,
    joinAddrPort_eq listenPorts.length someRemoteAddr someRemote]
  refine ⟨_, rfl, ?_, ?_⟩
  · rw [List.map_zipWith, List.length_map]
    apply List.ext_getElem <;> simp
  · rw [List.map_zipWith, List.length_map]
    apply List.ext_getElem <;> simp

/-- Without a port on a side there is no conversion. -/
theorem into_none
    (listens : flattenPorts legacy.listenPorts = some listenPorts)
    (remotes : flattenPorts legacy.remotePorts = some remotePorts)
    (none : listenPorts = [] ∨ remotePorts = []) :
    legacy.into = Option.none := by
  rw [into, listens, remotes]
  simp only [Option.bind_eq_bind, Option.bind_some]
  rcases none with rfl | rfl
  · rw [joinAddrPort_nil, Option.bind_none]
  · simp only [joinAddrPort_nil, Option.bind_none, Option.bind_fun_none]

/-- The ports of a conversion are told by its endpoints. -/
theorem convertsTo_unique
    {listens remotes listens' remotes' : List ℕ}
    (first : ConvertsTo legacy listens remotes)
    (second : ConvertsTo legacy listens' remotes') :
    listens.length = listens'.length ∧
      joined legacy.listenAddrs listens listens.length =
        joined legacy.listenAddrs listens' listens'.length ∧
      joined legacy.remoteAddrs remotes listens.length =
        joined legacy.remoteAddrs remotes' listens'.length := by
  rcases first with ⟨full, made, listen, remote⟩
  rcases second with ⟨other, again, listen', remote'⟩
  cases made.symm.trans again
  refine ⟨?_, listen.symm.trans listen', remote.symm.trans remote'⟩
  have size := congrArg List.length (listen.symm.trans listen')
  simpa using size

theorem ports_length_pos (range : PortRange) : 0 < range.ports.length := by
  have ordered : range.first.toNat ≤ range.last.toNat := range.ordered
  rw [PortRange.ports, List.length_range']
  omega

theorem expand_cons (range : PortRange) (ranges : List PortRange) :
    expand (range :: ranges) = range.ports ++ expand ranges :=
  rfl

/-- Dropping entries shortens the expansion. -/
theorem expand_belowTop_length (ranges : List PortRange) :
    (expand (belowTop ranges)).length ≤ (expand ranges).length ∧
      ((expand (belowTop ranges)).length = (expand ranges).length →
        ∀ range ∈ ranges, ¬range.EndsAtTop) := by
  induction ranges with
  | nil => simp [belowTop]
  | cons range ranges inductionHypothesis =>
      rcases inductionHypothesis with ⟨shorter, equal⟩
      have positive := ports_length_pos range
      by_cases top : range.EndsAtTop
      · have dropped : belowTop (range :: ranges) = belowTop ranges := by
          simp [belowTop, top]
        rw [dropped, expand_cons, List.length_append]
        exact ⟨by omega, fun same => by omega⟩
      · have kept :
            belowTop (range :: ranges) = range :: belowTop ranges := by
          simp [belowTop, top]
        rw [kept, expand_cons, expand_cons, List.length_append,
          List.length_append]
        refine ⟨by omega, fun same other member => ?_⟩
        rcases List.mem_cons.1 member with rfl | later
        · exact top
        · exact equal (by omega) other later

theorem belowTop_eq_self
    {ranges : List PortRange} (below : ∀ range ∈ ranges, ¬range.EndsAtTop) :
    belowTop ranges = ranges := by
  rw [belowTop, List.filter_eq_self]
  intro range member
  simpa using below range member

theorem expand_eq_nil_iff (ranges : List PortRange) :
    expand ranges = [] ↔ ranges = [] := by
  cases ranges with
  | nil => simp [expand]
  | cons range ranges =>
      have positive := ports_length_pos range
      have nonempty : range.ports ≠ [] := List.ne_nil_of_length_pos positive
      simp [expand_cons, nonempty]

/--
The conversion is faithful exactly when no listening entry ends at the top,
some remote entry does not, and the remote entries that do contribute nothing
to the endpoints.
-/
theorem into_converts_iff
    {listens remotes : List PortRange}
    (listensWritten : List.Forall₂
      (fun range text => PortRange.Written range text.toList)
      listens legacy.listenPorts)
    (remotesWritten : List.Forall₂
      (fun range text => PortRange.Written range text.toList)
      remotes legacy.remotePorts)
    (someListen : listens ≠ [])
    (someListenAddr : legacy.listenAddrs ≠ [])
    (someRemoteAddr : legacy.remoteAddrs ≠ []) :
    ConvertsTo legacy (expand listens) (expand remotes) ↔
      (∀ range ∈ listens, ¬range.EndsAtTop) ∧
      (∃ range ∈ remotes, ¬range.EndsAtTop) ∧
      filled (expand remotes) ((expand remotes).headD 0)
          (expand listens).length =
        filled (expand (belowTop remotes))
          ((expand (belowTop remotes)).headD 0)
          (expand listens).length := by
  rcases flattenPorts_eq listensWritten with
    ⟨listenPorts, listensRead, listenPorts_eq⟩
  rcases flattenPorts_eq remotesWritten with
    ⟨remotePorts, remotesRead, remotePorts_eq⟩
  have kept :
      (∃ range ∈ remotes, ¬range.EndsAtTop) ↔ remotePorts ≠ [] := by
    have empty : remotePorts = [] ↔ belowTop remotes = [] := by
      rw [← expand_eq_nil_iff, ← remotePorts_eq, List.map_eq_nil_iff]
    rw [← not_iff_not, not_not, empty, belowTop, List.filter_eq_nil_iff]
    simp
  constructor
  · intro converts
    have both : listenPorts ≠ [] ∧ remotePorts ≠ [] := by
      by_contra missing
      rcases converts with ⟨full, made, -⟩
      rw [into_none listensRead remotesRead (by tauto)] at made
      cases made
    have actual :=
      into_converts listensRead remotesRead someListenAddr someRemoteAddr
        both.1 both.2
    rw [listenPorts_eq, remotePorts_eq] at actual
    rcases convertsTo_unique converts actual with ⟨size, -, remote⟩
    have below := (expand_belowTop_length listens).2 size.symm
    refine ⟨below, kept.2 both.2, ?_⟩
    rw [belowTop_eq_self below] at remote
    exact joined_inj.1 remote
  · rintro ⟨below, some, same⟩
    have listenSome : listenPorts ≠ [] := by
      intro empty
      rw [empty, belowTop_eq_self below] at listenPorts_eq
      exact someListen ((expand_eq_nil_iff listens).1 listenPorts_eq.symm)
    rcases into_converts listensRead remotesRead someListenAddr
        someRemoteAddr listenSome (kept.1 some) with
      ⟨full, made, listen, remote⟩
    rw [listenPorts_eq, belowTop_eq_self below] at listen remote
    rw [remotePorts_eq] at remote
    exact ⟨full, made, listen, remote.trans (joined_inj.2 same.symm)⟩

end Conversion

/-- Two listening entries and one remote port for them. -/
def threePorts : LegacyConf where
  listenAddrs := ["a"]
  listenPorts := ["1-2", "4"]
  remoteAddrs := ["b", "c"]
  remotePorts := ["80"]

def oneToTwo : PortRange where
  first := 1
  last := 2
  ordered := by decide

/-- Ports below the top convert. -/
theorem into_converts_iff_three_ports :
    ConvertsTo threePorts (expand [oneToTwo, .single 4])
        (expand [.single 80]) ↔
      (∀ range ∈ [oneToTwo, .single 4], ¬range.EndsAtTop) ∧
      (∃ range ∈ [PortRange.single 80], ¬range.EndsAtTop) ∧
      filled (expand [.single 80]) ((expand [.single 80]).headD 0)
          (expand [oneToTwo, .single 4]).length =
        filled (expand (belowTop [.single 80]))
          ((expand (belowTop [.single 80])).headD 0)
          (expand [oneToTwo, .single 4]).length :=
  into_converts_iff
    (.cons (.inr ⟨['1'], ['2'], rfl, rfl, rfl⟩)
      (.cons (.inl ⟨rfl, rfl⟩) .nil))
    (.cons (.inl ⟨rfl, rfl⟩) .nil)
    (List.cons_ne_nil _ _) (List.cons_ne_nil _ _) (List.cons_ne_nil _ _)

/-- An endpoint at the largest port there is. -/
def topPort : LegacyConf where
  listenAddrs := ["a"]
  listenPorts := ["65535"]
  remoteAddrs := ["b"]
  remotePorts := ["80"]

/-- The largest port has no endpoint. -/
theorem into_loses_the_top_port :
    ¬∀ (legacy : LegacyConf) (listens remotes : List PortRange),
      List.Forall₂ (fun range text => PortRange.Written range text.toList)
          listens legacy.listenPorts →
        List.Forall₂ (fun range text => PortRange.Written range text.toList)
          remotes legacy.remotePorts →
          listens ≠ [] → remotes ≠ [] → legacy.listenAddrs ≠ [] →
            legacy.remoteAddrs ≠ [] →
              ConvertsTo legacy (expand listens) (expand remotes) := by
  intro converts
  have written : List.Forall₂
      (fun range text => PortRange.Written range text.toList)
      [.single 65535] topPort.listenPorts :=
    .cons (.inl ⟨rfl, rfl⟩) .nil
  have target : List.Forall₂
      (fun range text => PortRange.Written range text.toList)
      [.single 80] topPort.remotePorts :=
    .cons (.inl ⟨rfl, rfl⟩) .nil
  rcases converts topPort [.single 65535] [.single 80] written target
      (List.cons_ne_nil _ _) (List.cons_ne_nil _ _) (List.cons_ne_nil _ _)
      (List.cons_ne_nil _ _) with ⟨full, made, -⟩
  rcases flattenPorts_eq written with ⟨ports, read, ports_eq⟩
  rcases flattenPorts_eq target with ⟨others, otherRead, -⟩
  have none : ports = [] := List.map_eq_nil_iff.1 ports_eq
  rw [into_none read otherRead (.inl none)] at made
  cases made

end LegacyConf

end ByteHub.Conf
