import ByteHub.Io.RelayInvariant

/-!
# What a relay accepts

The reader of a header accepts the format of the writer and nothing else.  A
client whose stream does not begin with a header gets nothing from a relay in
mode 2, and the upstream side is not touched.
-/

namespace ByteHub.Io

open ByteHub.Library

/-- Ten bytes and their tag under the key, and garbage of the length they
tell. -/
def IsHeader (key : ObfsKey) (wire : List UInt8) : Prop :=
  ∃ content garbage : List UInt8,
    content.length = 10 ∧ 3 ≤ qualifying content ∧
      computeGarbageLen content = some garbage.length ∧
      garbage.length ≤ 999 ∧
      wire =
        xorKey key (content ++ keyedHashTag content key.bytes) ++ garbage

theorem Header.isHeader {key : ObfsKey} (header : Header key) :
    IsHeader key header.wire :=
  ⟨header.content, header.garbage, header.content_length, header.enough,
    header.garbage_length, computeGarbageLen_le header.garbage_length, rfl⟩

theorem IsHeader.exists_header
    {key : ObfsKey} {wire : List UInt8} (isHeader : IsHeader key wire) :
    ∃ header : Header key, header.wire = wire := by
  rcases isHeader with
    ⟨content, garbage, contentLength, enough, garbageLength, _, equal⟩
  exact ⟨⟨content, garbage, contentLength, enough, garbageLength⟩,
    equal.symm⟩

theorem obfuscating_memory
    {mode : UInt8} (obfuscated : mode = 1 ∨ mode = 2) (brutal : Bool)
    (key : ObfsKey) {bufSize : ℕ} (nonempty : 0 < bufSize) :
    Obfuscating (RelayConfig.memory mode brutal key bufSize) where
  mode := obfuscated
  valid side := by
    cases side <;> exact Nat.zero_le _
  image side := by
    have scrambles : obfuscate mode = fun byte => byte ^^^ 0x5A := by
      funext byte
      rw [obfuscate, if_neg]
      rcases obfuscated with rfl | rfl <;> decide
    cases side <;> exact scrambles
  nonempty side := by
    have long : 0 < (List.replicate bufSize (0 : UInt8)).length := by
      rwa [List.length_replicate]
    cases side <;> exact long

section Probe

variable {B Error : Type} [AsyncIOBuf B] [LawfulIOBuf B]
variable {config : RelayConfig B}

/-- In mode 2 every operation but a read from the client comes behind a
header. -/
theorem RelayPhase.Books.exists_header_of_op
    {phase : RelayPhase B Error} {encoder decoder : Passed} {op : IoOp}
    (books : phase.Books config encoder decoder) (two : config.mode = 2)
    (waits : phase.op config = some op) (other : op ≠ .read .a) :
    ∃ (header : Header config.key) (body : List UInt8),
      decoder.taken = header.wire ++ body := by
  have wire : wireSide config.mode = .a := by
    rw [two]
    decide
  have beside (ready : DecoderBeside config decoder) :
      ∃ (header : Header config.key) (body : List UInt8),
        decoder.taken = header.wire ++ body := by
    rw [DecoderBeside, two, if_neg (by decide)] at ready
    rcases ready with ⟨_, _, header, taken⟩
    exact ⟨header, [], by rw [taken, List.append_nil]⟩
  cases phase with
  | readFirst => exact beside books.2
  | writeAll rest => exact beside books.2
  | readHeader got =>
      cases waits
      exact absurd (congrArg IoOp.read wire) other
  | readGarbage left =>
      cases waits
      exact absurd (congrArg IoOp.read wire) other
  | copying bidi point =>
      rcases books.2 with ⟨earlier, copied, ⟨_, _, header, taken⟩, rfl, _⟩
      exact ⟨header, copied.taken, by rw [Passed.append, taken]⟩
  | dropProbe => cases waits
  | returned result => cases waits

/-- A relay in mode 2 that gets no header touches nothing but the client, and
only to read. -/
theorem RelayRun.Inv.quiet
    {run : RelayRun B Error} (inv : run.Inv config)
    (two : config.mode = 2) {stream : List UInt8}
    (handed : (run.flow .a).taken <+: stream)
    (noHeader : ¬ ∃ wire rest,
      IsHeader config.key wire ∧ stream = wire ++ rest) :
    (∀ {op : IoOp}, run.phase.op config = some op → op = .read .a) ∧
      run.flow .b = Passed.nothing ∧ (run.flow .a).given = [] := by
  have plain : plainSide config.mode = .b := by
    rw [two]
    decide
  have wire : wireSide config.mode = .a := by
    rw [two]
    decide
  have none (header : Header config.key) (body : List UInt8) :
      (run.flow .a).taken ≠ header.wire ++ body := by
    intro taken
    rcases handed with ⟨rest, equal⟩
    rw [taken, List.append_assoc] at equal
    exact noHeader ⟨header.wire, body ++ rest, header.isHeader, equal.symm⟩
  unfold Inv at inv
  rw [plain, wire] at inv
  constructor
  · intro op waits
    by_contra other
    rcases inv.exists_header_of_op two waits other with
      ⟨header, body, taken⟩
    exact none header body taken
  · rcases inv.returned.2.2 two with quiet | ⟨header, body, taken⟩
    · exact quiet
    · exact absurd taken (none header body)

end Probe

/-- The reader of the header accepts exactly what the writer writes; without a
header a relay in mode 2 stays silent. -/
theorem obfsHeader_exact {Error : Type} (key : ObfsKey) :
    (∀ stream rest : List UInt8,
      consumeDynamicObfsV2 key stream = .ok rest ↔
        ∃ wire, IsHeader key wire ∧ stream = wire ++ rest) ∧
    (∀ rng : SimpleRng, ∃ output,
      generateDynamicObfsV2 key rng = some output ∧
        IsHeader key output ∧
        ∀ rest, consumeDynamicObfsV2 key (output ++ rest) = .ok rest) ∧
    (∀ stream : List UInt8,
      consumeDynamicObfsV2 key stream ≠ .error .panicked) ∧
    (∀ (brutal : Bool) (bufSize : ℕ), 0 < bufSize →
      ∀ stream : List UInt8,
        (¬ ∃ wire rest, IsHeader key wire ∧ stream = wire ++ rest) →
        ∀ (labels : List (RelayLabel Error)) final,
          let config := RelayConfig.memory 2 brutal key bufSize
          (RelayRun.machine config).run (RelayRun.start config) labels =
              some final →
            (final.flow .a).taken <+: stream →
            (∀ op, final.phase.op config = some op → op = .read .a) ∧
              final.flow .b = Passed.nothing ∧
              (final.flow .a).given = []) := by
  refine ⟨?_, ?_, consumeDynamicObfsV2_ne_panicked key, ?_⟩
  · intro stream rest
    rw [consumeDynamicObfsV2_eq_ok_iff]
    constructor
    · rintro ⟨header, equal⟩
      exact ⟨header.wire, header.isHeader, equal⟩
    · rintro ⟨wire, isHeader, equal⟩
      rcases isHeader.exists_header with ⟨header, rfl⟩
      exact ⟨header, equal⟩
  · intro rng
    rcases exists_header_of_generate key rng with ⟨header, generated⟩
    exact ⟨header.wire, generated, header.isHeader, fun rest =>
      consumeDynamicObfsV2_eq_ok_iff.2 ⟨header, rfl⟩⟩
  · intro brutal bufSize nonempty stream noHeader labels final config ran
      handed
    have obfuscating : Obfuscating config :=
      obfuscating_memory (.inr rfl) brutal key nonempty
    have inv : final.Inv config :=
      Machine.run_invariant (fun run => run.Inv config)
        (RelayRun.inv_step obfuscating) (RelayRun.inv_start obfuscating) ran
    rcases inv.quiet rfl handed noHeader with ⟨waits, quiet⟩
    exact ⟨fun op => waits, quiet⟩

theorem zeros_rejected :
    consumeDynamicObfsV2 obfsKey (List.replicate 14 0) =
      .error .invalidData := by
  rfl

set_option maxRecDepth 4000 in
/-- A probe of fourteen zeros is dropped. -/
theorem obfsHeader_exact_zeros :
    ∃ final : RelayRun MemBuf Unit,
      (RelayRun.machine (RelayConfig.memory 2 true obfsKey 16)).run
          (RelayRun.start (RelayConfig.memory 2 true obfsKey 16))
          [.read (.data (List.replicate 14 0)), .slept] = some final ∧
        final.phase = .returned (.error (.obfs .invalidData)) ∧
        final.flow .b = Passed.nothing ∧ (final.flow .a).given = [] := by
  have noHeader :
      ¬ ∃ wire rest,
        IsHeader obfsKey wire ∧ List.replicate 14 0 = wire ++ rest := by
    rintro ⟨wire, rest, isHeader, equal⟩
    have consumed :=
      ((@obfsHeader_exact Unit obfsKey).1 _ rest).2 ⟨wire, isHeader, equal⟩
    rw [zeros_rejected] at consumed
    cases consumed
  refine ⟨_, rfl, ?_⟩
  refine ⟨rfl, ?_⟩
  exact ((@obfsHeader_exact Unit obfsKey).2.2.2 true 16 (by decide) _
    noHeader [.read (.data (List.replicate 14 0)), .slept] _ rfl
    (List.prefix_refl _)).2

end ByteHub.Io
