import ByteHub.Conf.Loading

/-!
# Converting configurations

`convert` writes a configuration as toml or json.  Its text gives back the
configuration, unless the dns section has settings of which its `is_empty`
knows none: such a section is dropped.
-/

namespace ByteHub.Conf

open ByteHub.Library

/-- A dns section that is not dropped with a setting in it: it has a setting
that `is_empty` lists, or none at all. -/
def DnsConf.Visible (dns : DnsConf) : Prop :=
  dns.mode.isSome = true ∨ dns.minTtl.isSome = true ∨
    dns.maxTtl.isSome = true ∨ dns.cacheSize.isSome = true ∨
    dns.protocol = none ∧ dns.nameservers = none

theorem DnsConf.kept_iff (dns : DnsConf) :
    (if dns.isEmpty then DnsConf.empty else dns) = dns ↔ dns.Visible := by
  rcases dns with ⟨mode, protocol, nameservers, minTtl, maxTtl, cacheSize⟩
  cases mode <;> cases minTtl <;> cases maxTtl <;> cases cacheSize <;>
    simp [DnsConf.isEmpty, DnsConf.empty, DnsConf.Visible, eq_comm]

namespace FullConf

/-- The format of a type option. -/
def formatOf (formats : Formats) (type : String) : Option Format :=
  if type = "toml" then some formats.toml
  else if type = "json" then some formats.json
  else none

/-- The text a type option writes a configuration as. -/
def toText
    (formats : Formats) (type : String) (full : FullConf) :
    Option String := do
  let format ← formatOf formats type
  format.render (full.write format)

/-- `handle_convert`, from the text of a legacy file to the text it
writes. -/
def handleConvert
    (formats : Formats) (old type : String) : Option String := do
  let document ← formats.json.parse old
  let legacy ← LegacyConf.read document
  let full ← legacy.into
  full.toText formats type

/-- What a configuration is after it was written and read. -/
def converted (full : FullConf) : FullConf :=
  { full with dns := if full.dns.isEmpty then .empty else full.dns }

theorem converted_eq_iff (full : FullConf) :
    full.converted = full ↔ full.dns.Visible := by
  rw [← DnsConf.kept_iff]
  rcases full with ⟨log, dns, network, endpoints⟩
  simp [converted]

theorem fromConfStr_toText
    {formats : Formats} {type text : String} {full : FullConf}
    (written : full.toText formats type = some text) :
    fromConfStr formats text = .ok full.converted := by
  rcases Option.bind_eq_some_iff.1 written with ⟨format, chosen, rendered⟩
  have parsed := format.parse_render rendered
  have back := full.read_write format
  unfold formatOf at chosen
  split at chosen
  · cases chosen
    simp only [fromConfStr, parsed, Option.bind_some, back, converted]
  · split at chosen
    · cases chosen
      have refused := formats.toml_refuses_json rendered
      simp only [fromConfStr, refused, parsed, Option.bind_none,
        Option.bind_some, back, converted]
    · cases chosen

/-- What `convert` writes is never short of anything: a legacy file has no
dns section. -/
theorem handleConvert_lossless
    {formats : Formats} {old type text : String}
    (converts : handleConvert formats old type = some text) :
    ∃ full, fromConfStr formats text = .ok full ∧
      ((formats.json.parse old).bind LegacyConf.read).bind LegacyConf.into =
        some full := by
  rcases Option.bind_eq_some_iff.1 converts with ⟨document, parsed, rest⟩
  rcases Option.bind_eq_some_iff.1 rest with ⟨legacy, read, rest⟩
  rcases Option.bind_eq_some_iff.1 rest with ⟨full, made, written⟩
  refine ⟨full, ?_, by rw [parsed, Option.bind_some, read]; exact made⟩
  rw [fromConfStr_toText written, Except.ok.injEq, converted_eq_iff]
  have dns : full.dns = .empty := by
    unfold LegacyConf.into at made
    simp only [Option.bind_eq_bind, Option.bind_eq_some_iff] at made
    rcases made with ⟨_, _, _, _, _, _, _, _, made⟩
    cases made
    rfl
  rw [dns]
  exact .inr (.inr (.inr (.inr ⟨rfl, rfl⟩)))

/-- The text of a configuration gives back the configuration if and only if
nothing of its dns section is dropped.  What `convert` itself writes is never
short of anything. -/
theorem conversion_lossless_iff
    (formats : Formats) (type : String) {full : FullConf} {text : String}
    (written : full.toText formats type = some text) :
    (fromConfStr formats text = .ok full ↔ full.dns.Visible) ∧
      ∀ old converted,
        handleConvert formats old type = some converted →
        ∃ full, fromConfStr formats converted = .ok full ∧
          ((formats.json.parse old).bind LegacyConf.read).bind
            LegacyConf.into = some full := by
  refine ⟨?_, fun old converted => handleConvert_lossless⟩
  rw [fromConfStr_toText written, Except.ok.injEq, converted_eq_iff]

/-! ## A configuration that is not given back -/

/-- A configuration that only asks for dns over tcp. -/
def dnsOverTcp : FullConf :=
  { empty with dns := { DnsConf.empty with protocol := some .tcp } }

/-- Formats that know one document, a configuration without sections. -/
def bare (bareText : String) : Format where
  absent := none
  absent_eq := Format.absent_none
  render
    | .table [("endpoints", .arr [])] => some bareText
    | _ => none
  parse text :=
    if text = bareText then some (.table [("endpoints", .arr [])])
    else none
  parse_render := by
    intro document text rendered
    split at rendered
    · cases rendered
      exact if_pos rfl
    · cases rendered

/-- Toml and json, as far as configurations without sections go. -/
def bareFormats : Formats where
  toml := bare "endpoints = []\n"
  json := bare "\x7b\"endpoints\":[]\x7d"
  toml_refuses_json := by
    intro entries text rendered
    simp only [bare] at rendered ⊢
    split at rendered
    · cases rendered
      decide
    · cases rendered

theorem dnsOverTcp_written :
    dnsOverTcp.toText bareFormats "toml" = some "endpoints = []\n" :=
  rfl

theorem dnsOverTcp_lost :
    dnsOverTcp.toText bareFormats "toml" = some "endpoints = []\n" ∧
      fromConfStr bareFormats "endpoints = []\n" ≠ .ok dnsOverTcp := by
  refine ⟨dnsOverTcp_written, ?_⟩
  intro kept
  cases kept

/-- A configuration without sections is given back. -/
theorem conversion_lossless_iff_empty :
    (FullConf.empty.toText bareFormats "toml" = some "endpoints = []\n" ∧
      fromConfStr bareFormats "endpoints = []\n" = .ok .empty) ∧
    ∀ old converted,
      handleConvert bareFormats old "toml" = some converted →
      ∃ full, fromConfStr bareFormats converted = .ok full ∧
        ((bareFormats.json.parse old).bind LegacyConf.read).bind
          LegacyConf.into = some full := by
  have written :
      FullConf.empty.toText bareFormats "toml" =
        some "endpoints = []\n" :=
    rfl
  have lossless := conversion_lossless_iff bareFormats "toml" written
  refine ⟨⟨written, lossless.1.2 ?_⟩, lossless.2⟩
  exact .inr (.inr (.inr (.inr ⟨rfl, rfl⟩)))

end FullConf

end ByteHub.Conf
