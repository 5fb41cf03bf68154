import Mathlib.Algebra.Ring.Nat
import Mathlib.Data.List.Nodup
import Mathlib.Data.List.Basic

/-!
# Documents and codecs

A document is what a text format such as json carries: truth values,
numbers, strings, lists, and tables of named entries.  A codec writes the
values of a type as documents and reads them back; its round trip is one of
its fields, so codecs compose without further proof.

Records are written as tables.  A field that is left out has no document,
and is read back as absent or as its default.
-/

namespace ByteHub.Library

/-- Document. -/
inductive Document where
  | null
  | bool (value : Bool)
  | num (value : ℕ)
  | str (value : String)
  /-- A negative number, a fraction or a date, kept as it is spelt. -/
  | other (text : String)
  | arr (items : List Document)
  | table (entries : List (String × Document))

/-- Writing and reading back the values of a type. -/
structure Codec (α : Type) where
  write : α → Document
  read : Document → Option α
  read_write : ∀ value, read (write value) = some value
  write_ne_null : ∀ value, write value ≠ .null

/-- A text format: what it renders it parses back.  A value that is absent
and not left out is written as null, or not at all. -/
structure Format where
  absent : Option Document
  absent_eq : absent = none ∨ absent = some .null
  render : Document → Option String
  parse : String → Option Document
  parse_render : ∀ {document : Document} {text : String},
    render document = some text → parse text = some document

theorem Format.absent_none :
    (none : Option Document) = none ∨ none = some Document.null :=
  .inl rfl

namespace Codec

/-! ## Scalars and lists -/

def bool : Codec Bool where
  write := .bool
  read
    | .bool value => some value
    | _ => none
  read_write _ := rfl
  write_ne_null _ := Document.noConfusion

def string : Codec String where
  write := .str
  read
    | .str value => some value
    | _ => none
  read_write _ := rfl
  write_ne_null _ := Document.noConfusion

def uint32 : Codec UInt32 where
  write value := .num value.toNat
  read
    | .num value =>
        if value < 2 ^ 32 then some (UInt32.ofNat value) else none
    | _ => none
  read_write value := by
    dsimp only
    rw [if_pos value.toNat_lt, UInt32.ofNat_toNat]
  write_ne_null _ := Document.noConfusion

def uint64 : Codec UInt64 where
  write value := .num value.toNat
  read
    | .num value =>
        if value < 2 ^ 64 then some (UInt64.ofNat value) else none
    | _ => none
  read_write value := by
    dsimp only
    rw [if_pos value.toNat_lt, UInt64.ofNat_toNat]
  write_ne_null _ := Document.noConfusion

/-- Values that are written by name. -/
def named {α : Type}
    (values : List α) (name : α → String)
    (complete : ∀ value, value ∈ values)
    (distinct : Function.Injective name) : Codec α where
  write value := .str (name value)
  read
    | .str text => values.find? fun value => name value = text
    | _ => none
  read_write value := by
    dsimp only
    cases found : values.find? fun other => name other = name value with
    | none =>
        have unlike := List.find?_eq_none.1 found value (complete value)
        exact (unlike (decide_eq_true rfl)).elim
    | some other =>
        have same := List.find?_some found
        rw [distinct (of_decide_eq_true same)]
  write_ne_null _ := Document.noConfusion

private theorem mapM_read_write
    {α : Type} (codec : Codec α) (values : List α) :
    (values.map codec.write).mapM codec.read = some values := by
  induction values with
  | nil => rfl
  | cons value rest inductionHypothesis =>
      rw [List.map_cons, List.mapM_cons, codec.read_write,
        inductionHypothesis]
      rfl

/-- Lists, item by item. -/
def list {α : Type} (codec : Codec α) : Codec (List α) where
  write values := .arr (values.map codec.write)
  read
    | .arr items => items.mapM codec.read
    | _ => none
  read_write values := mapM_read_write codec values
  write_ne_null _ := Document.noConfusion

end Codec

namespace Document

/-! ## Tables -/

/-- The entries of a record; a field without a document is left out. -/
def entries (fields : List (String × Option Document)) :
    List (String × Document) :=
  fields.filterMap fun (key, document) =>
    document.map fun document => (key, document)

/-- The documents under a key. -/
def select (key : String) (entries : List (String × Document)) :
    List Document :=
  (entries.filter fun entry => entry.1 = key).map Prod.snd

theorem select_entries_of_not_mem
    {fields : List (String × Option Document)} {key : String}
    (absent : key ∉ fields.map Prod.fst) :
    select key (entries fields) = [] := by
  rw [select, List.map_eq_nil_iff, List.filter_eq_nil_iff]
  intro entry member
  rcases List.mem_filterMap.1 member with ⟨⟨other, document⟩, there, made⟩
  rcases Option.map_eq_some_iff.1 made with ⟨_, _, rfl⟩
  intro same
  rw [← of_decide_eq_true same] at absent
  exact absent (List.mem_map.2 ⟨_, there, rfl⟩)

/-- A key of a record selects the document of its field. -/
theorem select_entries
    {fields : List (String × Option Document)}
    (distinct : (fields.map Prod.fst).Nodup) (index : ℕ)
    {key : String} {document : Option Document}
    (here : fields[index]? = some (key, document)) :
    select key (entries fields) = document.toList := by
  induction fields generalizing index with
  | nil => cases here
  | cons first rest inductionHypothesis =>
      rcases first with ⟨name, own⟩
      rcases List.nodup_cons.1 distinct with ⟨fresh, distinct⟩
      have split :
          select key (entries ((name, own) :: rest)) =
            (if name = key then own.toList else []) ++
              select key (entries rest) := by
        cases own with
        | none => simp [entries, select]
        | some document =>
            by_cases same : name = key <;> simp [entries, select, same]
      rw [split]
      cases index with
      | zero =>
          cases here
          rw [if_pos rfl, select_entries_of_not_mem fresh, List.append_nil]
      | succ index =>
          rw [List.getElem?_cons_succ] at here
          have later := List.mem_of_getElem? here
          have differs : name ≠ key := by
            rintro rfl
            exact fresh (List.mem_map.2 ⟨_, later, rfl⟩)
          rw [if_neg differs, List.nil_append]
          exact inductionHypothesis distinct index here

/-! ## Reading fields -/

variable {α : Type}

/-- An optional field; a null counts as absent. -/
def optional
    (codec : Codec α) (key : String) (entries : List (String × Document)) :
    Option (Option α) :=
  match select key entries with
  | [] => some none
  | [.null] => some none
  | [document] => (codec.read document).map some
  | _ => none

/-- A field with a default. -/
def withDefault
    (codec : Codec α) (default : α) (key : String)
    (entries : List (String × Document)) : Option α :=
  match select key entries with
  | [] => some default
  | [document] => codec.read document
  | _ => none

/-- A field that must be there. -/
def required
    (codec : Codec α) (key : String) (entries : List (String × Document)) :
    Option α :=
  match select key entries with
  | [document] => codec.read document
  | _ => none

section RoundTrip

variable {fields : List (String × Option Document)}
variable (distinct : (fields.map Prod.fst).Nodup)
variable (codec : Codec α) (index : ℕ) {key : String}

include distinct

/-- An optional field is read back, whether its absence was written as null
or left out. -/
theorem optional_entries
    {value : Option α} {absent : Option Document}
    (unwritten : absent = none ∨ absent = some .null)
    (here : fields[index]? =
      some (key, (value.map codec.write).or absent)) :
    optional codec key (entries fields) = some value := by
  rw [optional, select_entries distinct index here]
  cases value with
  | none => rcases unwritten with rfl | rfl <;> rfl
  | some value =>
      have written := codec.write_ne_null value
      have back := codec.read_write value
      simp only [Option.map_some, Option.some_or, Option.toList_some]
      rw [back, Option.map_some]

/-- A field that is left out only where it has its default is read back. -/
theorem withDefault_entries
    {value default : α} {left : Bool}
    (here : fields[index]? =
      some (key, if left then none else some (codec.write value))) :
    withDefault codec default key (entries fields) =
      some (if left then default else value) := by
  rw [withDefault, select_entries distinct index here]
  cases left with
  | true => rfl
  | false => exact codec.read_write value

theorem required_entries
    {value : α}
    (here : fields[index]? = some (key, some (codec.write value))) :
    required codec key (entries fields) = some value := by
  rw [required, select_entries distinct index here]
  exact codec.read_write value

end RoundTrip

end Document

end ByteHub.Library
