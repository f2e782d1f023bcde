import PodCompiler.Reading
import PodCompiler.SortedMap

/-!
# PodCompiler — records

How a record of named fields is read out of a value, whatever notation the value is written in.

* `Dialect` is the view of a notation's values: what counts as a text, a number, a list.
* `Fields` lists the fields of a record with their types, and says what an absent field means.
* `Dialect.record` reads a record: fields may come in any order, fields that the record does not
  have are passed over, a field given twice is refused, and so is the lack of a required one.
* `Dialect.textMap`, `Dialect.list` and `Dialect.optional` read the other shapes.
-/

namespace PodCompiler

/-! ## Notations -/

/-- The widths of whole numbers. -/
inductive IntWidth where
  | bits32
  | bits64
  deriving DecidableEq, Repr

namespace IntWidth

/-- A width in a message. -/
def word : IntWidth → String
  | .bits32 => "i32"
  | .bits64 => "i64"

/-- Whether a number fits a width. -/
def holds : IntWidth → Int → Bool
  | .bits32, n => -2147483648 ≤ n && n ≤ 2147483647
  | .bits64, n => -9223372036854775808 ≤ n && n ≤ 9223372036854775807

end IntWidth

/-- The members of a record: named ones, or values in the order of the record's fields. -/
inductive Members (ν : Type) where
  | named (entries : List (ν × ν))
  | positional (items : List ν)

/-- How values `ν` of a notation are looked at. Each view is given the value's place for its
refusals. -/
structure Dialect (ν : Type) where
  text : Path → ν → Reading String
  bool : Path → ν → Reading Bool
  /-- A whole number that the given width holds. -/
  int : IntWidth → Path → ν → Reading Int
  items : Path → ν → Reading (List ν)
  /-- The entries of a map from texts. -/
  entries : Path → ν → Reading (List (ν × ν))
  /-- The members of a record that a refusal calls by the given words. -/
  members : String → Path → ν → Reading (Members ν)
  /-- The name of a value that is one of a fixed set of names. -/
  variant : Path → ν → Reading String
  /-- A value that may be null: nothing if it is. -/
  present : Path → ν → Reading (Option ν)
  /-- The name that a key spells; a refusal calls it by the given words. -/
  name : String → Path → ν → Reading String
  /-- The place of the value that belongs to a key. -/
  step : Path → ν → Path
  /-- Passes over a value. -/
  skip : ν → Reading Unit

/-! ## Fields -/

/-- What it means that a field is absent. -/
inductive Absence (α : Type) where
  /-- The record is refused. -/
  | required
  /-- A named field may be left out; by position it may not. -/
  | named (fallback : α)
  /-- The field may be left out. -/
  | defaulted (fallback : α)

/-- A field of a record. -/
structure Field (ν α : Type) where
  name : String
  read : Path → ν → Reading α
  absence : Absence α

/-- The fields of a record in the order of their declaration, with the list of their types. -/
inductive Fields (ν : Type) : List Type → Type 1 where
  | nil : Fields ν []
  | cons (field : Field ν α) (rest : Fields ν types) : Fields ν (α :: types)

/-- One value for each type. -/
@[reducible] def Row : List Type → Type
  | [] => Unit
  | α :: types => α × Row types

/-- At most one value for each type. -/
@[reducible] def Slots : List Type → Type
  | [] => Unit
  | α :: types => Option α × Slots types

namespace Fields

variable {ν : Type}

/-- The number of fields. -/
def count : Fields ν types → Nat
  | .nil => 0
  | .cons _ rest => rest.count + 1

/-- No field has been read yet. -/
def vacant : Fields ν types → Slots types
  | .nil => ()
  | .cons _ rest => (none, rest.vacant)

/-- Reads the value of a field into its slot; nothing if there is no such field. A second value
is refused before it is looked at. -/
def assign (record : Path) (name : String) (path : Path) (v : ν) :
    Fields ν types → Slots types → Option (Reading (Slots types))
  | .nil, _ => none
  | .cons field rest, (slot, slots) =>
    if name = field.name then
      some <|
        match slot with
        | some _ => Reading.refuse record (.duplicateField name)
        | none => do
          let value ← field.read path v
          pure (some value, slots)
    else
      (rest.assign record name path v slots).map fun reading => do
        let slots ← reading
        pure (slot, slots)

/-- The row of all slots, absent fields filled in; the first required one that is lacking is
reported. -/
def complete (record : Path) : Fields ν types → Slots types → Reading (Row types)
  | .nil, _ => pure ()
  | .cons field rest, (slot, slots) => do
    let value ←
      match slot, field.absence with
      | some value, _ => pure value
      | none, .required => Reading.refuse record (.missingField field.name)
      | none, .named fallback => pure fallback
      | none, .defaulted fallback => pure fallback
    let row ← rest.complete record slots
    pure (value, row)

/-- The row of values given by position. Too few values are reported with the number of those
present, too many with the number of all. -/
def arrange (record : Path) (title : String) (total : Nat) :
    Nat → Fields ν types → List ν → Reading (Row types)
  | _, .nil, [] => pure ()
  | _, .nil, _ :: _ =>
    Reading.refuse record (.invalidLength total "fewer elements in array")
  | index, .cons field rest, [] => do
    let value ←
      match field.absence with
      | .defaulted fallback => pure fallback
      | _ => Reading.refuse record (.invalidLength index title)
    let row ← rest.arrange record title total (index + 1) []
    pure (value, row)
  | index, .cons field rest, v :: items => do
    let value ← field.read (.item record index) v
    let row ← rest.arrange record title total (index + 1) items
    pure (value, row)

end Fields

/-! ## Shapes -/

namespace Dialect

variable {ν : Type} (d : Dialect ν)

/-- Reads a whole number of thirty-two bits. -/
def int32 (path : Path) (v : ν) : Reading Int32 := .ofInt <$> d.int .bits32 path v

/-- Reads a whole number of sixty-four bits. -/
def int64 (path : Path) (v : ν) : Reading Int64 := .ofInt <$> d.int .bits64 path v

/-- Reads named members one after the other into their slots. -/
def fill (fields : Fields ν types) (record : Path) :
    List (ν × ν) → Slots types → Reading (Slots types)
  | [], slots => pure slots
  | (key, v) :: rest, slots => do
    let name ← d.name "field identifier" record key
    match fields.assign record name (d.step record key) v slots with
    | some reading => fill fields record rest (← reading)
    | none => do
      d.skip v
      fill fields record rest slots

/-- A record's name with the number of its fields. -/
def sized (title : String) (count : Nat) : String :=
  "struct " ++ title ++ " with " ++ Numeral.ofNat count ++
    (if count = 1 then " element" else " elements")

/-- Reads a record. -/
def record (title : String) (fields : Fields ν types) (path : Path) (v : ν) :
    Reading (Row types) := do
  match ← d.members ("struct " ++ title) path v with
  | .named entries => fields.complete path (← d.fill fields path entries fields.vacant)
  | .positional items =>
    fields.arrange path (sized title fields.count) items.length 0 items

/-- Reads a list. -/
def list (read : Path → ν → Reading α) (path : Path) (v : ν) : Reading (List α) := do
  Reading.items read path 0 (← d.items path v)

/-- Reads the entries of a map from texts to texts; of entries with the same key the last is
kept. -/
def mapEntries (path : Path) : List (ν × ν) → SortedMap String → Reading (SortedMap String)
  | [], m => pure m
  | (key, v) :: rest, m => do
    let name ← d.name "a string" path key
    let value ← d.text (d.step path key) v
    mapEntries path rest (m.insert name value)

/-- Reads a map from texts to texts. -/
def textMap (path : Path) (v : ν) : Reading (SortedMap String) := do
  d.mapEntries path (← d.entries path v) .empty

/-- Reads a value that may be null. -/
def optional (read : Path → ν → Reading α) (path : Path) (v : ν) : Reading (Option α) := do
  match ← d.present path v with
  | none => pure none
  | some v => some <$> read path v

end Dialect
end PodCompiler
