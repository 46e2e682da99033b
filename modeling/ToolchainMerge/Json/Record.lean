import ToolchainMerge.Json.Reader

/-!
# Records in JSON

A record is written as an object with a member for each field, and read from such an object
or from an array of the fields in the order of their declaration.  A `Schema` lists the
fields; reading and writing are both derived from it.

In an object, fields come in any order and under either of their names, members with other
names are passed over, no field may come twice, and the fields that have no default must not
be absent.  In an array, only fields with defaults may be left out, and only at the end.
-/

namespace ToolchainMerge.Json

/-- A field of records, together with how it is read and written. -/
structure Field (ρ : Type) where
  /-- The name under which the field is written. -/
  name : String
  /-- Another name under which it is read. -/
  alias? : Option String
  required : Bool
  /-- Reads a value at a depth and stores it in a record. -/
  read : Nat → Json → ρ → Except ReadError ρ
  /-- The value of the field in a record, or nothing where it is left out. -/
  write : ρ → Option Json

/-- A type of records: its name in messages, the record in which all defaults stand, and its
fields in the order of their declaration. -/
structure Schema (ρ : Type) where
  name : String
  default : ρ
  fields : List (Field ρ)

variable {ρ α : Type}

namespace Field

/-- Whether a member of an object belongs to the field. -/
def answersTo (field : Field ρ) (name : String) : Bool :=
  name = field.name || some name = field.alias?

/-- A field that every record has to give. -/
def mandatory (name : String) (codec : Codec α) (get : ρ → α) (set : ρ → α → ρ) : Field ρ where
  name := name
  alias? := none
  required := true
  read depth json record := (codec.read depth json).map (set record)
  write record := some (codec.write (get record))

/-- A field that keeps its default where it is absent. -/
def defaulted (name : String) (alias? : Option String) (codec : Codec α) (get : ρ → α)
    (set : ρ → α → ρ) : Field ρ :=
  { mandatory name codec get set with alias? := alias?, required := false }

/-- A field whose absence is a value of its own. -/
def optional (name : String) (codec : Codec α) (get : ρ → Option α) (set : ρ → Option α → ρ) :
    Field ρ where
  name := name
  alias? := none
  required := false
  read depth json record := (codec.optional.read depth json).map (set record)
  write record := (get record).map codec.write

end Field

namespace Schema

/-- Reads the members of an object behind those that gave the fields `seen`; returns all
fields that are given and the record with their values. -/
def readMembers (fields : List (Field ρ)) (depth : Nat) (seen : List String) (record : ρ) :
    List (Literal × Json) → Except ReadError (List String × ρ)
  | [] => .ok (seen, record)
  | (key, value) :: members => do
      let name ← key.read
      match fields.find? (·.answersTo name) with
      | none =>
          value.skip
          readMembers fields depth seen record members
      | some field =>
          if field.name ∈ seen then .error (.repeatedField field.name)
          else do
            let record ← field.read depth value record
            readMembers fields depth (field.name :: seen) record members

/-- The first field that must be present and is not. -/
def missing? (fields : List (Field ρ)) (seen : List String) : Option (Field ρ) :=
  fields.find? fun field => field.required && field.name ∉ seen

/-- Reads an object as a record.  What is missing shows behind the last member only. -/
def readObject (schema : Schema ρ) (depth : Nat) (members : List (Literal × Json))
    (stop : Option Fault) : Except ReadError ρ := do
  let (seen, record) ← readMembers schema.fields depth [] schema.default members
  checkEnd stop
  match missing? schema.fields seen with
  | some field => .error (.missingField field.name)
  | none => .ok record

/-- Reads fields from the items of an array, of which `count` have been read; `short` is the
problem with an array of a given length. -/
def readPositions (short : Nat → ReadError) (depth : Nat) (stop : Option Fault) (count : Nat)
    (record : ρ) : List (Field ρ) → List Json → Except ReadError ρ
  | [], [] => (checkEnd stop).map fun _ => record
  | [], _ :: _ => .error (.fault .malformed)
  | field :: fields, [] => do
      checkEnd stop
      if (field :: fields).any (·.required) then .error (short count) else .ok record
  | field :: fields, item :: items => do
      let record ← field.read depth item record
      readPositions short depth stop (count + 1) record fields items

/-- Reads a record from an object or an array, which takes one of the levels left. -/
def read (schema : Schema ρ) : Nat → Json → Except ReadError ρ
  | 0, .array _ _ | 0, .object _ _ => .error (.fault .malformed)
  | depth + 1, .array items stop =>
      readPositions (.wrongLength · schema.name schema.fields.length) depth stop 0 schema.default
        schema.fields items
  | depth + 1, .object members stop => schema.readObject depth members stop
  | _, json => mismatch ("struct " ++ schema.name) json

/-- A record as an object, its fields in the order of declaration. -/
def write (schema : Schema ρ) (record : ρ) : Json :=
  .object (schema.fields.filterMap fun field =>
    (field.write record).map fun value => (Literal.ofString field.name, value)) none

/-- The records of a schema as values. -/
def codec (schema : Schema ρ) : Codec ρ where
  read := schema.read
  write := schema.write

end Schema

end ToolchainMerge.Json
