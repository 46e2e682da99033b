import ToolchainMerge.Json.Number
import ToolchainMerge.Json.Parser
import ToolchainMerge.Text.Shown

/-!
# Reading values out of trees

A `Codec` says how values of a type are found in a tree and how they are put into one.  A
tree is read from left to right and the first problem is reported: a fault of the text, or a
well-formed value of the wrong shape.

Arrays and objects are opened at most `maxDepth` deep along the values that are read.  A
reader is told how many more it may open; values that nobody reads are only checked for
faults and may be nested as deeply as they like.
-/

namespace ToolchainMerge.Json

open Text

/-! ## Problems -/

/-- A value as messages speak of it. -/
inductive Shape where
  | null
  | bool (value : Bool)
  | integer (value : Int)
  | float (text : String)
  | string (value : String)
  | sequence
  | map
deriving DecidableEq, Inhabited, Repr

/-- What a message calls a value.  Of arrays and objects it tells only what they are. -/
def Shape.describe : Shape → String
  | .null => "null"
  | .bool value => "boolean `" ++ toString value ++ "`"
  | .integer value => "integer `" ++ toString value ++ "`"
  | .float text => "floating point `" ++ text ++ "`"
  | .string value => "string " ++ shown value
  | .sequence => "sequence"
  | .map => "map"

/-- Why a text does not hold a value of the wanted type. -/
inductive ReadError where
  | fault (fault : Fault)
  /-- A value of another shape stands in place of the wanted one. -/
  | wrongShape (found : Shape) (wanted : String)
  /-- An array that stands for a record is too short. -/
  | wrongLength (found : Nat) (record : String) (fields : Nat)
  | missingField (name : String)
  | repeatedField (name : String)
deriving DecidableEq, Inhabited, Repr

/-- The text that explains a value of the wrong shape.  The rules of JSON need no words. -/
def ReadError.message? : ReadError → Option String
  | .fault _ => none
  | .wrongShape found wanted => some ("invalid type: " ++ found.describe ++ ", expected " ++ wanted)
  | .wrongLength found record fields =>
      some ("invalid length " ++ toString found ++ ", expected struct " ++ record ++ " with " ++
        toString fields ++ (if fields = 1 then " element" else " elements"))
  | .missingField name => some ("missing field `" ++ name ++ "`")
  | .repeatedField name => some ("duplicate field `" ++ name ++ "`")

/-! ## Parts of a tree -/

/-- The text of a string that is read as a value or as a name. -/
def Literal.read (literal : Literal) : Except ReadError String :=
  literal.decode.mapError .fault

/-- Goes past a value that is not read. -/
def skip (json : Json) : Except ReadError Unit :=
  match json.fault? with
  | some fault => .error (.fault fault)
  | none => .ok ()

/-- Goes past the end of an array or object. -/
def checkEnd (stop : Option Fault) : Except ReadError Unit :=
  match stop with
  | some fault => .error (.fault fault)
  | none => .ok ()

/-- The shape of a value that is not the wanted one.  Arrays and objects are not looked
into. -/
def shape : Json → Except Fault Shape
  | .null => .ok .null
  | .bool value => .ok (.bool value)
  | .number digits =>
      match digits.value? with
      | some (.integer value) => .ok (.integer value)
      | some (.float value) => .ok (.float (Decimal.ofFloat value))
      | none => .error .malformed
  | .cutNumber => .error .cutShort
  | .string literal => literal.decode.map .string
  | .array _ _ => .ok .sequence
  | .object _ _ => .ok .map
  | .missing fault => .error fault

/-- The problem with a value that is not the wanted one. -/
def mismatch {α : Type} (wanted : String) (json : Json) : Except ReadError α :=
  match json.shape with
  | .ok found => .error (.wrongShape found wanted)
  | .error fault => .error (.fault fault)

/-! ## Codecs -/

/-- How values of a type are read from a tree, given how many more arrays and objects may be
opened, and how they are written as a tree. -/
structure Codec (α : Type) where
  read : Nat → Json → Except ReadError α
  write : α → Json

/-- The number of arrays and objects that may be open at once. -/
def maxDepth : Nat := 127

namespace Codec

variable {α : Type}

/-- Texts as strings. -/
def string : Codec String where
  read _
    | .string literal => literal.read
    | json => mismatch "a string" json
  write value := .string (.ofString value)

/-- Booleans as they are. -/
def bool : Codec Bool where
  read _
    | .bool value => .ok value
    | json => mismatch "a boolean" json
  write := .bool

/-- Values that may be absent, which `null` says too. -/
def optional (codec : Codec α) : Codec (Option α) where
  read depth
    | .null => .ok none
    | json => (codec.read depth json).map some
  write
    | some value => codec.write value
    | none => .null

/-- Reads the items of an array one after another. -/
def readItems (read : Json → Except ReadError α) : List Json → Except ReadError (List α)
  | [] => .ok []
  | item :: items => do
      let value ← read item
      let values ← readItems read items
      return value :: values

/-- Reads an array whose items `read` reads at the given depth. -/
def readList (read : Nat → Json → Except ReadError α) : Nat → Json → Except ReadError (List α)
  | 0, .array _ _ => .error (.fault .malformed)
  | depth + 1, .array items stop => do
      let values ← readItems (read depth) items
      checkEnd stop
      return values
  | _, json => mismatch "a sequence" json

/-- Lists as arrays. -/
def list (codec : Codec α) : Codec (List α) where
  read := readList codec.read
  write values := .array (values.map codec.write) none

/-- Reads the value of a document, behind which only blanks may stand. -/
def readDocument (codec : Codec α) (document : Document) : Except ReadError α := do
  let value ← codec.read maxDepth document.value
  if document.trailing then .error (.fault .malformed) else .ok value

/-- Reads a text that holds a value and nothing else. -/
def readText (codec : Codec α) (text : String) : Except ReadError α :=
  codec.readDocument (.ofText text)

end Codec

end ToolchainMerge.Json
