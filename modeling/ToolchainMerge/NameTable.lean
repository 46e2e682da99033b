import ToolchainMerge.Error
import ToolchainMerge.Identifier

/-!
# Tables of names

A `NameTable` gives each of a list of names an identifier, in the order in which the names
first occur.  It exists only if different names get different identifiers.
-/

namespace ToolchainMerge

/-- What is put behind the stem of a name, so that features and action configs of one name
get different identifiers. -/
def ItemKind.suffix : ItemKind → String
  | .feature => "_feature"
  | .actionConfig => "_action"

/-- Names with their identifiers, in the order in which the names came. -/
structure NameTable where
  entries : List (String × String)
deriving DecidableEq, Inhabited, Repr

namespace NameTable

/-- The identifier of a name. -/
def get? (table : NameTable) (name : String) : Option String :=
  (table.entries.find? fun entry => entry.1 = name).map (·.2)

/-- The name that an identifier belongs to. -/
def owner? (table : NameTable) (identifier : String) : Option String :=
  (table.entries.find? fun entry => entry.2 = identifier).map (·.1)

/-- The number of names. -/
def size (table : NameTable) : Nat :=
  table.entries.length

/-- Whether a table has no names. -/
def isEmpty (table : NameTable) : Bool :=
  table.entries.isEmpty

/-- Adds a name at the end.  A name that is there already changes nothing; a new one whose
identifier belongs to another name is refused. -/
def add (kind : ItemKind) (suffix : String) (table : NameTable) (name : String) :
    Except MergeError NameTable :=
  if (table.get? name).isSome then .ok table
  else
    let identifier := identifierStem name ++ suffix
    match table.owner? identifier with
    | some first => .error (.sharedIdentifier kind identifier first name)
    | none => .ok ⟨table.entries ++ [(name, identifier)]⟩

/-- Adds the names of a list one after another. -/
def addAll (kind : ItemKind) (suffix : String) (table : NameTable) :
    List String → Except MergeError NameTable
  | [] => .ok table
  | name :: names => (table.add kind suffix name).bind fun table => table.addAll kind suffix names

/-- The table of some names, or the first two of them that need the same identifier. -/
def ofNames (kind : ItemKind) (suffix : String) (names : List String) :
    Except MergeError NameTable :=
  addAll kind suffix ⟨[]⟩ names

end NameTable

end ToolchainMerge
