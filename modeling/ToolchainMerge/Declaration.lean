import ToolchainMerge.Assignment
import ToolchainMerge.NameTable
import ToolchainMerge.Toolchain.Constructor

/-!
# Declarations of named items

Features and action configs are not written inside the list that holds them.  Each name gets
a variable of its own, declared once from the toolchains that have an item of that name; the
list then refers to the variables.

A `Family` says what the items are and what they are called, so that both kinds are declared
by the same rules.
-/

namespace ToolchainMerge

open Starlark

/-- A kind of named items: where a toolchain has them, their names and their calls. -/
structure Family (α : Type) where
  kind : ItemKind
  items : Toolchain → List α
  name : α → String
  toExpr : α → Expr

/-- A list field whose items have been declared. -/
structure DeclaredField where
  /-- One assignment for each name, in the order in which names first occur. -/
  declarations : List Assignment
  /-- The field itself, a list of the declared variables. -/
  references : Assignment
deriving DecidableEq, Inhabited, Repr

namespace Family

/-- The features of a toolchain, named by themselves. -/
def features : Family Feature :=
  ⟨.feature, (·.features), (·.name), Feature.toExpr⟩

/-- The action configs of a toolchain, named by their actions. -/
def actionConfigs : Family ActionConfig :=
  ⟨.actionConfig, (·.actionConfigs), (·.actionName), ActionConfig.toExpr⟩

variable {α : Type} (family : Family α)

/-- The names of all items of some toolchains, as often as they occur. -/
def names (toolchains : List Toolchain) : List String :=
  toolchains.flatMap fun toolchain => (family.items toolchain).map family.name

/-- The items of one name with the keys of their toolchains.  Of several items of that name
in one toolchain the first counts. -/
def definitions (name : String) (toolchains : List Toolchain) : List (Key × α) :=
  toolchains.filterMap fun toolchain =>
    ((family.items toolchain).find? fun item => family.name item = name).map
      fun item => (toolchain.key, item)

/-- The declaration of one name, chosen among the keys of the toolchains that define it. -/
def declaration [DecidableEq α] (toolchains : List Toolchain) (name identifier : String) :
    Assignment :=
  let definitions := family.definitions name toolchains
  let classes := (ValueClass.ofEntries definitions).map (·.map family.toExpr)
  ⟨identifier, .ofClasses classes (definitions.map (·.1)) .someKeys⟩

/-- The list of the declared variables of one toolchain. -/
def references (table : NameTable) (toolchain : Toolchain) : Expr :=
  .list (((family.items toolchain).filterMap fun item => table.get? (family.name item)).map .ident)

/-- The list field `field` with its items declared.  The keys to choose among for the list
itself are those of `scope`. -/
def declare [DecidableEq α] (field : String) (toolchains : List Toolchain) (scope : List Key) :
    Except MergeError DeclaredField := do
  let table ← NameTable.ofNames family.kind family.kind.suffix (family.names toolchains)
  let lists := toolchains.map fun toolchain => (toolchain.key, family.references table toolchain)
  return {
    declarations := table.entries.map fun entry => family.declaration toolchains entry.1 entry.2
    references := ⟨field, .ofClasses (ValueClass.ofEntries lists) scope .everyKey⟩
  }

end Family

end ToolchainMerge
