import ToolchainMerge.Declaration
import ToolchainMerge.Validation

/-!
# The merged rule

`Rule.ofToolchains` merges a list of toolchains into the statements of one rule.  Every field
becomes one assignment, and every feature and action config that some toolchain has is
declared before the list that refers to it.

The toolchains are validated first; after that only two names with one identifier can stand
in the way, and action configs are looked at before features.
-/

namespace ToolchainMerge

open Starlark Text

/-- A rule that provides the toolchain configuration of any of its keys. -/
structure Rule where
  texts : List Assignment
  /-- The action configs, declared by name. -/
  actionConfigs : DeclaredField
  /-- The features, declared by name. -/
  features : DeclaredField
  lists : List Assignment
  /-- The values of the attribute `cpu`, smallest first. -/
  cpus : List String
  /-- The values of the attribute `compiler`, smallest first. -/
  compilers : List String
deriving DecidableEq, Inhabited, Repr

namespace Toolchain

/-- The texts that every toolchain has, under the names of their fields. -/
def textFields : List (String × (Toolchain → String)) :=
  [("toolchain_identifier", identifier), ("host_system_name", hostSystemName),
    ("target_system_name", targetSystemName), ("target_cpu", targetCpu),
    ("target_libc", targetLibc), ("compiler", compiler), ("abi_version", abiVersion),
    ("abi_libc_version", abiLibcVersion)]

/-- The texts that a toolchain may have, under the names of their fields. -/
def optionalFields : List (String × (Toolchain → Option String)) :=
  [("cc_target_os", targetOs), ("builtin_sysroot", builtinSysroot)]

/-- The assignment of one field of the toolchains, merged over all their keys. -/
def mergeField {α : Type} [DecidableEq α] (toolchains : List Toolchain) (target : String)
    (value : Toolchain → α) (toExpr : α → Expr) : Assignment :=
  let entries := toolchains.map fun toolchain => (toolchain.key, value toolchain)
  let classes := (ValueClass.ofEntries entries).map (·.map toExpr)
  ⟨target, .ofClasses classes (toolchains.map key) .everyKey⟩

/-- The assignments of all fields that are texts. -/
def mergeTexts (toolchains : List Toolchain) : List Assignment :=
  textFields.map (fun field => mergeField toolchains field.1 field.2 .str) ++
    optionalFields.map (fun field => mergeField toolchains field.1 field.2 Expr.optionalStr)

/-- The assignments of the list fields whose items have no names of their own. -/
def mergeLists (toolchains : List Toolchain) : List Assignment :=
  [mergeField toolchains "cxx_builtin_include_directories" includeDirectories Expr.strList,
    mergeField toolchains "artifact_name_patterns" artifactNamePatterns
      fun patterns => .list (patterns.map ArtifactNamePattern.toExpr),
    mergeField toolchains "make_variables" makeVariables
      fun exported => .list (exported.map MakeVariable.toExpr),
    mergeField toolchains "tool_paths" toolPaths
      fun tools => .list (tools.map ToolPath.toExpr)]

end Toolchain

namespace Rule

/-- Merges toolchains into a rule, or refuses them for the first problem with them. -/
def ofToolchains (toolchains : List Toolchain) : Except MergeError Rule := do
  validate toolchains
  let scope := toolchains.map Toolchain.key
  let actionConfigs ← Family.actionConfigs.declare "action_configs" toolchains scope
  let features ← Family.features.declare "features" toolchains scope
  return {
    texts := Toolchain.mergeTexts toolchains
    actionConfigs
    features
    lists := Toolchain.mergeLists toolchains
    cpus := sortedDistinct (toolchains.map (·.targetCpu))
    compilers := sortedDistinct (toolchains.map (·.compiler))
  }

/-! ## Statements -/

/-- What a statement is for: it gives a field its value or declares a named item. -/
inductive Role where
  | field
  | declaration (kind : ItemKind)
deriving DecidableEq, Inhabited, Repr

/-- The statements of a declared list field: the declarations of its items, then the list. -/
def declaredStatements (kind : ItemKind) (field : DeclaredField) : List (Role × Assignment) :=
  field.declarations.map (.declaration kind, ·) ++ [(.field, field.references)]

/-- The statements of a rule in the order in which they are executed, each with its role. -/
def statements (rule : Rule) : List (Role × Assignment) :=
  rule.texts.map (.field, ·) ++ declaredStatements .actionConfig rule.actionConfigs ++
    declaredStatements .feature rule.features ++ rule.lists.map (.field, ·)

/-- The assignments of a rule in the order in which they are executed. -/
def assignments (rule : Rule) : List Assignment :=
  rule.statements.map (·.2)

/-- The first assignment to a variable. -/
def assignment? (rule : Rule) (target : String) : Option Assignment :=
  rule.assignments.find? fun assignment => assignment.target = target

/-- The assignments as they stand in the body of the implementation function, a blank line
after each. -/
def renderBody (rule : Rule) : String :=
  concat (rule.assignments.map fun assignment => assignment.render indentStep ++ "\n")

end Rule

end ToolchainMerge
