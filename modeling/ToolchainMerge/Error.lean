import ToolchainMerge.Toolchain.Basic

/-!
# Why toolchains cannot be merged

A list of toolchains either becomes a rule or is refused for exactly one of the causes of
`MergeError`.  `MergeError.message` is the only place that words them.
-/

namespace ToolchainMerge

/-- The two kinds of named items that a rule declares. -/
inductive ItemKind where
  | feature
  | actionConfig
deriving DecidableEq, Inhabited, Repr

/-- What a kind of items is called in the description files, and so in messages. -/
def ItemKind.schemaName : ItemKind → String
  | .feature => "feature"
  | .actionConfig => "action_config"

/-- The two conditions of a flag group that take at most one variable. -/
inductive Directive where
  | allAvailable
  | noneAvailable
deriving DecidableEq, Inhabited, Repr

/-- The field of a flag group that holds the condition. -/
def Directive.schemaName : Directive → String
  | .allAvailable => "expand_if_all_available"
  | .noneAvailable => "expand_if_none_available"

/-- The causes for which a list of toolchains is refused. -/
inductive MergeError where
  | noToolchains
  | repeatedKey (key : Key)
  /-- A toolchain declares an item of one name twice. -/
  | repeatedItem (kind : ItemKind) (name : String) (toolchain : String)
  /-- A flag group below the item `owner` has several variables for one condition. -/
  | repeatedDirective (kind : ItemKind) (owner : String) (directive : Directive)
  /-- Two different names would be declared under one identifier. -/
  | sharedIdentifier (kind : ItemKind) (identifier first second : String)
deriving DecidableEq, Inhabited, Repr

/-- The message of a refusal. -/
def MergeError.message : MergeError → String
  | .noToolchains => "no toolchains to convert"
  | .repeatedKey key =>
      "toolchain key cpu '" ++ key.cpu ++ "', compiler '" ++ key.compiler ++
        "' appears more than once"
  | .repeatedItem kind name toolchain =>
      "toolchain '" ++ toolchain ++ "' declares " ++ kind.schemaName ++ " '" ++ name ++
        "' more than once"
  | .repeatedDirective kind owner directive =>
      "Error in " ++ kind.schemaName ++ " '" ++ owner ++
        "': Flag group must not have more than one '" ++ directive.schemaName ++ "' field"
  | .sharedIdentifier kind identifier first second =>
      kind.schemaName ++ " names '" ++ first ++ "' and '" ++ second ++
        "' both map to identifier '" ++ identifier ++ "'"

end ToolchainMerge
