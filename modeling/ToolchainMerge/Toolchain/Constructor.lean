import ToolchainMerge.ActionName
import ToolchainMerge.Starlark.Call
import ToolchainMerge.Toolchain.Basic

/-!
# Constructor calls

Each part of a toolchain is written as a call of the constructor that the configuration
library has for it.  Arguments come in the order in which the constructor declares them, and
an argument that holds its default is left out.  A `FlagGroup` contains groups again, so its
conversion is recursive.

Two things do not show in the calls: the config name of an action config, and the difference
between an empty tool path and the placeholder `Tool.unusedPath`.
-/

namespace ToolchainMerge

open Starlark

/-- The list of action names. -/
def actionExprs (actions : List String) : List Expr :=
  actions.map ActionName.toExpr

/-- The list of string literals. -/
def strExprs (values : List String) : List Expr :=
  values.map .str

/-- The call of a make variable. -/
def MakeVariable.toExpr (exported : MakeVariable) : Expr :=
  ((Call.named "make_variable").strArg "name" exported.name
    |>.strArg "value" exported.value).toExpr

/-- The call of a tool path. -/
def ToolPath.toExpr (tool : ToolPath) : Expr :=
  ((Call.named "tool_path").strArg "name" tool.name |>.strArg "path" tool.path).toExpr

/-- The call of a pattern for the names of artifacts. -/
def ArtifactNamePattern.toExpr (pattern : ArtifactNamePattern) : Expr :=
  ((Call.named "artifact_name_pattern").strArg "category_name" pattern.category
    |>.strArg "prefix" pattern.namePrefix
    |>.strArg "extension" pattern.extension).toExpr

/-- The call of a comparison.  The variable goes under the keyword `name`. -/
def VariableWithValue.toExpr (comparison : VariableWithValue) : Expr :=
  ((Call.named "variable_with_value").strArg "name" comparison.variableName
    |>.strArg "value" comparison.value).toExpr

/-- The call of a constraint on features. -/
def WithFeatureSet.toExpr (constraint : WithFeatureSet) : Expr :=
  ((Call.named "with_feature_set").listArg "features" (strExprs constraint.features)
    |>.listArg "not_features" (strExprs constraint.notFeatures)).toExpr

/-- The call of a set of features. -/
def FeatureSet.toExpr (set : FeatureSet) : Expr :=
  ((Call.named "feature_set").listArg "features" (strExprs set.features)).toExpr

/-- The call of a variable of the environment. -/
def EnvEntry.toExpr (entry : EnvEntry) : Expr :=
  ((Call.named "env_entry").strArg "key" entry.key |>.strArg "value" entry.value).toExpr

/-- The call of a set of variables of the environment. -/
def EnvSet.toExpr (set : EnvSet) : Expr :=
  ((Call.named "env_set").listArg "actions" (actionExprs set.actions)
    |>.listArg "env_entries" (set.entries.map EnvEntry.toExpr)
    |>.listArg "with_features" (set.withFeatures.map WithFeatureSet.toExpr)).toExpr

namespace FlagGroup

mutual

/-- The call of a flag group.  Of the two lists of available variables only the first entry
can be written; a valid group has no more. -/
def toExpr : FlagGroup → Expr
  | ⟨flags, groups, iterateOver, ifAll, ifNone, ifTrue, ifFalse, ifEqual⟩ =>
      let call := (Call.named "flag_group").listArg "flags" (strExprs flags)
        |>.listArg "flag_groups" (toExprs groups)
        |>.optionalStrArg "iterate_over" iterateOver
        |>.optionalStrArg "expand_if_available" ifAll.head?
        |>.optionalStrArg "expand_if_not_available" ifNone.head?
        |>.optionalStrArg "expand_if_true" ifTrue
        |>.optionalStrArg "expand_if_false" ifFalse
      match ifEqual with
      | some comparison => (call.arg "expand_if_equal" comparison.toExpr).toExpr
      | none => call.toExpr

/-- The calls of some flag groups. -/
def toExprs : List FlagGroup → List Expr
  | [] => []
  | group :: groups => toExpr group :: toExprs groups

end

end FlagGroup

/-- The call of a flag set. -/
def FlagSet.toExpr (set : FlagSet) : Expr :=
  ((Call.named "flag_set").listArg "actions" (actionExprs set.actions)
    |>.listArg "with_features" (set.withFeatures.map WithFeatureSet.toExpr)
    |>.listArg "flag_groups" (FlagGroup.toExprs set.groups)).toExpr

/-- The call of a feature; one that is not enabled does not say so. -/
def Feature.toExpr (feature : Feature) : Expr :=
  ((Call.named "feature").strArg "name" feature.name
    |>.flagArg "enabled" feature.enabled
    |>.listArg "flag_sets" (feature.flagSets.map FlagSet.toExpr)
    |>.listArg "env_sets" (feature.envSets.map EnvSet.toExpr)
    |>.listArg "requires" (feature.requires.map FeatureSet.toExpr)
    |>.listArg "implies" (strExprs feature.implies)
    |>.listArg "provides" (strExprs feature.provides)).toExpr

/-- The path written for a tool that is never run. -/
def Tool.unusedPath : String := "NOT_USED"

/-- The call of a tool; an empty path marks one that is never run. -/
def Tool.toExpr (tool : Tool) : Expr :=
  ((Call.named "tool").strArg "path" (if tool.path = "" then unusedPath else tool.path)
    |>.listArg "with_features" (tool.withFeatures.map WithFeatureSet.toExpr)
    |>.listArg "execution_requirements" (strExprs tool.executionRequirements)).toExpr

/-- The call of an action config, which leaves out the config name. -/
def ActionConfig.toExpr (config : ActionConfig) : Expr :=
  ((Call.named "action_config").arg "action_name" (ActionName.toExpr config.actionName)
    |>.flagArg "enabled" config.enabled
    |>.listArg "flag_sets" (config.flagSets.map FlagSet.toExpr)
    |>.listArg "implies" (strExprs config.implies)
    |>.listArg "tools" (config.tools.map Tool.toExpr)).toExpr

end ToolchainMerge
