import ToolchainMerge.Proofs.Constructor

/-!
# What the calls of components keep

`Proofs/Constructor.lean` compares two values of one type by their calls.  Here the types are put
side by side: a component is a value of any of them, and two components with one call are of one
kind and agree in everything that is written.

Only two things are meant to be dropped, and `Component.written` drops both.  It changes tools and
action configs only, so for all other kinds equal calls mean equal values.  A condition with more
than one variable would lose the others, which is why components are compared when they are `Plain`.
-/

namespace ToolchainMerge

open Starlark

/-! ## What is written -/

theorem Tool.toExpr_written (tool : Tool) : tool.written.toExpr = tool.toExpr := by
  rw [Tool.toExpr_eq_iff]
  by_cases hpath : tool.path = ""
  · -- the placeholder is not empty, so it is not replaced again
    simp [Tool.written, hpath, Tool.unusedPath]
  · simp [Tool.written, hpath]

theorem ActionConfig.toExpr_written (config : ActionConfig) :
    config.written.toExpr = config.toExpr := by
  have htools : config.written.tools.map Tool.toExpr = config.tools.map Tool.toExpr := by
    simp [ActionConfig.written, Function.comp_def, Tool.toExpr_written]
  rw [config.written.toExpr_eq, config.toExpr_eq, htools]
  rfl

/-! ## Components -/

/-- A value that a toolchain is made of, of any type that is written as a call. -/
inductive Component where
  | makeVariable (value : MakeVariable)
  | toolPath (value : ToolPath)
  | artifactNamePattern (value : ArtifactNamePattern)
  | variableWithValue (value : VariableWithValue)
  | withFeatureSet (value : WithFeatureSet)
  | featureSet (value : FeatureSet)
  | envEntry (value : EnvEntry)
  | envSet (value : EnvSet)
  | flagGroup (value : FlagGroup)
  | flagSet (value : FlagSet)
  | feature (value : Feature)
  | tool (value : Tool)
  | actionConfig (value : ActionConfig)
deriving DecidableEq

namespace Component

/-- The call that a component is written as. -/
def toExpr : Component → Expr
  | .makeVariable value => value.toExpr
  | .toolPath value => value.toExpr
  | .artifactNamePattern value => value.toExpr
  | .variableWithValue value => value.toExpr
  | .withFeatureSet value => value.toExpr
  | .featureSet value => value.toExpr
  | .envEntry value => value.toExpr
  | .envSet value => value.toExpr
  | .flagGroup value => value.toExpr
  | .flagSet value => value.toExpr
  | .feature value => value.toExpr
  | .tool value => value.toExpr
  | .actionConfig value => value.toExpr

/-- The constructor that a component calls. -/
def constructor : Component → String
  | .makeVariable _ => "make_variable"
  | .toolPath _ => "tool_path"
  | .artifactNamePattern _ => "artifact_name_pattern"
  | .variableWithValue _ => "variable_with_value"
  | .withFeatureSet _ => "with_feature_set"
  | .featureSet _ => "feature_set"
  | .envEntry _ => "env_entry"
  | .envSet _ => "env_set"
  | .flagGroup _ => "flag_group"
  | .flagSet _ => "flag_set"
  | .feature _ => "feature"
  | .tool _ => "tool"
  | .actionConfig _ => "action_config"

/-- All flag groups of a component are plain, at every depth.  Kinds without flag groups are
always plain. -/
def Plain : Component → Prop
  | .flagGroup group => group.Plain
  | .flagSet set => ∀ group ∈ set.groups, group.Plain
  | .feature value => FlagSet.AllPlain value.flagSets
  | .actionConfig config => FlagSet.AllPlain config.flagSets
  | _ => True

/-- A component as it is written: action configs lose their config name, and an empty tool path
becomes the placeholder.  Components of other kinds are written whole. -/
def written : Component → Component
  | .tool value => .tool value.written
  | .actionConfig config => .actionConfig config.written
  | component => component

/-- What is written is a call of the constructor. -/
theorem exists_toExpr_eq (component : Component) :
    ∃ args, component.toExpr = .call component.constructor args := by
  cases component with
  | makeVariable value => exact ⟨_, value.toExpr_eq⟩
  | toolPath value => exact ⟨_, value.toExpr_eq⟩
  | artifactNamePattern value => exact ⟨_, value.toExpr_eq⟩
  | variableWithValue value => exact ⟨_, value.toExpr_eq⟩
  | withFeatureSet value => exact ⟨_, value.toExpr_eq⟩
  | featureSet value => exact ⟨_, value.toExpr_eq⟩
  | envEntry value => exact ⟨_, value.toExpr_eq⟩
  | envSet value => exact ⟨_, value.toExpr_eq⟩
  | flagGroup value => exact ⟨_, value.toExpr_eq⟩
  | flagSet value => exact ⟨_, value.toExpr_eq⟩
  | feature value => exact ⟨_, value.toExpr_eq⟩
  | tool value => exact ⟨_, value.toExpr_eq⟩
  | actionConfig value => exact ⟨_, value.toExpr_eq⟩

theorem constructor_eq_of_toExpr_eq {left right : Component} (heq : left.toExpr = right.toExpr) :
    left.constructor = right.constructor := by
  obtain ⟨args, hleft⟩ := left.exists_toExpr_eq
  obtain ⟨args', hright⟩ := right.exists_toExpr_eq
  rw [hleft, hright, Expr.call.injEq] at heq
  exact heq.1

theorem toExpr_written (component : Component) : component.written.toExpr = component.toExpr := by
  cases component with
  | tool value => exact value.toExpr_written
  | actionConfig config => exact config.toExpr_written
  | _ => rfl

/-- **Conversion drops nothing else.**  Two plain components have one call exactly when they are
the same as far as they are written. -/
theorem toExpr_eq_iff_written_eq {left right : Component} (hleft : left.Plain)
    (hright : right.Plain) : left.toExpr = right.toExpr ↔ left.written = right.written := by
  constructor
  · intro heq
    have hname := constructor_eq_of_toExpr_eq heq
    cases left <;> cases right
    case makeVariable.makeVariable => exact congrArg makeVariable (MakeVariable.toExpr_inj heq)
    case toolPath.toolPath => exact congrArg toolPath (ToolPath.toExpr_inj heq)
    case artifactNamePattern.artifactNamePattern =>
      exact congrArg artifactNamePattern (ArtifactNamePattern.toExpr_inj heq)
    case variableWithValue.variableWithValue =>
      exact congrArg variableWithValue (VariableWithValue.toExpr_inj heq)
    case withFeatureSet.withFeatureSet =>
      exact congrArg withFeatureSet (WithFeatureSet.toExpr_inj heq)
    case featureSet.featureSet => exact congrArg featureSet (FeatureSet.toExpr_inj heq)
    case envEntry.envEntry => exact congrArg envEntry (EnvEntry.toExpr_inj heq)
    case envSet.envSet => exact congrArg envSet (EnvSet.toExpr_inj heq)
    case flagGroup.flagGroup left right =>
      exact congrArg flagGroup (FlagGroup.toExpr_inj left right hleft hright heq)
    case flagSet.flagSet => exact congrArg flagSet (FlagSet.toExpr_inj hleft hright heq)
    case feature.feature => exact congrArg feature (Feature.toExpr_inj hleft hright heq)
    case tool.tool => exact congrArg tool (Tool.toExpr_eq_iff.mp heq)
    case actionConfig.actionConfig =>
      exact congrArg actionConfig ((ActionConfig.toExpr_eq_iff hleft hright).mp heq)
    -- components of two kinds call two constructors
    all_goals exact absurd hname (by simp [constructor])
  · intro heq
    calc
      left.toExpr = left.written.toExpr := left.toExpr_written.symm
      _ = right.written.toExpr := by rw [heq]
      _ = right.toExpr := right.toExpr_written

/-- A config of the linker whose flags expand for an output file. -/
def linkerConfig (configName toolPath : String) : ActionConfig where
  configName := configName
  actionName := "c++-link-executable"
  enabled := true
  tools := [⟨toolPath, [], []⟩]
  flagSets := [⟨[], [⟨["static"], []⟩],
    [⟨[], [⟨["-o", "%\x7boutput\x7d"], [], none, ["output"], [], none, none, none⟩], none, [],
      ["shared"], none, none, none⟩]⟩]
  implies := ["linkstamps"]

/-- Two configs that differ in the config name, and in how they say that the tool is not used. -/
theorem toExpr_eq_iff_written_eq_linkerConfig :
    Plain (.actionConfig (linkerConfig "link" "")) ∧
      Plain (.actionConfig (linkerConfig "executable" "NOT_USED")) ∧
      linkerConfig "link" "" ≠ linkerConfig "executable" "NOT_USED" ∧
      (toExpr (.actionConfig (linkerConfig "link" "")) =
          toExpr (.actionConfig (linkerConfig "executable" "NOT_USED")) ↔
        written (.actionConfig (linkerConfig "link" "")) =
          written (.actionConfig (linkerConfig "executable" "NOT_USED"))) ∧
      written (.actionConfig (linkerConfig "link" "")) =
        written (.actionConfig (linkerConfig "executable" "NOT_USED")) := by
  have hleft : Plain (.actionConfig (linkerConfig "link" "")) :=
    FlagSet.repeatAmong?_eq_none_iff.mp (by decide)
  have hright : Plain (.actionConfig (linkerConfig "executable" "NOT_USED")) :=
    FlagSet.repeatAmong?_eq_none_iff.mp (by decide)
  exact ⟨hleft, hright, by decide, toExpr_eq_iff_written_eq hleft hright, by decide⟩

end Component

end ToolchainMerge
