import ToolchainMerge.Toolchain.Key

/-!
# Toolchain descriptions

One `Toolchain` describes one platform and compiler: the strings that name its parts, the
directories and tools it uses, and the features and action configs that decide which flags
a compiler invocation receives.  The types follow the schema of the description files, so a
list keeps its order and an absent string differs from an empty one.

All types have decidable equality, which the merge of several toolchains rests on.
`FlagGroup` contains itself, so its equality is defined here by recursion and proved to be
the equality of values (`FlagGroup.same_iff`).
-/

namespace ToolchainMerge

/-- A make variable that a toolchain exports. -/
structure MakeVariable where
  name : String
  value : String
deriving DecidableEq, Inhabited, Repr

/-- The path of a tool of a given name. -/
structure ToolPath where
  name : String
  path : String
deriving DecidableEq, Inhabited, Repr

/-- How the files of one category of artifacts are named. -/
structure ArtifactNamePattern where
  category : String
  namePrefix : String
  extension : String
deriving DecidableEq, Inhabited, Repr

/-- A build variable and the value it is compared with. -/
structure VariableWithValue where
  variableName : String
  value : String
deriving DecidableEq, Inhabited, Repr

/-- A constraint on features: all of `features` enabled and none of `notFeatures`. -/
structure WithFeatureSet where
  features : List String
  notFeatures : List String
deriving DecidableEq, Inhabited, Repr

/-- Features that must all be enabled. -/
structure FeatureSet where
  features : List String
deriving DecidableEq, Inhabited, Repr

/-- A variable of the environment and the value that it is set to. -/
structure EnvEntry where
  key : String
  value : String
deriving DecidableEq, Inhabited, Repr

/-- Variables of the environment set for some actions, under feature constraints. -/
structure EnvSet where
  actions : List String
  entries : List EnvEntry
  withFeatures : List WithFeatureSet
deriving DecidableEq, Inhabited, Repr

/-- Flags, nested groups, and the conditions under which they expand.  The two lists of
available variables hold at most one entry each in a valid toolchain. -/
structure FlagGroup where
  flags : List String
  groups : List FlagGroup
  iterateOver : Option String
  ifAllAvailable : List String
  ifNoneAvailable : List String
  ifTrue : Option String
  ifFalse : Option String
  ifEqual : Option VariableWithValue
deriving Inhabited, Repr

namespace FlagGroup

mutual

/-- Whether two flag groups agree in every part. -/
def same : FlagGroup → FlagGroup → Bool
  | ⟨flags, groups, iterateOver, ifAll, ifNone, ifTrue, ifFalse, ifEqual⟩,
    ⟨flags', groups', iterateOver', ifAll', ifNone', ifTrue', ifFalse', ifEqual'⟩ =>
      decide (flags = flags') && sameAll groups groups' && decide (iterateOver = iterateOver') &&
        decide (ifAll = ifAll') && decide (ifNone = ifNone') && decide (ifTrue = ifTrue') &&
        decide (ifFalse = ifFalse') && decide (ifEqual = ifEqual')

/-- Whether two lists of flag groups agree group by group. -/
def sameAll : List FlagGroup → List FlagGroup → Bool
  | [], [] => true
  | group :: groups, group' :: groups' => same group group' && sameAll groups groups'
  | _, _ => false

end

mutual

theorem same_iff : (left right : FlagGroup) → (same left right = true ↔ left = right)
  | ⟨_, groups, _, _, _, _, _, _⟩, ⟨_, groups', _, _, _, _, _, _⟩ => by
      simp [same, sameAll_iff groups groups', and_assoc]

theorem sameAll_iff : (left right : List FlagGroup) → (sameAll left right = true ↔ left = right)
  | [], [] => by simp [sameAll]
  | group :: groups, group' :: groups' => by
      simp [sameAll, same_iff group group', sameAll_iff groups groups']
  | [], _ :: _ => by simp [sameAll]
  | _ :: _, [] => by simp [sameAll]

end

instance : DecidableEq FlagGroup := fun left right =>
  decidable_of_iff (same left right = true) (same_iff left right)

end FlagGroup

/-- Flag groups applied to some actions, under feature constraints. -/
structure FlagSet where
  actions : List String
  withFeatures : List WithFeatureSet
  groups : List FlagGroup
deriving DecidableEq, Inhabited, Repr

/-- A named set of flags and variables that is turned on or off as a whole. -/
structure Feature where
  name : String
  enabled : Bool
  flagSets : List FlagSet
  envSets : List EnvSet
  requires : List FeatureSet
  implies : List String
  provides : List String
deriving DecidableEq, Inhabited, Repr

/-- A tool that an action config may run.  An empty path marks a slot that is never used. -/
structure Tool where
  path : String
  withFeatures : List WithFeatureSet
  executionRequirements : List String
deriving DecidableEq, Inhabited, Repr

/-- The configuration of one action.  Its configs are told apart by `actionName`. -/
structure ActionConfig where
  configName : String
  actionName : String
  enabled : Bool
  tools : List Tool
  flagSets : List FlagSet
  implies : List String
deriving DecidableEq, Inhabited, Repr

/-- One platform and compiler configuration. -/
structure Toolchain where
  identifier : String
  hostSystemName : String
  targetSystemName : String
  targetCpu : String
  targetLibc : String
  compiler : String
  abiVersion : String
  abiLibcVersion : String
  targetOs : Option String
  builtinSysroot : Option String
  includeDirectories : List String
  makeVariables : List MakeVariable
  toolPaths : List ToolPath
  artifactNamePatterns : List ArtifactNamePattern
  features : List Feature
  actionConfigs : List ActionConfig
deriving DecidableEq, Inhabited, Repr

/-- The key that selects the toolchain: its target cpu and its compiler. -/
def Toolchain.key (toolchain : Toolchain) : Key :=
  ⟨toolchain.targetCpu, toolchain.compiler⟩

end ToolchainMerge
