import ToolchainMerge.Json.Printer
import ToolchainMerge.Json.Record
import ToolchainMerge.Toolchain.Basic

/-!
# The schema of toolchain descriptions

How the parts of a toolchain stand in a JSON document: the names of their fields, the names
in the singular that lists are also known by, and which fields may be left out.

A flag group contains flag groups, so its codec is built by recursion: reading by recursion
on the number of arrays and objects that may still be opened, of which each nesting takes
two, and writing by recursion on the group.
-/

namespace ToolchainMerge

open Json

/-- Lists of texts. -/
private def strings : Codec (List String) :=
  Codec.string.list

/-! ## Parts without nesting -/

/-- The fields of a make variable, both of which have to be given. -/
def MakeVariable.schema : Schema MakeVariable where
  name := "MakeVariable"
  default := ⟨"", ""⟩
  fields := [
    .mandatory "name" .string (·.name) (fun entry value => { entry with name := value }),
    .mandatory "value" .string (·.value) (fun entry value => { entry with value := value })]

/-- The fields of a tool path, both of which have to be given. -/
def ToolPath.schema : Schema ToolPath where
  name := "ToolPath"
  default := ⟨"", ""⟩
  fields := [
    .mandatory "name" .string (·.name) (fun tool value => { tool with name := value }),
    .mandatory "path" .string (·.path) (fun tool value => { tool with path := value })]

/-- The fields of a pattern for names, all of which have to be given. -/
def ArtifactNamePattern.schema : Schema ArtifactNamePattern where
  name := "ArtifactNamePattern"
  default := ⟨"", "", ""⟩
  fields := [
    .mandatory "category_name" .string (·.category)
      (fun pattern value => { pattern with category := value }),
    .mandatory "prefix" .string (·.namePrefix)
      (fun pattern value => { pattern with namePrefix := value }),
    .mandatory "extension" .string (·.extension)
      (fun pattern value => { pattern with extension := value })]

/-- The fields of a comparison, both of which have to be given. -/
def VariableWithValue.schema : Schema VariableWithValue where
  name := "VariableWithValue"
  default := ⟨"", ""⟩
  fields := [
    .mandatory "variable" .string (·.variableName)
      (fun comparison value => { comparison with variableName := value }),
    .mandatory "value" .string (·.value)
      (fun comparison value => { comparison with value := value })]

/-- The fields of a constraint on features. -/
def WithFeatureSet.schema : Schema WithFeatureSet where
  name := "WithFeatureSet"
  default := ⟨[], []⟩
  fields := [
    .defaulted "features" (some "feature") strings (·.features)
      (fun constraint value => { constraint with features := value }),
    .defaulted "not_features" (some "not_feature") strings (·.notFeatures)
      (fun constraint value => { constraint with notFeatures := value })]

/-- The field of a set of features. -/
def FeatureSet.schema : Schema FeatureSet where
  name := "FeatureSet"
  default := ⟨[]⟩
  fields := [
    .defaulted "features" (some "feature") strings (·.features)
      (fun set value => { set with features := value })]

/-- The fields of a variable of the environment, both of which have to be given. -/
def EnvEntry.schema : Schema EnvEntry where
  name := "EnvEntry"
  default := ⟨"", ""⟩
  fields := [
    .mandatory "key" .string (·.key) (fun entry value => { entry with key := value }),
    .mandatory "value" .string (·.value) (fun entry value => { entry with value := value })]

/-! ## Sets and flag groups -/

/-- The fields of a set of variables of the environment. -/
def EnvSet.schema : Schema EnvSet where
  name := "EnvSet"
  default := ⟨[], [], []⟩
  fields := [
    .defaulted "actions" (some "action") strings (·.actions)
      (fun set value => { set with actions := value }),
    .defaulted "env_entries" (some "env_entry") EnvEntry.schema.codec.list (·.entries)
      (fun set value => { set with entries := value }),
    .defaulted "with_features" (some "with_feature") WithFeatureSet.schema.codec.list
      (·.withFeatures) (fun set value => { set with withFeatures := value })]

namespace FlagGroup

/-- The schema of a flag group whose nested groups have the codec `nested`. -/
def schemaOver (nested : Codec (List FlagGroup)) : Schema FlagGroup where
  name := "FlagGroup"
  default := ⟨[], [], none, [], [], none, none, none⟩
  fields := [
    .defaulted "flags" (some "flag") strings (·.flags)
      (fun group value => { group with flags := value }),
    .defaulted "flag_groups" (some "flag_group") nested (·.groups)
      (fun group value => { group with groups := value }),
    .optional "iterate_over" .string (·.iterateOver)
      (fun group value => { group with iterateOver := value }),
    .defaulted "expand_if_all_available" none strings (·.ifAllAvailable)
      (fun group value => { group with ifAllAvailable := value }),
    .defaulted "expand_if_none_available" none strings (·.ifNoneAvailable)
      (fun group value => { group with ifNoneAvailable := value }),
    .optional "expand_if_true" .string (·.ifTrue)
      (fun group value => { group with ifTrue := value }),
    .optional "expand_if_false" .string (·.ifFalse)
      (fun group value => { group with ifFalse := value }),
    .optional "expand_if_equal" VariableWithValue.schema.codec (·.ifEqual)
      (fun group value => { group with ifEqual := value })]

mutual

/-- A flag group as a tree.  The nested groups that the schema asks for are those of the
group itself, already written. -/
def toJson : FlagGroup → Json
  | group@⟨_, groups, _, _, _, _, _, _⟩ =>
      let nested := Json.array (toJsons groups) none
      (schemaOver ⟨fun _ => mismatch "", fun _ => nested⟩).write group

/-- Some flag groups as trees. -/
def toJsons : List FlagGroup → List Json
  | [] => []
  | group :: groups => toJson group :: toJsons groups

end

/-- Reads a flag group.  Its nested groups stand two levels deeper, in an array in the group
itself; where fewer levels are left, no nested group can be reached. -/
def readAt : Nat → Json → Except ReadError FlagGroup
  | depth + 2 =>
      let nested := Codec.readList fun _ => readAt depth
      (schemaOver ⟨nested, fun _ => .null⟩).read (depth + 2)
  | depth =>
      let nested := Codec.readList fun _ _ => .error (.fault .malformed)
      (schemaOver ⟨nested, fun _ => .null⟩).read depth

/-- Flag groups, nested as deeply as they like. -/
def codec : Codec FlagGroup :=
  ⟨readAt, toJson⟩

end FlagGroup

/-- The fields of a flag set. -/
def FlagSet.schema : Schema FlagSet where
  name := "FlagSet"
  default := ⟨[], [], []⟩
  fields := [
    .defaulted "actions" (some "action") strings (·.actions)
      (fun set value => { set with actions := value }),
    .defaulted "with_features" (some "with_feature") WithFeatureSet.schema.codec.list
      (·.withFeatures) (fun set value => { set with withFeatures := value }),
    .defaulted "flag_groups" (some "flag_group") FlagGroup.codec.list (·.groups)
      (fun set value => { set with groups := value })]

/-! ## Named items -/

/-- The fields of a feature, of which only the name has to be given. -/
def Feature.schema : Schema Feature where
  name := "Feature"
  default := ⟨"", false, [], [], [], [], []⟩
  fields := [
    .mandatory "name" .string (·.name) (fun feature value => { feature with name := value }),
    .defaulted "enabled" none .bool (·.enabled)
      (fun feature value => { feature with enabled := value }),
    .defaulted "flag_sets" (some "flag_set") FlagSet.schema.codec.list (·.flagSets)
      (fun feature value => { feature with flagSets := value }),
    .defaulted "env_sets" (some "env_set") EnvSet.schema.codec.list (·.envSets)
      (fun feature value => { feature with envSets := value }),
    .defaulted "requires" none FeatureSet.schema.codec.list (·.requires)
      (fun feature value => { feature with requires := value }),
    .defaulted "implies" none strings (·.implies)
      (fun feature value => { feature with implies := value }),
    .defaulted "provides" none strings (·.provides)
      (fun feature value => { feature with provides := value })]

/-- The fields of a tool, whose path is given as `tool_path`. -/
def Tool.schema : Schema Tool where
  name := "Tool"
  default := ⟨"", [], []⟩
  fields := [
    .defaulted "tool_path" none .string (·.path) (fun tool value => { tool with path := value }),
    .defaulted "with_features" (some "with_feature") WithFeatureSet.schema.codec.list
      (·.withFeatures) (fun tool value => { tool with withFeatures := value }),
    .defaulted "execution_requirements" (some "execution_requirement") strings
      (·.executionRequirements) (fun tool value => { tool with executionRequirements := value })]

/-- The fields of an action config, of which only the two names have to be given. -/
def ActionConfig.schema : Schema ActionConfig where
  name := "ActionConfig"
  default := ⟨"", "", false, [], [], []⟩
  fields := [
    .mandatory "config_name" .string (·.configName)
      (fun config value => { config with configName := value }),
    .mandatory "action_name" .string (·.actionName)
      (fun config value => { config with actionName := value }),
    .defaulted "enabled" none .bool (·.enabled)
      (fun config value => { config with enabled := value }),
    .defaulted "tools" (some "tool") Tool.schema.codec.list (·.tools)
      (fun config value => { config with tools := value }),
    .defaulted "flag_sets" (some "flag_set") FlagSet.schema.codec.list (·.flagSets)
      (fun config value => { config with flagSets := value }),
    .defaulted "implies" none strings (·.implies)
      (fun config value => { config with implies := value })]

/-! ## Toolchains and documents -/

/-- The fields of a toolchain.  Of the texts, two may be absent. -/
def Toolchain.schema : Schema Toolchain where
  name := "ToolchainRecord"
  default := ⟨"", "", "", "", "", "", "", "", none, none, [], [], [], [], [], []⟩
  fields := [
    .mandatory "toolchain_identifier" .string (·.identifier)
      (fun toolchain value => { toolchain with identifier := value }),
    .mandatory "host_system_name" .string (·.hostSystemName)
      (fun toolchain value => { toolchain with hostSystemName := value }),
    .mandatory "target_system_name" .string (·.targetSystemName)
      (fun toolchain value => { toolchain with targetSystemName := value }),
    .mandatory "target_cpu" .string (·.targetCpu)
      (fun toolchain value => { toolchain with targetCpu := value }),
    .mandatory "target_libc" .string (·.targetLibc)
      (fun toolchain value => { toolchain with targetLibc := value }),
    .mandatory "compiler" .string (·.compiler)
      (fun toolchain value => { toolchain with compiler := value }),
    .mandatory "abi_version" .string (·.abiVersion)
      (fun toolchain value => { toolchain with abiVersion := value }),
    .mandatory "abi_libc_version" .string (·.abiLibcVersion)
      (fun toolchain value => { toolchain with abiLibcVersion := value }),
    .optional "cc_target_os" .string (·.targetOs)
      (fun toolchain value => { toolchain with targetOs := value }),
    .optional "builtin_sysroot" .string (·.builtinSysroot)
      (fun toolchain value => { toolchain with builtinSysroot := value }),
    .defaulted "cxx_builtin_include_directories" (some "cxx_builtin_include_directory") strings
      (·.includeDirectories) (fun toolchain value => { toolchain with includeDirectories := value }),
    .defaulted "make_variables" (some "make_variable") MakeVariable.schema.codec.list
      (·.makeVariables) (fun toolchain value => { toolchain with makeVariables := value }),
    .defaulted "tool_paths" (some "tool_path") ToolPath.schema.codec.list (·.toolPaths)
      (fun toolchain value => { toolchain with toolPaths := value }),
    .defaulted "artifact_name_patterns" (some "artifact_name_pattern")
      ArtifactNamePattern.schema.codec.list (·.artifactNamePatterns)
      (fun toolchain value => { toolchain with artifactNamePatterns := value }),
    .defaulted "features" (some "feature") Feature.schema.codec.list (·.features)
      (fun toolchain value => { toolchain with features := value }),
    .defaulted "action_configs" (some "action_config") ActionConfig.schema.codec.list
      (·.actionConfigs) (fun toolchain value => { toolchain with actionConfigs := value })]

/-- A document holds a list of toolchains under one field. -/
def Toolchain.documentSchema : Schema (List Toolchain) where
  name := "CrosstoolDocument"
  default := []
  fields := [
    { Field.mandatory "toolchain" Toolchain.schema.codec.list id (fun _ value => value) with
      alias? := some "toolchains" }]

/-- The toolchains of a document. -/
def Toolchain.readDocument (text : String) : Except ReadError (List Toolchain) :=
  documentSchema.codec.readText text

/-- The document of some toolchains, without blanks. -/
def Toolchain.writeDocument (toolchains : List Toolchain) : String :=
  (documentSchema.write toolchains).render

end ToolchainMerge
