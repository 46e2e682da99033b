import ToolchainMerge.Proofs.Spelling
import ToolchainMerge.Toolchain.Basic

/-!
# The spellings of toolchain descriptions

The format of the description files, type by type: the fields in their order, the names of each
field with the one in the singular behind it, the fields that may be left out, and the values
they have then.  The rules are stated for the values alone and know nothing of the readers.

Flag groups contain flag groups.  Each nesting takes two levels, an array in an object or in
another array, so `FlagGroup.spelling` goes by the levels that are left.
-/

namespace ToolchainMerge

open Json

/-- Lists of texts. -/
private def textLists : Spelling (List String) :=
  Spelling.string.list

/-! ## Parts without nesting -/

/-- The rules for the fields of a make variable. -/
def MakeVariable.rules : List (FieldRule MakeVariable) := [
  .mandatory ["name"] .string (·.name),
  .mandatory ["value"] .string (·.value)]

/-- The spellings of make variables. -/
def MakeVariable.spelling : Spelling MakeVariable :=
  .record rules

/-- The rules for the fields of a tool path. -/
def ToolPath.rules : List (FieldRule ToolPath) := [
  .mandatory ["name"] .string (·.name),
  .mandatory ["path"] .string (·.path)]

/-- The spellings of tool paths. -/
def ToolPath.spelling : Spelling ToolPath :=
  .record rules

/-- The rules for the fields of a pattern for names. -/
def ArtifactNamePattern.rules : List (FieldRule ArtifactNamePattern) := [
  .mandatory ["category_name"] .string (·.category),
  .mandatory ["prefix"] .string (·.namePrefix),
  .mandatory ["extension"] .string (·.extension)]

/-- The spellings of patterns for names. -/
def ArtifactNamePattern.spelling : Spelling ArtifactNamePattern :=
  .record rules

/-- The rules for the fields of a comparison. -/
def VariableWithValue.rules : List (FieldRule VariableWithValue) := [
  .mandatory ["variable"] .string (·.variableName),
  .mandatory ["value"] .string (·.value)]

/-- The spellings of comparisons. -/
def VariableWithValue.spelling : Spelling VariableWithValue :=
  .record rules

/-- The rules for the fields of a constraint on features. -/
def WithFeatureSet.rules : List (FieldRule WithFeatureSet) := [
  .defaulted ["features", "feature"] textLists [] (·.features),
  .defaulted ["not_features", "not_feature"] textLists [] (·.notFeatures)]

/-- The spellings of constraints on features. -/
def WithFeatureSet.spelling : Spelling WithFeatureSet :=
  .record rules

/-- The rules for the fields of a set of features. -/
def FeatureSet.rules : List (FieldRule FeatureSet) := [
  .defaulted ["features", "feature"] textLists [] (·.features)]

/-- The spellings of sets of features. -/
def FeatureSet.spelling : Spelling FeatureSet :=
  .record rules

/-- The rules for the fields of a variable of the environment. -/
def EnvEntry.rules : List (FieldRule EnvEntry) := [
  .mandatory ["key"] .string (·.key),
  .mandatory ["value"] .string (·.value)]

/-- The spellings of variables of the environment. -/
def EnvEntry.spelling : Spelling EnvEntry :=
  .record rules

/-! ## Sets and flag groups -/

/-- The rules for the fields of a set of variables of the environment. -/
def EnvSet.rules : List (FieldRule EnvSet) := [
  .defaulted ["actions", "action"] textLists [] (·.actions),
  .defaulted ["env_entries", "env_entry"] EnvEntry.spelling.list [] (·.entries),
  .defaulted ["with_features", "with_feature"] WithFeatureSet.spelling.list [] (·.withFeatures)]

/-- The spellings of sets of variables of the environment. -/
def EnvSet.spelling : Spelling EnvSet :=
  .record rules

namespace FlagGroup

/-- The rules for a flag group whose nested groups have the spelling `nested`. -/
def rulesOver (nested : Spelling (List FlagGroup)) : List (FieldRule FlagGroup) := [
  .defaulted ["flags", "flag"] textLists [] (·.flags),
  .defaulted ["flag_groups", "flag_group"] nested [] (·.groups),
  .optional ["iterate_over"] .string (·.iterateOver),
  .defaulted ["expand_if_all_available"] textLists [] (·.ifAllAvailable),
  .defaulted ["expand_if_none_available"] textLists [] (·.ifNoneAvailable),
  .optional ["expand_if_true"] .string (·.ifTrue),
  .optional ["expand_if_false"] .string (·.ifFalse),
  .optional ["expand_if_equal"] VariableWithValue.spelling (·.ifEqual)]

mutual

/-- The spellings of flag groups with some levels left, of which each nesting takes two. -/
def spelling : Spelling FlagGroup
  | 0 => fun _ _ => False
  | levels + 1 => Spelling.record (rulesOver fun _ => nestedSpelling levels) (levels + 1)

/-- The spellings of the groups in a flag group. -/
def nestedSpelling : Spelling (List FlagGroup)
  | 0 => fun _ _ => False
  | levels + 1 => Spelling.list (fun _ => spelling levels) (levels + 1)

end

end FlagGroup

/-- The rules for the fields of a flag set. -/
def FlagSet.rules : List (FieldRule FlagSet) := [
  .defaulted ["actions", "action"] textLists [] (·.actions),
  .defaulted ["with_features", "with_feature"] WithFeatureSet.spelling.list [] (·.withFeatures),
  .defaulted ["flag_groups", "flag_group"] FlagGroup.spelling.list [] (·.groups)]

/-- The spellings of flag sets. -/
def FlagSet.spelling : Spelling FlagSet :=
  .record rules

/-! ## Named items -/

/-- The rules for the fields of a feature. -/
def Feature.rules : List (FieldRule Feature) := [
  .mandatory ["name"] .string (·.name),
  .defaulted ["enabled"] .bool false (·.enabled),
  .defaulted ["flag_sets", "flag_set"] FlagSet.spelling.list [] (·.flagSets),
  .defaulted ["env_sets", "env_set"] EnvSet.spelling.list [] (·.envSets),
  .defaulted ["requires"] FeatureSet.spelling.list [] (·.requires),
  .defaulted ["implies"] textLists [] (·.implies),
  .defaulted ["provides"] textLists [] (·.provides)]

/-- The spellings of features. -/
def Feature.spelling : Spelling Feature :=
  .record rules

/-- The rules for the fields of a tool. -/
def Tool.rules : List (FieldRule Tool) := [
  .defaulted ["tool_path"] .string "" (·.path),
  .defaulted ["with_features", "with_feature"] WithFeatureSet.spelling.list [] (·.withFeatures),
  .defaulted ["execution_requirements", "execution_requirement"] textLists []
    (·.executionRequirements)]

/-- The spellings of tools. -/
def Tool.spelling : Spelling Tool :=
  .record rules

/-- The rules for the fields of an action config. -/
def ActionConfig.rules : List (FieldRule ActionConfig) := [
  .mandatory ["config_name"] .string (·.configName),
  .mandatory ["action_name"] .string (·.actionName),
  .defaulted ["enabled"] .bool false (·.enabled),
  .defaulted ["tools", "tool"] Tool.spelling.list [] (·.tools),
  .defaulted ["flag_sets", "flag_set"] FlagSet.spelling.list [] (·.flagSets),
  .defaulted ["implies"] textLists [] (·.implies)]

/-- The spellings of action configs. -/
def ActionConfig.spelling : Spelling ActionConfig :=
  .record rules

/-! ## Toolchains and documents -/

namespace Toolchain

/-- The rules for the fields of a toolchain. -/
def rules : List (FieldRule Toolchain) := [
  .mandatory ["toolchain_identifier"] .string (·.identifier),
  .mandatory ["host_system_name"] .string (·.hostSystemName),
  .mandatory ["target_system_name"] .string (·.targetSystemName),
  .mandatory ["target_cpu"] .string (·.targetCpu),
  .mandatory ["target_libc"] .string (·.targetLibc),
  .mandatory ["compiler"] .string (·.compiler),
  .mandatory ["abi_version"] .string (·.abiVersion),
  .mandatory ["abi_libc_version"] .string (·.abiLibcVersion),
  .optional ["cc_target_os"] .string (·.targetOs),
  .optional ["builtin_sysroot"] .string (·.builtinSysroot),
  .defaulted ["cxx_builtin_include_directories", "cxx_builtin_include_directory"] textLists []
    (·.includeDirectories),
  .defaulted ["make_variables", "make_variable"] MakeVariable.spelling.list [] (·.makeVariables),
  .defaulted ["tool_paths", "tool_path"] ToolPath.spelling.list [] (·.toolPaths),
  .defaulted ["artifact_name_patterns", "artifact_name_pattern"] ArtifactNamePattern.spelling.list
    [] (·.artifactNamePatterns),
  .defaulted ["features", "feature"] Feature.spelling.list [] (·.features),
  .defaulted ["action_configs", "action_config"] ActionConfig.spelling.list [] (·.actionConfigs)]

/-- The spellings of toolchains. -/
def spelling : Spelling Toolchain :=
  .record rules

/-- The rules for a document of toolchains. -/
def documentRules : List (FieldRule (List Toolchain)) := [
  .mandatory ["toolchain", "toolchains"] spelling.list id]

/-- The spellings of a document of toolchains. -/
def documentSpelling : Spelling (List Toolchain) :=
  .record documentRules

end Toolchain

end ToolchainMerge
