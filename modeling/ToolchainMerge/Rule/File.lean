import ToolchainMerge.Rule.Basic

/-!
# Rule files

A rule is delivered as a file that loads the constructors it uses, defines the function which
carries out the statements and returns the configuration, and binds the rule itself to a
name.
-/

namespace ToolchainMerge.Rule

open Starlark Text

/-- What the user of a rule file may choose. -/
structure Options where
  ruleName : String
  /-- The label of the file that defines the constructors. -/
  configLibLabel : String
  /-- The label of the file that defines `ACTION_NAMES`. -/
  actionNamesLabel : String
deriving DecidableEq, Repr

/-- What is chosen for a user who chooses nothing. -/
def Options.standard : Options where
  ruleName := "cc_toolchain_config"
  configLibLabel := "@bazel_tools//tools/cpp:cc_toolchain_config_lib.bzl"
  actionNamesLabel := "@bazel_tools//tools/build_defs/cc:action_names.bzl"

/-- The constructors that a rule file loads. -/
def constructors : List String :=
  ["action_config", "artifact_name_pattern", "env_entry", "env_set", "feature", "feature_set",
    "flag_group", "flag_set", "make_variable", "tool", "tool_path", "variable_with_value",
    "with_feature_set"]

/-- The fields of the configuration that a rule returns, each of which it has assigned to a
variable of that name. -/
def providedFields : List String :=
  ["features", "action_configs", "artifact_name_patterns", "cxx_builtin_include_directories",
    "toolchain_identifier", "host_system_name", "target_system_name", "target_cpu", "target_libc",
    "compiler", "abi_version", "abi_libc_version", "tool_paths", "make_variables",
    "builtin_sysroot", "cc_target_os"]

/-- The beginning of a rule file: the names that it loads. -/
def loads (options : Options) : String :=
  "load(" ++ quote options.configLibLabel ++ ",\n" ++
    concat (constructors.map fun symbol => spaces indentStep ++ quote symbol ++ ",\n") ++ ")\n" ++
    "load(" ++ quote options.actionNamesLabel ++ ", " ++ quote "ACTION_NAMES" ++ ")\n"

/-- What the implementation function returns: the configuration, and a file to run. -/
def providers : Expr :=
  .list [
    .call "cc_common.create_cc_toolchain_config_info"
      (("ctx", .ident "ctx") :: providedFields.map fun field => (field, .ident field)),
    .call "DefaultInfo" [("executable", .ident "out")]]

/-- The end of the implementation function: a placeholder file and the providers. -/
def ending : String :=
  "    out = ctx.actions.declare_file(ctx.label.name)\n" ++
    "    ctx.actions.write(out, " ++ quote "Fake executable" ++ ")\n" ++
    "    return " ++ providers.render indentStep ++ "\n"

/-- An attribute of the rule: its name and the text of its definition. -/
def attributeText (name : String) (args : List (String × Expr)) : String :=
  spaces (2 * indentStep) ++ quote name ++ ": " ++
    Expr.render (2 * indentStep) (.call "attr.string" args) ++ ",\n"

/-- The definition of the rule, whose attributes take the cpus and compilers of its keys. -/
def definition (options : Options) (rule : Rule) : String :=
  options.ruleName ++ " = rule(\n" ++
    "    implementation = _impl,\n" ++
    "    attrs = \x7b\n" ++
    attributeText "cpu" [("mandatory", .bool true), ("values", Expr.strList rule.cpus)] ++
    attributeText "compiler" [("values", Expr.strList rule.compilers)] ++
    "    \x7d,\n" ++
    "    provides = [CcToolchainConfigInfo],\n" ++
    "    executable = True,\n" ++
    ")\n"

/-- The text of a rule file. -/
def render (options : Options) (rule : Rule) : String :=
  loads options ++ "\ndef _impl(ctx):\n" ++ rule.renderBody ++ ending ++ "\n" ++
    definition options rule

end ToolchainMerge.Rule

namespace ToolchainMerge

/-- The rule file of a list of toolchains. -/
def mergeToText (options : Rule.Options) (toolchains : List Toolchain) :
    Except MergeError String :=
  (Rule.ofToolchains toolchains).map (Rule.render options)

end ToolchainMerge
