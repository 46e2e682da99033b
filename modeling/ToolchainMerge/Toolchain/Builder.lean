import ToolchainMerge.Toolchain.Basic

/-!
# Building toolchains step by step

Toolchains for experiments and snapshots, started from an identifier and a key and completed
by one change after another.
-/

namespace ToolchainMerge

/-- A feature without flags. -/
def Feature.named (name : String) (enabled : Bool) : Feature :=
  ⟨name, enabled, [], [], [], [], []⟩

/-- An action config without tools and flags, with one name for the config and its action. -/
def ActionConfig.named (name : String) (enabled : Bool) : ActionConfig :=
  ⟨name, name, enabled, [], [], []⟩

namespace Toolchain

/-! ## Beginnings -/

/-- A toolchain of which only the identifier and the key are given. -/
def bare (identifier cpu compiler : String) : Toolchain where
  identifier := identifier
  hostSystemName := ""
  targetSystemName := ""
  targetCpu := cpu
  targetLibc := ""
  compiler := compiler
  abiVersion := ""
  abiLibcVersion := ""
  targetOs := none
  builtinSysroot := none
  includeDirectories := []
  makeVariables := []
  toolPaths := []
  artifactNamePatterns := []
  features := []
  actionConfigs := []

variable (toolchain : Toolchain)

/-- Names the systems that run the tools and the product, and the C library. -/
def withSystems (host target libc : String) : Toolchain :=
  { toolchain with hostSystemName := host, targetSystemName := target, targetLibc := libc }

/-- Gives the versions of the binary interfaces. -/
def withAbi (version libcVersion : String) : Toolchain :=
  { toolchain with abiVersion := version, abiLibcVersion := libcVersion }

/-- A toolchain whose other texts are placeholders. -/
def keyed (identifier cpu compiler : String) : Toolchain :=
  ((bare identifier cpu compiler).withSystems "host" "target" "libc").withAbi "version"
    "libc_version"

/-- A toolchain all of whose texts tell the identifier. -/
def simple (identifier : String) : Toolchain :=
  ((bare ("id-" ++ identifier) ("cpu-" ++ identifier) ("compiler-" ++ identifier)).withSystems
    ("host-" ++ identifier) ("target-" ++ identifier) ("libc-" ++ identifier)).withAbi
    ("version-" ++ identifier) ("libc_version-" ++ identifier)

/-! ## Changes -/

/-- Gives the directory that stands in for the root of the system. -/
def withSysroot (path : String) : Toolchain :=
  { toolchain with builtinSysroot := some path }

/-- Gives the operating system that is compiled for. -/
def withTargetOs (os : String) : Toolchain :=
  { toolchain with targetOs := some os }

/-- Gives the directories that the compiler searches of its own accord. -/
def withIncludeDirectories (directories : List String) : Toolchain :=
  { toolchain with includeDirectories := directories }

/-- Exports one more make variable. -/
def addMakeVariable (name value : String) : Toolchain :=
  { toolchain with makeVariables := toolchain.makeVariables ++ [⟨name, value⟩] }

/-- Adds the path of one more tool. -/
def addToolPath (name path : String) : Toolchain :=
  { toolchain with toolPaths := toolchain.toolPaths ++ [⟨name, path⟩] }

/-- Adds how one more category of artifacts is named. -/
def addArtifactNamePattern (category namePrefix extension : String) : Toolchain :=
  { toolchain with
    artifactNamePatterns := toolchain.artifactNamePatterns ++ [⟨category, namePrefix, extension⟩] }

/-- Adds a feature behind the others. -/
def addFeature (feature : Feature) : Toolchain :=
  { toolchain with features := toolchain.features ++ [feature] }

/-- Adds an action config behind the others. -/
def addActionConfig (config : ActionConfig) : Toolchain :=
  { toolchain with actionConfigs := toolchain.actionConfigs ++ [config] }

end Toolchain

end ToolchainMerge
