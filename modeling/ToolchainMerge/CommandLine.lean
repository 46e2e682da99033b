import ToolchainMerge.Rule.File

/-!
# The command line

A command line gives the settings of a conversion, each as an argument `--name=value` or as
two arguments `--name value`, and the flags for verbose output, help and the version.
Arguments are read one after another.

A value that stands in an argument of its own belongs to the option before it.  Such an
option is *pending* until the next option or flag that exists, or the end: only then it is
noticed that its value is missing or that it was given before.  Arguments that are not known
at all are reported without regard to it.
-/

namespace ToolchainMerge.CommandLine

open Text

/-- What a conversion is asked to do. -/
structure Invocation where
  /-- The path of the document to read. -/
  input : String
  /-- The path of the file to write; the standard output if there is none. -/
  output : Option String
  /-- The name to bind the rule to. -/
  ruleName : String
  verbose : Bool
deriving DecidableEq, Inhabited, Repr

/-- The choices of an invocation for the text of the rule file. -/
def Invocation.options (invocation : Invocation) : Rule.Options :=
  { Rule.Options.standard with ruleName := invocation.ruleName }

/-- Why a command line does not lead to a conversion. -/
inductive Refusal where
  | help
  | version
  | missingInput
  | missingValue
  | repeated
  | unknown
  | unwantedValue
deriving DecidableEq, Inhabited, Repr

/-- The options that take a value. -/
inductive Setting where
  | input
  | output
  | ruleName
deriving DecidableEq, Inhabited, Repr

/-- The options that take none. -/
inductive Flag where
  | verbose
  | help
  | version
deriving DecidableEq, Inhabited, Repr

/-- What the arguments so far have said. -/
structure State where
  input : Option String
  output : Option String
  ruleName : Option String
  verbose : Bool
  /-- The option whose value may still come, with the value if it has come. -/
  pending : Option (Setting × Option String)
  /-- Whether two dashes have ended the options. -/
  ended : Bool
deriving DecidableEq, Inhabited, Repr

namespace State

/-- Nothing has been said yet. -/
def initial : State :=
  ⟨none, none, none, false, none, false⟩

/-- The value of an option, if it has been stored. -/
def get? (state : State) : Setting → Option String
  | .input => state.input
  | .output => state.output
  | .ruleName => state.ruleName

/-- Stores the value of an option, whatever it was before. -/
def set (state : State) (value : String) : Setting → State
  | .input => { state with input := some value }
  | .output => { state with output := some value }
  | .ruleName => { state with ruleName := some value }

/-- Gives a setting its first value. -/
def store (state : State) (setting : Setting) (value : String) : Except Refusal State :=
  if (state.get? setting).isSome then .error .repeated else .ok (state.set value setting)

/-- Stores the value of the option that is pending, which has to have come by now. -/
def settle (state : State) : Except Refusal State :=
  match state.pending with
  | none => .ok state
  | some (_, none) => .error .missingValue
  | some (setting, some value) => { state with pending := none }.store setting value

/-- Takes a flag.  Those that ask for help or the version end the reading. -/
def takeFlag (state : State) (flag : Flag) : Except Refusal State := do
  let state ← state.settle
  match flag with
  | .help => throw .help
  | .version => throw .version
  | .verbose => if state.verbose then throw .repeated else return { state with verbose := true }

/-- Takes an option, with the value behind its equals sign if there is one. -/
def takeSetting (state : State) (setting : Setting) (value : Option String) :
    Except Refusal State := do
  let state ← state.settle
  match value with
  | some value => state.store setting value
  | none => return { state with pending := some (setting, none) }

/-- The option or flag of a long name. -/
def longName? : String → Option (Setting ⊕ Flag)
  | "input" => some (.inl .input)
  | "output" => some (.inl .output)
  | "rule-name" => some (.inl .ruleName)
  | "verbose" => some (.inr .verbose)
  | "help" => some (.inr .help)
  | "version" => some (.inr .version)
  | _ => none

/-- The flag of a single letter. -/
def letter? : Char → Option Flag
  | 'v' => some .verbose
  | 'h' => some .help
  | 'V' => some .version
  | _ => none

/-- Takes an argument behind its two dashes. -/
def takeLong (state : State) (text : List Char) : Except Refusal State :=
  let name := String.ofList (text.takeWhile (· ≠ '='))
  let value :=
    match text.dropWhile (· ≠ '=') with
    | [] => none
    | _ :: value => some (String.ofList value)
  match longName? name, value with
  | none, _ => .error .unknown
  | some (.inl setting), value => state.takeSetting setting value
  | some (.inr flag), none => state.takeFlag flag
  | some (.inr _), some _ => .error .unwantedValue

/-- Takes the letters behind a single dash. -/
def takeLetters (state : State) : List Char → Except Refusal State
  | [] => .ok state
  | letter :: letters =>
      match letter? letter with
      | none => .error .unknown
      | some flag => (state.takeFlag flag).bind fun state => state.takeLetters letters

/-- Takes an argument without a dash: the value of the option before it. -/
def takeValue (state : State) (value : String) : Except Refusal State :=
  match state.pending with
  | some (setting, none) => .ok { state with pending := some (setting, some value) }
  | _ => .error .unknown

/-- Takes one argument. -/
def take (state : State) (argument : String) : Except Refusal State :=
  if state.ended then .error .unknown
  else
    match argument.toList with
    | ['-', '-'] => .ok { state with ended := true }
    | '-' :: '-' :: text => state.takeLong text
    | '-' :: letter :: letters => state.takeLetters (letter :: letters)
    | _ => state.takeValue argument

/-- Takes arguments one after another. -/
def takeAll (state : State) : List String → Except Refusal State
  | [] => .ok state
  | argument :: arguments => (state.take argument).bind fun state => state.takeAll arguments

/-- The invocation that all arguments together ask for. -/
def finish (state : State) : Except Refusal Invocation := do
  let state ← state.settle
  match state.input with
  | none => throw .missingInput
  | some input =>
      return {
        input
        output := state.output
        ruleName := state.ruleName.getD Rule.Options.standard.ruleName
        verbose := state.verbose
      }

end State

/-- Reads a command line without the name of the program. -/
def parse (arguments : List String) : Except Refusal Invocation := do
  let state ← State.initial.takeAll arguments
  state.finish

/-- The answer to a question for the version. -/
def versionText : String := "crosstool-to-starlark 0.1.0\n"

/-- The answer to a question for help. -/
def helpText : String :=
  concat ([
    "Convert CROSSTOOL toolchain records into a cc_toolchain_config rule",
    "",
    "Usage: crosstool-to-starlark [OPTIONS] --input <path>",
    "",
    "Options:",
    "      --input <path>      JSON document of the form `\x7b \"toolchain\": [...] \x7d`",
    "      --output <path>     File to write the rule to; standard output when omitted",
    "      --rule-name <name>  Name bound to the generated rule [default: cc_toolchain_config]",
    "  -v, --verbose           Log merge progress at debug level",
    "  -h, --help              Print help",
    "  -V, --version           Print version"].map (· ++ "\n"))

end ToolchainMerge.CommandLine
