import ToolchainMerge.Conversion

/-!
# The program

Carries out a command line on the machine: the outermost layer, which only connects the
operations of a `Host` with the operating system.
-/

namespace ToolchainMerge

/-- The cause of a refusal of the operating system. -/
def FileFault.ofSystem : IO.Error → FileFault
  | .noFileOrDirectory .. => .notFound
  | .alreadyExists .. => .alreadyExists
  | .inappropriateType _ 21 _ | .resourceBusy 21 _ => .isADirectory
  | .inappropriateType .. => .notADirectory
  | error => .other (toString error)

/-- Carries out an action of the operating system. -/
def attemptAction {α : Type} (action : IO α) : IO (Except FileFault α) := do
  try
    let value ← action
    return .ok value
  catch error =>
    return .error (.ofSystem error)

/-- The machine as a host. -/
def Host.machine : Host IO where
  openDirectory directory := attemptAction do
    let _ ← IO.FS.Handle.mk (directory ++ "/.") .read
  makeDirectories directory := attemptAction (IO.FS.createDirAll directory)
  readFile directory name := do
    match ← attemptAction (IO.FS.readBinFile (directory ++ "/" ++ name)) with
    | .ok content => return FileSystem.decode content
    | .error fault => return .error fault
  writeFile directory name content :=
    attemptAction (IO.FS.writeFile (directory ++ "/" ++ name) content)
  print text := do
    let stdout ← IO.getStdout
    stdout.putStr text
    stdout.flush

/-- What is said where no conversion takes place. -/
def CommandLine.Refusal.message : CommandLine.Refusal → String
  | .help => CommandLine.helpText
  | .version => CommandLine.versionText
  | .missingInput => "error: --input <path> is required"
  | .missingValue => "error: an option lacks its value"
  | .repeated => "error: an option is given twice"
  | .unknown => "error: unknown argument"
  | .unwantedValue => "error: a flag does not take a value"

end ToolchainMerge

open ToolchainMerge

/-- The program.  Help and version are no failures; a refused command line and a failed
conversion are told apart by what is returned. -/
def main (arguments : List String) : IO UInt32 := do
  match CommandLine.parse arguments with
  | .error .help => Host.machine.print CommandLine.helpText; return 0
  | .error .version => Host.machine.print CommandLine.versionText; return 0
  | .error refusal => IO.eprintln refusal.message; return 2
  | .ok invocation =>
      match ← (Conversion.run Host.machine invocation).run with
      | .ok () => return 0
      | .error error => IO.eprintln error.message; return 1
