import ToolchainMerge.CommandLine
import ToolchainMerge.FileSystem
import ToolchainMerge.Json.Diagnosis
import ToolchainMerge.Toolchain.Schema

/-!
# Conversions

A conversion reads a document of toolchains, merges them, and writes the rule file.  The
output is not looked at before its text is complete, so a conversion that fails on the way
leaves everything as it was.

What a conversion does to the world is collected in a `Host`.  `Host.ofWorld` is the host
that keeps a file system and the standard output as values.
-/

namespace ToolchainMerge

/-- Why a conversion fails. -/
inductive ConversionError where
  | merge (error : MergeError)
  /-- The input is not a document of toolchains.  The diagnosis is that of a text that is not
  JSON. -/
  | document (error : Json.ReadError) (diagnosis : Option Json.Diagnosis)
  /-- A path that has to name a file does not. -/
  | notAFile (path : String)
  /-- The file system refuses an operation on a path. -/
  | file (path : String) (fault : FileFault)
deriving DecidableEq, Inhabited, Repr

/-- The text that explains why a document cannot be read.  A text that is JSON has no diagnosis.
If no value of it has the wrong shape either, it goes beyond what is read: it is nested too
deeply, say, or a string holds half of a character. -/
def Json.ReadError.message (error : Json.ReadError) (diagnosis : Option Json.Diagnosis) :
    String :=
  match error.message?, diagnosis with
  | some message, _ => message
  | none, some diagnosis => diagnosis.message
  | none, none => "the text is not well-formed"

/-- The message of a conversion that has failed. -/
def ConversionError.message : ConversionError → String
  | .merge error => error.message
  | .document error diagnosis =>
      "failed to parse toolchain JSON: " ++ error.message diagnosis
  | .notAFile path => "path " ++ path ++ " does not name a file"
  | .file path fault => "I/O error at " ++ path ++ ": " ++ fault.message

/-! ## Hosts -/

/-- The operations of a conversion on the world.  Directories are given by their paths and
files by a directory and a name. -/
structure Host (m : Type → Type) where
  openDirectory : String → m (Except FileFault Unit)
  /-- Creates a directory with the parents it lacks. -/
  makeDirectories : String → m (Except FileFault Unit)
  readFile : (directory name : String) → m (Except FileFault String)
  /-- Creates a file or replaces its content. -/
  writeFile : (directory name content : String) → m (Except FileFault Unit)
  print : String → m Unit

/-- A file system, and what has been written to the standard output. -/
structure World where
  files : FileSystem
  stdout : String

namespace Host

/-- The location of a file in a directory of a world. -/
def locate (world : World) (directory name : String) : Except FileFault Location :=
  (world.files.openDirectory directory).map (· ++ [name])

/-- The host whose world is a value. -/
def ofWorld : Host (StateM World) where
  openDirectory directory world := ((world.files.openDirectory directory).map fun _ => (), world)
  makeDirectories directory world :=
    let (result, files) :=
      world.files.makeDirectories (Path.trimmed (Path.segments directory)).reverse
    (result, { world with files })
  readFile directory name world :=
    let text := do
      let location ← locate world directory name
      let content ← world.files.read location
      FileSystem.decode content
    (text, world)
  writeFile directory name content world :=
    let written := do
      let location ← locate world directory name
      world.files.write location content.toUTF8
    match written with
    | .ok files => (.ok (), { world with files })
    | .error fault => (.error fault, world)
  print text world := ((), { world with stdout := world.stdout ++ text })

end Host

/-! ## Steps of a conversion -/

namespace Conversion

variable {m : Type → Type} [Monad m]

/-- An operation on a path as a step of a conversion. -/
def attempt {α : Type} (path : String) (operation : m (Except FileFault α)) :
    ExceptT ConversionError m α :=
  ExceptT.mk do
    let result ← operation
    return result.mapError (.file path)

/-- The directory and the name of the file that a path has to name. -/
def splitFile (path : String) : Except ConversionError (String × String) :=
  match Path.splitFile? path with
  | some parts => .ok parts
  | none => .error (.notAFile path)

/-- Reads the toolchains of the document at a path. -/
def readToolchains (host : Host m) (path : String) : ExceptT ConversionError m (List Toolchain) :=
  do
    let (directory, name) ← MonadExcept.ofExcept (splitFile path)
    attempt directory (host.openDirectory directory)
    let text ← attempt path (host.readFile directory name)
    MonadExcept.ofExcept <| (Toolchain.readDocument text).mapError fun error =>
      .document error (Json.Diagnosis.ofText? text)

/-- Sees to it that there is a directory. -/
def ensureDirectory (host : Host m) (directory : String) : ExceptT ConversionError m Unit := do
  match ← ExceptT.lift (host.openDirectory directory) with
  | .ok () => return
  | .error .notFound =>
      attempt directory (host.makeDirectories directory)
      attempt directory (host.openDirectory directory)
  | .error fault => throw (.file directory fault)

/-- Writes a text to the file at a path, in a directory that is created if need be. -/
def writeText (host : Host m) (path text : String) : ExceptT ConversionError m Unit := do
  let (directory, name) ← MonadExcept.ofExcept (splitFile path)
  ensureDirectory host directory
  attempt path (host.writeFile directory name text)

/-- Carries out an invocation.  The text is complete before any file is opened for it, so
what goes wrong earlier leaves no trace. -/
def run (host : Host m) (invocation : CommandLine.Invocation) : ExceptT ConversionError m Unit :=
  do
    let toolchains ← readToolchains host invocation.input
    let text ← MonadExcept.ofExcept ((mergeToText invocation.options toolchains).mapError .merge)
    match invocation.output with
    | some path => writeText host path text
    | none => ExceptT.lift (host.print text)

/-- Carries out an invocation in a world. -/
def runInWorld (world : World) (invocation : CommandLine.Invocation) :
    Except ConversionError Unit × World :=
  StateT.run (run Host.ofWorld invocation) world

end Conversion

end ToolchainMerge
