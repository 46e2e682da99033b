import ToolchainMerge.Path

/-!
# File systems

A `FileSystem` holds files and directories by their locations, the names that lead to them
from the root.  Paths are followed name by name: everything on the way has to be a directory,
two dots lead to the parent, and the parent of the root is the root.

The operations are those that a conversion needs: opening a directory, reading and writing a
file in it, and creating a directory with its parents.  What fails changes nothing, except
that parents which were created stay.
-/

namespace ToolchainMerge

/-- Why the file system refuses an operation. -/
inductive FileFault where
  | notFound
  | notADirectory
  | isADirectory
  | alreadyExists
  | notUtf8
  /-- Any other cause, in the words of the system. -/
  | other (text : String)
deriving DecidableEq, Inhabited, Repr

/-- The message of a refusal, in the words of the operating system. -/
def FileFault.message : FileFault → String
  | .notFound => "No such file or directory (os error 2)"
  | .alreadyExists => "File exists (os error 17)"
  | .notADirectory => "Not a directory (os error 20)"
  | .isADirectory => "Is a directory (os error 21)"
  | .notUtf8 => "stream did not contain valid UTF-8"
  | .other text => text

/-- The names that lead from the root to a file or directory. -/
abbrev Location := List String

/-- What there may be at a location. -/
inductive Entry where
  | file (content : ByteArray)
  | directory
deriving Inhabited

/-- Files and directories, and the directory in which relative paths start. -/
structure FileSystem where
  entries : List (Location × Entry)
  workingDirectory : Location

namespace FileSystem

variable (files : FileSystem)

/-- What there is at a location.  The root is always there. -/
def entry? (location : Location) : Option Entry :=
  if location = [] then some .directory
  else (files.entries.find? fun entry => entry.1 = location).map (·.2)

/-- Puts an entry at a location, in place of what was there. -/
def put (location : Location) (entry : Entry) : FileSystem :=
  if (files.entry? location).isSome then
    { files with entries := files.entries.map fun old =>
        if old.1 = location then (location, entry) else old }
  else { files with entries := files.entries ++ [(location, entry)] }

/-! ## Following paths -/

/-- Follows segments from a location.  There need not be anything at the end. -/
def follow (location : Location) : List String → Except FileFault Location
  | [] => .ok location
  | segment :: segments =>
      match files.entry? location with
      | none => .error .notFound
      | some (.file _) => .error .notADirectory
      | some .directory =>
          if Path.isIdle segment then follow location segments
          else if segment = ".." then follow location.dropLast segments
          else follow (location ++ [segment]) segments

/-- The location that a path leads to. -/
def locate (path : String) : Except FileFault Location :=
  if path = "" then .error .notFound
  else
    files.follow (if Path.isAbsolute path then [] else files.workingDirectory)
      (Path.segments path)

/-- The location of a directory that exists. -/
def openDirectory (path : String) : Except FileFault Location := do
  let location ← files.locate path
  match files.entry? location with
  | none => .error .notFound
  | some (.file _) => .error .notADirectory
  | some .directory => .ok location

/-! ## Files -/

/-- The content of the file at a location. -/
def read (location : Location) : Except FileFault ByteArray :=
  match files.entry? location with
  | none => .error .notFound
  | some .directory => .error .isADirectory
  | some (.file content) => .ok content

/-- Writes a file at a location in an existing directory. -/
def write (location : Location) (content : ByteArray) : Except FileFault FileSystem :=
  match files.entry? location with
  | some .directory => .error .isADirectory
  | _ => .ok (files.put location (.file content))

/-- The text of a file's content. -/
def decode (content : ByteArray) : Except FileFault String :=
  match String.fromUTF8? content with
  | some text => .ok text
  | none => .error .notUtf8

/-- The text of the file that a path leads to. -/
def readPath (path : String) : Except FileFault String := do
  let location ← files.locate path
  let content ← files.read location
  decode content

/-! ## Creating directories -/

/-- Creates the directory that a path leads to; its parent has to exist. -/
def makeDirectory (path : String) : Except FileFault FileSystem := do
  let location ← files.locate path
  if (files.entry? location).isSome then .error .alreadyExists
  else .ok (files.put location .directory)

/-- Whether a path leads to a directory that exists. -/
def isDirectory (path : String) : Bool :=
  (files.openDirectory path).isOk

/-- Creates a directory with the parents it lacks.  The path is given by its segments, the
last one first; the file system is returned with all that was created, also on failure. -/
def makeDirectories (files : FileSystem) : List String → Except FileFault Unit × FileSystem
  | [] => (.ok (), files)
  | segment :: before =>
      let path := Path.directoryText (segment :: before).reverse
      match files.makeDirectory path with
      | .ok files => (.ok (), files)
      | .error .notFound =>
          match makeDirectories files before with
          | (.error fault, files) => (.error fault, files)
          | (.ok (), files) =>
              match files.makeDirectory path with
              | .ok files => (.ok (), files)
              | .error fault =>
                  (if files.isDirectory path then .ok () else .error fault, files)
      | .error fault => (if files.isDirectory path then .ok () else .error fault, files)

end FileSystem

end ToolchainMerge
