import ToolchainMerge.Text.Basic

/-!
# Paths

A path is a text with slashes between its segments.  Empty segments and segments that are a
single dot say nothing, except at the beginning, where they tell an absolute path or the
current directory.  `Path.components` is what remains; it is the meaning of a path.

`Path.splitFile?` takes a path apart into a directory, as it is written, and the name of a
file in it.
-/

namespace ToolchainMerge.Path

open Text

/-- The segments of a path behind the beginning of one, which is given in reverse. -/
def segmentsFrom (segment : List Char) : List Char → List String
  | [] => [String.ofList segment.reverse]
  | char :: rest =>
      if char = '/' then String.ofList segment.reverse :: segmentsFrom [] rest
      else segmentsFrom (char :: segment) rest

/-- The parts of a path between slashes. -/
def segments (path : String) : List String :=
  segmentsFrom [] path.toList

/-- Whether a segment behind the first says nothing. -/
def isIdle (segment : String) : Bool :=
  segment = "" || segment = "."

/-! ## Components -/

/-- The meaningful parts of a path. -/
inductive Component where
  | root
  /-- The current directory; only at the beginning of a path. -/
  | here
  | parent
  | name (name : String)
deriving DecidableEq, Inhabited, Repr

/-- The component of a segment that is not idle. -/
def component (segment : String) : Component :=
  if segment = ".." then .parent else .name segment

/-- What a path means: its beginning, and behind it the segments that say something. -/
def components (path : String) : List Component :=
  match segments path with
  | [] => []
  | [""] => []
  | first :: rest =>
      let start := if first = "" then .root else if first = "." then .here else component first
      start :: (rest.filter fun segment => !isIdle segment).map component

/-! ## Files in directories -/

/-- The segments without those at the end that say nothing. -/
def trimmed : List String → List String
  | [] => []
  | first :: rest => first :: (rest.reverse.dropWhile isIdle).reverse

/-- The text of a directory by its segments.  No segment at all means the current
directory. -/
def directoryText : List String → String
  | [] => "."
  | [""] => "/"
  | segments => joined "/" segments

/-- The directory and the name of the file that a path names.  Paths that end in a directory
component name no file. -/
def splitFile? (path : String) : Option (String × String) :=
  match (trimmed (segments path)).reverse with
  | [] => none
  | last :: before =>
      if last = ".." || isIdle last then none
      else some (directoryText (trimmed before.reverse), last)

/-- Whether a path starts at the root. -/
def isAbsolute (path : String) : Bool :=
  path.toList.head? = some '/'

/-- A path that is to be followed from a directory. -/
def join (directory path : String) : String :=
  if isAbsolute path || directory = "" then path
  else if directory.toList.getLast? = some '/' then directory ++ path
  else directory ++ "/" ++ path

end ToolchainMerge.Path
