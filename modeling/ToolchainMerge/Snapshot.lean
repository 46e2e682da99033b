import ToolchainMerge.FileSystem
import ToolchainMerge.Text.Lines

/-!
# Snapshots

A snapshot is a file that holds the expected output of a conversion.  It is compared with an
actual output up to line ends.
-/

namespace ToolchainMerge.Snapshot

open Text

/-- Why a comparison with a snapshot fails. -/
inductive Problem where
  | unreadable (path : String)
  /-- The output differs from the snapshot. -/
  | differs (name : String) (difference : Difference)
deriving DecidableEq, Inhabited, Repr

/-- The message of a comparison that has failed. -/
def Problem.message : Problem → String
  | .unreadable path => "read golden file " ++ path
  | .differs name difference => "output differs from " ++ name ++ ": " ++ difference.message

/-- The text of a snapshot, its lines ending in line feeds. -/
def read (files : FileSystem) (directory name : String) : Except Problem String :=
  let path := Path.join directory name
  match files.readPath path with
  | .ok text => .ok (withLineFeeds text)
  | .error _ => .error (.unreadable path)

/-- Compares an output with a snapshot.  The line ends of the snapshot have been unified
when it was read, and the comparison unifies those of both texts. -/
def check (files : FileSystem) (directory name actual : String) : Except Problem Unit := do
  let expected ← read files directory name
  match firstDifference? actual expected with
  | some difference => throw (.differs name difference)
  | none => return

end ToolchainMerge.Snapshot
