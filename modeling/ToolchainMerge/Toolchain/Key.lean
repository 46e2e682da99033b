/-!
# Toolchain keys

A rule selects its toolchain by two attributes, the cpu and the compiler.  A `Key` is a
value of both.
-/

namespace ToolchainMerge

/-- The pair of attribute values that selects a toolchain. -/
structure Key where
  cpu : String
  compiler : String
deriving DecidableEq, Inhabited, Repr

namespace Key

/-- Keys are shown as the cpu and the compiler with a slash between them. -/
def display (key : Key) : String :=
  key.cpu ++ "/" ++ key.compiler

/-- The order of keys: by cpu, then by compiler. -/
def before (left right : Key) : Bool :=
  left.cpu < right.cpu || (left.cpu = right.cpu && left.compiler < right.compiler)

end Key

end ToolchainMerge
