import ToolchainMerge.Identifier
import ToolchainMerge.Starlark.Expr

/-!
# Names of actions

The standard actions have constants of their own, the attributes of `ACTION_NAMES`.  An
action that is not among them is named by a string.
-/

namespace ToolchainMerge.ActionName

open Starlark

/-- The actions that have a constant. -/
def standard : List String :=
  ["c-compile", "c++-compile", "linkstamp-compile", "cc-flags-make-variable",
    "c++-module-codegen", "c++-header-parsing", "c++-module-compile", "assemble",
    "preprocess-assemble", "lto-indexing", "lto-backend", "lto-index-for-executable",
    "lto-index-for-dynamic-library", "lto-index-for-nodeps-dynamic-library",
    "c++-link-executable", "c++-link-dynamic-library", "c++-link-nodeps-dynamic-library",
    "c++-link-static-library", "strip", "objc-compile", "objc++-compile", "objc-executable",
    "objc++-executable", "objc-fully-link", "clif-match"]

/-- The attribute of `ACTION_NAMES` for a standard action. -/
def constant? (action : String) : Option String :=
  if action ∈ standard then some (identifierStem action) else none

/-- An action as it is written: by its constant if it has one, and as a string otherwise. -/
def toExpr (action : String) : Expr :=
  match constant? action with
  | some constant => .ident ("ACTION_NAMES." ++ constant)
  | none => .str action

end ToolchainMerge.ActionName
