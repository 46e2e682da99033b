import ToolchainMerge.Starlark.Expr

/-!
# Calls under construction

A call is put together argument by argument.  The variants for flags, optional texts and
lists leave an argument out when it would only repeat the default of its keyword.
-/

namespace ToolchainMerge.Starlark

/-- The name of what is called, and the arguments so far. -/
structure Call where
  name : String
  args : List (String × Expr)
deriving DecidableEq, Repr

namespace Call

/-- A call without arguments. -/
def named (name : String) : Call :=
  ⟨name, []⟩

/-- Adds an argument behind the others. -/
def arg (call : Call) (keyword : String) (value : Expr) : Call :=
  { call with args := call.args ++ [(keyword, value)] }

/-- Adds a string literal. -/
def strArg (call : Call) (keyword value : String) : Call :=
  call.arg keyword (.str value)

/-- Adds a string literal for a present text and nothing for an absent one. -/
def optionalStrArg (call : Call) (keyword : String) : Option String → Call
  | some value => call.strArg keyword value
  | none => call

/-- Adds `True` for a set flag; `False` is the default and is left out. -/
def flagArg (call : Call) (keyword : String) (enabled : Bool) : Call :=
  if enabled then call.arg keyword (.bool true) else call

/-- Adds a list that has items; the empty list is the default and is left out. -/
def listArg (call : Call) (keyword : String) (items : List Expr) : Call :=
  if items.isEmpty then call else call.arg keyword (.list items)

/-- The value of the first argument of a keyword. -/
def get? (call : Call) (keyword : String) : Option Expr :=
  (call.args.find? fun argument => argument.1 = keyword).map (·.2)

/-- A call as a value. -/
def toExpr (call : Call) : Expr :=
  .call call.name call.args

end Call

end ToolchainMerge.Starlark
