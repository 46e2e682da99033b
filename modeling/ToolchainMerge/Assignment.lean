import ToolchainMerge.Condition
import ToolchainMerge.ValueClass

/-!
# Choices and assignments

The value of a field is always the same one or depends on the key of the toolchain.  A
`Choice` says which; `Choice.ofClasses` makes one from the values that the toolchains have,
with as little to choose as possible: when all agree there is one value, otherwise each value
becomes a branch.  An `Assignment` gives a variable of the rule the value of a choice.
-/

namespace ToolchainMerge

open Starlark Text

/-- Which keys of the rule a choice with branches provides for. -/
inductive Coverage where
  /-- All of them; a key without a branch is an error. -/
  | everyKey
  /-- Only some; a key without a branch gets no value. -/
  | someKeys
deriving DecidableEq, Inhabited, Repr

/-- One of several values and the condition under which it is taken. -/
structure Branch where
  condition : Condition
  value : Expr
deriving DecidableEq, Inhabited, Repr

/-- The values that a field can take, and what decides between them. -/
inductive Choice where
  /-- The same value for all keys. -/
  | always (value : Expr)
  /-- The value of the first branch whose condition holds. -/
  | byKey (branches : List Branch) (coverage : Coverage)
deriving DecidableEq, Inhabited, Repr

namespace Choice

/-- The choice among the values of `classes`, whose keys are told apart from the other keys
of `scope`. -/
def ofClasses (classes : List (ValueClass Expr)) (scope : List Key) (coverage : Coverage) :
    Choice :=
  match classes with
  | [only] => .always only.value
  | _ => .byKey (classes.map fun group => ⟨.selecting group.keys scope, group.value⟩) coverage

/-- The value that is chosen for a key.  Where no branch holds there is none. -/
def at? (key : Key) : Choice → Option Expr
  | .always value => some value
  | .byKey branches _ =>
      (branches.find? fun branch => branch.condition.Holds key).map (·.value)

/-- Whether the key plays no part in a choice. -/
def isConstant : Choice → Bool
  | .always _ => true
  | .byKey _ _ => false

/-- The branches of a choice; there are none where nothing depends on the key. -/
def branches : Choice → List Branch
  | .always _ => []
  | .byKey branches _ => branches

/-- Whether a key without a branch makes the rule fail. -/
def failsOtherwise : Choice → Bool
  | .byKey _ .everyKey => true
  | _ => false

end Choice

/-- A variable of the rule and the choice of its value. -/
structure Assignment where
  target : String
  choice : Choice
deriving DecidableEq, Inhabited, Repr

namespace Assignment

/-! ## Text -/

/-- The line or lines that assign one value. -/
def renderValue (target : String) (indent : Nat) (value : Expr) : String :=
  spaces indent ++ target ++ " = " ++ value.render indent ++ "\n"

/-- A branch behind its keyword, `if` or `elif`. -/
def renderBranch (target : String) (indent : Nat) (keyword : String) (branch : Branch) : String :=
  spaces indent ++ keyword ++ " " ++ branch.condition.render indent ++ ":\n" ++
    renderValue target (indent + indentStep) branch.value

/-- The branches of a choice, the first behind `if` and the others behind `elif`. -/
def renderBranches (target : String) (indent : Nat) : List Branch → String
  | [] => ""
  | first :: rest =>
      renderBranch target indent "if" first ++
        concat (rest.map (renderBranch target indent "elif"))

/-- What stands behind the branches: a failure where every key should have had one. -/
def renderOtherwise (indent : Nat) : Coverage → String
  | .everyKey =>
      spaces indent ++ "else:\n" ++ spaces (indent + indentStep) ++ "fail(\"Unreachable\")\n"
  | .someKeys => ""

/-- The text of an assignment whose first line is indented by `indent`; it ends with a line
feed. -/
def render (indent : Nat) (assignment : Assignment) : String :=
  match assignment.choice with
  | .always value => renderValue assignment.target indent value
  | .byKey branches coverage =>
      renderBranches assignment.target indent branches ++ renderOtherwise indent coverage

end Assignment

end ToolchainMerge
