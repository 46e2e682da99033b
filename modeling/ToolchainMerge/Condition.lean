import ToolchainMerge.Starlark.Layout
import ToolchainMerge.Text.Sorted
import ToolchainMerge.Toolchain.Key

/-!
# Conditions on the key

A branch of the rule is guarded by a condition on the attributes `cpu` and `compiler`.  A
condition is a list of tests of which one has to hold.

`Condition.selecting keys scope` selects `keys` among the keys of `scope` with as few
comparisons as possible: when the scope has no key of a cpu beside the selected ones, one
test of the cpu covers them all; otherwise each selected key of that cpu is tested as a
whole.  Tests come in the order of cpu and compiler, so the order in which keys are listed
does not show.
-/

namespace ToolchainMerge

open Starlark Text

/-- One test of a condition. -/
inductive Test where
  /-- The cpu is the given one. -/
  | ofCpu (cpu : String)
  /-- The cpu and the compiler are those of the key. -/
  | ofKey (key : Key)
deriving DecidableEq, Inhabited, Repr

namespace Test

/-- What a test says of a key. -/
def Holds (key : Key) : Test → Prop
  | .ofCpu cpu => key.cpu = cpu
  | .ofKey wanted => key = wanted

instance (key : Key) : (test : Test) → Decidable (test.Holds key)
  | .ofCpu cpu => inferInstanceAs (Decidable (key.cpu = cpu))
  | .ofKey wanted => inferInstanceAs (Decidable (key = wanted))

/-- The test as a Starlark expression of truth values. -/
def render : Test → String
  | .ofCpu cpu => "ctx.attr.cpu == " ++ quote cpu
  | .ofKey key =>
      "ctx.attr.cpu == " ++ quote key.cpu ++ " and ctx.attr.compiler == " ++ quote key.compiler

end Test

/-- A condition: one of its tests has to hold. -/
structure Condition where
  tests : List Test
deriving DecidableEq, Inhabited, Repr

namespace Condition

/-- What a condition says of a key: one of its tests holds. -/
def Holds (key : Key) (condition : Condition) : Prop :=
  ∃ test ∈ condition.tests, test.Holds key

instance (key : Key) (condition : Condition) : Decidable (condition.Holds key) :=
  inferInstanceAs (Decidable (∃ test ∈ condition.tests, test.Holds key))

/-- The number of keys of one cpu. -/
def countOfCpu (cpu : String) (keys : List Key) : Nat :=
  keys.countP fun key => key.cpu = cpu

/-- The tests that select, among the keys of one cpu in `scope`, those in `keys`. -/
def testsOfCpu (keys scope : List Key) (cpu : String) : List Test :=
  let members := keys.filter fun key => key.cpu = cpu
  if members.length = countOfCpu cpu scope then [.ofCpu cpu]
  else (sortedBy Key.before members).map .ofKey

/-- The condition that selects `keys` among the keys of `scope`. -/
def selecting (keys scope : List Key) : Condition :=
  ⟨(sortedDistinct (keys.map (·.cpu))).flatMap (testsOfCpu keys scope)⟩

/-- The condition in parentheses, one test a line; `indent` is that of the statement which
the condition belongs to. -/
def render (indent : Nat) (condition : Condition) : String :=
  "(" ++ joined ("\n" ++ spaces (indent + indentStep) ++ "or ") (condition.tests.map Test.render) ++
    ")"

end Condition

end ToolchainMerge
