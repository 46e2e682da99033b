import ToolchainMerge.Starlark.Expr
import ToolchainMerge.Starlark.Quoted
import ToolchainMerge.Text.Basic

/-!
# Layout of expressions

An expression is written on one line or broken over several.  Which of the two is decided
from the inside out.

* A list of scalars stays on one line up to `inlineListWidth` characters, a list with a
  composite item only when that item is alone and itself stays on one line.
* A call stays on one line while the weights of its arguments add up to at most two, a
  scalar weighing one and everything else two, and no argument spans lines.

A broken list or call has one item or argument a line, each one step deeper and followed by
a comma, and its closing bracket on a line of its own.
-/

namespace ToolchainMerge.Starlark

open Text

/-- The spaces of one level of indentation. -/
def indentStep : Nat := 4

/-- The widest list of scalars that stays on one line, brackets included. -/
def inlineListWidth : Nat := 80

namespace Expr

/-- The share of a value in the weight of a call. -/
def weight (value : Expr) : Nat :=
  if value.isScalar then 1 else 2

/-- The weight of a call with some arguments. -/
def totalWeight : List (String × Expr) → Nat
  | [] => 0
  | (_, value) :: args => value.weight + totalWeight args

/-- A broken list or call: the opening text, each part on a line of its own and one step
deeper, the closing text. -/
def broken (opening closing : String) (indent : Nat) (parts : List String) : String :=
  opening ++ "\n" ++
    concat (parts.map fun part => spaces (indent + indentStep) ++ part ++ ",\n") ++
    spaces indent ++ closing

mutual

/-- The text of an expression that starts on a line indented by `indent`.  The first line
carries no indentation of its own; the others do. -/
def render (indent : Nat) : Expr → String
  | .str value => quote value
  | .bool true => "True"
  | .bool false => "False"
  | .none => "None"
  | .ident name => name
  | .list items =>
      if items.all isScalar then
        let inline := "[" ++ joined ", " (renderItems indent items) ++ "]"
        if inline.length ≤ inlineListWidth then inline
        else broken "[" "]" indent (renderItems (indent + indentStep) items)
      else if items.length = 1 then
        let inline := "[" ++ joined ", " (renderItems indent items) ++ "]"
        if SpansLines inline then
          broken "[" "]" indent (renderItems (indent + indentStep) items)
        else inline
      else broken "[" "]" indent (renderItems (indent + indentStep) items)
  | .call name args =>
      if totalWeight args ≤ 2 then
        let parts := renderArgs indent args
        if parts.any fun part => SpansLines part then
          broken (name ++ "(") ")" indent (renderArgs (indent + indentStep) args)
        else name ++ "(" ++ joined ", " parts ++ ")"
      else broken (name ++ "(") ")" indent (renderArgs (indent + indentStep) args)

/-- The items of a list, each as a text of its own. -/
def renderItems (indent : Nat) : List Expr → List String
  | [] => []
  | item :: items => render indent item :: renderItems indent items

/-- The arguments of a call, each as a text of its own. -/
def renderArgs (indent : Nat) : List (String × Expr) → List String
  | [] => []
  | (keyword, value) :: args =>
      (keyword ++ " = " ++ render indent value) :: renderArgs indent args

end

end Expr

end ToolchainMerge.Starlark
