/-!
# Starlark expressions

The values that a rule assigns: literals, names, lists, and calls with keyword arguments.
The order of the arguments of a call matters and a keyword may repeat; which calls are made
is decided elsewhere.

`Expr` contains lists of itself, so its equality is defined here by recursion and proved to
be the equality of values (`Expr.same_iff`).
-/

namespace ToolchainMerge.Starlark

/-- A value as it is written in a rule. -/
inductive Expr where
  | str (value : String)
  | bool (value : Bool)
  | none
  /-- A name, written as it is; it may be a dotted path. -/
  | ident (name : String)
  | list (items : List Expr)
  /-- A call whose arguments all have keywords. -/
  | call (name : String) (args : List (String × Expr))
deriving Inhabited, Repr

namespace Expr

/-! ## Building expressions -/

/-- `None` for an absent text and a string literal for a present one. -/
def optionalStr : Option String → Expr
  | some value => .str value
  | Option.none => .none

/-- A list of string literals. -/
def strList (values : List String) : Expr :=
  .list (values.map .str)

/-! ## Kinds of expressions -/

/-- Literals and names are scalars; they never break over lines. -/
def isScalar : Expr → Bool
  | .str _ | .bool _ | .none | .ident _ => true
  | .list _ | .call _ _ => false

/-- Whether an expression is the list without items. -/
def isEmptyList : Expr → Bool
  | .list items => items.isEmpty
  | _ => false

/-! ## Equality -/

mutual

/-- Whether two expressions agree in every part. -/
def same : Expr → Expr → Bool
  | .str value, .str value' => decide (value = value')
  | .bool value, .bool value' => decide (value = value')
  | .none, .none => true
  | .ident name, .ident name' => decide (name = name')
  | .list items, .list items' => sameItems items items'
  | .call name args, .call name' args' => decide (name = name') && sameArgs args args'
  | _, _ => false

/-- Whether two lists agree item by item. -/
def sameItems : List Expr → List Expr → Bool
  | [], [] => true
  | item :: items, item' :: items' => same item item' && sameItems items items'
  | _, _ => false

/-- Whether two argument lists agree position by position, keywords included. -/
def sameArgs : List (String × Expr) → List (String × Expr) → Bool
  | [], [] => true
  | (keyword, value) :: args, (keyword', value') :: args' =>
      decide (keyword = keyword') && same value value' && sameArgs args args'
  | _, _ => false

end

mutual

theorem same_iff : (left right : Expr) → (same left right = true ↔ left = right)
  | .str _, right => by cases right <;> simp [same]
  | .bool _, right => by cases right <;> simp [same]
  | .none, right => by cases right <;> simp [same]
  | .ident _, right => by cases right <;> simp [same]
  | .list items, right => by cases right <;> simp [same, sameItems_iff items]
  | .call _ args, right => by cases right <;> simp [same, sameArgs_iff args]

theorem sameItems_iff : (left right : List Expr) → (sameItems left right = true ↔ left = right)
  | [], [] => by simp [sameItems]
  | item :: items, item' :: items' => by
      simp [sameItems, same_iff item item', sameItems_iff items items']
  | [], _ :: _ => by simp [sameItems]
  | _ :: _, [] => by simp [sameItems]

theorem sameArgs_iff :
    (left right : List (String × Expr)) → (sameArgs left right = true ↔ left = right)
  | [], [] => by simp [sameArgs]
  | (_, value) :: args, (_, value') :: args' => by
      simp [sameArgs, same_iff value value', sameArgs_iff args args']
  | [], _ :: _ => by simp [sameArgs]
  | _ :: _, [] => by simp [sameArgs]

end

instance : DecidableEq Expr := fun left right =>
  decidable_of_iff (same left right = true) (same_iff left right)

end Expr

end ToolchainMerge.Starlark
