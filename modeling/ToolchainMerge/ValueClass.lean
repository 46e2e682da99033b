import ToolchainMerge.Toolchain.Key

/-!
# Grouping keys by value

The toolchains that agree on a value of a field share one branch of the rule.  A
`ValueClass` is such a value together with the keys that have it.  Classes come in the order
in which their values first occur, and the keys of a class in the order of the entries, so
that neither depends on an order of the values.
-/

namespace ToolchainMerge

variable {α β : Type}

/-- A value and the keys of the toolchains that have it. -/
structure ValueClass (α : Type) where
  value : α
  keys : List Key
deriving DecidableEq, Repr

namespace ValueClass

/-- Adds an entry to the class of its value, or opens a new class at the end. -/
def insert [DecidableEq α] (key : Key) (value : α) : List (ValueClass α) → List (ValueClass α)
  | [] => [⟨value, [key]⟩]
  | group :: groups =>
      if group.value = value then { group with keys := group.keys ++ [key] } :: groups
      else group :: insert key value groups

/-- The classes of some entries, in the order in which their values first occur. -/
def ofEntries [DecidableEq α] (entries : List (Key × α)) : List (ValueClass α) :=
  entries.foldl (fun groups entry => insert entry.1 entry.2 groups) []

/-- Changes the value of a class and keeps its keys. -/
def map (change : α → β) (group : ValueClass α) : ValueClass β :=
  ⟨change group.value, group.keys⟩

end ValueClass

end ToolchainMerge
