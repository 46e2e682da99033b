/-!
# Sorted lists

Sorting by insertion, in two forms: `sortedBy` keeps repeated elements and the order of
elements that its test does not tell apart, `sortedDistinct` keeps each string once.
Strings are ordered by their code points.
-/

namespace ToolchainMerge.Text

variable {α : Type}

/-- Puts an element in front of the first one that does not come before it. -/
def insertBy (before : α → α → Bool) (element : α) : List α → List α
  | [] => [element]
  | next :: rest =>
      if before next element then next :: insertBy before element rest
      else element :: next :: rest

/-- The elements in the order of `before`; elements that `before` does not separate keep
their order. -/
def sortedBy (before : α → α → Bool) : List α → List α
  | [] => []
  | element :: rest => insertBy before element (sortedBy before rest)

/-- Puts a string at its place in a sorted list, unless it is there already. -/
def insertDistinct (text : String) : List String → List String
  | [] => [text]
  | next :: rest =>
      if text = next then next :: rest
      else if text < next then text :: next :: rest
      else next :: insertDistinct text rest

/-- The distinct strings of a list, smallest first. -/
def sortedDistinct : List String → List String
  | [] => []
  | text :: rest => insertDistinct text (sortedDistinct rest)

end ToolchainMerge.Text
