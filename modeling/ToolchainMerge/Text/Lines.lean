import ToolchainMerge.Text.Shown

/-!
# Lines

Texts are compared line by line and without regard to whether lines end in a line feed or in
a carriage return and a line feed.  `firstDifference?` finds the first line in which two
texts differ; texts that have the same lines may still differ in how the last one ends.

Lines are counted in 32 bits.  Behind line `2 ^ 31 - 1` the count wraps around; where additions
are checked, the search breaks off there instead.
-/

namespace ToolchainMerge.Text

/-! ## Line ends -/

/-- Drops each carriage return that a line feed follows. -/
def unifyEnds : List Char → List Char
  | '\r' :: '\n' :: rest => '\n' :: unifyEnds rest
  | char :: rest => char :: unifyEnds rest
  | [] => []

/-- A text whose lines end in line feeds alone. -/
def withLineFeeds (text : String) : String :=
  String.ofList (unifyEnds text.toList)

/-- A line whose characters are given in reverse; one carriage return before the line feed
belongs to the line end. -/
def completedLine : List Char → String
  | '\r' :: line => String.ofList line.reverse
  | line => String.ofList line.reverse

/-- The lines of some characters behind the beginning of a line, which is given in
reverse. -/
def linesFrom (line : List Char) : List Char → List String
  | [] => if line.isEmpty then [] else [String.ofList line.reverse]
  | char :: rest =>
      if char = '\n' then completedLine line :: linesFrom [] rest
      else linesFrom (char :: line) rest

/-- The lines of a text without their ends.  There is no line behind the last line feed. -/
def lines (text : String) : List String :=
  linesFrom [] text.toList

/-! ## Differences -/

/-- A line in which two texts differ.  A text that has ended has no such line. -/
structure Difference where
  /-- The count of the line, from one on. -/
  number : Int32
  expected : Option String
  actual : Option String
deriving DecidableEq, Inhabited, Repr

/-- What a message shows of a line. -/
def Difference.shownLine (line : Option String) : String :=
  shown (line.getD "<end of text>")

/-- The message that two texts differ. -/
def Difference.message (difference : Difference) : String :=
  "line " ++ toString difference.number ++ ": expected " ++ shownLine difference.expected ++
    ", got " ++ shownLine difference.actual

/-- The first position in which two lists of lines do not agree, `number` being that of
their first lines.  It wraps around when it is counted up beyond 32 bits. -/
def firstMismatch (number : Int32) : (actual expected : List String) → Difference
  | left :: actual, right :: expected =>
      if left = right then firstMismatch (number + 1) actual expected
      else ⟨number, some right, some left⟩
  | actual, expected => ⟨number, expected.head?, actual.head?⟩

/-- The first line in which two texts differ; none if they are equal up to line ends. -/
def firstDifference? (actual expected : String) : Option Difference :=
  let actual := withLineFeeds actual
  let expected := withLineFeeds expected
  if actual = expected then none else some (firstMismatch 1 (lines actual) (lines expected))

/-! ## Indented lines -/

/-- The characters of the Unicode property White_Space. -/
def isBlank (char : Char) : Bool :=
  ('\t' ≤ char && char ≤ '\r') || char = ' ' || char = '\u0085' || char = '\u00a0' ||
    char = '\u1680' || ('\u2000' ≤ char && char ≤ '\u200a') || char = '\u2028' ||
    char = '\u2029' || char = '\u202f' || char = '\u205f' || char = '\u3000'

/-- The lines that start with a text once blanks in front are dropped. -/
def linesOpeningWith (text start : String) : List String :=
  (lines text).filter fun line => start.toList.isPrefixOf (line.toList.dropWhile isBlank)

end ToolchainMerge.Text
