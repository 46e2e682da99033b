/-!
# String literals of Starlark

A literal stands between double quotes.  A backslash, a double quote, a line feed, a
carriage return and a tab are written as two characters, so a literal never spans lines and
no text can end it early.  All other characters stand for themselves.
-/

namespace ToolchainMerge.Starlark

/-- A character as it is written inside a literal. -/
def escaped : Char → List Char
  | '\\' => ['\\', '\\']
  | '"' => ['\\', '"']
  | '\n' => ['\\', 'n']
  | '\r' => ['\\', 'r']
  | '\t' => ['\\', 't']
  | char => [char]

/-- The literal of a text. -/
def quote (text : String) : String :=
  "\"" ++ String.ofList (text.toList.flatMap escaped) ++ "\""

end ToolchainMerge.Starlark
