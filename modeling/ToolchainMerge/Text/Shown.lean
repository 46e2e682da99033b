import ToolchainMerge.Text.Visible

/-!
# Texts shown in messages

A message shows a text between double quotes, with everything that could be mistaken or
overlooked spelled out: quotes, backslashes, line ends and characters without an appearance
of their own.
-/

namespace ToolchainMerge.Text

/-- A character as it is shown. -/
def shownChar (char : Char) : List Char :=
  match char with
  | '"' => ['\\', '"']
  | '\\' => ['\\', '\\']
  | '\t' => ['\\', 't']
  | '\r' => ['\\', 'r']
  | '\n' => ['\\', 'n']
  | '\x00' => ['\\', '0']
  | _ =>
      if isVisible char then [char]
      else ['\\', 'u', '{'] ++ Nat.toDigits 16 char.toNat ++ ['}']

/-- A text as a message shows it. -/
def shown (text : String) : String :=
  "\"" ++ String.ofList (text.toList.flatMap shownChar) ++ "\""

end ToolchainMerge.Text
