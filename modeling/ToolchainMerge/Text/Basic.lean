/-!
# Assembling text

The few ways in which the library puts strings together: runs of spaces, strings with a
separator between them, and the question whether a text stays on one line.
-/

namespace ToolchainMerge.Text

/-- A run of `width` spaces. -/
def spaces (width : Nat) : String :=
  String.ofList (List.replicate width ' ')

/-- The texts one behind another. -/
def concat : List String → String
  | [] => ""
  | text :: texts => text ++ concat texts

/-- The texts with `separator` between each two neighbours. -/
def joined (separator : String) : List String → String
  | [] => ""
  | [text] => text
  | text :: next :: texts => text ++ separator ++ joined separator (next :: texts)

/-- A text spans lines when a line feed occurs in it. -/
def SpansLines (text : String) : Prop :=
  '\n' ∈ text.toList

instance (text : String) : Decidable (SpansLines text) :=
  inferInstanceAs (Decidable ('\n' ∈ text.toList))

end ToolchainMerge.Text
