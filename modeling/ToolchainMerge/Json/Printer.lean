import ToolchainMerge.Json.Basic
import ToolchainMerge.Text.Basic

/-!
# Writing trees as text

A tree without faults is written without blanks.  Inside a string, quotes, backslashes and
control characters are escaped and everything else stands for itself.
-/

namespace ToolchainMerge.Json

open Text

/-- The digit of a value below sixteen. -/
def hexDigit (value : Nat) : Char :=
  Nat.digitChar value

/-- The escape of a code unit. -/
def unicodeEscape (unit : Nat) : List Char :=
  ['\\', 'u', hexDigit (unit / 0x1000 % 16), hexDigit (unit / 0x100 % 16),
    hexDigit (unit / 0x10 % 16), hexDigit (unit % 16)]

/-- An element of a string as it stands between the quotes. -/
def Piece.render : Piece → List Char
  | .surrogate unit => unicodeEscape unit
  | .char '"' => ['\\', '"']
  | .char '\\' => ['\\', '\\']
  | .char '\x08' => ['\\', 'b']
  | .char '\x0c' => ['\\', 'f']
  | .char '\n' => ['\\', 'n']
  | .char '\r' => ['\\', 'r']
  | .char '\t' => ['\\', 't']
  | .char plain => if plain < ' ' then unicodeEscape plain.toNat else [plain]

/-- A string between its quotes. -/
def Literal.render (literal : Literal) : String :=
  "\"" ++ String.ofList (literal.pieces.flatMap Piece.render) ++ "\""

/-- Decimal digits, the first one in front. -/
def renderDigits (digits : List Nat) : String :=
  String.ofList (digits.map Nat.digitChar)

/-- A number with the parts that it has. -/
def Number.render (number : Number) : String :=
  (if number.negative then "-" else "") ++ renderDigits number.whole ++
    (if number.fraction.isEmpty then "" else "." ++ renderDigits number.fraction) ++
    (if number.exponent.isEmpty then ""
      else (if number.negativeExponent then "e-" else "e") ++ renderDigits number.exponent)

mutual

/-- The text of a tree without faults; what a fault left of a value is written as nothing. -/
def render : Json → String
  | .null => "null"
  | .bool true => "true"
  | .bool false => "false"
  | .number value => value.render
  | .string literal => literal.render
  | .array items _ => "[" ++ joined "," (renderItems items) ++ "]"
  | .object members _ => "\x7b" ++ joined "," (renderMembers members) ++ "\x7d"
  | .cutNumber | .missing _ => ""

/-- The items of an array, each as a text of its own. -/
def renderItems : List Json → List String
  | [] => []
  | item :: items => render item :: renderItems items

/-- The members of an object, each as a text of its own. -/
def renderMembers : List (Literal × Json) → List String
  | [] => []
  | (key, value) :: members => (key.render ++ ":" ++ render value) :: renderMembers members

end

end ToolchainMerge.Json
