import ToolchainMerge.Json.Basic

/-!
# Tokens of JSON

`Token.ofText` cuts a text into its tokens in one pass.  The state of the pass, a `Lexer`,
holds the tokens so far and the token under way; `Lexer.step` takes one character.  A fault
is a token too, and the last one: nothing behind it is looked at.
-/

namespace ToolchainMerge.Json

/-- The smallest meaningful parts of a JSON text. -/
inductive Token where
  | openBrace
  | closeBrace
  | openBracket
  | closeBracket
  | comma
  | colon
  | null
  | bool (value : Bool)
  | number (value : Number)
  | cutNumber
  | string (literal : Literal)
  | fault (fault : Fault)
deriving DecidableEq, Inhabited, Repr

/-- What the characters of a number so far are. -/
inductive Number.Phase where
  | sign
  /-- A zero, which no further digit of the whole part may follow. -/
  | zero
  | whole
  | point
  | fraction
  /-- The letter in front of the exponent. -/
  | letter
  | exponentSign
  | exponent
deriving DecidableEq, Inhabited, Repr

/-- Whether a number may end here. -/
def Number.Phase.complete : Number.Phase → Bool
  | .zero | .whole | .fraction | .exponent => true
  | .sign | .point | .letter | .exponentSign => false

/-- The token under way. -/
inductive Lexer.Mode where
  | between
  /-- A word of which `next` and `rest` are still to come. -/
  | word (next : Char) (rest : List Char) (token : Token)
  | number (phase : Number.Phase) (value : Number)
  /-- A string; its pieces, the latest first. -/
  | string (pieces : List Piece)
  /-- A string, behind a backslash. -/
  | escape (pieces : List Piece)
  /-- A string, behind `\u` and the given characters, the latest first. -/
  | unicode (pieces : List Piece) (chars : List Char)
  | ended
deriving DecidableEq, Inhabited, Repr

/-- The state of a pass over a text: the tokens so far, the latest first, and the token under
way. -/
structure Lexer where
  tokens : List Token
  mode : Lexer.Mode
deriving DecidableEq, Inhabited, Repr

namespace Lexer

/-- The value of a decimal digit. -/
def digit (char : Char) : Nat :=
  char.toNat - '0'.toNat

/-- The value of a hexadecimal digit of either case. -/
def hexDigit? (char : Char) : Option Nat :=
  if char.isDigit then some (digit char)
  else if 'a' ≤ char ∧ char ≤ 'f' then some (char.toNat - 'a'.toNat + 10)
  else if 'A' ≤ char ∧ char ≤ 'F' then some (char.toNat - 'A'.toNat + 10)
  else none

/-- The code unit of four hexadecimal digits. -/
def codeUnit? (chars : List Char) : Option Nat :=
  match chars.map hexDigit? with
  | [some a, some b, some c, some d] => some (((a * 16 + b) * 16 + c) * 16 + d)
  | _ => none

/-- The piece of a string that a code unit stands for. -/
def pieceOfUnit (unit : Nat) : Piece :=
  if Literal.isHigh unit || Literal.isLow unit then .surrogate unit else .char (Char.ofNat unit)

/-- The character that a backslash and a letter stand for. -/
def escape? : Char → Option Char
  | '"' => some '"'
  | '\\' => some '\\'
  | '/' => some '/'
  | 'b' => some '\x08'
  | 'f' => some '\x0c'
  | 'n' => some '\n'
  | 'r' => some '\r'
  | 't' => some '\t'
  | _ => none

/-- Ends the pass at a character that fits nothing. -/
def fail (tokens : List Token) : Lexer :=
  ⟨.fault .malformed :: tokens, .ended⟩

/-- Ends the pass with a string that breaks off. -/
def failString (tokens : List Token) (pieces : List Piece) : Lexer :=
  ⟨.string ⟨pieces.reverse, some .malformed⟩ :: tokens, .ended⟩

/-- The first character of a token, or a blank. -/
def start (tokens : List Token) (char : Char) : Lexer :=
  match char with
  | ' ' | '\t' | '\n' | '\r' => ⟨tokens, .between⟩
  | '{' => ⟨.openBrace :: tokens, .between⟩
  | '}' => ⟨.closeBrace :: tokens, .between⟩
  | '[' => ⟨.openBracket :: tokens, .between⟩
  | ']' => ⟨.closeBracket :: tokens, .between⟩
  | ',' => ⟨.comma :: tokens, .between⟩
  | ':' => ⟨.colon :: tokens, .between⟩
  | '"' => ⟨tokens, .string []⟩
  | 'n' => ⟨tokens, .word 'u' ['l', 'l'] .null⟩
  | 't' => ⟨tokens, .word 'r' ['u', 'e'] (.bool true)⟩
  | 'f' => ⟨tokens, .word 'a' ['l', 's', 'e'] (.bool false)⟩
  | '-' => ⟨tokens, .number .sign ⟨true, [], [], false, []⟩⟩
  | '0' => ⟨tokens, .number .zero ⟨false, [0], [], false, []⟩⟩
  | _ =>
      if char.isDigit then ⟨tokens, .number .whole ⟨false, [digit char], [], false, []⟩⟩
      else fail tokens

/-- A character inside a word. -/
def stepWord (tokens : List Token) (next : Char) (rest : List Char) (token : Token)
    (char : Char) : Lexer :=
  if char = next then
    match rest with
    | [] => ⟨token :: tokens, .between⟩
    | next :: rest => ⟨tokens, .word next rest token⟩
  else fail tokens

/-- A character behind a part of a number. -/
def stepNumber (tokens : List Token) (phase : Number.Phase) (number : Number) (char : Char) :
    Lexer :=
  if char.isDigit then
    let value := digit char
    match phase with
    | .sign =>
        ⟨tokens, .number (if value = 0 then .zero else .whole) { number with whole := [value] }⟩
    | .zero => fail tokens
    | .whole => ⟨tokens, .number .whole { number with whole := number.whole ++ [value] }⟩
    | .point | .fraction =>
        ⟨tokens, .number .fraction { number with fraction := number.fraction ++ [value] }⟩
    | .letter | .exponentSign | .exponent =>
        ⟨tokens, .number .exponent { number with exponent := number.exponent ++ [value] }⟩
  else if char = '.' ∧ (phase = .zero ∨ phase = .whole) then ⟨tokens, .number .point number⟩
  else if (char = 'e' ∨ char = 'E') ∧ (phase = .zero ∨ phase = .whole ∨ phase = .fraction) then
    ⟨tokens, .number .letter number⟩
  else if (char = '+' ∨ char = '-') ∧ phase = .letter then
    ⟨tokens, .number .exponentSign { number with negativeExponent := char = '-' }⟩
  else if phase.complete then start (.number number :: tokens) char
  else fail tokens

/-- A character inside a string. -/
def stepString (tokens : List Token) (pieces : List Piece) (char : Char) : Lexer :=
  if char = '"' then ⟨.string ⟨pieces.reverse, none⟩ :: tokens, .between⟩
  else if char = '\\' then ⟨tokens, .escape pieces⟩
  else if char < ' ' then failString tokens pieces
  else ⟨tokens, .string (.char char :: pieces)⟩

/-- A character behind a backslash. -/
def stepEscape (tokens : List Token) (pieces : List Piece) (char : Char) : Lexer :=
  if char = 'u' then ⟨tokens, .unicode pieces []⟩
  else
    match escape? char with
    | some meant => ⟨tokens, .string (.char meant :: pieces)⟩
    | none => failString tokens pieces

/-- The number of bytes that characters take. -/
def byteCount : List Char → Nat
  | [] => 0
  | char :: chars => char.utf8Size + byteCount chars

/-- A character behind `\u` and the characters `chars`.  They are judged when they make up
four bytes. -/
def stepUnicode (tokens : List Token) (pieces : List Piece) (chars : List Char) (char : Char) :
    Lexer :=
  let chars := char :: chars
  if byteCount chars < 4 then ⟨tokens, .unicode pieces chars⟩
  else
    match codeUnit? chars.reverse with
    | some unit => ⟨tokens, .string (pieceOfUnit unit :: pieces)⟩
    | none => failString tokens pieces

/-- One character of a text. -/
def step (lexer : Lexer) (char : Char) : Lexer :=
  match lexer.mode with
  | .between => start lexer.tokens char
  | .word next rest token => stepWord lexer.tokens next rest token char
  | .number phase value => stepNumber lexer.tokens phase value char
  | .string pieces => stepString lexer.tokens pieces char
  | .escape pieces => stepEscape lexer.tokens pieces char
  | .unicode pieces chars => stepUnicode lexer.tokens pieces chars char
  | .ended => lexer

/-- The tokens of a text that ends here, what is under way cut short. -/
def finish (lexer : Lexer) : List Token :=
  List.reverse <|
    match lexer.mode with
    | .between | .ended => lexer.tokens
    | .word _ _ _ => .fault .cutShort :: lexer.tokens
    | .number phase value =>
        (if phase.complete then .number value else .cutNumber) :: lexer.tokens
    | .string pieces | .escape pieces | .unicode pieces _ =>
        .string ⟨pieces.reverse, some .cutShort⟩ :: lexer.tokens

end Lexer

/-- The tokens of a text.  There is none behind the first fault. -/
def Token.ofText (text : String) : List Token :=
  (text.toList.foldl Lexer.step ⟨[], .between⟩).finish

end ToolchainMerge.Json
