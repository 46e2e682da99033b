import ToolchainMerge.Json.Parser

/-!
# Where a text is not JSON

`Diagnosis.ofText?` finds the first place at which a text breaks the rules of JSON, and the
rule that is broken there.  It takes the characters one by one and keeps the two passes of the
reader in step: a `Scan` holds the token under way and the state of the tree.

Inside a token the token says what is wrong.  Between tokens the tree says which characters
may come next (`Awaiting.admits`) and which rule any other character breaks
(`Awaiting.cause`).
-/

namespace ToolchainMerge.Json

/-! ## Causes -/

/-- A rule of JSON that a text breaks. -/
inductive Cause where
  /-- No value begins where one has to. -/
  | noValue
  | badWord
  | badNumber
  /-- A backslash is not followed by the name of a character. -/
  | badEscape
  | controlCharacter
  | noKey
  | noColon
  /-- An item of an array is followed by neither a comma nor the end. -/
  | unseparatedItem
  /-- A member of an object is followed by neither a comma nor the end. -/
  | unseparatedMember
  | trailing
  /-- The text ends where a value has to stand. -/
  | cutValue
  | cutString
  | cutArray
  | cutObject
deriving DecidableEq, Inhabited, Repr

/-- The words for a rule that is broken. -/
def Cause.message : Cause → String
  | .noValue => "expected value"
  | .badWord => "expected ident"
  | .badNumber => "invalid number"
  | .badEscape => "invalid escape"
  | .controlCharacter => "control character (\\u0000-\\u001F) found while parsing a string"
  | .noKey => "key must be a string"
  | .noColon => "expected `:`"
  | .unseparatedItem => "expected `,` or `]`"
  | .unseparatedMember => "expected `,` or `\x7d`"
  | .trailing => "trailing characters"
  | .cutValue => "EOF while parsing a value"
  | .cutString => "EOF while parsing a string"
  | .cutArray => "EOF while parsing a list"
  | .cutObject => "EOF while parsing an object"

/-! ## Places -/

/-- A place in a text: its line, counted from one, and the number of bytes in front of it on
this line. -/
structure Place where
  line : Nat
  column : Nat
deriving DecidableEq, Inhabited, Repr

/-- The place some bytes further on, at the end of a character or within it. -/
def Place.advance (place : Place) (char : Char) (bytes : Nat) : Place :=
  if char = '\n' then ⟨place.line + 1, 0⟩ else ⟨place.line, place.column + bytes⟩

/-- The first rule that a text breaks, and where the first byte ends that breaks it. -/
structure Diagnosis where
  cause : Cause
  place : Place
deriving DecidableEq, Inhabited, Repr

/-- A rule that is broken, and where. -/
def Diagnosis.message (diagnosis : Diagnosis) : String :=
  diagnosis.cause.message ++ " at line " ++ toString diagnosis.place.line ++ " column " ++
    toString diagnosis.place.column

/-! ## Between tokens -/

/-- Whether a character separates tokens without being one. -/
def isSeparator (char : Char) : Bool :=
  char = ' ' || char = '\t' || char = '\n' || char = '\r'

/-- Whether a value may begin with a character. -/
def beginsValue (char : Char) : Bool :=
  char.isDigit || ['-', '"', '[', '\x7b', 'n', 't', 'f'].contains char

/-- Whether the next token may begin with a character. -/
def Awaiting.admits : Awaiting → Char → Bool
  | .value, char => beginsValue char
  | .firstItem, char => beginsValue char || char = ']'
  | .afterItem _, char => char = ',' || char = ']'
  | .firstKey, char => char = '"' || char = '\x7d'
  | .key _, char => char = '"'
  | .colon _ _, char => char = ':'
  | .afterMember _, char => char = ',' || char = '\x7d'

/-- The rule that any other character breaks. -/
def Awaiting.cause : Awaiting → Cause
  | .value | .firstItem => .noValue
  | .afterItem _ => .unseparatedItem
  | .firstKey | .key _ => .noKey
  | .colon _ _ => .noColon
  | .afterMember _ => .unseparatedMember

/-- The rule that the end of the text breaks. -/
def Awaiting.endCause : Awaiting → Cause
  | .value => .cutValue
  | .firstItem | .afterItem _ => .cutArray
  | .firstKey | .key _ | .colon _ _ | .afterMember _ => .cutObject

namespace Builder

/-- The rule that a character breaks as the first of a token. -/
def cause? (char : Char) : Builder → Option Cause
  | .reading awaiting _ => if awaiting.admits char then none else some awaiting.cause
  | .complete _ _ => some .trailing
  | .stopped _ => none

/-- The rule that the end of the text breaks. -/
def endCause? : Builder → Option Cause
  | .reading awaiting _ => some awaiting.endCause
  | .complete _ _ | .stopped _ => none

end Builder

/-! ## Inside tokens -/

namespace Lexer.Mode

/-- The rule that a token breaks when it cannot go on. -/
def cause : Lexer.Mode → Cause
  | .between | .ended => .noValue
  | .word _ _ _ => .badWord
  | .number _ _ => .badNumber
  | .string _ => .controlCharacter
  | .escape _ | .unicode _ _ => .badEscape

/-- How many bytes of the character at which a token cannot go on are looked at.  What stands
behind `\u` is judged by four bytes at once. -/
def judgedBytes : Lexer.Mode → Nat
  | .unicode _ chars => 4 - byteCount chars
  | _ => 1

end Lexer.Mode

/-! ## The pass -/

/-- The token under way and the state of the tree. -/
structure Scan where
  mode : Lexer.Mode
  builder : Builder
deriving Inhabited, Repr

namespace Scan

/-- The pass in front of the first character. -/
def start : Scan :=
  ⟨.between, .reading .value []⟩

/-- A separator, or the first character of a token. -/
def between (builder : Builder) (char : Char) : Except Cause Scan :=
  if isSeparator char then .ok ⟨.between, builder⟩
  else
    match builder.cause? char with
    | some cause => .error cause
    | none =>
        let lexer := Lexer.start [] char
        .ok ⟨lexer.mode, lexer.tokens.foldl Builder.step builder⟩

/-- One character of a text.  A number is complete at the character behind it. -/
def step (scan : Scan) (char : Char) : Except Cause Scan :=
  let lexer := Lexer.step ⟨[], scan.mode⟩ char
  match scan.mode, lexer.tokens.getLast? with
  | .between, _ => between scan.builder char
  | .number _ _, some (.number value) => between (scan.builder.step (.number value)) char
  | mode, _ =>
      if lexer.mode = .ended then .error mode.cause
      else .ok ⟨lexer.mode, lexer.tokens.foldl Builder.step scan.builder⟩

/-- The rule that the end of the text breaks, within a token or between two of them. -/
def endCause? (scan : Scan) : Option Cause :=
  match scan.mode with
  | .between | .ended => scan.builder.endCause?
  | .word _ _ _ => some .cutValue
  | .number phase value =>
      if phase.complete then (scan.builder.step (.number value)).endCause? else some .badNumber
  | .string _ | .escape _ | .unicode _ _ => some .cutString

/-- What is wrong with the rest of a text. -/
def diagnose? (scan : Scan) (place : Place) : List Char → Option Diagnosis
  | [] => scan.endCause?.map (⟨·, place⟩)
  | char :: chars =>
      match scan.step char with
      | .ok next => next.diagnose? (place.advance char char.utf8Size) chars
      | .error cause => some ⟨cause, place.advance char scan.mode.judgedBytes⟩

end Scan

/-- What is wrong with a text that is not JSON. -/
def Diagnosis.ofText? (text : String) : Option Diagnosis :=
  Scan.start.diagnose? ⟨1, 0⟩ text.toList

end ToolchainMerge.Json
