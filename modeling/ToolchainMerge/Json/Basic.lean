/-!
# JSON texts as trees

`Json` is a JSON text as it was written, as far as it could be read.  Numbers keep their
digits, objects keep the order of their members and members that repeat, and strings keep
escapes of surrogate code units, because what these mean depends on who asks for the value:
a number or a string that is not needed is only checked for its form.

A text that is not JSON still has a tree.  The place where it went wrong holds a `Fault`, and
whoever reads the tree from left to right meets it there, after everything that was said
before.  A text is JSON when its tree has no fault (`Json.fault?`).
-/

namespace ToolchainMerge

namespace Json

/-- Why a text is not JSON. -/
inductive Fault where
  | cutShort
  /-- Something else stands where the rules of JSON ask for a character. -/
  | malformed
deriving DecidableEq, Inhabited, Repr

/-! ## Numbers -/

/-- A number by its decimal digits.  The fraction and the exponent are without digits when
the number is written without them. -/
structure Number where
  negative : Bool
  whole : List Nat
  fraction : List Nat
  negativeExponent : Bool
  exponent : List Nat
deriving DecidableEq, Inhabited, Repr

/-! ## Strings -/

/-- One element of a string: a character, or an escape that gives half of a character. -/
inductive Piece where
  | char (char : Char)
  | surrogate (unit : Nat)
deriving DecidableEq, Inhabited, Repr

/-- A string as it was written.  `stop` is the fault behind the last piece, for a string
without a closing quote. -/
structure Literal where
  pieces : List Piece
  stop : Option Fault
deriving DecidableEq, Inhabited, Repr

namespace Literal

/-- The string that says a text character by character. -/
def ofString (text : String) : Literal :=
  ⟨text.toList.map .char, none⟩

/-- Whether a code unit is the first half of a character. -/
def isHigh (unit : Nat) : Bool :=
  0xD800 ≤ unit && unit < 0xDC00

/-- Whether a code unit is the second half of a character. -/
def isLow (unit : Nat) : Bool :=
  0xDC00 ≤ unit && unit < 0xE000

/-- The character of two halves. -/
def paired (high low : Nat) : Char :=
  Char.ofNat (0x10000 + (high - 0xD800) * 0x400 + (low - 0xDC00))

/-- The characters of some pieces in front of an end.  Halves have to come in pairs, the
high one first. -/
def decodePieces (stop : Option Fault) : List Piece → Except Fault (List Char)
  | [] =>
      match stop with
      | none => .ok []
      | some fault => .error fault
  | .char char :: pieces => (decodePieces stop pieces).map (char :: ·)
  | [.surrogate unit] => .error (if isHigh unit then stop.getD .malformed else .malformed)
  | .surrogate high :: .surrogate low :: pieces =>
      if isHigh high && isLow low then (decodePieces stop pieces).map (paired high low :: ·)
      else .error .malformed
  | .surrogate _ :: .char _ :: _ => .error .malformed

/-- The text of a string, or the first fault in it. -/
def decode (literal : Literal) : Except Fault String :=
  (decodePieces literal.stop literal.pieces).map String.ofList

end Literal

end Json

/-! ## Trees -/

/-- A JSON text as far as it could be read.  The `stop` of an array or object is the fault
behind its last item or member, for one without a closing bracket. -/
inductive Json where
  | null
  | bool (value : Bool)
  | number (value : Json.Number)
  | cutNumber
  | string (literal : Json.Literal)
  | array (items : List Json) (stop : Option Json.Fault)
  | object (members : List (Json.Literal × Json)) (stop : Option Json.Fault)
  /-- A place where a value should be and is not. -/
  | missing (fault : Json.Fault)
deriving Inhabited, Repr

namespace Json

mutual

/-- The first fault of a tree. -/
def fault? : Json → Option Fault
  | .null | .bool _ | .number _ => none
  | .cutNumber => some .malformed
  | .string literal => literal.stop
  | .array items stop => (itemsFault? items).or stop
  | .object members stop => (membersFault? members).or stop
  | .missing fault => some fault

/-- The first fault of some items. -/
def itemsFault? : List Json → Option Fault
  | [] => none
  | item :: items => (fault? item).or (itemsFault? items)

/-- The first fault of some members, in a key or in a value. -/
def membersFault? : List (Literal × Json) → Option Fault
  | [] => none
  | (key, value) :: members => key.stop.or ((fault? value).or (membersFault? members))

end

end Json

end ToolchainMerge
