import ToolchainMerge.Json.Token

/-!
# From tokens to trees

`Document.ofTokens` puts the tokens of a text together in one pass, and `Document.ofText`
starts from the text itself.  The state of the pass, a `Builder`, knows what may come next
(`Awaiting`) and which arrays and objects are open around it (`Frame`).  When the text breaks
off or a token does not fit, everything that is open is closed as it stands, with the fault at
the place where it happened.
-/

namespace ToolchainMerge.Json

/-- An array or object that is open around the value being read; what it holds so far is in
reverse. -/
inductive Frame where
  | array (items : List Json)
  | object (members : List (Literal × Json)) (key : Literal)
deriving Inhabited, Repr

/-- What may come next, with what the innermost open array or object holds so far, in
reverse. -/
inductive Awaiting where
  | value
  | firstItem
  /-- A comma or the end of an array. -/
  | afterItem (items : List Json)
  | firstKey
  | key (members : List (Literal × Json))
  /-- The colon behind a key. -/
  | colon (members : List (Literal × Json)) (key : Literal)
  /-- A comma or the end of an object. -/
  | afterMember (members : List (Literal × Json))
deriving Inhabited, Repr

/-- The state of a pass over tokens. -/
inductive Builder where
  | reading (awaiting : Awaiting) (frames : List Frame)
  /-- The value is complete; `trailing` tells whether tokens follow it. -/
  | complete (value : Json) (trailing : Bool)
  /-- A fault ended the pass. -/
  | stopped (value : Json)
deriving Inhabited, Repr

namespace Builder

/-- Goes on behind a complete value. -/
def resume (value : Json) : List Frame → Builder
  | [] => .complete value false
  | .array items :: frames => .reading (.afterItem (value :: items)) frames
  | .object members key :: frames => .reading (.afterMember ((key, value) :: members)) frames

/-- What there is of the innermost value when a fault meets it. -/
def broken (fault : Fault) : Awaiting → Json
  | .value => .missing fault
  | .firstItem => .array [] (some fault)
  | .afterItem items => .array items.reverse (some fault)
  | .firstKey => .object [] (some fault)
  | .key members => .object members.reverse (some fault)
  | .colon members key => .object ((key, .missing fault) :: members).reverse (some fault)
  | .afterMember members => .object members.reverse (some fault)

/-- Closes the open arrays and objects around a broken value. -/
def closeAll (fault : Fault) (value : Json) : List Frame → Json
  | [] => value
  | .array items :: frames => closeAll fault (.array (value :: items).reverse (some fault)) frames
  | .object members key :: frames =>
      closeAll fault (.object ((key, value) :: members).reverse (some fault)) frames

/-- Ends the pass with a fault. -/
def stop (fault : Fault) (awaiting : Awaiting) (frames : List Frame) : Builder :=
  .stopped (closeAll fault (broken fault awaiting) frames)

/-- The first token of a value. -/
def startValue (frames : List Frame) : Token → Builder
  | .null => resume .null frames
  | .bool value => resume (.bool value) frames
  | .number value => resume (.number value) frames
  | .cutNumber => resume .cutNumber frames
  | .string literal => resume (.string literal) frames
  | .openBracket => .reading .firstItem frames
  | .openBrace => .reading .firstKey frames
  | .fault fault => stop fault .value frames
  | .closeBracket | .closeBrace | .comma | .colon => stop .malformed .value frames

/-- One token of a text. -/
def step (builder : Builder) (token : Token) : Builder :=
  match builder with
  | .complete value _ => .complete value true
  | .stopped value => .stopped value
  | .reading .value frames => startValue frames token
  | .reading .firstItem frames =>
      match token with
      | .closeBracket => resume (.array [] none) frames
      | _ => startValue (.array [] :: frames) token
  | .reading (.afterItem items) frames =>
      match token with
      | .comma => .reading .value (.array items :: frames)
      | .closeBracket => resume (.array items.reverse none) frames
      | _ => stop .malformed (.afterItem items) frames
  | .reading .firstKey frames =>
      match token with
      | .closeBrace => resume (.object [] none) frames
      | .string key => .reading (.colon [] key) frames
      | _ => stop .malformed .firstKey frames
  | .reading (.key members) frames =>
      match token with
      | .string key => .reading (.colon members key) frames
      | _ => stop .malformed (.key members) frames
  | .reading (.colon members key) frames =>
      match token with
      | .colon => .reading .value (.object members key :: frames)
      | _ => stop .malformed (.colon members key) frames
  | .reading (.afterMember members) frames =>
      match token with
      | .comma => .reading (.key members) frames
      | .closeBrace => resume (.object members.reverse none) frames
      | _ => stop .malformed (.afterMember members) frames

end Builder

/-- A text read as JSON: its value, and whether something other than blanks follows. -/
structure Document where
  value : Json
  trailing : Bool
deriving Inhabited, Repr

/-- The document when the tokens have ended, cut short unless its value is complete. -/
def Builder.finish : Builder → Document
  | .complete value trailing => ⟨value, trailing⟩
  | .stopped value => ⟨value, false⟩
  | .reading awaiting frames => ⟨closeAll .cutShort (broken .cutShort awaiting) frames, false⟩

/-- Puts tokens together, from the first to the last. -/
def Document.ofTokens (tokens : List Token) : Document :=
  (tokens.foldl Builder.step (.reading .value [])).finish

/-- Reads a text as JSON.  A text that is none gives a document with faults in it. -/
def Document.ofText (text : String) : Document :=
  .ofTokens (Token.ofText text)

end ToolchainMerge.Json
